import JobRoster.Proofs.Crate.DeclaredNames
import JobRoster.Proofs.Crate.Prefixes
import JobRoster.Proofs.Crate.Reference

/-!
# The paths of what a module declares

An item can be named in the module that declares it, from a module around that by the way down, or
from anywhere by the way down from the root. Where modules have paths of their own and no import
takes the name of a declaration, each of these paths denotes the item. A path that starts with a
declared name never leaves for another crate or a glob import, and no import is met on the way down.
-/

namespace JobRoster.Crate

open Files Text

variable {c : Crate}

/-- A path from a name that the module declares denotes what it spells. -/
theorem resolvePath_of_declares {module : Nat} {first : String} {rest : List String}
    (hfirst : Nameable first) (hfree : (c.module module).binds first = false)
    (hdeclares : (c.module module).declares first = true)
    (hsettled : Settled c (c.canonicalIn (c.module module).path (first :: rest))) :
    resolvePath c module ⟨false, first :: rest⟩ =
      some (c.canonicalIn (c.module module).path (first :: rest)) := by
  refine resolvePath_of_resolveWritten (fun ask throughGlobs => ?_) hsettled
  rw [resolveWritten_of_not_keyword hfirst.keyword]
  unfold resolveRelative
  simp only [bindingOf?_eq_none_iff.2 hfree, hdeclares, if_true]

section Tree

variable (htree : ModuleTree c.modules)
include htree

/-- The way down from a module around another one starts with a module that it declares. -/
theorem exists_below_of_ancestor?
    (hroot : ∃ m, c.modules[0]? = some m ∧ m.parent = none ∧ m.scope = .crate)
    {steps module outer : Nat} (hmodule : module < c.modules.length)
    (h : c.ancestor? steps module = some outer) :
    ∃ below, (c.module module).path = (c.module outer).path ++ below ∧
      (below = [] ∧ outer = module ∨
        ∃ first rest, below = first :: rest ∧ (c.module outer).declares first = true) := by
  induction steps generalizing module with
  | zero =>
    obtain rfl := Option.some.inj h
    exact ⟨[], (List.append_nil _).symm, .inl ⟨rfl, rfl⟩⟩
  | succ steps ih =>
    obtain ⟨parent, hparent, hup⟩ := Option.bind_eq_some_iff.1 h
    have hm := getElem?_module hmodule
    have hindex : module ≠ 0 := by
      rintro rfl
      obtain ⟨root, hget, hnone, -⟩ := hroot
      obtain rfl := Option.some.inj (hget.symm.trans hm)
      cases hnone.symm.trans hparent
    obtain ⟨parent', p, name, hlt, hp, hparent', hpath, hname⟩ :=
      htree.below module _ hm hindex
    obtain rfl : parent = parent' := Option.some.inj (hparent.symm.trans hparent')
    obtain ⟨below, hbelow, hstart⟩ := ih (Nat.lt_trans hlt hmodule) hup
    rw [module_of_getElem? hp] at hbelow
    refine ⟨below ++ [name], by rw [hpath, hbelow, List.append_assoc], .inr ?_⟩
    rcases hstart with ⟨rfl, rfl⟩ | ⟨first, rest, rfl, hfirst⟩
    · exact ⟨name, [], rfl, by rwa [module_of_getElem? hp]⟩
    · exact ⟨first, rest ++ [name], rfl, hfirst⟩

end Tree

/-- Where modules have paths of their own and no import takes the name of a declaration, an item is
    denoted by its name in its module, after `self` there, by the way down from each module around
    it, and by the way down from the root in every module. -/
theorem resolvePath_own {sources : Sources} {crate : String} {dependencies : List String}
    {root : FilePath} (hload : load sources crate dependencies root = .ok c)
    (hdistinct : (c.modules.map (·.path)).Nodup)
    (hseparate : ∀ m ∈ c.modules, ∀ name ∈ m.names, m.binds name = false)
    {declaring : Nat} {name : String} (hdeclares : (c.module declaring).declares name = true) :
    resolvePath c declaring ⟨false, [name]⟩ =
      some (c.canonicalIn (c.module declaring).path [name]) ∧
    resolvePath c declaring ⟨false, ["self", name]⟩ =
      some (c.canonicalIn (c.module declaring).path [name]) ∧
    (∀ steps outer, c.ancestor? steps declaring = some outer →
      ∃ below, (c.module declaring).path = (c.module outer).path ++ below ∧
        resolvePath c outer ⟨false, below ++ [name]⟩ =
          some (c.canonicalIn (c.module declaring).path [name])) ∧
    ∀ module, resolvePath c module (qualified (c.module declaring) name) =
      some (c.canonicalIn (c.module declaring).path [name]) := by
  have htree : ModuleTree c.modules := moduleTree_of_load hload
  have hroot := exists_root_of_load hload
  -- a name that a module declares can start a path there, and is not imported
  have hstarts : ∀ module first, (c.module module).declares first = true →
      module < c.modules.length ∧ Nameable first ∧ (c.module module).binds first = false := by
    intro module first hfirst
    have hlt : module < c.modules.length := lt_length_of_declares hfirst
    have hmem : c.module module ∈ c.modules := List.mem_of_getElem? (getElem?_module hlt)
    rw [Module.declares, List.contains_iff_mem] at hfirst
    exact ⟨hlt, nameable_of_load hload _ hmem first hfirst, hseparate _ hmem first hfirst⟩
  obtain ⟨hlt, hname, hfree⟩ := hstarts declaring name hdeclares
  have hsettled : Settled c (c.canonicalIn (c.module declaring).path [name]) := by
    rw [settled_iff, reexportAlong?_qualified htree hdistinct hseparate (getElem?_module hlt)
        hname.identifier,
      bindingOf?_eq_none_iff.2 hfree]
    rfl
  refine ⟨resolvePath_of_declares hname hfree hdeclares hsettled,
    resolvePath_of_resolveWritten (fun _ _ => rfl) hsettled, fun steps outer houter => ?_,
    fun module => resolvePath_of_resolveWritten (fun _ _ => rfl) hsettled⟩
  obtain ⟨below, hpath, hstart⟩ := exists_below_of_ancestor? htree hroot hlt houter
  refine ⟨below, hpath, ?_⟩
  rcases hstart with ⟨rfl, rfl⟩ | ⟨first, rest, rfl, hfirst⟩
  · exact resolvePath_of_declares hname hfree hdeclares hsettled
  · obtain ⟨-, hnameable, hunbound⟩ := hstarts outer first hfirst
    have hsame : c.canonicalIn (c.module outer).path (first :: (rest ++ [name])) =
        c.canonicalIn (c.module declaring).path [name] := by
      rw [canonicalIn_eq_extend, canonicalIn_eq_extend, hpath, List.append_assoc, List.cons_append]
    rw [← hsame] at hsettled ⊢
    exact resolvePath_of_declares hnameable hunbound hfirst hsettled

/-- A module that has the name of a dependency, with imports in all modules around. -/
theorem resolvePath_own_nested :
    ∃ c, load (.ofTexts [(⟨"lib.rs"⟩, "mod jobs; use jobs::nightly::Nightly as Daily;"),
        (⟨"jobs.rs"⟩, "mod nightly; pub use nightly::*;"),
        (⟨"jobs/nightly.rs"⟩, "use crate::*; pub struct Nightly;")])
        "app" ["nightly"] ⟨"lib.rs"⟩ = .ok c ∧
      (c.modules.map (·.path)).Nodup ∧ (∀ m ∈ c.modules, ∀ name ∈ m.names, m.binds name = false) ∧
      (c.module 2).declares "Nightly" = true ∧ c.ancestor? 1 2 = some 1 ∧
      resolvePath c 2 ⟨false, ["Nightly"]⟩ = some (c.canonicalIn (c.module 2).path ["Nightly"]) ∧
      (∃ below, (c.module 2).path = (c.module 1).path ++ below ∧
        resolvePath c 1 ⟨false, below ++ ["Nightly"]⟩ =
          some (c.canonicalIn (c.module 2).path ["Nightly"])) ∧
      ∀ module, resolvePath c module (qualified (c.module 2) "Nightly") =
        some (c.canonicalIn (c.module 2).path ["Nightly"]) := by
  refine exists_loaded_of_any (fun c => (c.modules.map (·.path)).Nodup ∧
      (∀ m ∈ c.modules, ∀ name ∈ m.names, m.binds name = false) ∧
      (c.module 2).declares "Nightly" = true ∧ c.ancestor? 1 2 = some 1)
    (by decide +kernel) fun c hload htest => ?_
  obtain ⟨hdistinct, hseparate, hdeclares, hup⟩ := of_decide_eq_true htest
  obtain ⟨hname, -, haround, hqualified⟩ := resolvePath_own hload hdistinct hseparate hdeclares
  exact ⟨hdistinct, hseparate, hdeclares, hup, hname, haround 1 1 hup, hqualified⟩

end JobRoster.Crate
