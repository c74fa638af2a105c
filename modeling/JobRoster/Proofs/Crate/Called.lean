import Mathlib.Logic.Relation
import JobRoster.Proofs.Crate.Alias
import JobRoster.Proofs.Crate.Found

/-!
# What an answer is called

An answer ends with the name that the path ends with, whatever globs and crates the search passes
through. Only an import can give another name to what it brings in, and then further imports can
rename that in turn: the names that a path may end with are those that such a chain comes to. The
words `self` and `super` are no names, but stand for modules that have some.
-/

namespace JobRoster.Crate

open Relation Text

variable {c : Crate}

/-! ## Paths of identifiers -/

/-- Every segment of a canonical path is an identifier. -/
def Named (path : String) : Prop :=
  ∀ segment ∈ splitSegments path, IsIdentifier segment

theorem named_of_isIdentifier {name : String} (h : IsIdentifier name) : Named name := by
  rw [Named, splitSegments_of_not_mem h.colon_not_mem]
  simpa using h

theorem splitSegments_extend {path : String} {rest : List String} (hpath : Named path)
    (hrest : ∀ segment ∈ rest, IsIdentifier segment) :
    splitSegments (extend path rest) = splitSegments path ++ rest := by
  have hjoined : path = joinSegments (splitSegments path) := (joinSegments_splitSegments path).symm
  cases hsplit : splitSegments path with
  | nil => exact absurd hsplit (splitSegments_ne_nil path)
  | cons first segments =>
    rw [hsplit] at hjoined
    have hall : ∀ segment ∈ first :: segments ++ rest, ':' ∉ segment.toList := by
      intro segment hsegment
      rcases List.mem_append.1 hsegment with hmem | hmem
      · exact (hpath segment (hsplit ▸ hmem)).colon_not_mem
      · exact (hrest segment hmem).colon_not_mem
    rw [hjoined, extend, joinSegments_joinSegments]
    exact splitSegments_joinSegments (by simp) hall

theorem Named.extend {path : String} {rest : List String} (hpath : Named path)
    (hrest : ∀ segment ∈ rest, IsIdentifier segment) : Named (extend path rest) := by
  intro segment hsegment
  rw [splitSegments_extend hpath hrest] at hsegment
  exact (List.mem_append.1 hsegment).elim (hpath segment) (hrest segment)

/-! ## The name at the end -/

/-- The path is in a crate or a module, and has the name there. -/
def EndsIn (name path : String) : Prop :=
  ∃ before, before ≠ [] ∧ splitSegments path = before ++ [name]

theorem EndsIn.of_extend {name path : String} {rest : List String} (hpath : Named path)
    (hrest : ∀ segment ∈ rest, IsIdentifier segment) (hne : rest ≠ [])
    (h : EndsIn name (Crate.extend path rest)) : rest.getLast? = some name := by
  obtain ⟨before, -, hsplit⟩ := h
  rw [splitSegments_extend hpath hrest] at hsplit
  have hlast : (splitSegments path ++ rest).getLast? = some name := by
    rw [hsplit, List.getLast?_concat]
  rwa [List.getLast?_append_of_ne_nil _ hne] at hlast

/-- Behind the name of a crate the path has segments, if it ends in a name. -/
theorem EndsIn.of_extend_crate {name crate : String} {rest : List String}
    (hcrate : IsIdentifier crate) (hrest : ∀ segment ∈ rest, IsIdentifier segment)
    (h : EndsIn name (Crate.extend crate rest)) : rest.getLast? = some name := by
  cases rest with
  | nil =>
    obtain ⟨before, hbefore, hsplit⟩ := h
    rw [extend_nil, splitSegments_of_not_mem hcrate.colon_not_mem] at hsplit
    have hlength := congrArg List.length hsplit
    simp only [List.length_append, List.length_cons, List.length_nil] at hlength
    exact absurd (List.eq_nil_of_length_eq_zero (by omega)) hbefore
  | cons segment rest => exact h.of_extend (named_of_isIdentifier hcrate) hrest (List.cons_ne_nil _ _)

theorem getLast?_cons_of_some {first name : String} {rest : List String}
    (h : rest.getLast? = some name) : (first :: rest).getLast? = some name := by
  rw [List.getLast?_cons, h, Option.getD_some]

theorem Named.of_splitSegments_eq {path first : String} {passed rest : List String}
    (h : Named path) (hsplit : splitSegments path = c.name :: (passed ++ first :: rest)) :
    ∀ segment ∈ rest, IsIdentifier segment := by
  intro segment hsegment
  refine h segment ?_
  rw [hsplit]
  simp [hsegment]

theorem EndsIn.of_splitSegments_eq {name path first : String} {passed rest : List String}
    (hsplit : splitSegments path = c.name :: (passed ++ first :: rest))
    (hlast : (first :: rest).getLast? = some name) : EndsIn name path := by
  obtain ⟨before, hbefore⟩ : ∃ before, first :: rest = before ++ [name] :=
    List.getLast?_eq_some_iff.1 hlast
  exact ⟨c.name :: (passed ++ before), List.cons_ne_nil _ _, by simp [hsplit, hbefore]⟩

/-- The name of what a path leads to, as far as the path tells. The words `self` and `super` stand
    for modules, which have names of their own. -/
def nameOf? (c : Crate) (module : Nat) (path : ItemPath) : Option String :=
  if path.leadingColon || path.segments.isEmpty then path.last?
  else if path.segments = ["self"] then (c.module module).path.getLast?
  else
    match climb? c module path.segments with
    | some (up, []) => (c.module up).path.getLast?
    | _ => path.last?

theorem nameOf?_of_ne {module : Nat} {first : String} {rest : List String}
    (hsuper : first ≠ "super") (hself : first :: rest ≠ ["self"]) :
    c.nameOf? module ⟨false, first :: rest⟩ = (first :: rest).getLast? := by
  simp only [nameOf?, List.isEmpty_cons, Bool.or_self, Bool.false_eq_true, hself, if_false,
    climb?_of_ne_super hsuper]
  rfl

theorem nameOf?_of_not_keyword {module : Nat} {first : String} (h : first ∉ pathKeywords)
    (rest : List String) :
    c.nameOf? module ⟨false, first :: rest⟩ = (first :: rest).getLast? := by
  simp only [pathKeywords, List.mem_cons, List.not_mem_nil, or_false, not_or] at h
  refine nameOf?_of_ne h.2.2 fun heq => ?_
  exact h.2.1 (List.cons.inj heq).1

theorem nameOf?_super {module up : Nat} {rest segments : List String}
    (h : climb? c module ("super" :: rest) = some (up, segments)) :
    c.nameOf? module ⟨false, "super" :: rest⟩ =
      if segments = [] then (c.module up).path.getLast? else segments.getLast? := by
  have hself : "super" :: rest ≠ ["self"] := fun heq => absurd (List.cons.inj heq).1 (by decide)
  simp only [nameOf?, List.isEmpty_cons, Bool.or_self, Bool.false_eq_true, hself, if_false, h]
  cases segments with
  | nil => rfl
  | cons segment segments =>
    obtain ⟨passed, hpassed⟩ := exists_append_of_climb? h
    rw [ItemPath.last?, hpassed, List.getLast?_append_of_ne_nil _ (List.cons_ne_nil _ _)]
    rfl

/-! ## What is found has the name that is asked for -/

/-- The question is about a path of identifiers. -/
def Question.Named : Question → Prop
  | .path _ written _ => ∀ segment ∈ written.segments, IsIdentifier segment
  | .reexports canonical => Crate.Named canonical
  | .glob _ name => IsIdentifier name

/-- The question is about what has the name. -/
def Question.Calls (c : Crate) (name : String) : Question → Prop
  | .path module written _ => c.nameOf? module written = some name
  | .reexports canonical => EndsIn name canonical
  | .glob _ other => other = name

/-- Some import gives another name to what has this one. -/
def Renames (c : Crate) (name other : String) : Prop :=
  name ≠ other ∧ ∃ module, ∃ binding ∈ (c.module module).bindings,
    c.nameOf? module binding.target = some name ∧ binding.name = other

/-- A chain of such imports, maybe none, leads from the one name to the other. -/
def AlsoCalled (c : Crate) (name other : String) : Prop :=
  ReflTransGen c.Renames name other

/-- Where what a path starts with is called so, the path ends in the name or in one that imports
    give to it. -/
theorem exists_getLast?_of_endsIn_extend {name first start : String} {rest : List String}
    (hstart : Named start) (hrest : ∀ segment ∈ rest, IsIdentifier segment)
    (hfirst : EndsIn name start → c.AlsoCalled name first) (h : EndsIn name (extend start rest)) :
    ∃ other, c.AlsoCalled name other ∧ (first :: rest).getLast? = some other := by
  cases rest with
  | nil =>
    rw [extend_nil] at h
    exact ⟨first, hfirst h, rfl⟩
  | cons segment rest =>
    -- the end is written, so no import stands between
    have hlast := h.of_extend hstart hrest (List.cons_ne_nil segment rest)
    exact ⟨name, .refl, getLast?_cons_of_some hlast⟩

/-- The answer is a path of identifiers. Whatever it ends in, the question is about what has that
    name, or one that imports give to it. -/
structure Question.Calling (c : Crate) (question : Question) (r : String) : Prop where
  named : Crate.Named r
  calls : ∀ name, EndsIn name r → ∃ other, c.AlsoCalled name other ∧ question.Calls c other

namespace Question.Calling

variable {question : Question} {r : String}

theorem of_reexports {path : String} (h : Calling c (.reexports path) r)
    (hpath : ∀ name, EndsIn name path →
      ∃ other, c.AlsoCalled name other ∧ question.Calls c other) :
    Calling c question r := by
  refine ⟨h.named, ?_⟩
  intro name hend
  obtain ⟨middle, hmiddle, hend⟩ := h.calls name hend
  obtain ⟨other, hother, hcalls⟩ := hpath middle hend
  exact ⟨other, hmiddle.trans hother, hcalls⟩

/-- The search goes on with a path that ends as the written one does. -/
theorem of_same {path : String} (h : Calling c (.reexports path) r)
    (hpath : ∀ name, EndsIn name path → question.Calls c name) : Calling c question r := by
  apply h.of_reexports
  intro name hend
  exact ⟨name, .refl, hpath name hend⟩

/-- A glob adds the name that it is asked for to the path of its module. -/
theorem of_glob {module : Nat} {base other : String} (h : Calling c question base)
    (hother : IsIdentifier other) : Calling c (.glob module other) (extend base [other]) := by
  have hrest : ∀ segment ∈ [other], IsIdentifier segment := List.forall_mem_singleton.2 hother
  refine ⟨h.named.extend hrest, ?_⟩
  intro name hend
  have hlast := hend.of_extend h.named hrest (List.cons_ne_nil other [])
  exact ⟨name, .refl, Option.some.inj hlast⟩

/-- An import has the name of its target, or gives it another. -/
theorem alsoCalled_of_bindingOf? {module : Nat} {first name : String}
    {without without' : Option BindingSite} {hit : BindingHit}
    (hhit : bindingOf? c module first without = some hit)
    (h : Calling c (.path hit.site.module hit.target without') r) (hend : EndsIn name r) :
    c.AlsoCalled name first := by
  obtain ⟨hsite, binding, hbinding, rfl, htarget⟩ := exists_mem_of_bindingOf? hhit
  obtain ⟨other, hother, hcalls⟩ := h.calls name hend
  by_cases hsame : other = binding.name
  · exact hsame ▸ hother
  · have hrenames : c.Renames other binding.name := by
      refine ⟨hsame, module, binding, hbinding, ?_, rfl⟩
      rwa [htarget, ← hsite]
    exact hother.tail hrenames

theorem alsoCalled_of_glob {module : Nat} {first name : String}
    (h : Calling c (.glob module first) r) (hend : EndsIn name r) : c.AlsoCalled name first := by
  obtain ⟨other, hother, rfl⟩ := h.calls name hend
  exact hother

end Question.Calling

theorem exists_nameOf?_of_endsIn_extend {name first start : String} {module : Nat}
    {rest : List String} (hkeyword : first ∉ pathKeywords) (hstart : Named start)
    (hrest : ∀ segment ∈ rest, IsIdentifier segment)
    (hfirst : EndsIn name start → c.AlsoCalled name first) (hend : EndsIn name (extend start rest)) :
    ∃ other, c.AlsoCalled name other ∧ c.nameOf? module ⟨false, first :: rest⟩ = some other := by
  rw [nameOf?_of_not_keyword hkeyword]
  exact exists_getLast?_of_endsIn_extend hstart hrest hfirst hend

section Calls

variable (htree : ModuleTree c.modules) (hc : c.SpellsCrates)
include htree hc

theorem named_canonicalIn (module : Nat) {segments : List String}
    (h : ∀ segment ∈ segments, IsIdentifier segment) :
    Named (c.canonicalIn (c.module module).path segments) := by
  rw [canonicalIn_eq_extend]
  refine (named_of_isIdentifier hc.own).extend ?_
  exact List.forall_mem_append.2 ⟨(spelled_module htree module).path, h⟩

theorem getLast?_of_endsIn_canonicalIn {name : String} (module : Nat) {segments : List String}
    (h : ∀ segment ∈ segments, IsIdentifier segment)
    (hend : EndsIn name (c.canonicalIn (c.module module).path segments)) :
    ((c.module module).path ++ segments).getLast? = some name := by
  rw [canonicalIn_eq_extend] at hend
  refine hend.of_extend_crate hc.own ?_
  exact List.forall_mem_append.2 ⟨(spelled_module htree module).path, h⟩

/-! What each way to an answer adds: the path that the search goes on with ends in the name only if
    the path that is written calls it so. -/

omit htree in
theorem nameOf?_crate_of_endsIn {name : String} (module : Nat) {rest : List String}
    (hrest : ∀ segment ∈ rest, IsIdentifier segment) (hend : EndsIn name (extend c.name rest)) :
    c.nameOf? module ⟨false, "crate" :: rest⟩ = some name := by
  have hself : "crate" :: rest ≠ ["self"] := fun heq => absurd (List.cons.inj heq).1 (by decide)
  rw [nameOf?_of_ne (by decide) hself]
  exact getLast?_cons_of_some (hend.of_extend_crate hc.own hrest)

theorem nameOf?_self_of_endsIn {name : String} (module : Nat) {rest : List String}
    (hrest : ∀ segment ∈ rest, IsIdentifier segment)
    (hend : EndsIn name (c.canonicalIn (c.module module).path rest)) :
    c.nameOf? module ⟨false, "self" :: rest⟩ = some name := by
  have hlast := getLast?_of_endsIn_canonicalIn htree hc module hrest hend
  cases rest with
  | nil => rwa [List.append_nil] at hlast
  | cons segment rest =>
    have hself : "self" :: segment :: rest ≠ ["self"] := fun heq => nomatch (List.cons.inj heq).2
    rw [List.getLast?_append_of_ne_nil _ (List.cons_ne_nil _ _)] at hlast
    rw [nameOf?_of_ne (by decide) hself]
    exact getLast?_cons_of_some hlast

theorem nameOf?_super_of_endsIn {name : String} {module up : Nat} {rest segments : List String}
    (hclimb : climb? c module ("super" :: rest) = some (up, segments))
    (hsegments : ∀ segment ∈ segments, IsIdentifier segment)
    (hend : EndsIn name (c.canonicalIn (c.module up).path segments)) :
    c.nameOf? module ⟨false, "super" :: rest⟩ = some name := by
  have hlast := getLast?_of_endsIn_canonicalIn htree hc up hsegments hend
  rw [nameOf?_super hclimb]
  split
  next hnil => rwa [hnil, List.append_nil] at hlast
  next hne => rwa [List.getLast?_append_of_ne_nil _ hne] at hlast

theorem nameOf?_declared_of_endsIn {name : String} {module : Nat} {first : String}
    {rest : List String} (hkeyword : first ∉ pathKeywords)
    (hwritten : ∀ segment ∈ first :: rest, IsIdentifier segment)
    (hend : EndsIn name (c.canonicalIn (c.module module).path (first :: rest))) :
    c.nameOf? module ⟨false, first :: rest⟩ = some name := by
  have hlast := getLast?_of_endsIn_canonicalIn htree hc module hwritten hend
  rw [List.getLast?_append_of_ne_nil _ (List.cons_ne_nil _ _)] at hlast
  rwa [nameOf?_of_not_keyword hkeyword]

/-- What is found ends in a name only if the question asks for what has that name, or one that
    imports give to it. -/
theorem calls_of_found {question : Question} {r : String} (h : Found c question r)
    (hquestion : question.Named) : question.Calling c r := by
  induction h with
  | settled => exact ⟨hquestion, fun name hend => ⟨name, .refl, hend⟩⟩
  | reexport halong _ _ ihtarget ihrest =>
    obtain ⟨segments, hlocal, hsegments⟩ := Option.bind_eq_some_iff.1 halong
    obtain ⟨passed, first, site, rfl, hhit⟩ := exists_name_of_reexportAlong? hsegments
    have hsplit := ((localSegments?_eq_some_iff_splitSegments hc.own).1 hlocal).1
    have hbehind := hquestion.of_splitSegments_eq hsplit
    have htarget := ihtarget (spelled_target htree hhit)
    apply (ihrest (htarget.named.extend hbehind)).of_reexports
    intro name hend
    obtain ⟨other, hother, hlast⟩ := exists_getLast?_of_endsIn_extend htarget.named hbehind
      (htarget.alsoCalled_of_bindingOf? hhit) hend
    exact ⟨other, hother, EndsIn.of_splitSegments_eq hsplit hlast⟩
  | outside hcrate _ ih =>
    obtain ⟨hfirst, hrest⟩ := List.forall_mem_cons.1 hquestion
    apply (ih ((named_of_isIdentifier hfirst).extend hrest)).of_same
    intro name hend
    exact getLast?_cons_of_some (hend.of_extend_crate hfirst hrest)
  | @crate module r rest without _ ih =>
    obtain ⟨-, hrest⟩ := List.forall_mem_cons.1 hquestion
    apply (ih ((named_of_isIdentifier hc.own).extend hrest)).of_same
    intro name hend
    exact nameOf?_crate_of_endsIn hc module hrest hend
  | @self module r rest without _ ih =>
    obtain ⟨-, hrest⟩ := List.forall_mem_cons.1 hquestion
    apply (ih (named_canonicalIn htree hc module hrest)).of_same
    intro name hend
    exact nameOf?_self_of_endsIn htree hc module hrest hend
  | @super module up r rest segments without hclimb _ ih =>
    have hsegments := spelled_of_climb? hclimb hquestion
    apply (ih (named_canonicalIn htree hc up hsegments)).of_same
    intro name hend
    exact nameOf?_super_of_endsIn htree hc hclimb hsegments hend
  | binding hkeyword hhit _ _ ihtarget ih =>
    obtain ⟨-, hrest⟩ := List.forall_mem_cons.1 hquestion
    have htarget := ihtarget (spelled_target htree hhit)
    apply (ih (htarget.named.extend hrest)).of_reexports
    intro name
    exact exists_nameOf?_of_endsIn_extend hkeyword htarget.named hrest
      (htarget.alsoCalled_of_bindingOf? hhit)
  | @declared module first r rest without hkeyword _ _ ih =>
    apply (ih (named_canonicalIn htree hc module hquestion)).of_same
    intro name hend
    exact nameOf?_declared_of_endsIn htree hc hkeyword hquestion hend
  | otherCrate hkeyword _ _ ih =>
    obtain ⟨hfirst, hrest⟩ := List.forall_mem_cons.1 hquestion
    apply (ih ((named_of_isIdentifier hfirst).extend hrest)).of_same
    intro name hend
    rw [Question.Calls, nameOf?_of_not_keyword hkeyword]
    exact getLast?_cons_of_some (hend.of_extend_crate hfirst hrest)
  | globbed hkeyword _ _ ihglob ih =>
    obtain ⟨hfirst, hrest⟩ := List.forall_mem_cons.1 hquestion
    have hfound := ihglob hfirst
    apply (ih (hfound.named.extend hrest)).of_reexports
    intro name
    exact exists_nameOf?_of_endsIn_extend hkeyword hfound.named hrest hfound.alsoCalled_of_glob
  | macroCrate hkeyword hcrate _ ih =>
    have hident := hc.macros _ hcrate
    apply (ih ((named_of_isIdentifier hident).extend hquestion)).of_same
    intro name hend
    rw [Question.Calls, nameOf?_of_not_keyword hkeyword]
    exact hend.of_extend_crate hident hquestion
  | @globHere module _ _ _ glob hglob _ _ _ ihbase =>
    exact (ihbase ((spelled_module htree module).glob glob hglob)).of_glob hquestion
  | globWithin _ _ _ _ _ ih => exact ⟨(ih hquestion).named, (ih hquestion).calls⟩
  | @globOutside module _ _ glob hglob _ ihbase =>
    exact (ihbase ((spelled_module htree module).glob glob hglob)).of_glob hquestion

end Calls

/-- What a path of identifiers denotes ends in a name that the path calls it by, or that imports
    give another name to, which the path calls it by. -/
theorem exists_nameOf?_of_resolvePath (htree : ModuleTree c.modules) (hc : c.SpellsCrates)
    {module : Nat} {path : ItemPath} {r name : String}
    (hpath : ∀ segment ∈ path.segments, IsIdentifier segment)
    (h : resolvePath c module path = some r) (hend : EndsIn name r) :
    ∃ other, c.AlsoCalled name other ∧ c.nameOf? module path = some other :=
  (calls_of_found htree hc (found_of_resolvePath h) hpath).calls name hend

end JobRoster.Crate
