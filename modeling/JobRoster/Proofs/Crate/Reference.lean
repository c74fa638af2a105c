import JobRoster.Crate.Reference
import JobRoster.Proofs.Crate.Qualified

/-!
# What the root calls a declaration

A declaration stands in a module that declares its name, and is known by its path there. The root
calls it by a module that it reaches and by a name under which that module offers it: the declared
one, one that a binding gives it, or its own through a glob import of the module it stands in.
-/

namespace JobRoster.Crate

open Files Syntax Text

/-! ## Declarations where they stand -/

/-- A declaration stands in a module that declares its name, and its identity is its path there. -/
structure Decl.Placed (crateName : String) (modules : List Module) (decl : Decl) : Prop where
  identifier : IsIdentifier decl.name
  within : ∃ m, modules[decl.module]? = some m ∧ m.declares decl.name = true ∧
    decl.identity = canonical crateName m.path [decl.name]

namespace Decl.Placed

variable {crateName : String} {modules : List Module} {decl : Decl}

theorem growsAt {s s' : LoadState} {module : Nat} (h : decl.Placed crateName s.modules)
    (hgrows : s.GrowsAt module s') : decl.Placed crateName s'.modules := by
  obtain ⟨m, hm, hdeclares, hidentity⟩ := h.within
  obtain ⟨m', hm', hgrown⟩ := hgrows.exists_after hm
  exact ⟨h.identifier, m', hm', hgrown.declares _ hdeclares, by rw [hidentity, hgrown.path]⟩

theorem append (h : decl.Placed crateName modules) (more : List Module) :
    decl.Placed crateName (modules ++ more) := by
  obtain ⟨m, hm, hrest⟩ := h.within
  have hlt : decl.module < modules.length := (List.getElem?_eq_some_iff.1 hm).1
  exact ⟨h.identifier, m, by rw [List.getElem?_append_left hlt, hm], hrest⟩

end Decl.Placed

namespace LoadState

variable {s s' : LoadState}

theorem crateName_addExtern (s : LoadState) (name : String) (macros : Bool) :
    (s.addExtern name macros).crateName = s.crateName := by
  unfold addExtern
  split <;> rfl

theorem crateName_addItem (s : LoadState) (module : Nat) (file : FilePath)
    (attributes : List Syntax.Attribute) (visibility : Visibility) (kind : ItemKind) :
    (s.addItem module file attributes visibility kind).crateName = s.crateName := by
  cases kind with
  | useTree leadingColon tree => exact (sameCrates_addImports s _ _).name
  | externCrate ident newName =>
    rw [← crateName_addExtern s ident.name (attributes.any (·.path.isWord "macro_use"))]
    cases newName <;> rfl
  | _ => rfl

theorem placed_addItem {module : Nat} (hmodule : module < s.modules.length)
    (h : ∀ decl ∈ s.decls, decl.Placed s.crateName s.modules) (file : FilePath)
    (attributes : List Syntax.Attribute) (visibility : Visibility) (kind : ItemKind) :
    ∀ decl ∈ (s.addItem module file attributes visibility kind).decls,
      decl.Placed s.crateName (s.addItem module file attributes visibility kind).modules := by
  intro decl hdecl
  have hgrows := growsAt_addItem s module file attributes visibility kind
  obtain ⟨typeKind, ident, line, generics, rfl⟩ | hsame :=
    decls_addItem s module file attributes visibility kind
  · rcases List.mem_append.1 hdecl with hold | hnew
    · exact (h decl hold).growsAt hgrows
    · -- the new declaration, whose name the module has just been given
      rw [List.mem_singleton.1 hnew]
      obtain ⟨m, hm⟩ : ∃ m, s.modules[module]? = some m := ⟨_, List.getElem?_eq_getElem hmodule⟩
      refine ⟨ident.isIdentifier, { m with names := m.names.insert ident.name }, ?_, ?_, ?_⟩
      · simp [addItem, addDecl, addName, modifyModule, hm]
      · simp [Module.declares]
      · simp [identityOf, modulePath, hm]
  · exact (h decl (hsame ▸ hdecl)).growsAt hgrows

theorem Steps.placed_decls (hsteps : s.Steps s')
    (h : ∀ decl ∈ s.decls, decl.Placed s.crateName s.modules) :
    ∀ decl ∈ s'.decls, decl.Placed s'.crateName s'.modules := by
  induction hsteps with
  | refl => exact h
  | tail _ hstep ih =>
    cases hstep with
    | item file attributes visibility kind hmodule =>
      rw [crateName_addItem]
      exact placed_addItem hmodule ih file attributes visibility kind
    | @module parent ident scope hparent =>
      intro decl hdecl
      exact ((ih decl hdecl).growsAt (growsAt_addName _ parent ident.name)).append _
    | file file => exact ih

end LoadState

theorem placed_decls_of_load {sources : Sources} {name : String} {dependencies : List String}
    {root : FilePath} {c : Crate} (h : load sources name dependencies root = .ok c) :
    ∀ decl ∈ c.decls, decl.Placed c.name c.modules := by
  obtain ⟨s, hsteps, rfl⟩ := steps_of_load h
  exact hsteps.placed_decls (by simp [LoadState.start, LoadState.addModule])

variable {c : Crate} {decl : Decl}

namespace Decl.Placed

theorem lt_length (h : decl.Placed c.name c.modules) : decl.module < c.modules.length := by
  obtain ⟨m, hm, -⟩ := h.within
  exact (List.getElem?_eq_some_iff.1 hm).1

theorem declares (h : decl.Placed c.name c.modules) :
    (c.module decl.module).declares decl.name = true := by
  obtain ⟨m, hm, hdeclares, -⟩ := h.within
  rwa [module_of_getElem? hm]

theorem identity_eq (h : decl.Placed c.name c.modules) :
    decl.identity = c.canonicalIn (c.module decl.module).path [decl.name] := by
  obtain ⟨m, hm, -, hidentity⟩ := h.within
  rw [module_of_getElem? hm]
  exact hidentity

end Decl.Placed

/-! ## Modules that the root reaches -/

namespace LoadState

variable {s s' : LoadState}

theorem Steps.exists_root (hsteps : s.Steps s')
    (h : ∃ m, s.modules[0]? = some m ∧ m.parent = none ∧ m.scope = .crate) :
    ∃ m, s'.modules[0]? = some m ∧ m.parent = none ∧ m.scope = .crate := by
  obtain ⟨m, hm, hparent, hscope⟩ := h
  obtain ⟨m', hm', hgrows⟩ := hsteps.exists_after hm
  exact ⟨m', hm', hgrows.parent.trans hparent, hgrows.scope.trans hscope⟩

end LoadState

/-- The root of a crate that is read has no module around it and can be named from everywhere. -/
theorem exists_root_of_load {sources : Sources} {name : String} {dependencies : List String}
    {root : FilePath} (h : load sources name dependencies root = .ok c) :
    ∃ m, c.modules[0]? = some m ∧ m.parent = none ∧ m.scope = .crate := by
  obtain ⟨s, hsteps, rfl⟩ := steps_of_load h
  exact hsteps.exists_root ⟨_, rfl, rfl, rfl⟩

section Ancestry

variable {modules : List Module} (htree : ModuleTree modules)
  (hroot : ∃ m, modules[0]? = some m ∧ m.parent = none ∧ m.scope = .crate)
include htree hroot

theorem lt_of_parent {index parent : Nat} {m : Module} (hm : modules[index]? = some m)
    (hparent : m.parent = some parent) : parent < index := by
  by_cases hindex : index = 0
  · subst hindex
    obtain ⟨root, hm', hnone, -⟩ := hroot
    obtain rfl : root = m := Option.some.inj (hm'.symm.trans hm)
    rw [hnone] at hparent
    cases hparent
  · obtain ⟨parent', -, -, hlt, -, hparent', -⟩ := htree.below index m hm hindex
    rw [hparent] at hparent'
    rwa [Option.some.inj hparent']

/-- No more steps lead up from a module than there are modules before it. -/
theorem ancestryWithin_of_lt {index steps : Nat} (h : index < steps) :
    ancestryWithin modules steps index = ancestryWithin modules (index + 1) index := by
  induction index using Nat.strongRecOn generalizing steps with
  | ind index ih =>
    obtain ⟨steps, rfl⟩ : ∃ fewer, steps = fewer + 1 := ⟨steps - 1, by omega⟩
    rw [ancestryWithin, ancestryWithin]
    cases hparent : modules[index]?.bind (·.parent) with
    | none => rfl
    | some parent =>
      obtain ⟨m, hm, hparent⟩ := Option.bind_eq_some_iff.1 hparent
      have hlt : parent < index := lt_of_parent htree hroot hm hparent
      dsimp only
      rw [ih parent hlt (by omega), ih parent hlt hlt]

theorem ancestry_of_parent {index parent : Nat} {m : Module} (hm : modules[index]? = some m)
    (hparent : m.parent = some parent) :
    ancestry modules index = index :: ancestry modules parent := by
  have hlt : index < modules.length := (List.getElem?_eq_some_iff.1 hm).1
  have hup : parent < index := lt_of_parent htree hroot hm hparent
  rw [ancestry, ancestryWithin, hm, Option.bind_some, hparent]
  dsimp only
  rw [ancestry, ancestryWithin_of_lt htree hroot (Nat.lt_trans hup hlt),
    ancestryWithin_of_lt htree hroot (Nat.lt_succ_of_lt (Nat.lt_trans hup hlt))]

end Ancestry

/-! ## The first of some paths -/

namespace Candidate

theorem mem_of_least? {candidates : List Candidate} {best : Candidate}
    (h : least? candidates = some best) : best ∈ candidates := by
  induction candidates generalizing best with
  | nil => cases h
  | cons candidate candidates ih =>
    unfold least? at h
    split at h
    · exact Option.some.inj h ▸ List.mem_cons_self
    next found hfound =>
      split at h
      · exact Option.some.inj h ▸ List.mem_cons_of_mem _ (ih hfound)
      · exact Option.some.inj h ▸ List.mem_cons_self

theorem least?_eq_none_iff {candidates : List Candidate} :
    least? candidates = none ↔ candidates = [] := by
  cases candidates with
  | nil => simp [least?]
  | cons candidate candidates =>
    unfold least?
    split
    · simp
    · split <;> simp

end Candidate

/-! ## Where a declaration is offered -/

theorem mem_boundNames_iff {module : Nat} {name : String} :
    name ∈ boundNames c decl module ↔ ∃ binding ∈ (c.module module).bindings,
      binding.scope.visibleFromRoot = true ∧ binding.name = name ∧
        resolvePath c module (ItemPath.ofName name) = some decl.identity := by
  simp only [boundNames, List.mem_filter, List.mem_map, decide_eq_true_eq]
  constructor
  · rintro ⟨⟨binding, ⟨hmem, hvisible⟩, rfl⟩, hresolves⟩
    exact ⟨binding, hmem, hvisible, rfl, hresolves⟩
  · rintro ⟨binding, hmem, hvisible, rfl, hresolves⟩
    exact ⟨⟨binding, ⟨hmem, hvisible⟩, rfl⟩, hresolves⟩

theorem isGlobExported_iff {module : Nat} :
    isGlobExported c decl module = true ↔ (c.module module).declares decl.name = false ∧
      (c.module module).binds decl.name = false ∧ ∃ glob ∈ (c.module module).globs,
        glob.scope.visibleFromRoot = true ∧ resolvePath c module glob.target =
          some (c.canonicalIn (c.module decl.module).path []) := by
  simp [isGlobExported, and_assoc]

/-- A module offers a declaration under a name: it is the one that declares it, gives it the name by
    a binding, or has it through a glob import of the module that declares it. -/
inductive OffersDirectly (c : Crate) (decl : Decl) : Nat → String → Prop where
  | declared : OffersDirectly c decl decl.module decl.name
  | bound {module : Nat} {name : String} (h : name ∈ boundNames c decl module) :
    OffersDirectly c decl module name
  | globbed {module : Nat} (h : isGlobExported c decl module = true) :
    OffersDirectly c decl module decl.name

theorem OffersDirectly.isIdentifier (htree : ModuleTree c.modules)
    (hplaced : decl.Placed c.name c.modules) {module : Nat} {name : String}
    (h : OffersDirectly c decl module name) : IsIdentifier name := by
  cases h with
  | bound h =>
    obtain ⟨binding, hmem, -, rfl, -⟩ := mem_boundNames_iff.1 h
    exact (spelled_module htree module).binding binding hmem
  | _ => exact hplaced.identifier

theorem mem_exportsFrom_iff {module : Nat} {candidate : Candidate} :
    candidate ∈ exportsFrom c decl module ↔ isReachable c module = true ∧ ∃ name,
      (name ∈ boundNames c decl module ∨ isGlobExported c decl module = true ∧ name = decl.name) ∧
        candidate = ⟨(c.module module).path.length + 1,
          c.canonicalIn (c.module module).path [name]⟩ := by
  unfold exportsFrom
  cases isReachable c module <;> cases isGlobExported c decl module <;>
    simp [eq_comm (a := candidate)]

/-- A reference path leads to a module that the root reaches, and to a name under which that module
    offers the declaration. -/
theorem offersDirectly_of_referencePath? (hplaced : decl.Placed c.name c.modules) {path : String}
    (h : referencePath? c decl = some path) :
    ∃ module name, module < c.modules.length ∧ isReachable c module = true ∧
      OffersDirectly c decl module name ∧ path = c.canonicalIn (c.module module).path [name] := by
  unfold referencePath? at h
  split at h
  · cases h
  · split at h
    next hreachable =>
      obtain rfl : decl.identity = path := Option.some.inj h
      exact ⟨_, _, hplaced.lt_length, hreachable, .declared, hplaced.identity_eq⟩
    next =>
      obtain ⟨best, hbest, rfl⟩ := Option.map_eq_some_iff.1 h
      obtain ⟨module, hmodule, hexport⟩ := List.mem_flatMap.1 (Candidate.mem_of_least? hbest)
      obtain ⟨hreachable, name, hoffers, rfl⟩ := mem_exportsFrom_iff.1 hexport
      refine ⟨module, name, List.mem_range.1 hmodule, hreachable, ?_, rfl⟩
      obtain hbound | ⟨hglob, rfl⟩ := hoffers
      · exact .bound hbound
      · exact .globbed hglob

theorem isSome_referencePath?_iff (hplaced : decl.Placed c.name c.modules) :
    (referencePath? c decl).isSome = true ↔ decl.scope.visibleFromRoot = true ∧
      ∃ module name, module < c.modules.length ∧ isReachable c module = true ∧
        OffersDirectly c decl module name := by
  constructor
  · intro h
    obtain ⟨path, hpath⟩ := Option.isSome_iff_exists.1 h
    obtain ⟨module, name, hlt, hreachable, hoffers, -⟩ :=
      offersDirectly_of_referencePath? hplaced hpath
    refine ⟨?_, module, name, hlt, hreachable, hoffers⟩
    by_contra hhidden
    simp [referencePath?, hhidden] at hpath
  · rintro ⟨hvisible, module, name, hlt, hreachable, hoffers⟩
    by_cases hown : isReachable c decl.module = true
    · simp [referencePath?, hvisible, hown]
    · -- the module that offers the declaration has it from elsewhere, so it is among the exports
      have hexport : ∃ candidate, candidate ∈ exportsFrom c decl module := by
        cases hoffers with
        | declared => exact absurd hreachable hown
        | bound h => exact ⟨_, mem_exportsFrom_iff.2 ⟨hreachable, _, .inl h, rfl⟩⟩
        | globbed h => exact ⟨_, mem_exportsFrom_iff.2 ⟨hreachable, _, .inr ⟨h, rfl⟩, rfl⟩⟩
      obtain ⟨candidate, hcandidate⟩ := hexport
      have hne : (List.range c.modules.length).flatMap (exportsFrom c decl) ≠ [] :=
        List.ne_nil_of_mem (List.mem_flatMap.2 ⟨module, List.mem_range.2 hlt, hcandidate⟩)
      rw [Option.isSome_iff_ne_none]
      simpa [referencePath?, hvisible, hown, Candidate.least?_eq_none_iff] using hne

end JobRoster.Crate
