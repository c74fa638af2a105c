import JobRoster.Proofs.Crate.Reference

/-!
# Modules around a module

A module and the modules around it are a chain up to the root. Whatever visibility is written, the
scope that is kept for it is the whole crate or a module of this chain, and stays so as more is
read.
-/

namespace JobRoster.Crate

open Files Syntax Relation

/-- Whether `outer` is the module `inner` or one around it. -/
def Encloses (modules : List Module) (outer inner : Nat) : Prop :=
  ReflTransGen (fun index parent => Scope.parent? modules index = some parent) inner outer

/-- The scope is the whole crate, the module or one around it. -/
def Scope.Around (modules : List Module) (module : Nat) (scope : Scope) : Prop :=
  scope = .crate ∨ ∃ outer, scope = .within outer ∧ Encloses modules outer module

variable {modules modules' : List Module} {module outer inner index : Nat}

/-! ## Modules that are read later -/

/-- The modules of `modules` are in `modules'` too, in the same places and with the same parents. -/
def SameParents (modules modules' : List Module) : Prop :=
  ∀ index parent, Scope.parent? modules index = some parent →
    Scope.parent? modules' index = some parent

theorem SameParents.encloses (h : SameParents modules modules')
    (hencloses : Encloses modules outer inner) : Encloses modules' outer inner :=
  ReflTransGen.mono h _ _ hencloses

theorem SameParents.around (h : SameParents modules modules') {scope : Scope}
    (hscope : scope.Around modules module) : scope.Around modules' module :=
  hscope.imp_right fun ⟨outer, hwithin, hencloses⟩ => ⟨outer, hwithin, h.encloses hencloses⟩

theorem sameParents_append (modules : List Module) (m : Module) :
    SameParents modules (modules ++ [m]) := by
  intro index parent hparent
  obtain ⟨found, hfound, hparent⟩ := Option.bind_eq_some_iff.1 hparent
  have hlt := (List.getElem?_eq_some_iff.1 hfound).1
  exact Option.bind_eq_some_iff.2 ⟨found, (List.getElem?_append_left hlt).trans hfound, hparent⟩

theorem sameParents_modify (modules : List Module) (module : Nat) {f : Module → Module}
    (hf : ∀ m, (f m).parent = m.parent) : SameParents modules (modules.modify module f) := by
  intro index parent hparent
  obtain ⟨found, hfound, hparent⟩ := Option.bind_eq_some_iff.1 hparent
  rw [Scope.parent?, List.getElem?_modify, hfound]
  by_cases hindex : module = index
  · simpa [hindex, hf] using hparent
  · simpa [hindex] using hparent

/-! ## Scopes of visibilities -/

theorem encloses_of_mem_ancestryWithin {steps : Nat}
    (h : outer ∈ ancestryWithin modules steps inner) : Encloses modules outer inner := by
  induction steps generalizing inner with
  | zero => cases h
  | succ steps ih =>
    rw [ancestryWithin] at h
    obtain rfl | hmem := List.mem_cons.1 h
    · exact .refl
    · split at hmem
      next parent hparent => exact .head hparent (ih hmem)
      next => cases hmem

/-- Whatever a restriction leads to from a module around the one that it is written in is around
    it. -/
theorem encloses_of_follow? {segments : List String} {current named : Nat}
    (hcurrent : Encloses modules current module)
    (h : Scope.follow? modules module current segments = some named) :
    Encloses modules named module := by
  induction segments generalizing current with
  | nil => exact Option.some.inj h ▸ hcurrent
  | cons segment segments ih =>
    rw [Scope.follow?] at h
    split at h
    · split at h
      next parent hparent => exact ih (hcurrent.tail hparent) h
      next => cases h
    · split at h
      next start hstart =>
        exact encloses_of_mem_ancestryWithin (List.mem_of_find?_eq_some h)
      next => cases h

theorem encloses_of_restricted? {segments : List String} {named : Nat}
    (hroot : Encloses modules 0 module)
    (h : Scope.restricted? modules module segments = some named) :
    Encloses modules named module := by
  unfold Scope.restricted? at h
  split at h
  · exact encloses_of_follow? hroot h
  · exact encloses_of_follow? .refl h
  · split at h
    next parent hparent => exact encloses_of_follow? (.single hparent) h
    next => cases h
  · cases h

theorem around_ofModule (h : Encloses modules outer module) :
    (Scope.ofModule outer).Around modules module := by
  unfold Scope.ofModule
  split
  · exact .inl rfl
  · exact .inr ⟨outer, rfl, h⟩

theorem around_ofVisibility (hroot : Encloses modules 0 module) (visibility : Visibility) :
    (Scope.ofVisibility modules module visibility).Around modules module := by
  cases visibility with
  | visible => exact .inl rfl
  | inherited => exact around_ofModule .refl
  | restricted path =>
    rw [Scope.ofVisibility]
    split
    next named hnamed => exact around_ofModule (encloses_of_restricted? hroot hnamed)
    next => exact .inr ⟨module, rfl, .refl⟩

/-! ## The scopes of a crate -/

/-- The root is around every module, and each scope that is kept for what a module holds is the
    whole crate, the module or one around it. -/
structure ScopesAround (modules : List Module) (decls : List Decl) : Prop where
  rooted : ∀ index < modules.length, Encloses modules 0 index
  decl : ∀ decl ∈ decls, decl.scope.Around modules decl.module
  binding : ∀ (index : Nat) (m : Module), modules[index]? = some m → ∀ binding ∈ m.bindings,
    binding.scope.Around modules index
  glob : ∀ (index : Nat) (m : Module), modules[index]? = some m → ∀ glob ∈ m.globs,
    glob.scope.Around modules index
  /-- The scope of a module is kept for the one that declares it. -/
  child : ∀ (index : Nat) (m : Module), modules[index]? = some m → ∀ parent ∈ m.parent,
    m.scope.Around modules parent

theorem ScopesAround.root : ScopesAround [.new [] none .crate] [] := by
  have honly : ∀ (index : Nat) (m : Module), [Module.new [] none .crate][index]? = some m →
      m = .new [] none .crate := fun index m hm => List.mem_singleton.1 (List.mem_of_getElem? hm)
  constructor
  case rooted =>
    intro index hindex
    obtain rfl : index = 0 := Nat.lt_one_iff.1 hindex
    exact .refl
  case decl => exact nofun
  case binding =>
    intro index m hm
    rw [honly index m hm]
    exact nofun
  case glob =>
    intro index m hm
    rw [honly index m hm]
    exact nofun
  case child =>
    intro index m hm
    rw [honly index m hm]
    exact nofun

namespace ScopesAround

variable {decls : List Decl} (h : ScopesAround modules decls)
include h

theorem addDecl {decl : Decl} (hdecl : decl.scope.Around modules decl.module) :
    ScopesAround modules (decls ++ [decl]) :=
  { h with decl := List.forall_mem_append.2 ⟨h.decl, by simpa using hdecl⟩ }

/-- A module may get more bindings and globs with such scopes. -/
theorem modify {f : Module → Module} (hparent : ∀ m, (f m).parent = m.parent)
    (hscope : ∀ m, (f m).scope = m.scope)
    (hbinding : ∀ m, ∀ binding ∈ (f m).bindings,
      binding ∈ m.bindings ∨ binding.scope.Around modules module)
    (hglob : ∀ m, ∀ glob ∈ (f m).globs, glob ∈ m.globs ∨ glob.scope.Around modules module) :
    ScopesAround (modules.modify module f) decls := by
  have hsame : SameParents modules (modules.modify module f) :=
    sameParents_modify modules module hparent
  constructor
  case rooted =>
    intro index hindex
    exact hsame.encloses (h.rooted index (by simpa using hindex))
  case decl => exact fun decl hdecl => hsame.around (h.decl decl hdecl)
  case binding =>
    intro index m' hm' binding hmem
    obtain ⟨m, hm, rfl | ⟨rfl, rfl⟩⟩ := eq_or_eq_of_getElem?_modify hm'
    · exact hsame.around (h.binding index m' hm binding hmem)
    · obtain hold | hnew := hbinding m binding hmem
      · exact hsame.around (h.binding _ m hm binding hold)
      · exact hsame.around hnew
  case glob =>
    intro index m' hm' glob hmem
    obtain ⟨m, hm, rfl | ⟨rfl, rfl⟩⟩ := eq_or_eq_of_getElem?_modify hm'
    · exact hsame.around (h.glob index m' hm glob hmem)
    · obtain hold | hnew := hglob m glob hmem
      · exact hsame.around (h.glob _ m hm glob hold)
      · exact hsame.around hnew
  case child =>
    intro index m' hm' parent hup
    obtain ⟨m, hm, rfl | ⟨rfl, rfl⟩⟩ := eq_or_eq_of_getElem?_modify hm'
    · exact hsame.around (h.child index m' hm parent hup)
    · rw [hscope]
      exact hsame.around (h.child _ m hm parent ((hparent m).symm.trans hup))

/-- A module may come last if it is declared by one with such a scope for it. -/
theorem append {parent : Nat} (hparent : parent < modules.length) (path : List String)
    {scope : Scope} (hscope : scope.Around modules parent) :
    ScopesAround (modules ++ [.new path (some parent) scope]) decls := by
  have hsame := sameParents_append modules (.new path (some parent) scope)
  constructor
  case rooted =>
    intro index hindex
    obtain hlt | hge := Nat.lt_or_ge index modules.length
    · exact hsame.encloses (h.rooted index hlt)
    · have hlast : index = modules.length := by
        rw [List.length_append, List.length_singleton] at hindex
        omega
      have hup : Scope.parent? (modules ++ [.new path (some parent) scope]) index =
          some parent := by
        simp [Scope.parent?, hlast, Module.new]
      exact .head hup (hsame.encloses (h.rooted parent hparent))
  case decl => exact fun decl hdecl => hsame.around (h.decl decl hdecl)
  case binding =>
    intro index m hm binding hmem
    obtain hold | ⟨-, rfl⟩ := getElem?_or_eq_of_getElem?_concat hm
    · exact hsame.around (h.binding index m hold binding hmem)
    · cases hmem
  case glob =>
    intro index m hm glob hmem
    obtain hold | ⟨-, rfl⟩ := getElem?_or_eq_of_getElem?_concat hm
    · exact hsame.around (h.glob index m hold glob hmem)
    · cases hmem
  case child =>
    intro index m hm parent' hup
    obtain hold | ⟨-, rfl⟩ := getElem?_or_eq_of_getElem?_concat hm
    · exact hsame.around (h.child index m hold parent' hup)
    · obtain rfl : parent = parent' := Option.some.inj hup
      exact hsame.around hscope

end ScopesAround

namespace LoadState

def ScopesAround (s : LoadState) : Prop :=
  Crate.ScopesAround s.modules s.decls

variable {s s' : LoadState}

theorem ScopesAround.around_scopeOf (h : s.ScopesAround) (hmodule : module < s.modules.length)
    (visibility : Visibility) : (s.scopeOf module visibility).Around s.modules module :=
  around_ofVisibility (h.rooted module hmodule) visibility

theorem ScopesAround.addName (h : s.ScopesAround) (module : Nat) (name : String) :
    (s.addName module name).ScopesAround :=
  h.modify (fun _ => rfl) (fun _ => rfl) (fun _ _ => .inl) (fun _ _ => .inl)

theorem ScopesAround.addBinding (h : s.ScopesAround) {binding : Binding}
    (hscope : binding.scope.Around s.modules module) :
    (s.addBinding module binding).ScopesAround := by
  refine h.modify (fun _ => rfl) (fun _ => rfl) (fun m other hother => ?_) (fun _ _ => .inl)
  rcases List.mem_append.1 hother with hold | hnew
  · exact .inl hold
  · rw [List.mem_singleton.1 hnew]
    exact .inr hscope

theorem ScopesAround.addImport (h : s.ScopesAround) {scope : Scope}
    (hscope : scope.Around s.modules module) (leaf : Import) :
    (s.addImport module scope leaf).ScopesAround := by
  cases leaf with
  | binding name target => exact h.addBinding hscope
  | glob target =>
    refine h.modify (fun _ => rfl) (fun _ => rfl) (fun _ _ => .inl) (fun m other hother => ?_)
    rcases List.mem_append.1 hother with hold | hnew
    · exact .inl hold
    · rw [List.mem_singleton.1 hnew]
      exact .inr hscope

theorem length_addImport (s : LoadState) (module : Nat) (scope : Scope) (leaf : Import) :
    (s.addImport module scope leaf).modules.length = s.modules.length := by
  cases leaf <;> exact List.length_modify ..

theorem ScopesAround.addImports (h : s.ScopesAround) (hmodule : module < s.modules.length)
    (visibility : Visibility) (leaves : List Import) :
    (leaves.foldl (fun s leaf => s.addImport module (s.scopeOf module visibility) leaf)
      s).ScopesAround := by
  induction leaves generalizing s with
  | nil => exact h
  | cons leaf leaves ih =>
    refine ih (h.addImport (h.around_scopeOf hmodule visibility) leaf) ?_
    rwa [length_addImport]

theorem ScopesAround.addItem (h : s.ScopesAround) (hmodule : module < s.modules.length)
    (file : FilePath) (attributes : List Syntax.Attribute) (visibility : Visibility)
    (kind : ItemKind) : (s.addItem module file attributes visibility kind).ScopesAround := by
  cases kind with
  | type kind ident line generics =>
    have hnamed := h.addName module ident.name
    have hsame : SameParents s.modules (s.addName module ident.name).modules :=
      sameParents_modify _ _ fun _ => rfl
    exact hnamed.addDecl (hsame.around (h.around_scopeOf hmodule visibility))
  | const ident value => exact h.addName module ident.name
  | named ident => exact h.addName module ident.name
  | useTree leadingColon tree => exact h.addImports hmodule visibility _
  | externCrate ident newName =>
    have hcrates : (s.addExtern ident.name
        (attributes.any (·.path.isWord "macro_use"))).ScopesAround := by
      rw [ScopesAround, modules_addExtern, decls_addExtern]
      exact h
    cases newName with
    | none => exact hcrates
    | some newName =>
      refine hcrates.addBinding (hcrates.around_scopeOf ?_ visibility)
      rwa [modules_addExtern]
  | impl content => exact h
  | other => exact h

theorem ScopesAround.step (h : s.ScopesAround) (hstep : s.Step s') : s'.ScopesAround := by
  cases hstep with
  | item file attributes visibility kind hmodule =>
    exact h.addItem hmodule file attributes visibility kind
  | @module parent ident visibility hparent =>
    have hsame : SameParents s.modules (s.addName parent ident.name).modules :=
      sameParents_modify _ _ fun _ => rfl
    have hlt : parent < (s.addName parent ident.name).modules.length := by
      rwa [(growsAt_addName s parent ident.name).length_eq]
    exact (h.addName parent ident.name).append hlt _
      (hsame.around (h.around_scopeOf hparent visibility))
  | file file => exact h

theorem ScopesAround.steps (h : s.ScopesAround) (hsteps : s.Steps s') : s'.ScopesAround := by
  induction hsteps with
  | refl => exact h
  | tail _ hstep ih => exact ih.step hstep

end LoadState

/-- Every scope of a crate that is read is the whole crate, the module that it is kept for or one
    around that. -/
theorem scopesAround_of_load {sources : Sources} {name : String} {dependencies : List String}
    {root : FilePath} {c : Crate} (h : load sources name dependencies root = .ok c) :
    ScopesAround c.modules c.decls := by
  obtain ⟨s, hsteps, rfl⟩ := steps_of_load h
  have hstart : ((LoadState.start name dependencies).addModule
      (Module.new [] none .crate)).ScopesAround := ScopesAround.root
  exact hstart.steps hsteps

end JobRoster.Crate
