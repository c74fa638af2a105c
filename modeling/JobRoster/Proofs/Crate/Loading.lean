import Mathlib.Logic.Relation
import JobRoster.Crate.Loading

/-!
# What holds of every crate that is read

Reading adds to the crate one item, one module or one file at a time. What each of these steps
keeps holds of every crate that `load` returns: its modules form a tree below the root in which
every module is declared by its parent, the names that paths are made of are identifiers, and the
crates that may start a path are those that were named.
-/

namespace JobRoster.Crate

open Files Syntax Text

/-! ## Identifiers in a module -/

/-- The names that paths through a module are made of are identifiers. -/
structure Module.Spelled (m : Module) : Prop where
  path : ∀ name ∈ m.path, IsIdentifier name
  binding : ∀ binding ∈ m.bindings, IsIdentifier binding.name
  target : ∀ binding ∈ m.bindings, ∀ segment ∈ binding.target.segments, IsIdentifier segment
  glob : ∀ glob ∈ m.globs, ∀ segment ∈ glob.target.segments, IsIdentifier segment

theorem Module.spelled_new {path : List String} (h : ∀ name ∈ path, IsIdentifier name)
    (parent : Option Nat) (scope : Scope) : (Module.new path parent scope).Spelled :=
  ⟨h, by simp [Module.new], by simp [Module.new], by simp [Module.new]⟩

theorem Module.Spelled.isIdentifier_of_binds {m : Module} (h : m.Spelled) {name : String}
    (hbinds : m.binds name = true) : IsIdentifier name := by
  obtain ⟨binding, hbinding, hname⟩ := List.any_eq_true.1 hbinds
  rw [← of_decide_eq_true hname]
  exact h.binding binding hbinding

namespace Import

/-- The names that an import is made of are identifiers. -/
def Spelled : Import → Prop
  | binding name target => IsIdentifier name ∧ ∀ segment ∈ target.segments, IsIdentifier segment
  | glob target => ∀ segment ∈ target.segments, IsIdentifier segment

variable {base : ItemPath}

theorem spelled_push (h : ∀ segment ∈ base.segments, IsIdentifier segment) (ident : Ident) :
    ∀ segment ∈ (base.push ident.name).segments, IsIdentifier segment := by
  intro segment hsegment
  rcases List.mem_append.1 hsegment with hbase | hlast
  · exact h segment hbase
  · rw [List.mem_singleton.1 hlast]
    exact ident.isIdentifier

theorem spelled_ofName (h : ∀ segment ∈ base.segments, IsIdentifier segment) (ident : Ident) :
    ∀ leaf ∈ ofName base ident.name, leaf.Spelled := by
  intro leaf hleaf
  unfold ofName at hleaf
  split at hleaf
  · split at hleaf
    next name hname =>
      rw [List.mem_singleton.1 hleaf]
      exact ⟨h name (List.mem_of_getLast? hname), h⟩
    · simp at hleaf
  · rw [List.mem_singleton.1 hleaf]
    exact ⟨ident.isIdentifier, spelled_push h ident⟩

theorem spelled_ofRename (h : ∀ segment ∈ base.segments, IsIdentifier segment)
    (ident newName : Ident) : ∀ leaf ∈ ofRename base ident.name newName.name, leaf.Spelled := by
  intro leaf hleaf
  unfold ofRename at hleaf
  split at hleaf
  · simp at hleaf
  · rw [List.mem_singleton.1 hleaf]
    refine ⟨newName.isIdentifier, ?_⟩
    split
    · exact h
    · exact spelled_push h ident

mutual

theorem spelled_ofTree {base : ItemPath} (h : ∀ segment ∈ base.segments, IsIdentifier segment) :
    ∀ tree, ∀ leaf ∈ ofTree base tree, leaf.Spelled
  | .path ident tree => spelled_ofTree (spelled_push h ident) tree
  | .name ident => spelled_ofName h ident
  | .rename ident newName => spelled_ofRename h ident newName
  | .glob => by simpa [ofTree, Spelled] using h
  | .group trees => spelled_ofTrees h trees

theorem spelled_ofTrees {base : ItemPath} (h : ∀ segment ∈ base.segments, IsIdentifier segment) :
    ∀ trees, ∀ leaf ∈ ofTrees base trees, leaf.Spelled
  | [] => by simp [ofTrees]
  | tree :: trees => by
    intro leaf hleaf
    rcases List.mem_append.1 hleaf with htree | htrees
    · exact spelled_ofTree h tree leaf htree
    · exact spelled_ofTrees h trees leaf htrees

end

end Import

/-! ## Reading as steps -/

/-- A module to which items are added stays where it is, and keeps what it has. -/
structure Module.Grows (m m' : Module) : Prop where
  path : m'.path = m.path
  parent : m'.parent = m.parent
  scope : m'.scope = m.scope
  declares : ∀ name, m.declares name = true → m'.declares name = true
  bindings : m.bindings ⊆ m'.bindings
  globs : m.globs ⊆ m'.globs
  spelled : m.Spelled → m'.Spelled

namespace Module.Grows

theorem refl (m : Module) : m.Grows m :=
  ⟨rfl, rfl, rfl, fun _ h => h, List.Subset.refl _, List.Subset.refl _, id⟩

theorem trans {m m' m'' : Module} (h : m.Grows m') (h' : m'.Grows m'') : m.Grows m'' where
  path := h'.path.trans h.path
  parent := h'.parent.trans h.parent
  scope := h'.scope.trans h.scope
  declares name hname := h'.declares name (h.declares name hname)
  bindings := List.Subset.trans h.bindings h'.bindings
  globs := List.Subset.trans h.globs h'.globs
  spelled := h'.spelled ∘ h.spelled

theorem insertName (m : Module) (name : String) :
    m.Grows { m with names := m.names.insert name } := by
  refine ⟨rfl, rfl, rfl, fun other h => ?_, List.Subset.refl _, List.Subset.refl _,
    fun h => ⟨h.path, h.binding, h.target, h.glob⟩⟩
  simp only [Module.declares, List.contains_iff_mem] at h ⊢
  exact List.mem_insert_of_mem h

theorem addBinding (m : Module) {binding : Binding} (hname : IsIdentifier binding.name)
    (htarget : ∀ segment ∈ binding.target.segments, IsIdentifier segment) :
    m.Grows { m with bindings := m.bindings ++ [binding] } := by
  refine ⟨rfl, rfl, rfl, fun _ h => h, List.subset_append_left _ _, List.Subset.refl _, fun h =>
    ⟨h.path, fun other hother => ?_, fun other hother => ?_, h.glob⟩⟩
  · rcases List.mem_append.1 hother with hold | hnew
    · exact h.binding other hold
    · rwa [List.mem_singleton.1 hnew]
  · rcases List.mem_append.1 hother with hold | hnew
    · exact h.target other hold
    · rwa [List.mem_singleton.1 hnew]

theorem addGlob (m : Module) {glob : Glob}
    (htarget : ∀ segment ∈ glob.target.segments, IsIdentifier segment) :
    m.Grows { m with globs := m.globs ++ [glob] } := by
  refine ⟨rfl, rfl, rfl, fun _ h => h, List.Subset.refl _, List.subset_append_left _ _, fun h =>
    ⟨h.path, h.binding, h.target, fun other hother => ?_⟩⟩
  rcases List.mem_append.1 hother with hold | hnew
  · exact h.glob other hold
  · rwa [List.mem_singleton.1 hnew]

end Module.Grows

/-! ## Modules in their places -/

section Places

variable {modules : List Module} {module index : Nat} {m m' : Module}

theorem eq_or_eq_of_getElem?_modify {f : Module → Module}
    (h : (modules.modify module f)[index]? = some m') :
    ∃ m, modules[index]? = some m ∧ (m' = m ∨ module = index ∧ m' = f m) := by
  rw [List.getElem?_modify] at h
  obtain ⟨m, hm, rfl⟩ := Option.map_eq_some_iff.1 h
  refine ⟨m, hm, ?_⟩
  split
  next hindex => exact .inr ⟨hindex, rfl⟩
  next => exact .inl rfl

theorem getElem?_or_eq_of_getElem?_concat (h : (modules ++ [m'])[index]? = some m) :
    modules[index]? = some m ∨ index = modules.length ∧ m = m' := by
  obtain hlt | hge := Nat.lt_or_ge index modules.length
  · exact .inl ((List.getElem?_append_left hlt).symm.trans h)
  · have hlast : index = modules.length := by
      have hlt := (List.getElem?_eq_some_iff.1 h).1
      rw [List.length_append, List.length_singleton] at hlt
      omega
    subst hlast
    exact .inr ⟨rfl, by simpa using h.symm⟩

end Places

namespace LoadState

/-- Between two states one module has grown, and all others are as they were. -/
def GrowsAt (module : Nat) (s s' : LoadState) : Prop :=
  ∃ f : Module → Module, (∀ m : Module, m.Grows (f m)) ∧ s'.modules = s.modules.modify module f

namespace GrowsAt

variable {module : Nat} {s s' s'' : LoadState}

theorem of_modules_eq (h : s'.modules = s.modules) : GrowsAt module s s' :=
  ⟨id, Module.Grows.refl, by rw [h, List.modify_id]⟩

theorem trans (h : GrowsAt module s s') (h' : GrowsAt module s' s'') : GrowsAt module s s'' := by
  obtain ⟨f, hf, hs'⟩ := h
  obtain ⟨g, hg, hs''⟩ := h'
  exact ⟨g ∘ f, fun m => (hf m).trans (hg (f m)), by rw [hs'', hs', List.modify_modify_eq]⟩

theorem length_eq (h : GrowsAt module s s') : s'.modules.length = s.modules.length := by
  obtain ⟨f, -, hs'⟩ := h
  rw [hs', List.length_modify]

theorem exists_after (h : GrowsAt module s s') {index : Nat} {m : Module}
    (hm : s.modules[index]? = some m) : ∃ m', s'.modules[index]? = some m' ∧ m.Grows m' := by
  obtain ⟨f, hf, hs'⟩ := h
  rw [hs', List.getElem?_modify, hm]
  by_cases hindex : module = index
  · exact ⟨f m, by simp [hindex], hf m⟩
  · exact ⟨m, by simp [hindex], .refl m⟩

theorem exists_before (h : GrowsAt module s s') {index : Nat} {m' : Module}
    (hm' : s'.modules[index]? = some m') : ∃ m, s.modules[index]? = some m ∧ m.Grows m' := by
  have hlt : index < s.modules.length := h.length_eq ▸ (List.getElem?_eq_some_iff.1 hm').1
  obtain ⟨m'', hm'', hgrows⟩ := h.exists_after (List.getElem?_eq_getElem hlt)
  obtain rfl : m' = m'' := Option.some.inj (hm'.symm.trans hm'')
  exact ⟨_, List.getElem?_eq_getElem hlt, hgrows⟩

end GrowsAt

variable {s : LoadState} {module : Nat}

theorem growsAt_addName (s : LoadState) (module : Nat) (name : String) :
    GrowsAt module s (s.addName module name) :=
  ⟨_, fun m => Module.Grows.insertName m name, rfl⟩

theorem growsAt_addBinding {binding : Binding} (hname : IsIdentifier binding.name)
    (htarget : ∀ segment ∈ binding.target.segments, IsIdentifier segment) :
    GrowsAt module s (s.addBinding module binding) :=
  ⟨_, fun m => Module.Grows.addBinding m hname htarget, rfl⟩

theorem growsAt_addImport {leaf : Import} (h : leaf.Spelled) (scope : Scope) :
    GrowsAt module s (s.addImport module scope leaf) := by
  cases leaf with
  | binding name target => exact growsAt_addBinding h.1 h.2
  | glob target =>
    exact ⟨_, fun m => Module.Grows.addGlob m (show ∀ segment ∈ (Glob.mk target scope).target.segments,
      IsIdentifier segment from h), rfl⟩

/-- Imports change nothing but the module that they are in. -/
theorem exists_addImports_eq (leaves : List Import) (s : LoadState) (module : Nat)
    (scope : LoadState → Scope) :
    ∃ f, leaves.foldl (fun s leaf => s.addImport module (scope s) leaf) s =
      s.modifyModule module f := by
  induction leaves generalizing s with
  | nil => exact ⟨id, by simp [modifyModule]⟩
  | cons leaf leaves ih =>
    obtain ⟨f, hf⟩ : ∃ f, s.addImport module (scope s) leaf = s.modifyModule module f := by
      cases leaf <;> exact ⟨_, rfl⟩
    obtain ⟨g, hg⟩ := ih (s.modifyModule module f)
    refine ⟨g ∘ f, ?_⟩
    rw [List.foldl_cons, hf, hg]
    simp [modifyModule, List.modify_modify_eq]

theorem growsAt_addImports {leaves : List Import} (h : ∀ leaf ∈ leaves, leaf.Spelled)
    (scope : LoadState → Scope) :
    GrowsAt module s
      (leaves.foldl (fun s leaf => s.addImport module (scope s) leaf) s) := by
  induction leaves generalizing s with
  | nil => exact .of_modules_eq rfl
  | cons leaf leaves ih =>
    exact (growsAt_addImport (h leaf List.mem_cons_self) (scope s)).trans
      (ih fun other hother => h other (List.mem_cons_of_mem _ hother))

theorem modules_addExtern (s : LoadState) (name : String) (macros : Bool) :
    (s.addExtern name macros).modules = s.modules := by
  unfold addExtern
  split <;> rfl

theorem isIdentifier_of_mem_externTarget (ident : Ident) :
    ∀ segment ∈ (externTarget ident.name).segments, IsIdentifier segment := by
  unfold externTarget
  split
  · simpa using (by decide : IsIdentifier "crate")
  · simpa using ident.isIdentifier

/-- An item that is no module adds to the module it stands in only. -/
theorem growsAt_addItem (s : LoadState) (module : Nat) (file : FilePath)
    (attributes : List Syntax.Attribute) (visibility : Visibility) (kind : ItemKind) :
    GrowsAt module s (s.addItem module file attributes visibility kind) := by
  cases kind with
  | type kind ident line generics =>
    exact (growsAt_addName s module ident.name).trans (.of_modules_eq rfl)
  | const ident value =>
    exact (growsAt_addName s module ident.name).trans (.of_modules_eq rfl)
  | named ident => exact growsAt_addName s module ident.name
  | useTree leadingColon tree =>
    exact growsAt_addImports (Import.spelled_ofTree (by simp) tree) (·.scopeOf module visibility)
  | externCrate ident newName =>
    have hcrates : GrowsAt module s
        (s.addExtern ident.name (attributes.any (·.path.isWord "macro_use"))) :=
      .of_modules_eq (modules_addExtern s ident.name _)
    cases newName with
    | none => exact hcrates
    | some newName =>
      exact hcrates.trans
        (growsAt_addBinding newName.isIdentifier (isIdentifier_of_mem_externTarget ident))
  | impl content => exact .of_modules_eq rfl
  | other => exact .of_modules_eq rfl

/-- What reading does to the crate at a time. -/
inductive Step : LoadState → LoadState → Prop where
  /-- Adds an item that is no module. -/
  | item {s : LoadState} {module : Nat} (file : FilePath) (attributes : List Syntax.Attribute)
      (visibility : Visibility) (kind : ItemKind) (h : module < s.modules.length) :
      Step s (s.addItem module file attributes visibility kind)
  /-- Adds a module to the one that declares it. -/
  | module {s : LoadState} {parent : Nat} (ident : Ident) (visibility : Visibility)
      (h : parent < s.modules.length) :
      Step s ((s.addName parent ident.name).addModule
        (Module.new (s.modulePath parent ++ [ident.name]) (some parent)
          (s.scopeOf parent visibility)))
  /-- Notes a file that was read. -/
  | file {s : LoadState} (file : FilePath) : Step s { s with files := s.files ++ [file] }

abbrev Steps : LoadState → LoadState → Prop :=
  Relation.ReflTransGen Step

theorem Step.length_le {s s' : LoadState} (h : Step s s') :
    s.modules.length ≤ s'.modules.length := by
  cases h with
  | item file attributes visibility kind _ =>
    exact Nat.le_of_eq (growsAt_addItem _ _ file attributes visibility kind).length_eq.symm
  | module ident visibility _ =>
    simp [addModule, (growsAt_addName s _ ident.name).length_eq]
  | file file => exact Nat.le_refl _

theorem Steps.length_le {s s' : LoadState} (h : Steps s s') :
    s.modules.length ≤ s'.modules.length := by
  induction h with
  | refl => exact Nat.le_refl _
  | tail _ hstep ih => exact Nat.le_trans ih hstep.length_le

/-- A step leaves every module where it is, with what it has. -/
theorem Step.exists_after {s s' : LoadState} (h : Step s s') {index : Nat} {m : Module}
    (hm : s.modules[index]? = some m) : ∃ m', s'.modules[index]? = some m' ∧ m.Grows m' := by
  cases h with
  | item file attributes visibility kind _ =>
    exact (growsAt_addItem _ _ file attributes visibility kind).exists_after hm
  | module ident visibility _ =>
    obtain ⟨m', hm', hgrows⟩ := (growsAt_addName _ _ ident.name).exists_after hm
    -- modules are added behind those there are
    exact ⟨m', (List.getElem?_append_left (List.getElem?_eq_some_iff.1 hm').1).trans hm', hgrows⟩
  | file file => exact ⟨m, hm, .refl m⟩

theorem Steps.exists_after {s s' : LoadState} (h : Steps s s') {index : Nat} {m : Module}
    (hm : s.modules[index]? = some m) : ∃ m', s'.modules[index]? = some m' ∧ m.Grows m' := by
  induction h with
  | refl => exact ⟨m, hm, .refl m⟩
  | tail _ hstep ih =>
    obtain ⟨m', hm', hgrows⟩ := ih
    obtain ⟨m'', hm'', hgrows'⟩ := hstep.exists_after hm'
    exact ⟨m'', hm'', hgrows.trans hgrows'⟩

theorem Steps.modulePath_eq {s s' : LoadState} (h : Steps s s') {index : Nat}
    (hindex : index < s.modules.length) : s'.modulePath index = s.modulePath index := by
  obtain ⟨m', hm', hgrows⟩ := h.exists_after (List.getElem?_eq_getElem hindex)
  simp only [modulePath, hm', List.getElem?_eq_getElem hindex, hgrows.path]

/-! ## Reading goes by steps -/

variable {sources : Sources} {load : FileLoader}

mutual

theorem steps_collectItem
    (hload : ∀ file m s s', load file m s = .ok s' → Steps (s.addModule m) s')
    {site : ItemSite} {s s' : LoadState} (hsite : site.module < s.modules.length) :
    ∀ item, collectItem sources load site s item = .ok s' → Steps s s'
  | .plain attributes visibility kind, h => by
    unfold collectItem at h
    split at h
    · exact Except.ok.inj h ▸ .refl
    · exact Except.ok.inj h ▸ .single (.item site.file attributes visibility kind hsite)
  | .module attributes visibility ident (some items), h => by
    unfold collectItem at h
    split at h
    · exact Except.ok.inj h ▸ .refl
    · refine .head (.module ident visibility hsite) ?_
      -- the items inside are read into the module that has just been added
      refine steps_collectItems hload ?_ items h
      simp [ItemSite.inside, addModule]
  | .module attributes visibility ident none, h => by
    unfold collectItem at h
    split at h
    · exact Except.ok.inj h ▸ .refl
    · refine .head (.module ident visibility hsite) ?_
      simp only at h
      split at h
      next file _ => exact hload file _ _ _ h
      · cases h
  | .unknown, h => by
    unfold collectItem at h
    exact Except.ok.inj h ▸ .refl

theorem steps_collectItems
    (hload : ∀ file m s s', load file m s = .ok s' → Steps (s.addModule m) s')
    {site : ItemSite} {s s' : LoadState} (hsite : site.module < s.modules.length) :
    ∀ items, collectItems sources load site s items = .ok s' → Steps s s'
  | [], h => by
    unfold collectItems at h
    exact Except.ok.inj h ▸ .refl
  | item :: items, h => by
    unfold collectItems at h
    cases hitem : collectItem sources load site s item with
    | error error => rw [hitem] at h; cases h
    | ok next =>
      rw [hitem] at h
      have hfirst : Steps s next := steps_collectItem hload hsite item hitem
      exact hfirst.trans
        (steps_collectItems hload (Nat.lt_of_lt_of_le hsite hfirst.length_le) items h)

end

theorem steps_loadFile {depth : Nat} {target : ModuleFile} {m : Module} {s s' : LoadState}
    (h : loadFile sources depth target m s = .ok s') : Steps (s.addModule m) s' := by
  induction depth generalizing target m s s' with
  | zero => cases h
  | succ depth ih =>
    unfold loadFile at h
    split at h
    · cases h
    · split at h
      · cases h
      next syntaxTree _ =>
        refine .head (.file target.file) ?_
        refine steps_collectItems (fun _ _ _ _ => ih) ?_ syntaxTree.items h
        simp [ItemSite.ofFile, addModule]

end LoadState

/-! ## The tree of modules -/

/-- Modules as they are read: first the root, then every other one after the module that declares
    it, whose path its own extends. -/
structure ModuleTree (modules : List Module) : Prop where
  root : ∃ m, modules[0]? = some m ∧ m.path = []
  below : ∀ index m, modules[index]? = some m → index ≠ 0 → ∃ parent p name,
    parent < index ∧ modules[parent]? = some p ∧ m.parent = some parent ∧
      m.path = p.path ++ [name] ∧ p.declares name = true
  spelled : ∀ m ∈ modules, m.Spelled

namespace ModuleTree

variable {modules : List Module} {s s' : LoadState} {module : Nat}

theorem singleton (scope : Scope) : ModuleTree [Module.new [] none scope] where
  root := ⟨_, rfl, rfl⟩
  below index m h hne := by
    have hindex : 1 ≤ index := Nat.pos_of_ne_zero hne
    rw [List.getElem?_eq_none (by simpa using hindex)] at h
    cases h
  spelled m hm := by
    rw [List.mem_singleton.1 hm]
    exact Module.spelled_new (by simp) none scope

theorem growsAt (htree : ModuleTree s.modules) (h : LoadState.GrowsAt module s s') :
    ModuleTree s'.modules := by
  refine ⟨?_, fun index m' hm' hne => ?_, fun m' hm' => ?_⟩
  · obtain ⟨m, hm, hpath⟩ := htree.root
    obtain ⟨m', hm', hgrows⟩ := h.exists_after hm
    exact ⟨m', hm', hgrows.path.trans hpath⟩
  · obtain ⟨m, hm, hgrows⟩ := h.exists_before hm'
    obtain ⟨parent, p, name, hlt, hp, hparent, hpath, hname⟩ := htree.below index m hm hne
    obtain ⟨p', hp', hgrows'⟩ := h.exists_after hp
    exact ⟨parent, p', name, hlt, hp', hgrows.parent.trans hparent,
      by rw [hgrows.path, hpath, hgrows'.path], hgrows'.declares name hname⟩
  · obtain ⟨index, hindex⟩ := List.mem_iff_getElem?.1 hm'
    obtain ⟨m, hm, hgrows⟩ := h.exists_before hindex
    exact hgrows.spelled (htree.spelled m (List.mem_of_getElem? hm))

/-- A module may come last if one before it declares it. -/
theorem append (htree : ModuleTree modules) {parent : Nat} {p : Module} {name : String}
    (hp : modules[parent]? = some p) (hname : p.declares name = true) (hident : IsIdentifier name)
    (scope : Scope) :
    ModuleTree (modules ++ [Module.new (p.path ++ [name]) (some parent) scope]) := by
  have hlt : parent < modules.length := (List.getElem?_eq_some_iff.1 hp).1
  have hold : ∀ index < modules.length,
      (modules ++ [Module.new (p.path ++ [name]) (some parent) scope])[index]? = modules[index]? :=
    fun index h => List.getElem?_append_left h
  refine ⟨?_, fun index m hm hne => ?_, fun m hm => ?_⟩
  · obtain ⟨m, hm, hpath⟩ := htree.root
    exact ⟨m, by rw [hold 0 (Nat.zero_lt_of_lt hlt), hm], hpath⟩
  · obtain hbefore | ⟨rfl, rfl⟩ := getElem?_or_eq_of_getElem?_concat hm
    · obtain ⟨parent', p', name', hlt', hp', hrest⟩ := htree.below index m hbefore hne
      have hindex : index < modules.length := (List.getElem?_eq_some_iff.1 hbefore).1
      exact ⟨parent', p', name', hlt', by rw [hold parent' (Nat.lt_trans hlt' hindex), hp'], hrest⟩
    · exact ⟨parent, p, name, hlt, by rw [hold parent hlt, hp], rfl, rfl, hname⟩
  · rcases List.mem_append.1 hm with hm | hm
    · exact htree.spelled m hm
    · rw [List.mem_singleton.1 hm]
      refine Module.spelled_new (fun segment hsegment => ?_) _ scope
      rcases List.mem_append.1 hsegment with hpath | hlast
      · exact (htree.spelled p (List.mem_of_getElem? hp)).path segment hpath
      · rwa [List.mem_singleton.1 hlast]

theorem step (htree : ModuleTree s.modules) (h : LoadState.Step s s') : ModuleTree s'.modules := by
  cases h with
  | item file attributes visibility kind _ =>
    exact htree.growsAt (LoadState.growsAt_addItem _ _ file attributes visibility kind)
  | @module parent ident visibility hlt =>
    have hgrown := LoadState.growsAt_addName s parent ident.name
    -- the parent declares the module by the time the module is added
    have hp : (s.addName parent ident.name).modules[parent]? =
        some { s.modules[parent] with names := s.modules[parent].names.insert ident.name } := by
      simp [LoadState.addName, LoadState.modifyModule, hlt]
    have hpath : s.modulePath parent = s.modules[parent].path := by
      simp [LoadState.modulePath, hlt]
    rw [hpath]
    exact (htree.growsAt hgrown).append hp (by simp [Module.declares]) ident.isIdentifier _
  | file file => exact htree

theorem steps (htree : ModuleTree s.modules) (h : LoadState.Steps s s') :
    ModuleTree s'.modules := by
  induction h with
  | refl => exact htree
  | tail _ hstep ih => exact ih.step hstep

end ModuleTree

/-! ## The attributes of declarations -/

/-- The paths of a declaration's attributes are made of identifiers. -/
def Decl.Spelled (decl : Decl) : Prop :=
  ∀ attr ∈ decl.attributes, ∀ segment ∈ attr.path.segments, IsIdentifier segment

theorem spelled_attributesOf (attrs : List Syntax.Attribute) :
    ∀ attr ∈ attributesOf attrs, ∀ segment ∈ attr.path.segments, IsIdentifier segment := by
  intro attr hattr segment hsegment
  obtain ⟨read, -, rfl⟩ := List.mem_map.1 hattr
  obtain ⟨written, -, rfl⟩ := List.mem_map.1 hsegment
  exact written.ident.isIdentifier

namespace LoadState

variable {s s' : LoadState}

theorem decls_addImports (leaves : List Import) (s : LoadState) (module : Nat)
    (scope : LoadState → Scope) :
    (leaves.foldl (fun s leaf => s.addImport module (scope s) leaf) s).decls = s.decls := by
  obtain ⟨f, hf⟩ := exists_addImports_eq leaves s module scope
  rw [hf]
  rfl

theorem decls_addExtern (s : LoadState) (name : String) (macros : Bool) :
    (s.addExtern name macros).decls = s.decls := by
  unfold addExtern
  split <;> rfl

/-- An item that declares no type adds no declaration. -/
theorem decls_addItem (s : LoadState) (module : Nat) (file : FilePath)
    (attributes : List Syntax.Attribute) (visibility : Visibility) (kind : ItemKind) :
    (∃ typeKind ident line generics, kind = .type typeKind ident line generics) ∨
      (s.addItem module file attributes visibility kind).decls = s.decls := by
  cases kind with
  | type kind ident line generics => exact .inl ⟨kind, ident, line, generics, rfl⟩
  | useTree leadingColon tree => exact .inr (decls_addImports _ s module _)
  | externCrate ident newName =>
    right
    rw [← decls_addExtern s ident.name (attributes.any (·.path.isWord "macro_use"))]
    cases newName <;> rfl
  | _ => exact .inr rfl

/-- Reading on never loses a declaration. -/
theorem Steps.decls_subset (h : s.Steps s') : s.decls ⊆ s'.decls := by
  induction h with
  | refl => exact List.Subset.refl _
  | tail _ hstep ih =>
    cases hstep with
    | @item module file attributes visibility kind _ =>
      obtain ⟨typeKind, ident, line, generics, rfl⟩ | hsame :=
        decls_addItem _ module file attributes visibility kind
      · exact List.Subset.trans ih (List.subset_append_left _ _)
      · rwa [hsame]
    | module ident visibility _ => exact ih
    | file file => exact ih

theorem spelled_addItem (h : ∀ decl ∈ s.decls, decl.Spelled) (module : Nat) (file : FilePath)
    (attributes : List Syntax.Attribute) (visibility : Visibility) (kind : ItemKind) :
    ∀ decl ∈ (s.addItem module file attributes visibility kind).decls, decl.Spelled := by
  intro decl hdecl
  obtain ⟨typeKind, ident, line, generics, rfl⟩ | hsame :=
    decls_addItem s module file attributes visibility kind
  · rcases List.mem_append.1 hdecl with hold | hnew
    · exact h decl hold
    · rw [List.mem_singleton.1 hnew]
      exact spelled_attributesOf attributes
  · exact h decl (hsame ▸ hdecl)

theorem Steps.spelled_decls (hsteps : s.Steps s') (h : ∀ decl ∈ s.decls, decl.Spelled) :
    ∀ decl ∈ s'.decls, decl.Spelled := by
  induction hsteps with
  | refl => exact h
  | tail _ hstep ih =>
    cases hstep with
    | item file attributes visibility kind _ => exact spelled_addItem ih _ file attributes visibility kind
    | module ident visibility _ => exact ih
    | file file => exact ih

end LoadState

/-! ## The crates that may start a path -/

namespace LoadState

/-- The same crates may start a path, and the macros of the same ones need no path. -/
structure SameCrates (s s' : LoadState) : Prop where
  name : s'.crateName = s.crateName
  externs : s'.externs = s.externs
  macros : s'.macroCrates = s.macroCrates

theorem sameCrates_addImports (s : LoadState) {module : Nat} (scope : LoadState → Scope)
    (leaves : List Import) :
    SameCrates s (leaves.foldl (fun s leaf => s.addImport module (scope s) leaf) s) := by
  obtain ⟨f, hf⟩ := exists_addImports_eq leaves s module scope
  rw [hf]
  exact ⟨rfl, rfl, rfl⟩

/-- What holds of the names of crates has to be shown of `extern crate` only. -/
theorem Steps.induction_crates {P : LoadState → Prop}
    (hsame : ∀ {s s' : LoadState}, P s → SameCrates s s' → P s')
    (hadd : ∀ (s : LoadState) (ident : Ident) (macros : Bool), P s →
      P (s.addExtern ident.name macros)) {s s' : LoadState} (hsteps : s.Steps s') (h : P s) :
    P s' := by
  have haddItem : ∀ (s : LoadState) (module : Nat) (file : FilePath)
      (attributes : List Syntax.Attribute) (visibility : Visibility) (kind : ItemKind), P s →
      P (s.addItem module file attributes visibility kind) := by
    intro s module file attributes visibility kind h
    cases kind with
    | useTree leadingColon tree => exact hsame h (sameCrates_addImports s _ _)
    | externCrate ident newName =>
      have hcrates := hadd s ident (attributes.any (·.path.isWord "macro_use")) h
      cases newName with
      | none => exact hcrates
      | some newName => exact hsame hcrates ⟨rfl, rfl, rfl⟩
    | _ => exact hsame h ⟨rfl, rfl, rfl⟩
  induction hsteps with
  | refl => exact h
  | tail _ hstep ih =>
    cases hstep with
    | item file attributes visibility kind _ => exact haddItem _ _ file attributes visibility kind ih
    | module ident visibility _ => exact hsame ih ⟨rfl, rfl, rfl⟩
    | file file => exact hsame ih ⟨rfl, rfl, rfl⟩

theorem mem_macroCrates_addExtern {s : LoadState} {name crate : String} (macros : Bool)
    (h : crate ∈ (s.addExtern name macros).macroCrates) : crate ∈ s.macroCrates ∨ crate = name := by
  unfold addExtern at h
  split at h
  · exact .inl h
  · cases macros with
    | true => simpa using h
    | false => exact .inl h

/-- The crate itself may start a path, and so may the crates whose macros need none. -/
structure NamesCrates (s : LoadState) : Prop where
  own : s.crateName ∈ s.externs
  macros : ∀ crate ∈ s.macroCrates, crate ∈ s.externs
  identifier : ∀ crate ∈ s.externs, IsIdentifier crate

namespace NamesCrates

variable {s s' : LoadState}

theorem start {name : String} {dependencies : List String} (hname : IsIdentifier name)
    (hdependencies : ∀ dependency ∈ dependencies, IsIdentifier dependency) :
    (LoadState.start name dependencies).NamesCrates where
  own := by simp [LoadState.start]
  macros := by simp [LoadState.start]
  identifier crate hcrate := by
    have himplicit : ∀ crate ∈ implicitExterns, IsIdentifier crate := by decide
    simp only [LoadState.start, List.mem_append, List.mem_singleton] at hcrate
    rcases hcrate with (hdependency | hknown) | rfl
    · exact hdependencies crate hdependency
    · exact himplicit crate hknown
    · exact hname

theorem addExtern (h : s.NamesCrates) (ident : Ident) (macros : Bool) :
    (s.addExtern ident.name macros).NamesCrates := by
  unfold LoadState.addExtern
  split
  · exact h
  next hnew =>
    refine ⟨List.mem_append_left _ h.own, fun crate hcrate => ?_, fun crate hcrate => ?_⟩
    · have hcases : crate ∈ s.macroCrates ∨ crate = ident.name := by
        refine mem_macroCrates_addExtern macros ?_
        rwa [LoadState.addExtern, if_neg hnew]
      rcases hcases with hold | rfl
      · exact List.mem_append_left _ (h.macros crate hold)
      · exact List.mem_append_right _ (List.mem_singleton.2 rfl)
    · rcases List.mem_append.1 hcrate with hold | hnew
      · exact h.identifier crate hold
      · rw [List.mem_singleton.1 hnew]
        exact ident.isIdentifier

theorem steps (h : s.NamesCrates) (hsteps : s.Steps s') : s'.NamesCrates := by
  refine hsteps.induction_crates (fun {s s'} h hsame => ?_)
    (fun s ident macros h => h.addExtern ident macros) h
  obtain ⟨hname, hcrates, hmacros⟩ := hsame
  exact ⟨hname ▸ hcrates ▸ h.own, hmacros ▸ hcrates ▸ h.macros, hcrates ▸ h.identifier⟩

end NamesCrates

/-- The crate's own name is an identifier, and so are those of the crates whose macros need none. -/
structure SpellsCrates (s : LoadState) : Prop where
  own : IsIdentifier s.crateName
  macros : ∀ crate ∈ s.macroCrates, IsIdentifier crate

theorem SpellsCrates.steps {s s' : LoadState} (h : s.SpellsCrates) (hsteps : s.Steps s') :
    s'.SpellsCrates := by
  refine hsteps.induction_crates (fun {s s'} h hsame => ?_) (fun s ident macros h => ⟨?_, ?_⟩) h
  · exact ⟨hsame.name ▸ h.own, hsame.macros ▸ h.macros⟩
  · have hname : (s.addExtern ident.name macros).crateName = s.crateName := by
      unfold addExtern
      split <;> rfl
    exact hname ▸ h.own
  · intro crate hcrate
    rcases mem_macroCrates_addExtern macros hcrate with hold | rfl
    · exact h.macros crate hold
    · exact ident.isIdentifier

end LoadState

theorem mem_insertSorted {name other : String} {names : List String} :
    other ∈ insertSorted name names ↔ other = name ∨ other ∈ names := by
  induction names with
  | nil => simp [insertSorted]
  | cons first names ih =>
    unfold insertSorted
    split
    · simp
    · split
      next hfirst => simp [hfirst]
      · simp only [List.mem_cons, ih]
        exact or_left_comm

theorem mem_sortNames {name : String} {names : List String} :
    name ∈ sortNames names ↔ name ∈ names := by
  -- the fold starts from the names that are sorted already
  suffices h : ∀ sorted, name ∈ names.foldl (fun sorted name => insertSorted name sorted) sorted ↔
      name ∈ names ∨ name ∈ sorted by
    simpa [sortNames] using h []
  induction names with
  | nil => simp
  | cons first names ih =>
    intro sorted
    rw [List.foldl_cons, ih, mem_insertSorted, List.mem_cons]
    exact or_left_comm.trans or_assoc.symm

/-- The crates that may start a path are identifiers, and so is the crate's own name among them. -/
structure NamesCrates (c : Crate) : Prop where
  own : c.isExtern c.name = true
  macros : ∀ crate ∈ c.macroCrates, c.isExtern crate = true
  identifier : ∀ crate, c.isExtern crate = true → IsIdentifier crate

/-- The crate's own name is an identifier, and so are those of the crates whose macros need none. -/
structure SpellsCrates (c : Crate) : Prop where
  own : IsIdentifier c.name
  macros : ∀ crate ∈ c.macroCrates, IsIdentifier crate

/-! ## Crates that are read -/

/-- A crate that is read and passes a test has what follows from the two. -/
theorem exists_loaded_of_any {result : Except LoadError Crate} (test : Crate → Bool)
    (h : result.toOption.any test = true) {P : Crate → Prop}
    (hP : ∀ c, result = .ok c → test c = true → P c) : ∃ c, result = .ok c ∧ P c := by
  cases result with
  | error error => cases h
  | ok c => exact ⟨c, rfl, hP c rfl h⟩

theorem exists_loaded_of_decide {result : Except LoadError Crate} {P : Crate → Prop}
    [∀ c, Decidable (P c)] (h : result.toOption.any (fun c => decide (P c)) = true) :
    ∃ c, result = .ok c ∧ P c :=
  exists_loaded_of_any (fun c => decide (P c)) h fun _ _ htest => of_decide_eq_true htest

theorem steps_of_load {sources : Sources} {name : String} {dependencies : List String}
    {root : FilePath} {c : Crate} (h : load sources name dependencies root = .ok c) :
    ∃ s, ((LoadState.start name dependencies).addModule (Module.new [] none .crate)).Steps s ∧
      c = s.finish := by
  unfold load at h
  cases hfile : loadFile sources sources.depth ⟨root, true⟩ (Module.new [] none .crate)
      (LoadState.start name dependencies) with
  | error error => rw [hfile] at h; cases h
  | ok s =>
    rw [hfile] at h
    exact ⟨s, LoadState.steps_loadFile hfile, (Except.ok.inj h).symm⟩

theorem moduleTree_of_load {sources : Sources} {name : String} {dependencies : List String}
    {root : FilePath} {c : Crate} (h : load sources name dependencies root = .ok c) :
    ModuleTree c.modules := by
  obtain ⟨s, hsteps, rfl⟩ := steps_of_load h
  exact (ModuleTree.singleton .crate).steps hsteps

theorem spelled_decls_of_load {sources : Sources} {name : String} {dependencies : List String}
    {root : FilePath} {c : Crate} (h : load sources name dependencies root = .ok c) :
    ∀ decl ∈ c.decls, decl.Spelled := by
  obtain ⟨s, hsteps, rfl⟩ := steps_of_load h
  exact hsteps.spelled_decls (by simp [LoadState.start, LoadState.addModule])

theorem namesCrates_of_load {sources : Sources} {name : String} {dependencies : List String}
    {root : FilePath} {c : Crate} (h : load sources name dependencies root = .ok c)
    (hname : IsIdentifier name)
    (hdependencies : ∀ dependency ∈ dependencies, IsIdentifier dependency) : c.NamesCrates := by
  obtain ⟨s, hsteps, rfl⟩ := steps_of_load h
  have hstart : ((LoadState.start name dependencies).addModule
      (Module.new [] none .crate)).NamesCrates :=
    let h := LoadState.NamesCrates.start hname hdependencies
    ⟨h.own, h.macros, h.identifier⟩
  have hs : s.NamesCrates := hstart.steps hsteps
  have hmem : ∀ crate, s.finish.isExtern crate = true ↔ crate ∈ s.externs := by
    intro crate
    rw [isExtern, List.contains_iff_mem]
    exact mem_sortNames
  exact ⟨(hmem _).2 hs.own, fun crate hcrate => (hmem _).2 (hs.macros crate hcrate),
    fun crate hcrate => hs.identifier crate ((hmem _).1 hcrate)⟩

theorem spellsCrates_of_load {sources : Sources} {name : String} {dependencies : List String}
    {root : FilePath} {c : Crate} (h : load sources name dependencies root = .ok c)
    (hname : IsIdentifier name) : c.SpellsCrates := by
  obtain ⟨s, hsteps, rfl⟩ := steps_of_load h
  have hstart : ((LoadState.start name dependencies).addModule
      (Module.new [] none .crate)).SpellsCrates :=
    ⟨hname, by simp [LoadState.start, LoadState.addModule]⟩
  have hs : s.SpellsCrates := hstart.steps hsteps
  exact ⟨hs.own, hs.macros⟩

end JobRoster.Crate
