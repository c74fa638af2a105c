import JobRoster.Proofs.Crate.Externs
import JobRoster.Proofs.Crate.Reference

/-!
# What every crate that is read is like

Whatever a crate is read from, its modules are a tree below the root, its declarations and constants
stand in modules that declare their names, and the look-ups by canonical path and by the name of a
crate find what they are meant to find.
-/

namespace JobRoster.Crate

open Files Syntax

/-! ## The root -/

namespace LoadState

variable {s s' : LoadState} {scope : Scope}

/-- Reading on leaves the parent of the first module as it is. -/
theorem Steps.parent_root (h : s.Steps s') {m : Module} (hm : s.modules[0]? = some m) :
    ∃ m', s'.modules[0]? = some m' ∧ m'.parent = m.parent := by
  obtain ⟨m', hm', hgrows⟩ := h.exists_after hm
  exact ⟨m', hm', hgrows.parent⟩

end LoadState

/-! ## Constants where they stand -/

/-- A constant stands in a module that declares its name, and its identity is its path there. -/
def ConstItem.Placed (crateName : String) (modules : List Module) (item : ConstItem) : Prop :=
  ∃ m name, modules[item.module]? = some m ∧ m.declares name = true ∧
    item.identity = canonical crateName m.path [name]

namespace ConstItem.Placed

variable {crateName : String} {modules : List Module} {item : ConstItem}

theorem growsAt {s s' : LoadState} {module : Nat} (h : item.Placed crateName s.modules)
    (hgrows : s.GrowsAt module s') : item.Placed crateName s'.modules := by
  obtain ⟨m, name, hm, hdeclares, hidentity⟩ := h
  obtain ⟨m', hm', hgrown⟩ := hgrows.exists_after hm
  exact ⟨m', name, hm', hgrown.declares _ hdeclares, by rw [hidentity, hgrown.path]⟩

theorem append (h : item.Placed crateName modules) (more : List Module) :
    item.Placed crateName (modules ++ more) := by
  obtain ⟨m, name, hm, hrest⟩ := h
  have hlt : item.module < modules.length := (List.getElem?_eq_some_iff.1 hm).1
  exact ⟨m, name, by rw [List.getElem?_append_left hlt, hm], hrest⟩

end ConstItem.Placed

namespace LoadState

variable {s s' : LoadState}

theorem consts_addImports (leaves : List Import) (s : LoadState) (module : Nat)
    (scope : LoadState → Scope) :
    (leaves.foldl (fun s leaf => s.addImport module (scope s) leaf) s).consts = s.consts := by
  obtain ⟨f, hf⟩ := exists_addImports_eq leaves s module scope
  rw [hf]
  rfl

theorem consts_addExtern (s : LoadState) (name : String) (macros : Bool) :
    (s.addExtern name macros).consts = s.consts := by
  unfold addExtern
  split <;> rfl

theorem placed_consts_addItem {module : Nat} (hmodule : module < s.modules.length)
    (h : ∀ item ∈ s.consts, item.Placed s.crateName s.modules) (file : FilePath)
    (attributes : List Syntax.Attribute) (visibility : Visibility) (kind : ItemKind) :
    ∀ item ∈ (s.addItem module file attributes visibility kind).consts,
      item.Placed s.crateName (s.addItem module file attributes visibility kind).modules := by
  intro item hitem
  have hgrows := growsAt_addItem s module file attributes visibility kind
  cases kind with
  | const ident value =>
    obtain hold | hnew := List.mem_append.1 hitem
    · exact (h item hold).growsAt hgrows
    · -- the new constant, whose name the module has just been given
      rw [List.mem_singleton.1 hnew]
      obtain ⟨m, hm⟩ : ∃ m, s.modules[module]? = some m := ⟨_, List.getElem?_eq_getElem hmodule⟩
      refine ⟨{ m with names := m.names.insert ident.name }, ident.name, ?_, ?_, ?_⟩
      · simp [addItem, addConst, addName, modifyModule, hm]
      · simp [Module.declares]
      · simp [identityOf, modulePath, hm]
  | useTree leadingColon tree =>
    exact (h item (consts_addImports _ s module _ ▸ hitem)).growsAt hgrows
  | externCrate ident newName =>
    have hsame : (s.addItem module file attributes visibility (.externCrate ident newName)).consts =
        s.consts := by
      rw [← consts_addExtern s ident.name (attributes.any (·.path.isWord "macro_use"))]
      cases newName <;> rfl
    exact (h item (hsame ▸ hitem)).growsAt hgrows
  | _ => exact (h item hitem).growsAt hgrows

theorem Steps.placed_consts (hsteps : s.Steps s')
    (h : ∀ item ∈ s.consts, item.Placed s.crateName s.modules) :
    ∀ item ∈ s'.consts, item.Placed s'.crateName s'.modules := by
  induction hsteps with
  | refl => exact h
  | tail _ hstep ih =>
    cases hstep with
    | item file attributes visibility kind hmodule =>
      rw [crateName_addItem]
      exact placed_consts_addItem hmodule ih file attributes visibility kind
    | @module parent ident scope hparent =>
      intro item hitem
      exact ((ih item hitem).growsAt (growsAt_addName _ parent ident.name)).append _
    | file file => exact ih

theorem Steps.crateName_eq (hsteps : s.Steps s') : s'.crateName = s.crateName := by
  induction hsteps with
  | refl => rfl
  | tail _ hstep ih =>
    cases hstep with
    | item file attributes visibility kind _ => rw [crateName_addItem, ih]
    | module ident visibility _ => exact ih
    | file file => exact ih

end LoadState

/-! ## Look-ups -/

variable {c : Crate}

/-- The path of a module leads to a module of that very path. -/
theorem exists_moduleNamed? (htree : ModuleTree c.modules) {m : Module} (hm : m ∈ c.modules) :
    ∃ index m', c.moduleNamed? (c.canonicalIn m.path []) = some index ∧
      c.modules[index]? = some m' ∧ m'.path = m.path := by
  cases hfound : c.moduleNamed? (c.canonicalIn m.path []) with
  | none =>
    -- the module itself has that path, so the search cannot miss
    have hnone := lastIndex?_eq_none_iff.1 hfound m hm
    simp at hnone
  | some index =>
    obtain ⟨m', hm', hpath⟩ := exists_module_of_moduleNamed? hfound
    exact ⟨index, m', rfl, hm', canonicalIn_injective
      (htree.spelled m' (List.mem_of_getElem? hm')).path (htree.spelled m hm).path hpath⟩

theorem exists_constNamed? {item : ConstItem} (hitem : item ∈ c.consts) :
    ∃ item' ∈ c.consts, c.constNamed? item.identity = some item' ∧
      item'.identity = item.identity := by
  cases hfound : c.constNamed? item.identity with
  | none =>
    have hnone := List.find?_eq_none.1 hfound item (List.mem_reverse.2 hitem)
    simp at hnone
  | some item' =>
    have hidentity := List.find?_some hfound
    exact ⟨item', List.mem_reverse.1 (List.mem_of_find?_eq_some hfound), rfl,
      of_decide_eq_true hidentity⟩

/-! ## The whole crate -/

/-- What a crate called `name` is like, read from `sources` with some dependencies. -/
structure Coherent (sources : Sources) (name : String) (dependencies : List String) (c : Crate) :
    Prop where
  /-- The first module is the root. -/
  root : ∃ m, c.modules[0]? = some m ∧ m.parent = none ∧ m.path = []
  /-- Any other one is in a module before it, which declares its name. -/
  below : ∀ index m, c.modules[index]? = some m → index ≠ 0 → ∃ parent p name,
    parent < index ∧ c.modules[parent]? = some p ∧ m.parent = some parent ∧
      m.path = p.path ++ [name] ∧ p.declares name = true
  decl : ∀ decl ∈ c.decls, ∃ m, c.modules[decl.module]? = some m ∧
    m.declares decl.name = true ∧
      decl.identity = Text.joinSegments (name :: m.path ++ [decl.name])
  const : ∀ item ∈ c.consts, ∃ m itemName, c.modules[item.module]? = some m ∧
    m.declares itemName = true ∧ item.identity = Text.joinSegments (name :: m.path ++ [itemName])
  moduleNamed : ∀ m ∈ c.modules, ∃ index m',
    c.moduleNamed? (Text.joinSegments (name :: m.path)) = some index ∧
      c.modules[index]? = some m' ∧ m'.path = m.path
  constNamed : ∀ item ∈ c.consts, ∃ item' ∈ c.consts,
    c.constNamed? item.identity = some item' ∧ item'.identity = item.identity
  externs : InOrder c.externs
  /-- Looking for a crate by halving the list of crates finds it if it is there. -/
  bisect : ∀ crate, c.isExtern crate = Crate.bisect crate c.externs
  isExtern : ∀ crate, c.isExtern crate = true ↔
    crate ∈ dependencies ∨ crate ∈ ["alloc", "core", "std"] ∨ crate = name ∨
      NamedIn sources c.files crate

/-- Every crate that is read is coherent. Its name and those of its dependencies are taken as paths
    write them, with `_` for `-`. -/
theorem coherent_of_load {sources : Sources} {name : String} {dependencies : List String}
    {root : FilePath}
    (h : load sources (pathName name) (dependencies.map pathName) root = .ok c) :
    c.Coherent sources (pathName name) (dependencies.map pathName) := by
  have htree := moduleTree_of_load h
  have hdecls := placed_decls_of_load h
  have hexterns := isExtern_iff_of_load h
  obtain ⟨s, hsteps, rfl⟩ := steps_of_load h
  have hname : s.finish.name = pathName name := hsteps.crateName_eq
  have hconsts : ∀ item ∈ s.finish.consts, item.Placed s.finish.name s.finish.modules :=
    hsteps.placed_consts (by simp [LoadState.start, LoadState.addModule])
  have horder : InOrder s.finish.externs := inOrder_sortNames s.externs
  constructor
  case root =>
    obtain ⟨m, hm, hpath⟩ := htree.root
    obtain ⟨m', hm', hparent⟩ := hsteps.parent_root rfl
    obtain rfl : m' = m := Option.some.inj (hm'.symm.trans hm)
    exact ⟨m', hm, hparent, hpath⟩
  case below => exact htree.below
  case decl =>
    intro decl hdecl
    rw [← hname]
    exact (hdecls decl hdecl).within
  case const =>
    intro item hitem
    rw [← hname]
    exact hconsts item hitem
  case moduleNamed =>
    intro m hm
    obtain ⟨index, m', hfound, hm'⟩ := exists_moduleNamed? htree hm
    rw [canonicalIn_eq_extend, List.append_nil, hname] at hfound
    exact ⟨index, m', hfound, hm'⟩
  case constNamed => exact fun item hitem => exists_constNamed? hitem
  case externs => exact horder
  case bisect => exact fun crate => (bisect_eq_contains horder crate).symm
  case isExtern => exact hexterns

/-- A module written in place, one with a file, and a crate that is named in each. -/
theorem coherent_of_load_nested :
    let sources := Sources.ofTexts
      [(⟨"lib.rs"⟩, "mod a \x7b extern crate serde as s; const N: &str = \"n\"; mod b; \x7d"),
        (⟨"a/b.rs"⟩, "extern crate log; struct T;")]
    ∃ c, load sources (pathName "my-app") (["job-kit"].map pathName) ⟨"lib.rs"⟩ = .ok c ∧
      c.externs = ["alloc", "core", "job_kit", "log", "my_app", "serde", "std"] ∧
      c.Coherent sources (pathName "my-app") (["job-kit"].map pathName) := by
  intro sources
  refine exists_loaded_of_any (fun c => c.externs =
    ["alloc", "core", "job_kit", "log", "my_app", "serde", "std"]) (by decide +kernel)
    fun c hload htest => ?_
  exact ⟨of_decide_eq_true htest, coherent_of_load hload⟩

end JobRoster.Crate
