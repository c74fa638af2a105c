import Mathlib.Data.List.ReduceOption
import JobRoster.Proofs.Crate.Restricted

/-!
# Imports, leaf by leaf

A tree of imports is a short way to write its leaves. Loading the tree does what loading one import
for each leaf does, in the order in which the leaves are written: every leaf adds what its own
words say to the module that it stands in, and no other part of the crate is touched.
-/

namespace JobRoster.Crate

open Files Syntax

/-! ## Leaves -/

/-- What a branch of a tree of imports ends in. -/
inductive UseEnd where
  | name (ident : Ident)
  | rename (ident newName : Ident)
  | glob

def UseEnd.tree : UseEnd → UseTree
  | name ident => .name ident
  | rename ident newName => .rename ident newName
  | glob => .glob

/-- A leaf of a tree of imports, behind the words that lead to it. -/
structure UseLeaf where
  path : List Ident
  ending : UseEnd

namespace UseLeaf

/-- The leaf with one more word in front. -/
def behind (ident : Ident) (leaf : UseLeaf) : UseLeaf :=
  { leaf with path := ident :: leaf.path }

/-- The tree that is this leaf alone. -/
def tree (leaf : UseLeaf) : UseTree :=
  leaf.path.foldr .path leaf.ending.tree

end UseLeaf

mutual

/-- The leaves of a tree of imports, in order. -/
def leavesOf : UseTree → List UseLeaf
  | .path ident tree => (leavesOf tree).map (.behind ident)
  | .name ident => [⟨[], .name ident⟩]
  | .rename ident newName => [⟨[], .rename ident newName⟩]
  | .glob => [⟨[], .glob⟩]
  | .group trees => leavesOfAll trees

def leavesOfAll : List UseTree → List UseLeaf
  | [] => []
  | tree :: trees => leavesOf tree ++ leavesOfAll trees

end

/-- A tree without groups has one leaf. -/
theorem leavesOf_tree (leaf : UseLeaf) : leavesOf leaf.tree = [leaf] := by
  obtain ⟨path, ending⟩ := leaf
  induction path with
  | nil => cases ending <;> rfl
  | cons ident path ih =>
    have htree : (UseLeaf.mk (ident :: path) ending).tree =
      .path ident (UseLeaf.mk path ending).tree := rfl
    rw [htree, leavesOf, ih]
    rfl

/-! ## What a leaf imports -/

/-- A path of imports by the names of its words. -/
def usePath (leadingColon : Bool) (words : List Ident) : ItemPath :=
  ⟨leadingColon, words.map (·.name)⟩

namespace UseLeaf

/-- What one leaf imports. The word `self` at the end stands for the path in front of it, and for
    nothing where there is none; what is called `_` is imported without a name. -/
inductive Imports (leadingColon : Bool) : UseLeaf → Option Import → Prop
  | name {path : List Ident} {ident : Ident} (hself : ident.name ≠ "self") :
      Imports leadingColon ⟨path, .name ident⟩
        (some (.binding ident.name (usePath leadingColon (path ++ [ident]))))
  | self {path : List Ident} {last ident : Ident} (hself : ident.name = "self") :
      Imports leadingColon ⟨path ++ [last], .name ident⟩
        (some (.binding last.name (usePath leadingColon (path ++ [last]))))
  | bareSelf {ident : Ident} (hself : ident.name = "self") :
      Imports leadingColon ⟨[], .name ident⟩ none
  | rename {path : List Ident} {ident newName : Ident} (hself : ident.name ≠ "self")
      (hnew : newName.name ≠ "_") :
      Imports leadingColon ⟨path, .rename ident newName⟩
        (some (.binding newName.name (usePath leadingColon (path ++ [ident]))))
  | renameSelf {path : List Ident} {ident newName : Ident} (hself : ident.name = "self")
      (hnew : newName.name ≠ "_") :
      Imports leadingColon ⟨path, .rename ident newName⟩
        (some (.binding newName.name (usePath leadingColon path)))
  | underscore {path : List Ident} {ident newName : Ident} (hnew : newName.name = "_") :
      Imports leadingColon ⟨path, .rename ident newName⟩ none
  | glob {path : List Ident} :
      Imports leadingColon ⟨path, .glob⟩ (some (.glob (usePath leadingColon path)))

end UseLeaf

theorem push_usePath (leadingColon : Bool) (words : List Ident) (ident : Ident) :
    (usePath leadingColon words).push ident.name = usePath leadingColon (words ++ [ident]) := by
  simp [usePath, ItemPath.push]

namespace Import

/-- The words in front of a leaf come to be its base. -/
theorem ofTree_foldr_path (leadingColon : Bool) (before path : List Ident) (last : UseTree) :
    ofTree (usePath leadingColon before) (path.foldr .path last) =
      ofTree (usePath leadingColon (before ++ path)) last := by
  induction path generalizing before with
  | nil => rw [List.append_nil, List.foldr_nil]
  | cons ident path ih =>
    rw [List.foldr_cons, ofTree, push_usePath, ih, List.append_assoc, List.singleton_append]

theorem ofTree_leaf (leadingColon : Bool) (leaf : UseLeaf) :
    ofTree ⟨leadingColon, []⟩ leaf.tree =
      ofTree (usePath leadingColon leaf.path) leaf.ending.tree :=
  ofTree_foldr_path leadingColon [] leaf.path leaf.ending.tree

/-- A leaf is read as what it imports. -/
theorem exists_imports (leadingColon : Bool) (leaf : UseLeaf) :
    ∃ found, leaf.Imports leadingColon found ∧
      ofTree ⟨leadingColon, []⟩ leaf.tree = found.toList := by
  rw [ofTree_leaf]
  obtain ⟨path, ending⟩ := leaf
  cases ending with
  | glob => exact ⟨_, .glob, rfl⟩
  | name ident =>
    by_cases hself : ident.name = "self"
    · obtain rfl | ⟨before, last, rfl⟩ := List.eq_nil_or_concat path
      · refine ⟨none, .bareSelf hself, ?_⟩
        simp [UseEnd.tree, ofTree, ofName, hself, usePath, ItemPath.last?]
      · rw [List.concat_eq_append]
        refine ⟨_, .self hself, ?_⟩
        simp [UseEnd.tree, ofTree, ofName, hself, usePath, ItemPath.last?]
    · refine ⟨_, .name hself, ?_⟩
      simp [UseEnd.tree, ofTree, ofName, hself, push_usePath]
  | rename ident newName =>
    by_cases hnew : newName.name = "_"
    · refine ⟨none, .underscore hnew, ?_⟩
      simp [UseEnd.tree, ofTree, ofRename, hnew]
    · by_cases hself : ident.name = "self"
      · refine ⟨_, .renameSelf hself hnew, ?_⟩
        simp [UseEnd.tree, ofTree, ofRename, hself, hnew]
      · refine ⟨_, .rename hself hnew, ?_⟩
        simp [UseEnd.tree, ofTree, ofRename, hself, hnew, push_usePath]

theorem exists_allImports (leadingColon : Bool) (leaves : List UseLeaf) :
    ∃ imports, List.Forall₂ (UseLeaf.Imports leadingColon) leaves imports ∧
      leaves.flatMap (fun leaf => ofTree ⟨leadingColon, []⟩ leaf.tree) = imports.reduceOption := by
  induction leaves with
  | nil => exact ⟨[], .nil, rfl⟩
  | cons leaf leaves ih =>
    obtain ⟨found, hfound, hleaf⟩ := exists_imports leadingColon leaf
    obtain ⟨imports, himports, hleaves⟩ := ih
    refine ⟨found :: imports, .cons hfound himports, ?_⟩
    rw [List.flatMap_cons, hleaf, hleaves]
    cases found <;> rfl

mutual

/-- A tree is read leaf by leaf. -/
theorem ofTree_eq_flatMap (base : ItemPath) :
    ∀ tree, ofTree base tree = (leavesOf tree).flatMap fun leaf => ofTree base leaf.tree
  | .path ident tree => by
    rw [ofTree, leavesOf, List.flatMap_map, ofTree_eq_flatMap (base.push ident.name) tree]
    rfl
  | .name ident => (List.flatMap_singleton _ _).symm
  | .rename ident newName => (List.flatMap_singleton _ _).symm
  | .glob => (List.flatMap_singleton _ _).symm
  | .group trees => ofTrees_eq_flatMap base trees

theorem ofTrees_eq_flatMap (base : ItemPath) :
    ∀ trees, ofTrees base trees = (leavesOfAll trees).flatMap fun leaf => ofTree base leaf.tree
  | [] => rfl
  | tree :: trees => by
    rw [ofTrees, leavesOfAll, List.flatMap_append, ofTree_eq_flatMap base tree,
      ofTrees_eq_flatMap base trees]

end

/-- What is kept of an import with a scope, where it names something. -/
def binding? (scope : Scope) : Import → Option Binding
  | binding name target => some ⟨name, target, scope⟩
  | glob _ => none

/-- What is kept of an import with a scope, where it names nothing. -/
def glob? (scope : Scope) : Import → Option Glob
  | binding _ _ => none
  | glob target => some ⟨target, scope⟩

end Import

/-! ## Adding imports -/

/-- The module with further imports behind those that it has. -/
def Module.withImports (m : Module) (scope : Scope) (imports : List Import) : Module :=
  { m with
    bindings := m.bindings ++ imports.filterMap (·.binding? scope)
    globs := m.globs ++ imports.filterMap (·.glob? scope) }

theorem Module.withImports_nil (m : Module) (scope : Scope) : m.withImports scope [] = m := by
  simp [withImports]

theorem Module.withImports_cons (m : Module) (scope : Scope) (first : Import)
    (imports : List Import) :
    m.withImports scope (first :: imports) =
      (m.withImports scope [first]).withImports scope imports := by
  cases first <;> simp [withImports, Import.binding?, Import.glob?]

namespace LoadState

theorem addImport_eq (s : LoadState) (module : Nat) (scope : Scope) (leaf : Import) :
    s.addImport module scope leaf = s.modifyModule module (·.withImports scope [leaf]) := by
  cases leaf <;> simp [addImport, addBinding, modifyModule, Module.withImports, Import.binding?,
    Import.glob?]

/-- Imports of one item are added behind each other, all with the scope of the item. -/
theorem addImports_eq {imports : List Import} (himports : ∀ leaf ∈ imports, leaf.Spelled)
    (s : LoadState) (module : Nat) (visibility : Visibility) :
    imports.foldl (fun s leaf => s.addImport module (s.scopeOf module visibility) leaf) s =
      s.modifyModule module (·.withImports (s.scopeOf module visibility) imports) := by
  induction imports generalizing s with
  | nil =>
    have hid : (fun m : Module => m.withImports (s.scopeOf module visibility) []) = id :=
      funext fun m => m.withImports_nil _
    simp [modifyModule, hid]
  | cons leaf imports ih =>
    obtain ⟨hleaf, hrest⟩ := List.forall_mem_cons.1 himports
    have hscope : (s.addImport module (s.scopeOf module visibility) leaf).scopeOf module visibility =
        s.scopeOf module visibility :=
      (growsAt_addImport hleaf _).scopeOf_eq module visibility
    rw [List.foldl_cons, ih hrest, hscope, addImport_eq]
    simp [modifyModule, Function.comp_def, List.modify_modify_eq, ← Module.withImports_cons]

end LoadState

/-! ## Loading a tree of imports -/

section Loading

variable (site : ItemSite) (s : LoadState) (attributes : List Syntax.Attribute)
  (visibility : Visibility) (leadingColon : Bool)

/-- The item that a leaf is when it is written on its own. -/
def UseLeaf.item (leaf : UseLeaf) : Item :=
  .plain attributes visibility (.useTree leadingColon leaf.tree)

theorem addItem_useTree (tree : UseTree) :
    s.addItem site.module site.file attributes visibility (.useTree leadingColon tree) =
      (leavesOf tree).foldl (fun s leaf => s.addItem site.module site.file attributes visibility
        (.useTree leadingColon leaf.tree)) s := by
  rw [LoadState.addItem, Import.ofTree_eq_flatMap, List.foldl_flatMap]
  rfl

variable (sources : Sources) (load : FileLoader)

/-- Leaves that are written on their own are added one by one. -/
theorem collectItems_leaves (hkept : attributes.any isTestOnly = false) (leaves : List UseLeaf)
    (rest : List Item) :
    collectItems sources load site s
        (leaves.map (·.item attributes visibility leadingColon) ++ rest) =
      collectItems sources load site
        (leaves.foldl (fun s leaf => s.addItem site.module site.file attributes visibility
          (.useTree leadingColon leaf.tree)) s) rest := by
  induction leaves generalizing s with
  | nil => rfl
  | cons leaf leaves ih =>
    rw [List.map_cons, List.cons_append, collectItems, UseLeaf.item, collectItem, hkept]
    exact ih _

/-- What is kept for tests alone is left out, however it is written. -/
theorem collectItems_leaves_of_isTestOnly (htest : attributes.any isTestOnly = true)
    (leaves : List UseLeaf) (rest : List Item) :
    collectItems sources load site s
        (leaves.map (·.item attributes visibility leadingColon) ++ rest) =
      collectItems sources load site s rest := by
  induction leaves with
  | nil => rfl
  | cons leaf leaves ih =>
    rw [List.map_cons, List.cons_append, collectItems, UseLeaf.item, collectItem, htest]
    exact ih

/-- Loading a tree of imports is loading its leaves, each as an import of its own. It adds to the
    module in which it stands what the leaves import, in order and with the scope that the item has
    there, and changes nothing else. -/
theorem collectItems_useTree (tree : UseTree) (rest : List Item) :
    (∀ leaf, leavesOf (UseLeaf.tree leaf) = [leaf]) ∧
    collectItems sources load site s
        (.plain attributes visibility (.useTree leadingColon tree) :: rest) =
      collectItems sources load site s
        ((leavesOf tree).map (·.item attributes visibility leadingColon) ++ rest) ∧
    ∃ imports, List.Forall₂ (UseLeaf.Imports leadingColon) (leavesOf tree) imports ∧
      collectItem sources load site s
          (.plain attributes visibility (.useTree leadingColon tree)) =
        .ok (if attributes.any isTestOnly then s
          else
            { s with
              modules := s.modules.modify site.module fun m =>
                { m with
                  bindings := m.bindings ++ imports.reduceOption.filterMap
                    (·.binding? (s.scopeOf site.module visibility))
                  globs := m.globs ++ imports.reduceOption.filterMap
                    (·.glob? (s.scopeOf site.module visibility)) } }) := by
  refine ⟨leavesOf_tree, ?_, ?_⟩
  · rw [collectItems, collectItem]
    cases htest : attributes.any isTestOnly with
    | true =>
      rw [collectItems_leaves_of_isTestOnly _ _ _ _ _ _ _ htest]
      rfl
    | false =>
      rw [collectItems_leaves _ _ _ _ _ _ _ htest, ← addItem_useTree]
      rfl
  · obtain ⟨imports, himports, hleaves⟩ :=
      Import.exists_allImports leadingColon (leavesOf tree)
    refine ⟨imports, himports, ?_⟩
    have hspelled : ∀ leaf ∈ Import.ofTree ⟨leadingColon, []⟩ tree, leaf.Spelled :=
      Import.spelled_ofTree (by simp) tree
    rw [Import.ofTree_eq_flatMap, hleaves] at hspelled
    have hadd : s.addItem site.module site.file attributes visibility
        (.useTree leadingColon tree) = s.modifyModule site.module
          (·.withImports (s.scopeOf site.module visibility) imports.reduceOption) := by
      rw [LoadState.addItem, Import.ofTree_eq_flatMap, hleaves]
      exact LoadState.addImports_eq hspelled s site.module visibility
    rw [collectItem, hadd]
    cases attributes.any isTestOnly <;> rfl

end Loading

end JobRoster.Crate
