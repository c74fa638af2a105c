import JobRoster.Proofs.Crate.Paths
import JobRoster.Proofs.Crate.Reading
import JobRoster.Proofs.Syntax.DeclaredNames

/-!
# Declared names in paths

The names that the modules of a crate declare are those of its items. All of them are identifiers,
and none is a word that leads a path into the crate, so a path may start with any of them.
-/

namespace JobRoster.Crate

open Files Syntax Text

/-- A name that a path may start with, where it is declared. -/
structure Nameable (name : String) : Prop where
  identifier : IsIdentifier name
  keyword : name ∉ pathKeywords

theorem nameable_of_declarable {ident : Ident} (h : ident.Declarable) : Nameable ident.name := by
  refine ⟨ident.isIdentifier, fun hkeyword => ?_⟩
  have hall : ∀ word ∈ pathKeywords, word ∈ Lexer.unraw ∧ word ≠ "_" := by decide
  obtain ⟨hunraw, hne⟩ := hall _ hkeyword
  exact hne (h hunraw)

namespace LoadState

/-- All names that modules declare so far are nameable. -/
def NamesNameable (s : LoadState) : Prop :=
  ∀ m ∈ s.modules, ∀ name ∈ m.names, Nameable name

namespace NamesNameable

variable {s : LoadState} (h : s.NamesNameable)
include h

theorem modifyModule (module : Nat) {f : Module → Module}
    (hf : ∀ m : Module, (∀ name ∈ m.names, Nameable name) → ∀ name ∈ (f m).names, Nameable name) :
    (s.modifyModule module f).NamesNameable := by
  intro m' hm'
  obtain ⟨index, hindex⟩ := List.mem_iff_getElem?.1 hm'
  obtain ⟨m, hm, rfl | ⟨-, rfl⟩⟩ := eq_or_eq_of_getElem?_modify hindex
  · exact h _ (List.mem_of_getElem? hm)
  · exact hf m (h m (List.mem_of_getElem? hm))

theorem addModule (path : List String) (parent : Option Nat) (scope : Scope) :
    (s.addModule (Module.new path parent scope)).NamesNameable := by
  intro m hm
  rcases List.mem_append.1 hm with hold | hnew
  · exact h m hold
  · rw [List.mem_singleton.1 hnew]
    exact List.forall_mem_nil _

theorem addName (module : Nat) {name : String} (hname : Nameable name) :
    (s.addName module name).NamesNameable := by
  refine h.modifyModule module fun m hm other hother => ?_
  rcases List.mem_insert_iff.1 hother with rfl | hold
  · exact hname
  · exact hm other hold

theorem addImport (module : Nat) (scope : Scope) (leaf : Import) :
    (s.addImport module scope leaf).NamesNameable := by
  cases leaf with
  | binding name target => exact h.modifyModule module fun _ => id
  | glob target => exact h.modifyModule module fun _ => id

theorem addImports (module : Nat) (scope : LoadState → Scope) (leaves : List Import) :
    (leaves.foldl (fun s leaf => s.addImport module (scope s) leaf) s).NamesNameable := by
  induction leaves generalizing s with
  | nil => exact h
  | cons leaf leaves ih => exact ih (h.addImport module (scope s) leaf)

theorem addExtern (name : String) (macros : Bool) : (s.addExtern name macros).NamesNameable := by
  rw [NamesNameable, modules_addExtern]
  exact h

theorem addItem (module : Nat) (file : FilePath) (attributes : List Syntax.Attribute)
    (visibility : Visibility) {kind : ItemKind}
    (hkind : ∀ ident, kind.declared? = some ident → ident.Declarable) :
    (s.addItem module file attributes visibility kind).NamesNameable := by
  cases kind with
  | type kind ident line generics =>
    exact h.addName module (nameable_of_declarable (hkind ident rfl))
  | const ident value => exact h.addName module (nameable_of_declarable (hkind ident rfl))
  | named ident => exact h.addName module (nameable_of_declarable (hkind ident rfl))
  | useTree leadingColon tree => exact h.addImports module _ _
  | externCrate ident newName =>
    have hcrates := h.addExtern ident.name (attributes.any (·.path.isWord "macro_use"))
    cases newName with
    | none => exact hcrates
    | some newName => exact hcrates.modifyModule module fun _ => id
  | impl content => exact h
  | other => exact h

end NamesNameable

section Collect

variable {sources : Sources} {load : FileLoader}

mutual

theorem namesNameable_collectItem
    (hload : ∀ target path parent scope s s', load target (Module.new path parent scope) s = .ok s' →
      s.NamesNameable → s'.NamesNameable)
    {site : ItemSite} {s s' : LoadState} (hs : s.NamesNameable) :
    ∀ item : Item, item.Declarable → collectItem sources load site s item = .ok s' →
      s'.NamesNameable
  | .plain attributes visibility kind, .plain hkind, h => by
    rw [collectItem] at h
    split at h
    · exact Except.ok.inj h ▸ hs
    · exact Except.ok.inj h ▸ hs.addItem _ _ _ _ hkind
  | .module attributes visibility ident (some items), .module hident hitems, h => by
    rw [collectItem] at h
    split at h
    · exact Except.ok.inj h ▸ hs
    · have hadded := (hs.addName site.module (nameable_of_declarable hident)).addModule
        (s.modulePath site.module ++ [ident.name]) (some site.module)
        (s.scopeOf site.module visibility)
      exact namesNameable_collectItems hload hadded items (hitems items rfl) h
  | .module attributes visibility ident none, .module hident _, h => by
    rw [collectItem] at h
    split at h
    · exact Except.ok.inj h ▸ hs
    · simp only at h
      split at h
      next file _ =>
        exact hload file _ _ _ _ _ h (hs.addName site.module (nameable_of_declarable hident))
      next => cases h
  | .unknown, _, h => by
    rw [collectItem] at h
    exact Except.ok.inj h ▸ hs

theorem namesNameable_collectItems
    (hload : ∀ target path parent scope s s', load target (Module.new path parent scope) s = .ok s' →
      s.NamesNameable → s'.NamesNameable)
    {site : ItemSite} {s s' : LoadState} (hs : s.NamesNameable) :
    ∀ items : List Item, (∀ item ∈ items, item.Declarable) →
      collectItems sources load site s items = .ok s' → s'.NamesNameable
  | [], _, h => by
    rw [collectItems] at h
    exact Except.ok.inj h ▸ hs
  | item :: items, hitems, h => by
    rw [collectItems_cons] at h
    obtain ⟨hitem, hrest⟩ := List.forall_mem_cons.1 hitems
    cases hnext : collectItem sources load site s item with
    | error error => rw [hnext] at h; cases h
    | ok next =>
      rw [hnext] at h
      have hfirst := namesNameable_collectItem hload hs item hitem hnext
      exact namesNameable_collectItems hload hfirst items hrest h

end

end Collect

theorem declarable_of_itemsOf {sources : Sources} {path : FilePath} {items : List Item}
    (h : itemsOf sources path = .ok items) : ∀ item ∈ items, item.Declarable := by
  unfold itemsOf at h
  split at h
  · cases h
  · split at h
    · cases h
    next file hfile =>
      obtain rfl := Except.ok.inj h
      exact declarable_of_parseFile hfile

theorem namesNameable_loadFile {sources : Sources} {depth : Nat} {target : ModuleFile}
    {path : List String} {parent : Option Nat} {scope : Scope} {s s' : LoadState}
    (h : loadFile sources depth target (Module.new path parent scope) s = .ok s')
    (hs : s.NamesNameable) : s'.NamesNameable := by
  induction depth generalizing target path parent scope s s' with
  | zero => cases h
  | succ depth ih =>
    rw [loadFile_succ] at h
    cases hitems : itemsOf sources target.file with
    | error error => rw [hitems] at h; cases h
    | ok items =>
      rw [hitems] at h
      have hload : ∀ target path parent scope s s',
          loadFile sources depth target (Module.new path parent scope) s = .ok s' →
            s.NamesNameable → s'.NamesNameable := fun _ _ _ _ _ _ => ih
      have hadded : ({ s.addModule (Module.new path parent scope) with
          files := s.files ++ [target.file] } : LoadState).NamesNameable :=
        hs.addModule path parent scope
      exact namesNameable_collectItems hload hadded items (declarable_of_itemsOf hitems) h

end LoadState

/-- A path may start with any name that a module of a crate declares. -/
theorem nameable_of_load {sources : Sources} {name : String} {dependencies : List String}
    {root : FilePath} {c : Crate} (h : Crate.load sources name dependencies root = .ok c) :
    ∀ m ∈ c.modules, ∀ declared ∈ m.names, Nameable declared := by
  rw [load_eq] at h
  cases hfile : loadFile sources sources.depth ⟨root, true⟩ (Module.new [] none .crate)
      (LoadState.start name dependencies) with
  | error error => rw [hfile] at h; cases h
  | ok s =>
    rw [hfile] at h
    obtain rfl : s.finish = c := Except.ok.inj h
    have hstart : (LoadState.start name dependencies).NamesNameable := List.forall_mem_nil _
    exact LoadState.namesNameable_loadFile hfile hstart

end JobRoster.Crate
