import JobRoster.Crate.Host

/-!
# Symbols stand for canonical paths

The table of symbols grows while attributes are resolved, one after the other, and the marker is
looked up when it is complete. A symbol once given stays, so every attribute has the symbol that its
canonical path has in the complete table. Comparing an attribute with the marker by symbol is
comparing their canonical paths.
-/

namespace JobRoster.Crate

/-! ## Growing tables -/

namespace SymbolTable

/-- A table that has all paths of another one at the same places. -/
def Extends (table larger : SymbolTable) : Prop :=
  table.paths <+: larger.paths

theorem Extends.refl (table : SymbolTable) : table.Extends table :=
  List.prefix_refl table.paths

theorem Extends.trans {table larger largest : SymbolTable} (h : table.Extends larger)
    (h' : larger.Extends largest) : table.Extends largest :=
  List.IsPrefix.trans h h'

/-- A symbol stays the symbol of its path while the table grows. -/
theorem find?_of_extends {table larger : SymbolTable} {path : String} {symbol : Symbol}
    (h : table.Extends larger) (found : table.find? path = some symbol) :
    larger.find? path = some symbol := by
  obtain ⟨added, hadded⟩ := h
  obtain ⟨index, hindex, rfl⟩ := Option.map_eq_some_iff.mp found
  rw [List.idxOf?] at hindex
  simp [find?, List.idxOf?, ← hadded, List.findIdx?_append, hindex]

theorem find?_eq_none_iff {table : SymbolTable} {path : String} :
    table.find? path = none ↔ path ∉ table.paths := by
  rw [find?, Option.map_eq_none_iff, List.idxOf?_eq_none_iff]

/-- Paths with one symbol are equal. -/
theorem find?_injective {table : SymbolTable} {path path' : String} {symbol : Symbol}
    (h : table.find? path = some symbol) (h' : table.find? path' = some symbol) : path = path' := by
  obtain ⟨index, hindex, rfl⟩ := Option.map_eq_some_iff.mp h
  obtain ⟨index', hindex', heq⟩ := Option.map_eq_some_iff.mp h'
  obtain rfl : index' = index := Symbol.mk.inj heq
  obtain ⟨_, hpath, _⟩ := List.idxOf?_eq_some_iff.mp hindex
  obtain ⟨_, hpath', _⟩ := List.idxOf?_eq_some_iff.mp hindex'
  exact hpath.symm.trans hpath'

theorem extends_intern (table : SymbolTable) (path : String) :
    table.Extends (table.intern path).1 := by
  unfold intern
  split
  · exact Extends.refl table
  · exact List.prefix_append _ _

theorem find?_intern (table : SymbolTable) (path : String) :
    (table.intern path).1.find? path = some (table.intern path).2 := by
  unfold intern
  split
  case h_1 symbol hfound => exact hfound
  case h_2 hnone =>
    have hfresh : path ∉ table.paths := find?_eq_none_iff.mp hnone
    have hindex : table.paths.findIdx? (· == path) = none := by
      rw [← List.idxOf?, List.idxOf?_eq_none_iff]
      exact hfresh
    simp [find?, List.idxOf?, List.findIdx?_append, hindex]

end SymbolTable

/-! ## Attributes by the complete table -/

/-- An attribute with the symbol that its canonical path has in a table. -/
def attributeBy (c : Crate) (table : SymbolTable) (module : Nat) (attr : Attribute) :
    ResolvedAttribute :=
  ⟨module, attr, (resolvePath c module attr.path).bind table.find?⟩

/-- A declaration with the symbols of its attributes in a table. -/
def declBy (c : Crate) (table : SymbolTable) (decl : Decl) : ResolvedDecl :=
  ⟨decl, decl.attributes.map (attributeBy c table decl.module)⟩

/-- Whether a table has the canonical path of an attribute, if the attribute denotes anything. -/
def Covers (c : Crate) (table : SymbolTable) (module : Nat) (attr : Attribute) : Prop :=
  ∀ path, resolvePath c module attr.path = some path → ∃ symbol, table.find? path = some symbol

theorem Covers.mono {c : Crate} {table larger : SymbolTable} {module : Nat} {attr : Attribute}
    (h : c.Covers table module attr) (grows : table.Extends larger) :
    c.Covers larger module attr := by
  intro path hpath
  obtain ⟨symbol, hsymbol⟩ := h path hpath
  exact ⟨symbol, SymbolTable.find?_of_extends grows hsymbol⟩

theorem attributeBy_congr {c : Crate} {table larger : SymbolTable} {module : Nat} {attr : Attribute}
    (h : c.Covers table module attr) (grows : table.Extends larger) :
    c.attributeBy larger module attr = c.attributeBy table module attr := by
  unfold attributeBy
  cases hpath : resolvePath c module attr.path with
  | none => rfl
  | some path =>
    obtain ⟨symbol, hsymbol⟩ := h path hpath
    rw [Option.bind_some, Option.bind_some, hsymbol, SymbolTable.find?_of_extends grows hsymbol]

theorem resolveAttribute_spec (c : Crate) (module : Nat) (table : SymbolTable) (attr : Attribute) :
    table.Extends (c.resolveAttribute module table attr).1 ∧
      c.Covers (c.resolveAttribute module table attr).1 module attr ∧
      (c.resolveAttribute module table attr).2 =
        c.attributeBy (c.resolveAttribute module table attr).1 module attr := by
  unfold resolveAttribute
  split
  case h_1 hnone =>
    refine ⟨SymbolTable.Extends.refl table, ?_, ?_⟩
    · intro path hpath
      rw [hnone] at hpath
      cases hpath
    · simp [attributeBy, hnone]
  case h_2 path hpath =>
    refine ⟨table.extends_intern path, ?_, ?_⟩
    · intro path' hpath'
      obtain rfl : path = path' := Option.some.inj (hpath.symm.trans hpath')
      exact ⟨_, table.find?_intern path⟩
    · simp [attributeBy, hpath, table.find?_intern path]

/-- What resolving some attributes keeps and gives: the table grows, it has the paths of all of
    them, and each attribute has its symbol. -/
theorem resolveAttributes_spec (c : Crate) (module : Nat) (table : SymbolTable)
    (attrs : List Attribute) :
    table.Extends (c.resolveAttributes module table attrs).1 ∧
      (∀ attr ∈ attrs, c.Covers (c.resolveAttributes module table attrs).1 module attr) ∧
      (c.resolveAttributes module table attrs).2 =
        attrs.map (c.attributeBy (c.resolveAttributes module table attrs).1 module) := by
  -- for any table to start from: each attribute leaves a larger one to those after it
  induction attrs generalizing table with
  | nil => exact ⟨SymbolTable.Extends.refl table, by simp, rfl⟩
  | cons attr attrs ih =>
    obtain ⟨hgrows, hcovers, heq⟩ := c.resolveAttribute_spec module table attr
    obtain ⟨hgrows', hcovers', heq'⟩ := ih (c.resolveAttribute module table attr).1
    simp only [resolveAttributes]
    refine ⟨hgrows.trans hgrows', ?_, ?_⟩
    · rintro other hother
      rcases List.mem_cons.mp hother with rfl | hother
      · exact hcovers.mono hgrows'
      · exact hcovers' other hother
    · rw [List.map_cons, heq', heq, attributeBy_congr hcovers hgrows']

theorem declBy_congr {c : Crate} {table larger : SymbolTable} {decl : Decl}
    (h : ∀ attr ∈ decl.attributes, c.Covers table decl.module attr) (grows : table.Extends larger) :
    c.declBy larger decl = c.declBy table decl := by
  unfold declBy
  congr 1
  exact List.map_congr_left fun attr hattr => attributeBy_congr (h attr hattr) grows

theorem resolveDecls_spec (c : Crate) (table : SymbolTable) (decls : List Decl) :
    table.Extends (c.resolveDecls table decls).1 ∧
      (∀ decl ∈ decls, ∀ attr ∈ decl.attributes,
        c.Covers (c.resolveDecls table decls).1 decl.module attr) ∧
      (c.resolveDecls table decls).2 = decls.map (c.declBy (c.resolveDecls table decls).1) := by
  induction decls generalizing table with
  | nil => exact ⟨SymbolTable.Extends.refl table, by simp, rfl⟩
  | cons decl decls ih =>
    -- what the first declaration was given is still so in the table that the others leave
    obtain ⟨hgrows, hcovers, heq⟩ := c.resolveAttributes_spec decl.module table decl.attributes
    obtain ⟨hgrows', hcovers', heq'⟩ :=
      ih (c.resolveAttributes decl.module table decl.attributes).1
    simp only [resolveDecls]
    refine ⟨hgrows.trans hgrows', ?_, ?_⟩
    · rintro other hother
      rcases List.mem_cons.mp hother with rfl | hother
      · exact fun attr hattr => (hcovers attr hattr).mono hgrows'
      · exact hcovers' other hother
    · rw [List.map_cons, heq', heq, declBy_congr hcovers hgrows']
      rfl

/-! ## The host of a crate -/

/-- A declaration of the crate as its host sees it. -/
def resolved (c : Crate) (decl : Decl) : ResolvedDecl :=
  c.declBy c.symbolTable decl

/-- The host has every declaration of the crate, in order, and no other. -/
theorem host_eq (c : Crate) :
    c.host = hostWithTable c c.symbolTable (c.decls.map c.resolved) := by
  have hspec := (c.resolveDecls_spec SymbolTable.empty c.decls).2.2
  simp only [host, symbolTable, hspec]
  rfl

theorem host_decls (c : Crate) : c.host.decls = c.decls.map c.resolved := by
  rw [host_eq]
  rfl

@[simp] theorem host_kind_resolved (c : Crate) (decl : Decl) :
    c.host.kind (c.resolved decl) = decl.kind := rfl

@[simp] theorem host_generics_resolved (c : Crate) (decl : Decl) :
    c.host.generics (c.resolved decl) = decl.generics := rfl

@[simp] theorem host_attributes_resolved (c : Crate) (decl : Decl) :
    c.host.attributes (c.resolved decl) =
      decl.attributes.map (c.attributeBy c.symbolTable decl.module) := rfl

/-- Symbols of a crate are the same when they are equal. -/
@[simp] theorem host_denotes_iff {c : Crate} {symbol : Symbol} {attr : ResolvedAttribute} :
    c.host.denotes symbol attr = true ↔ c.host.symbol? attr = some symbol :=
  Declarations.denotes_iff fun _ _ => decide_eq_true_iff

theorem covers_symbolTable {c : Crate} {decl : Decl} (hdecl : decl ∈ c.decls) {attr : Attribute}
    (hattr : attr ∈ decl.attributes) : c.Covers c.symbolTable decl.module attr :=
  (c.resolveDecls_spec SymbolTable.empty c.decls).2.1 decl hdecl attr hattr

/-- The canonical path that a marker's text names. It names none if it starts with a crate that is
    not known. -/
def markerPath? (c : Crate) (marker : String) : Option String :=
  match (ItemPath.parse marker).segments with
  | [] => none
  | root :: segments =>
    if c.isExtern root then some (Text.joinSegments (root :: segments)) else none

theorem eq_joinSegments_of_markerPath? {c : Crate} {marker path : String}
    (h : c.markerPath? marker = some path) :
    path = Text.joinSegments (ItemPath.parse marker).segments := by
  unfold markerPath? at h
  split at h
  · cases h
  next root segments hsegments =>
    split at h
    case isTrue =>
      rw [hsegments]
      exact (Option.some.inj h).symm
    case isFalse => cases h

theorem symbolNamed?_eq (c : Crate) (table : SymbolTable) (name : String) :
    symbolNamed? c table name = (c.markerPath? name).bind table.find? := by
  unfold symbolNamed? markerPath?
  cases hsegments : (ItemPath.parse name).segments with
  | nil => simp only [hsegments, Option.bind_none]
  | cons root segments =>
    simp only [hsegments]
    split <;> rfl

theorem host_symbolNamed? (c : Crate) (marker : String) :
    c.host.symbolNamed? marker = (c.markerPath? marker).bind c.symbolTable.find? := by
  rw [host_eq, ← symbolNamed?_eq]
  simp only [hostWithTable]

/-- Whether an attribute written in a module resolves to the marker. -/
def ResolvesToMarker (c : Crate) (marker : String) (module : Nat) (attr : Attribute) : Prop :=
  ∃ path, c.markerPath? marker = some path ∧ resolvePath c module attr.path = some path

/-- An attribute has the symbol of the marker exactly when it resolves to the marker's path. -/
theorem symbol_attributeBy_eq_marker_iff {c : Crate} {decl : Decl} (hdecl : decl ∈ c.decls)
    {attr : Attribute} (hattr : attr ∈ decl.attributes) (marker : String) :
    (∃ symbol, c.host.symbolNamed? marker = some symbol ∧
      (c.attributeBy c.symbolTable decl.module attr).symbol = some symbol) ↔
      c.ResolvesToMarker marker decl.module attr := by
  simp only [host_symbolNamed?, attributeBy]
  constructor
  · rintro ⟨symbol, hmarker, hattribute⟩
    obtain ⟨path, hpath, hfound⟩ := Option.bind_eq_some_iff.mp hmarker
    obtain ⟨path', hpath', hfound'⟩ := Option.bind_eq_some_iff.mp hattribute
    obtain rfl : path = path' := SymbolTable.find?_injective hfound hfound'
    exact ⟨path, hpath, hpath'⟩
  · rintro ⟨path, hmarker, hpath⟩
    obtain ⟨symbol, hfound⟩ := covers_symbolTable hdecl hattr path hpath
    exact ⟨symbol, by rw [hmarker]; exact hfound, by rw [hpath]; exact hfound⟩

end JobRoster.Crate
