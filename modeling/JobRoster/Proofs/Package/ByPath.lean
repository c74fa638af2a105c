import JobRoster.Proofs.Crate.Called
import JobRoster.Proofs.Crate.Canonical
import JobRoster.Proofs.Crate.Interning
import JobRoster.Proofs.Crate.ItemPath
import JobRoster.Proofs.Pass.Symbols
import JobRoster.Proofs.Text.Pieces

/-!
# Comparing by symbols is comparing by paths

Attributes are compared by symbols. A symbol is a place in a table that is filled while attributes
are resolved, and the marker is looked up in it afterwards, if it starts at a known crate. A pass is
the same as one that compares the canonical paths themselves: the table has the paths that some
attribute resolves to and no others, and all of these start at a known crate.
-/

namespace JobRoster.Crate

open Files Text

variable {c : Crate}

/-! ## Paths in the table -/

namespace SymbolTable

theorem mem_paths_of_intern {table : SymbolTable} {path other : String}
    (h : other ∈ (table.intern path).1.paths) : other ∈ table.paths ∨ other = path := by
  unfold intern at h
  split at h
  · exact .inl h
  · exact (List.mem_append.1 h).imp_right List.mem_singleton.1

theorem mem_paths_of_find? {table : SymbolTable} {path : String} {symbol : Symbol}
    (h : table.find? path = some symbol) : path ∈ table.paths := by
  by_contra hnot
  rw [find?_eq_none_iff.2 hnot] at h
  cases h

end SymbolTable

theorem mem_paths_of_resolveAttributes {module : Nat} {table : SymbolTable}
    {attrs : List Attribute} {path : String}
    (h : path ∈ (c.resolveAttributes module table attrs).1.paths) :
    path ∈ table.paths ∨ ∃ attr ∈ attrs, resolvePath c module attr.path = some path := by
  induction attrs generalizing table with
  | nil => exact .inl h
  | cons attr attrs ih =>
    simp only [resolveAttributes] at h
    obtain hfirst | ⟨other, hother, hresolves⟩ := ih h
    · unfold resolveAttribute at hfirst
      split at hfirst
      · exact .inl hfirst
      next found hfound =>
        obtain hold | rfl := SymbolTable.mem_paths_of_intern hfirst
        · exact .inl hold
        · exact .inr ⟨attr, List.mem_cons_self, hfound⟩
    · exact .inr ⟨other, List.mem_cons_of_mem attr hother, hresolves⟩

theorem mem_paths_of_resolveDecls {table : SymbolTable} {decls : List Decl} {path : String}
    (h : path ∈ (c.resolveDecls table decls).1.paths) :
    path ∈ table.paths ∨ ∃ decl ∈ decls, ∃ attr ∈ decl.attributes,
      resolvePath c decl.module attr.path = some path := by
  induction decls generalizing table with
  | nil => exact .inl h
  | cons decl decls ih =>
    simp only [resolveDecls] at h
    obtain hfirst | ⟨other, hother, hresolves⟩ := ih h
    · obtain hold | hattr := mem_paths_of_resolveAttributes hfirst
      · exact .inl hold
      · exact .inr ⟨decl, List.mem_cons_self, hattr⟩
    · exact .inr ⟨other, List.mem_cons_of_mem decl hother, hresolves⟩

/-! ## Attributes of the host -/

/-- The canonical path of an attribute, in the module that it is written in. -/
def denoted? (c : Crate) (attr : ResolvedAttribute) : Option String :=
  resolvePath c attr.module attr.attr.path

/-- Whether some attribute of some declaration resolves to a path. -/
def IsDenoted (c : Crate) (path : String) : Prop :=
  ∃ decl ∈ c.host.decls, ∃ attr ∈ c.host.attributes decl, c.denoted? attr = some path

instance (c : Crate) (path : String) : Decidable (c.IsDenoted path) :=
  inferInstanceAs (Decidable (∃ decl ∈ c.host.decls, ∃ attr ∈ c.host.attributes decl, _))

/-- An attribute of the host is one of the crate, with its symbol. -/
theorem exists_attributeBy {decl : ResolvedDecl} (hdecl : decl ∈ c.host.decls)
    {attr : ResolvedAttribute} (hattr : attr ∈ c.host.attributes decl) :
    ∃ written ∈ c.decls, ∃ plain ∈ written.attributes, decl = c.resolved written ∧
      attr = c.attributeBy c.symbolTable written.module plain := by
  rw [host_decls] at hdecl
  obtain ⟨written, hwritten, rfl⟩ := List.mem_map.1 hdecl
  rw [host_attributes_resolved] at hattr
  obtain ⟨plain, hplain, rfl⟩ := List.mem_map.1 hattr
  exact ⟨written, hwritten, plain, hplain, rfl, rfl⟩

theorem isDenoted_iff {path : String} :
    c.IsDenoted path ↔ ∃ decl ∈ c.decls, ∃ attr ∈ decl.attributes,
      resolvePath c decl.module attr.path = some path := by
  constructor
  · rintro ⟨decl, hdecl, attr, hattr, hpath⟩
    obtain ⟨written, hwritten, plain, hplain, rfl, rfl⟩ := exists_attributeBy hdecl hattr
    exact ⟨written, hwritten, plain, hplain, hpath⟩
  · rintro ⟨written, hwritten, plain, hplain, hpath⟩
    refine ⟨c.resolved written, ?_, c.attributeBy c.symbolTable written.module plain, ?_, hpath⟩
    · rw [host_decls]
      exact List.mem_map_of_mem hwritten
    · rw [host_attributes_resolved]
      exact List.mem_map_of_mem hplain

/-- The symbol of an attribute is that of its path in the complete table, which has it. -/
theorem symbol?_eq {decl : ResolvedDecl} (hdecl : decl ∈ c.host.decls) {attr : ResolvedAttribute}
    (hattr : attr ∈ c.host.attributes decl) :
    c.host.symbol? attr = (c.denoted? attr).bind c.symbolTable.find? ∧
      ∀ path, c.denoted? attr = some path → ∃ symbol, c.symbolTable.find? path = some symbol := by
  obtain ⟨written, hwritten, plain, hplain, rfl, rfl⟩ := exists_attributeBy hdecl hattr
  exact ⟨rfl, covers_symbolTable hwritten hplain⟩

theorem symbol?_eq_none_iff {decl : ResolvedDecl} (hdecl : decl ∈ c.host.decls)
    {attr : ResolvedAttribute} (hattr : attr ∈ c.host.attributes decl) :
    c.host.symbol? attr = none ↔ c.denoted? attr = none := by
  obtain ⟨hsymbol, hcovers⟩ := symbol?_eq hdecl hattr
  rw [hsymbol, Option.bind_eq_none_iff]
  constructor
  · intro h
    refine Option.eq_none_iff_forall_ne_some.2 fun path hpath => ?_
    obtain ⟨symbol, hfound⟩ := hcovers path hpath
    rw [h path hpath] at hfound
    cases hfound
  · intro h path hpath
    rw [h] at hpath
    cases hpath

theorem symbol?_eq_some_iff {decl : ResolvedDecl} (hdecl : decl ∈ c.host.decls)
    {attr : ResolvedAttribute} (hattr : attr ∈ c.host.attributes decl) {path : String}
    {symbol : Symbol} (h : c.symbolTable.find? path = some symbol) :
    c.host.symbol? attr = some symbol ↔ c.denoted? attr = some path := by
  rw [(symbol?_eq hdecl hattr).1, Option.bind_eq_some_iff]
  constructor
  · rintro ⟨other, hother, hfound⟩
    rw [hother, SymbolTable.find?_injective hfound h]
  · exact fun hpath => ⟨path, hpath, h⟩

/-- Two attributes have one symbol exactly when they resolve to one path. -/
theorem symbol?_eq_symbol?_iff {decl decl' : ResolvedDecl} (hdecl : decl ∈ c.host.decls)
    (hdecl' : decl' ∈ c.host.decls) {attr attr' : ResolvedAttribute}
    (hattr : attr ∈ c.host.attributes decl) (hattr' : attr' ∈ c.host.attributes decl') :
    c.host.symbol? attr = c.host.symbol? attr' ↔ c.denoted? attr = c.denoted? attr' := by
  cases hpath : c.denoted? attr' with
  | none =>
    rw [(symbol?_eq_none_iff hdecl' hattr').2 hpath]
    exact symbol?_eq_none_iff hdecl hattr
  | some path =>
    obtain ⟨hsymbol, hcovers⟩ := symbol?_eq hdecl' hattr'
    obtain ⟨symbol, hfound⟩ := hcovers path hpath
    rw [hsymbol, hpath, Option.bind_some, hfound]
    exact symbol?_eq_some_iff hdecl hattr hfound

/-! ## Markers -/

/-- The path that a text spells: its segments, joined. -/
def spelledPath (text : String) : String :=
  joinSegments (ItemPath.parse text).segments

/-- A segment of a text holds no separator. -/
theorem splitSegments_of_mem_parse {text segment : String}
    (h : segment ∈ (ItemPath.parse text).segments) : splitSegments segment = [segment] := by
  rw [ItemPath.segments_parse, List.mem_filter] at h
  obtain ⟨chars, hchars, rfl⟩ := List.mem_map.1 h.1
  obtain ⟨piece, hpiece, rfl⟩ := List.mem_map.1 hchars
  exact splitSegments_trimmed hpiece

/-- A text that spells a path which starts at a known crate starts with that crate. -/
theorem markerPath?_of_spelledPath (hc : c.NamesCrates) {text : String}
    (hnamed : Named (spelledPath text)) (hrooted : Rooted c (spelledPath text)) :
    (∃ root rest, (ItemPath.parse text).segments = root :: rest ∧ c.isExtern root = true) ∧
      c.markerPath? text = some (spelledPath text) := by
  unfold markerPath?
  unfold spelledPath at hnamed hrooted ⊢
  cases hsegments : (ItemPath.parse text).segments with
  | nil =>
    rw [hsegments] at hnamed
    exact absurd (hnamed "" (by decide)) (by decide)
  | cons root rest =>
    rw [hsegments] at hnamed hrooted
    have hroot : splitSegments root = [root] :=
      splitSegments_of_mem_parse (hsegments ▸ List.mem_cons_self)
    obtain ⟨crate, segments, hsplit, hcrate⟩ := hrooted.splitSegments_eq hc
    have hhead := head?_splitSegments_joinSegments hroot hnamed
    rw [hsplit, List.head?_cons] at hhead
    obtain rfl := Option.some.inj hhead
    exact ⟨⟨crate, rest, rfl, hcrate⟩, by simp only [hcrate, if_true]⟩

/-- What is found for a marker is the symbol of the path that it spells. -/
theorem find?_of_symbolNamed? {text : String} {symbol : Symbol}
    (h : c.host.symbolNamed? text = some symbol) :
    c.symbolTable.find? (spelledPath text) = some symbol := by
  rw [host_symbolNamed?, Option.bind_eq_some_iff] at h
  obtain ⟨path, hpath, hfound⟩ := h
  rwa [spelledPath, ← eq_joinSegments_of_markerPath? hpath]

theorem isDenoted_of_mem_symbolTable {path : String} (h : path ∈ c.symbolTable.paths) :
    c.IsDenoted path := by
  obtain hempty | hdenoted := mem_paths_of_resolveDecls h
  · cases hempty
  · exact isDenoted_iff.2 hdenoted

section Loaded

variable (htree : ModuleTree c.modules) (hspelled : ∀ decl ∈ c.decls, decl.Spelled)
  (hc : c.NamesCrates)
include htree hspelled hc

/-- What an attribute resolves to is a path of identifiers that starts at a known crate. -/
theorem IsDenoted.named_rooted {path : String} (h : c.IsDenoted path) :
    Named path ∧ Rooted c path := by
  obtain ⟨decl, hdecl, attr, hattr, hpath⟩ := isDenoted_iff.1 h
  have hcrates : c.SpellsCrates :=
    ⟨hc.identifier _ hc.own, fun crate hcrate => hc.identifier _ (hc.macros crate hcrate)⟩
  refine ⟨?_, rooted_of_resolvePath hc hpath⟩
  exact (calls_of_found htree hcrates (found_of_resolvePath hpath)
    (hspelled decl hdecl attr hattr)).named

/-- A marker is known exactly where some attribute resolves to the path that it spells. -/
theorem isSome_symbolNamed?_iff {text : String} :
    (c.host.symbolNamed? text).isSome ↔ c.IsDenoted (spelledPath text) := by
  constructor
  · intro h
    obtain ⟨symbol, hsymbol⟩ := Option.isSome_iff_exists.1 h
    exact isDenoted_of_mem_symbolTable
      (SymbolTable.mem_paths_of_find? (find?_of_symbolNamed? hsymbol))
  · intro h
    obtain ⟨hnamed, hrooted⟩ := h.named_rooted htree hspelled hc
    obtain ⟨decl, hdecl, attr, hattr, hpath⟩ := h
    obtain ⟨symbol, hfound⟩ := (symbol?_eq hdecl hattr).2 _ hpath
    rw [host_symbolNamed?, (markerPath?_of_spelledPath hc hnamed hrooted).2, Option.bind_some,
      hfound]
    rfl

end Loaded

/-! ## Hosts that compare paths -/

/-- The host that compares canonical paths instead of symbols. It knows the paths that some
    attribute resolves to. -/
def hostByPath (c : Crate) : Declarations ResolvedDecl ResolvedAttribute PlacedExpr String :=
  c.host.withSymbols c.denoted?
    (fun text => if c.IsDenoted (spelledPath text) then some (spelledPath text) else none)
    fun path other => path = other

theorem hostByPath_symbolNamed? (text : String) :
    c.hostByPath.symbolNamed? text =
      if c.IsDenoted (spelledPath text) then some (spelledPath text) else none := rfl

theorem hostByPath_denotes_iff {path : String} {attr : ResolvedAttribute} :
    c.hostByPath.denotes path attr = true ↔ c.denoted? attr = some path :=
  Declarations.denotes_iff fun _ _ => decide_eq_true_iff

/-- A path that no attribute resolves to might as well not be known. -/
theorem markedAlike_hostByPath {text : String} {decl : ResolvedDecl} (hdecl : decl ∈ c.host.decls) :
    MarkedAlike c.hostByPath (c.hostByPath.symbolNamed? text) c.hostByPath (some (spelledPath text))
      decl := by
  intro attr hattr
  rw [hostByPath_symbolNamed?]
  split
  · rfl
  next hnot =>
    rw [Option.any_none, Option.any_some, eq_comm, Bool.eq_false_iff]
    intro hdenotes
    exact hnot ⟨decl, hdecl, attr, hattr, hostByPath_denotes_iff.1 hdenotes⟩

/-- The same attributes denote the marker, whether symbols or paths are compared. -/
theorem markedAlike_host {text : String}
    (hknown : (c.host.symbolNamed? text).isSome ↔ c.IsDenoted (spelledPath text))
    {decl : ResolvedDecl} (hdecl : decl ∈ c.host.decls) :
    MarkedAlike c.host (c.host.symbolNamed? text) c.hostByPath (some (spelledPath text)) decl := by
  intro attr hattr
  cases hsymbol : c.host.symbolNamed? text with
  | none =>
    rw [Option.any_none, Option.any_some, eq_comm, Bool.eq_false_iff]
    intro hdenotes
    have hsome := hknown.2 ⟨decl, hdecl, attr, hattr, hostByPath_denotes_iff.1 hdenotes⟩
    rw [hsymbol] at hsome
    cases hsome
  | some symbol =>
    rw [Option.any_some, Option.any_some, Bool.eq_iff_iff, host_denotes_iff, hostByPath_denotes_iff]
    exact symbol?_eq_some_iff hdecl hattr (find?_of_symbolNamed? hsymbol)

/-- Symbols stand for the canonical paths of attributes, and a pass that compares the one is a pass
    that compares the other. -/
structure SymbolsArePaths (c : Crate) : Prop where
  decls : c.host.decls.map ResolvedDecl.decl = c.decls
  attributes : ∀ decl ∈ c.host.decls,
    (c.host.attributes decl).map (fun attr => (attr.module, attr.attr)) =
      decl.decl.attributes.map fun attr => (decl.decl.module, attr)
  same : ∀ decl ∈ c.host.decls, ∀ attr ∈ c.host.attributes decl,
    ∀ decl' ∈ c.host.decls, ∀ attr' ∈ c.host.attributes decl',
      c.host.symbol? attr = c.host.symbol? attr' ↔ c.denoted? attr = c.denoted? attr'
  unresolved : ∀ decl ∈ c.host.decls, ∀ attr ∈ c.host.attributes decl,
    c.host.symbol? attr = none ↔ c.denoted? attr = none
  known : ∀ text, (c.host.symbolNamed? text).isSome ↔ c.IsDenoted (spelledPath text)
  marked : ∀ text symbol, c.host.symbolNamed? text = some symbol →
    ∀ decl ∈ c.host.decls, ∀ attr ∈ c.host.attributes decl,
      c.host.symbol? attr = some symbol ↔ c.denoted? attr = some (spelledPath text)
  /-- The test for a known crate rejects no path that some attribute resolves to. -/
  root : ∀ text, c.IsDenoted (spelledPath text) →
    ∃ root rest, (ItemPath.parse text).segments = root :: rest ∧ c.isExtern root = true
  extraction : ∀ text, ∀ decl ∈ c.host.decls,
    extract c.host (c.host.symbolNamed? text) decl =
      extract c.hostByPath (some (spelledPath text)) decl
  pass : ∀ settings cancel,
    runPass settings c.host (c.host.symbolNamed? settings.marker) cancel =
      runPass settings c.hostByPath (c.hostByPath.symbolNamed? settings.marker) cancel
  generation : ∀ (S : Type) [Sink S] settings cancel (sink : S),
    generate settings c.host cancel sink = generate settings c.hostByPath cancel sink

/-- Where the names of crates are identifiers, symbols stand for canonical paths. -/
theorem symbolsArePaths_of_load {sources : Sources} {name : String} {dependencies : List String}
    {root : FilePath} (hload : load sources name dependencies root = .ok c)
    (hname : IsIdentifier name)
    (hdependencies : ∀ dependency ∈ dependencies, IsIdentifier dependency) :
    c.SymbolsArePaths := by
  have htree : ModuleTree c.modules := moduleTree_of_load hload
  have hspelled := spelled_decls_of_load hload
  have hc : c.NamesCrates := namesCrates_of_load hload hname hdependencies
  have hknown : ∀ text, (c.host.symbolNamed? text).isSome ↔ c.IsDenoted (spelledPath text) :=
    fun text => isSome_symbolNamed?_iff htree hspelled hc
  have hpass : ∀ settings cancel,
      runPass settings c.host (c.host.symbolNamed? settings.marker) cancel =
        runPass settings c.hostByPath (c.hostByPath.symbolNamed? settings.marker) cancel := by
    intro settings cancel
    refine (runPass_withSymbols settings cancel ?_ fun decl hdecl attr hattr => ?_).symm
    · have hiff := hknown settings.marker
      by_cases hdenoted : c.IsDenoted (spelledPath settings.marker)
      · simp [hostByPath_symbolNamed?, hdenoted, hiff.2 hdenoted]
      · simpa [hostByPath_symbolNamed?, hdenoted] using hiff
    · exact (markedAlike_host (hknown _) hdecl attr hattr).trans
        (markedAlike_hostByPath hdecl attr hattr).symm
  refine ⟨?_, ?_, fun decl hdecl attr hattr decl' hdecl' attr' hattr' =>
      symbol?_eq_symbol?_iff hdecl hdecl' hattr hattr',
    fun decl hdecl attr hattr => symbol?_eq_none_iff hdecl hattr, hknown,
    fun text symbol hsymbol decl hdecl attr hattr =>
      symbol?_eq_some_iff hdecl hattr (find?_of_symbolNamed? hsymbol),
    fun text hdenoted => ?_, fun text decl hdecl => ?_, hpass,
    fun S _ settings cancel sink => ?_⟩
  · rw [host_decls, List.map_map]
    exact List.map_id _
  · intro decl hdecl
    rw [host_decls] at hdecl
    obtain ⟨written, -, rfl⟩ := List.mem_map.1 hdecl
    rw [host_attributes_resolved, List.map_map]
    rfl
  · obtain ⟨hnamed, hrooted⟩ := hdenoted.named_rooted htree hspelled hc
    exact (markerPath?_of_spelledPath hc hnamed hrooted).1
  · exact (extract_withSymbols (markedAlike_host (hknown text) hdecl)).symm
  · unfold generate preparePass
    rw [hpass]
    rfl

/-- A marker that comes in by an import and is written out elsewhere. -/
theorem symbolsArePaths_of_load_import :
    ∃ c, load (.ofTexts [(⟨"lib.rs"⟩, "mod a; #[jobkit::recurring_job] struct A;"),
        (⟨"a.rs"⟩, "use jobkit::recurring_job; #[recurring_job] #[other] struct B;")])
        "app" ["jobkit"] ⟨"lib.rs"⟩ = .ok c ∧
      IsIdentifier "app" ∧ (∀ dependency ∈ ["jobkit"], IsIdentifier dependency) ∧
      c.IsDenoted (spelledPath "jobkit :: recurring_job") ∧ c.SymbolsArePaths := by
  have hname : IsIdentifier "app" := by decide
  have hdependencies : ∀ dependency ∈ ["jobkit"], IsIdentifier dependency := by decide
  refine exists_loaded_of_any (fun c => c.IsDenoted (spelledPath "jobkit :: recurring_job"))
    (by decide +kernel) fun c hload htest => ?_
  exact ⟨hname, hdependencies, of_decide_eq_true htest,
    symbolsArePaths_of_load hload hname hdependencies⟩

end JobRoster.Crate
