import JobRoster.Proofs.Crate.Called
import JobRoster.Proofs.Crate.ItemPath
import JobRoster.Proofs.Package.Registration
import JobRoster.Proofs.Settings.Valid

/-!
# What the test of short names loses

Declarations are filtered by how their attributes are written before anything is resolved. A
declaration is lost that has the marker under another name only: under one that imports, each in
turn, give to what is called as the marker is, or as `self` or `super`. No other declaration is.
-/

namespace JobRoster.Crate

open Syntax Text

variable {c : Crate}

/-! ## The marker's canonical path -/

/-- The marker's path leads to a path of identifiers only if the marker is in plain spelling. -/
theorem plainText_of_named {marker path : String} (hpath : c.markerPath? marker = some path)
    (hnamed : Named path) : PlainText marker.toList := by
  refine ItemPath.plainText_of_segments fun segment hsegment d hd => ?_
  have hmem : d ∈ path.toList := by
    rw [eq_joinSegments_of_markerPath? hpath]
    exact mem_joinSegments hsegment hd
  by_cases hcolon : d = ':'
  · simp [isPathChar, hcolon]
  · obtain ⟨piece, hpiece, hd⟩ := exists_mem_splitSegmentChars hmem hcolon
    have hidentifier : IsIdentifier (String.ofList piece) := hnamed _ (List.mem_map_of_mem hpiece)
    have hcontinue := hidentifier.isIdentContinue d (by simpa using hd)
    simp [isPathChar, hcontinue]

/-- What the marker of valid settings leads to has the marker's short name in some crate. -/
theorem endsIn_of_markerPath? {settings : Settings} (hvalid : settings.Valid) {path : String}
    (hpath : c.markerPath? settings.marker = some path) (hnamed : Named path) :
    EndsIn settings.markerShortName path := by
  have hplain : PlainText settings.marker.toList := plainText_of_named hpath hnamed
  obtain ⟨parsed, hparsed, hlong⟩ := hvalid.marker
  have hlast : (ItemPath.ofSyntax parsed).segments.getLast? = some settings.markerShortName :=
    markerShortName_eq hplain hparsed
  have hlength : 2 ≤ (ItemPath.ofSyntax parsed).segments.length := by
    rwa [ItemPath.ofSyntax, List.length_map]
  have hjoined : path = joinSegments (ItemPath.ofSyntax parsed).segments := by
    rw [← ItemPath.parse_eq_ofSyntax hplain hparsed]
    exact eq_joinSegments_of_markerPath? hpath
  have hcolon : ∀ segment ∈ (ItemPath.ofSyntax parsed).segments, ':' ∉ segment.toList := by
    intro segment hsegment
    obtain ⟨written, -, rfl⟩ := List.mem_map.1 hsegment
    exact written.ident.isIdentifier.colon_not_mem
  have hsplit : splitSegments path = (ItemPath.ofSyntax parsed).segments := by
    rw [hjoined]
    refine splitSegments_joinSegments ?_ hcolon
    rintro hnil
    rw [hnil] at hlast
    cases hlast
  obtain ⟨before, hbefore⟩ := List.getLast?_eq_some_iff.1 hlast
  refine ⟨before, ?_, hsplit.trans hbefore⟩
  rintro rfl
  rw [hbefore] at hlength
  simp at hlength

/-! ## Filtering -/

/-- The attribute is written under another name of what is called so: under one that imports give to
    it, or as `self` or `super`. -/
def Disguises (c : Crate) (name : String) (module : Nat) (attr : Attribute) : Prop :=
  attr.shortName ≠ name ∧
    ∃ other, c.AlsoCalled name other ∧ c.nameOf? module attr.path = some other

/-- Something on the declaration resolves to the marker, and all that does is written under another
    name. -/
structure HidesMarker (c : Crate) (settings : Settings) (decl : Decl) : Prop where
  resolves : ∃ attr ∈ decl.attributes, c.ResolvesToMarker settings.marker decl.module attr
  disguises : ∀ attr ∈ decl.attributes, c.ResolvesToMarker settings.marker decl.module attr →
    c.Disguises settings.markerShortName decl.module attr

theorem HidesMarker.ne {settings : Settings} {decl : Decl} (h : c.HidesMarker settings decl)
    {attr : Attribute} (hattr : attr ∈ decl.attributes)
    (hresolves : c.ResolvesToMarker settings.marker decl.module attr) :
    attr.shortName ≠ settings.markerShortName :=
  (h.disguises attr hattr hresolves).1

/-- An attribute that resolves to the marker ends in the marker's short name, or is written under
    another name of what is called so. -/
theorem shortName_or_disguises (htree : ModuleTree c.modules) (hc : c.SpellsCrates)
    {settings : Settings} (hvalid : settings.Valid) {decl : Decl} (hspelled : decl.Spelled)
    {attr : Attribute} (hattr : attr ∈ decl.attributes)
    (h : c.ResolvesToMarker settings.marker decl.module attr) :
    attr.shortName = settings.markerShortName ∨
      c.Disguises settings.markerShortName decl.module attr := by
  obtain ⟨path, hmarker, hresolves⟩ := h
  have hidentifier := hspelled attr hattr
  have hnamed : Named path :=
    (calls_of_found htree hc (found_of_resolvePath hresolves) hidentifier).named
  have hend : EndsIn settings.markerShortName path := endsIn_of_markerPath? hvalid hmarker hnamed
  have hcalled := exists_nameOf?_of_resolvePath htree hc hidentifier hresolves hend
  by_cases hname : attr.shortName = settings.markerShortName
  · exact .inl hname
  · exact .inr ⟨hname, hcalled⟩

/-- A declaration that comes to a job or a diagnostic is a candidate, or hides the marker. -/
theorem isCandidate_or_hidesMarker (htree : ModuleTree c.modules) (hc : c.SpellsCrates)
    {settings : Settings} (hvalid : settings.Valid) {decl : Decl} (hdecl : decl ∈ c.decls)
    (hspelled : decl.Spelled) (hmeant : c.extraction settings decl ≠ .ok none) :
    isCandidate c.host settings.markerShortName (c.resolved decl) = true ∨
      c.HidesMarker settings decl := by
  obtain ⟨-, hplain, hresolves⟩ := (extraction_ne_none_iff hdecl).1 hmeant
  by_cases hnamed : ∃ attr ∈ decl.attributes, attr.shortName = settings.markerShortName
  · exact .inl (isCandidate_resolved_iff.2 ⟨hplain, hnamed⟩)
  · refine .inr ⟨hresolves, ?_⟩
    intro attr hattr hmarker
    apply (shortName_or_disguises htree hc hvalid hspelled hattr hmarker).resolve_left
    intro hname
    exact hnamed ⟨attr, hattr, hname⟩

section Visible

open Classical

/-- All declarations but those that hide the marker and are no candidates. -/
noncomputable def visible (c : Crate) (settings : Settings) : List Decl :=
  c.decls.filter fun decl => ¬ c.HidesMarker settings decl ∨
    isCandidate c.host settings.markerShortName (c.resolved decl) = true

theorem mem_visible {settings : Settings} {decl : Decl} :
    decl ∈ c.visible settings ↔ decl ∈ c.decls ∧ (¬ c.HidesMarker settings decl ∨
      isCandidate c.host settings.markerShortName (c.resolved decl) = true) := by
  rw [visible, List.mem_filter, decide_eq_true_iff]

/-- Where no declaration hides the marker, all are visible. -/
theorem visible_eq_decls {settings : Settings} (h : ∀ decl ∈ c.decls,
    ¬ c.HidesMarker settings decl ∨
      isCandidate c.host settings.markerShortName (c.resolved decl) = true) :
    c.visible settings = c.decls := by
  apply List.filter_eq_self.2
  intro decl hdecl
  exact decide_eq_true (h decl hdecl)

/-- Every candidate is visible. -/
theorem filter_isCandidate_visible (c : Crate) (settings : Settings) :
    ((c.visible settings).filter fun decl =>
      isCandidate c.host settings.markerShortName (c.resolved decl)) =
        c.decls.filter fun decl =>
          isCandidate c.host settings.markerShortName (c.resolved decl) := by
  rw [visible, List.filter_filter]
  apply List.filter_congr
  intro decl _
  cases hcandidate : isCandidate c.host settings.markerShortName (c.resolved decl) <;> simp

end Visible

/-- The test of short names loses no declaration but those that hide the marker. Whatever comes to a
    job or a diagnostic is a candidate or hides the marker, and a pass ends as one over all
    declarations but those that hide the marker and are no candidates. -/
theorem shortName_loses_nothing {sources : Files.Sources} {name : String}
    {dependencies : List String} {root : Files.FilePath} (hname : IsIdentifier name)
    (hload : load sources name dependencies root = .ok c) {settings : Settings}
    (hvalid : settings.validate = .ok ()) :
    (∀ decl ∈ c.decls, c.extraction settings decl ≠ .ok none →
      isCandidate c.host settings.markerShortName (c.resolved decl) = true ∨
        c.HidesMarker settings decl) ∧
    Extracted.jobs (resultsOf settings c.host (c.host.symbolNamed? settings.marker)) =
      Extracted.jobs ((c.visible settings).map (c.extraction settings)) ∧
    Extracted.diagnostics (resultsOf settings c.host (c.host.symbolNamed? settings.marker)) =
      Extracted.diagnostics ((c.visible settings).map (c.extraction settings)) ∧
    (runPass settings c.host (c.host.symbolNamed? settings.marker) .never).result =
      roster ((c.visible settings).map (c.extraction settings)) := by
  have htree : ModuleTree c.modules := moduleTree_of_load hload
  have hc : c.SpellsCrates := spellsCrates_of_load hload hname
  have hcandidate : ∀ decl ∈ c.decls, c.extraction settings decl ≠ .ok none →
      isCandidate c.host settings.markerShortName (c.resolved decl) = true ∨
        c.HidesMarker settings decl := by
    intro decl hdecl hmeant
    exact isCandidate_or_hidesMarker htree hc (Settings.validate_eq_ok_iff.1 hvalid) hdecl
      (spelled_decls_of_load hload decl hdecl) hmeant
  -- a visible declaration that is no candidate does not hide the marker, so it comes to nothing
  have hpassed : ∀ decl ∈ c.visible settings,
      isCandidate c.host settings.markerShortName (c.resolved decl) = false →
        c.extraction settings decl = .ok none := by
    intro decl hvisible hnot
    obtain ⟨hdecl, hshows⟩ := mem_visible.1 hvisible
    by_contra hmeant
    have hcandidate := (hcandidate decl hdecl hmeant).elim id fun hhides =>
      hshows.resolve_left (not_not_intro hhides)
    rw [hnot] at hcandidate
    cases hcandidate
  obtain ⟨hjobs, hdiagnostics⟩ := Extracted.map_filter_meant hpassed
  rw [filter_isCandidate_visible, ← resultsOf_host] at hjobs hdiagnostics
  refine ⟨hcandidate, hjobs, hdiagnostics, ?_⟩
  rw [runPass_never]
  exact roster_eq_of_found hjobs hdiagnostics

/-- A marker that is exported again and comes in through a glob, beside an import that gives it
    another name. -/
theorem shortName_loses_nothing_glob :
    ∃ c, load (.ofTexts [
          (⟨"lib.rs"⟩, "mod jobs; use jobs::*; #[recurring_job(\"* * * * *\")] struct A;"),
          (⟨"jobs.rs"⟩, "pub use jobkit::recurring_job; pub use jobkit::recurring_job as job;")])
        "app" ["jobkit"] ⟨"lib.rs"⟩ = .ok c ∧
      (∃ decl ∈ c.decls, c.extraction Settings.default decl ≠ .ok none ∧
        ¬ c.HidesMarker Settings.default decl ∧
        isCandidate c.host Settings.default.markerShortName (c.resolved decl) = true) ∧
      (runPass Settings.default c.host (c.host.symbolNamed? Settings.default.marker) .never).result =
        roster (c.decls.map (c.extraction Settings.default)) := by
  refine exists_loaded_of_any (fun c =>
    (∀ decl ∈ c.decls, ∃ attr ∈ decl.attributes,
      c.ResolvesToMarker Settings.default.marker decl.module attr ∧
        attr.shortName = Settings.default.markerShortName) ∧
      ∃ decl ∈ c.decls, c.extraction Settings.default decl ≠ .ok none)
    (by decide +kernel) fun c hload htest => ?_
  obtain ⟨hshown, decl, hdecl, hmeant⟩ := of_decide_eq_true htest
  have hshows : ∀ decl ∈ c.decls, ¬ c.HidesMarker Settings.default decl := by
    intro decl hdecl hhides
    obtain ⟨attr, hattr, hresolves, hname⟩ := hshown decl hdecl
    exact hhides.ne hattr hresolves hname
  have hvalid : Settings.default.validate = .ok () := by decide +kernel
  obtain ⟨hcandidate, -, -, hresult⟩ := shortName_loses_nothing (by decide) hload hvalid
  rw [visible_eq_decls fun decl hdecl => .inl (hshows decl hdecl)] at hresult
  have hseen := (hcandidate decl hdecl hmeant).resolve_right (hshows decl hdecl)
  exact ⟨⟨decl, hdecl, hmeant, hshows decl hdecl, hseen⟩, hresult⟩

/-- An import gives the marker another name. -/
theorem shortName_loses_renamed :
    ∃ c, load (.ofTexts [(⟨"lib.rs"⟩,
        "use jobkit::recurring_job as job; #[job(\"* * * * *\")] struct A;")]) "app" ["jobkit"]
          ⟨"lib.rs"⟩ = .ok c ∧
      Settings.default.validate = .ok () ∧
      (∃ decl ∈ c.decls, c.extraction Settings.default decl ≠ .ok none ∧
        isCandidate c.host Settings.default.markerShortName (c.resolved decl) = false) ∧
      Extracted.jobs
          (resultsOf Settings.default c.host (c.host.symbolNamed? Settings.default.marker)) ≠
        Extracted.jobs (c.decls.map (c.extraction Settings.default)) :=
  exists_loaded_of_decide (by decide +kernel)

end JobRoster.Crate
