import JobRoster.Proofs.Crate.Canonical
import JobRoster.Proofs.Crate.ItemPath
import JobRoster.Proofs.Package.Registration
import JobRoster.Proofs.Settings.Valid

/-!
# A marker is recognised by its own path

The text of the marker is read once to check it, once for its short name and once for the symbol it
names, and an attribute is read as a part of the source. In plain spelling all of them come to the
same path. A raw mark is dropped only where source is read, so a marker that holds one is not
recognised.
-/

namespace JobRoster.Crate

open Files Syntax Text

variable {c : Crate}

/-- A marker in plain spelling that starts at another crate is what the path of its segments
    denotes from the outside. -/
theorem resolvesToMarker_of_segments {marker : String} {path : Path} (hown : IsIdentifier c.name)
    (hplain : PlainText marker.toList) (hpath : parsePath marker = .ok path) {first : String}
    {segments : List String} (hsegments : (ItemPath.ofSyntax path).segments = first :: segments)
    (hcrate : c.isExtern first = true) (hother : first ≠ c.name) {module : Nat} {attr : Attribute}
    (hattr : attr.path = ⟨true, (ItemPath.ofSyntax path).segments⟩) :
    c.ResolvesToMarker marker module attr := by
  have hidentifier : ∀ name ∈ first :: segments, IsIdentifier name := by
    intro name hname
    rw [← hsegments] at hname
    obtain ⟨segment, -, rfl⟩ := List.mem_map.1 hname
    exact segment.ident.isIdentifier
  rw [hsegments] at hattr
  refine ⟨joinSegments (first :: segments), ?_, ?_⟩
  · rw [markerPath?, ItemPath.parse_eq_ofSyntax hplain hpath, hsegments]
    simp only [hcrate, if_true]
  · refine resolvePath_of_resolveWritten (fun ask throughGlobs => ?_) fun inside hinside => ?_
    · rw [resolveWritten, hattr]
      simp only [hcrate, if_true]
    · -- the path leads out of the crate, where no import is met
      have hsplit := ((localSegments?_eq_some_iff_splitSegments hown).1 hinside).1
      rw [splitSegments_joinSegments (List.cons_ne_nil first segments)
        fun name hname => (hidentifier name hname).colon_not_mem] at hsplit
      exact absurd (List.cons.inj hsplit).1 hother

/-- The short names let a declaration through, and one of its attributes has the marker's symbol. -/
def Recognises (c : Crate) (settings : Settings) (decl : Decl) (attr : Attribute) : Prop :=
  isCandidate c.host settings.markerShortName (c.resolved decl) = true ∧
    ∃ symbol, c.host.symbolNamed? settings.marker = some symbol ∧
      (c.attributeBy c.symbolTable decl.module attr).symbol = some symbol

instance (c : Crate) (settings : Settings) (decl : Decl) (attr : Attribute) :
    Decidable (c.Recognises settings decl attr) :=
  decidable_of_iff
    (isCandidate c.host settings.markerShortName (c.resolved decl) = true ∧
      c.host.symbolNamed? settings.marker ≠ none ∧
      (c.attributeBy c.symbolTable decl.module attr).symbol =
        c.host.symbolNamed? settings.marker) <| by
    unfold Recognises
    cases c.host.symbolNamed? settings.marker <;> simp

/-- The marker of valid settings in plain spelling is a path. Where it starts at another crate that
    is known, every attribute written as this path behind `::` is recognised as the marker. -/
theorem recognises_markerPath {settings : Settings} (hvalid : settings.validate = .ok ())
    (hplain : PlainText settings.marker.toList) :
    ∃ path, parsePath settings.marker = .ok path ∧
      ∀ c : Crate, IsIdentifier c.name →
        (∀ first ∈ (ItemPath.ofSyntax path).segments.head?,
          c.isExtern first = true ∧ first ≠ c.name) →
        ∀ decl ∈ c.decls, decl.generics = 0 → ∀ attr ∈ decl.attributes,
          attr.path = ⟨true, (ItemPath.ofSyntax path).segments⟩ → c.Recognises settings decl attr := by
  obtain ⟨path, hpath, -⟩ := (Settings.validate_eq_ok_iff.1 hvalid).marker
  refine ⟨path, hpath, fun c hown hroot decl hdecl hgenerics attr hattr heq => ?_⟩
  have hlast : attr.path.last? = some settings.markerShortName := by
    rw [ItemPath.last?, heq]
    exact markerShortName_eq hplain hpath
  constructor
  · rw [isCandidate_resolved_iff]
    exact ⟨hgenerics, attr, hattr, by rw [Attribute.shortName, hlast]; rfl⟩
  · rw [symbol_attributeBy_eq_marker_iff hdecl hattr]
    cases hsegments : (ItemPath.ofSyntax path).segments with
    | nil =>
      rw [ItemPath.last?, heq, hsegments] at hlast
      cases hlast
    | cons first segments =>
      obtain ⟨hcrate, hother⟩ := hroot first (by rw [hsegments]; rfl)
      exact resolvesToMarker_of_segments hown hplain hpath hsegments hcrate hother heq

/-- A marker that is spelled with blanks, and with a separator at its start. -/
theorem recognises_markerPath_blanks :
    ∃ path, parsePath " ::jobkit :: recurring_job" = .ok path ∧
      ∃ c, load (.ofTexts [(⟨"lib.rs"⟩, "#[::jobkit::recurring_job] struct A;")]) "app" ["jobkit"]
          ⟨"lib.rs"⟩ = .ok c ∧
        ∃ decl ∈ c.decls, ∃ attr ∈ decl.attributes,
          attr.path = ⟨true, (ItemPath.ofSyntax path).segments⟩ ∧
          c.Recognises { Settings.default with marker := " ::jobkit :: recurring_job" } decl attr := by
  have hvalid : ({ Settings.default with marker := " ::jobkit :: recurring_job" } :
      Settings).validate = .ok () := by decide +kernel
  have hplain : PlainText " ::jobkit :: recurring_job".toList := by decide +kernel
  obtain ⟨path, hpath, hrecognises⟩ := recognises_markerPath hvalid hplain
  have hsegments : (ItemPath.ofSyntax path).segments = ["jobkit", "recurring_job"] := by
    have hread : (parsePath " ::jobkit :: recurring_job").map ItemPath.ofSyntax =
        .ok ⟨true, ["jobkit", "recurring_job"]⟩ := by decide +kernel
    rw [hpath] at hread
    exact congrArg ItemPath.segments (Except.ok.inj hread)
  refine ⟨path, hpath, ?_⟩
  simp only [hsegments] at hrecognises ⊢
  refine exists_loaded_of_any (fun c => c.name = "app" ∧ c.isExtern "jobkit" = true ∧
    ∃ decl ∈ c.decls, decl.generics = 0 ∧ ∃ attr ∈ decl.attributes,
      attr.path = ⟨true, ["jobkit", "recurring_job"]⟩) (by decide +kernel) fun c _ htest => ?_
  obtain ⟨hname, hcrate, decl, hdecl, hgenerics, attr, hattr, heq⟩ := of_decide_eq_true htest
  have hown : IsIdentifier c.name := by
    rw [hname]
    decide
  have hroot : ∀ first ∈ ["jobkit", "recurring_job"].head?,
      c.isExtern first = true ∧ first ≠ c.name := by
    rintro first (_ | _)
    rw [hname]
    exact ⟨hcrate, by decide⟩
  exact ⟨decl, hdecl, attr, hattr, heq, hrecognises c hown hroot decl hdecl hgenerics attr hattr heq⟩

/-- A marker with a raw mark. The attribute spells the same path. -/
theorem not_recognises_markerPath_raw :
    ∃ path, parsePath "jobkit::r#type" = .ok path ∧
      ({ Settings.default with marker := "jobkit::r#type" } : Settings).validate = .ok () ∧
      ∃ c, load (.ofTexts [(⟨"lib.rs"⟩, "#[::jobkit::r#type] struct A;")]) "app" ["jobkit"]
          ⟨"lib.rs"⟩ = .ok c ∧
        ∃ decl ∈ c.decls, decl.kind.isConcrete = true ∧ decl.generics = 0 ∧
          ∃ attr ∈ decl.attributes, attr.path = ⟨true, (ItemPath.ofSyntax path).segments⟩ ∧
            isCandidate c.host "r#type" (c.resolved decl) = false ∧
            ¬ c.Recognises { Settings.default with marker := "jobkit::r#type" } decl attr := by
  have hread : (parsePath "jobkit::r#type").map ItemPath.ofSyntax = .ok ⟨false, ["jobkit", "type"]⟩ := by
    decide +kernel
  cases hpath : parsePath "jobkit::r#type" with
  | error error => rw [hpath] at hread; cases hread
  | ok path =>
    rw [hpath] at hread
    have hsegments : (ItemPath.ofSyntax path).segments = ["jobkit", "type"] :=
      congrArg ItemPath.segments (Except.ok.inj hread)
    refine ⟨path, rfl, by decide +kernel, ?_⟩
    rw [hsegments]
    exact exists_loaded_of_decide (by decide +kernel)

end JobRoster.Crate
