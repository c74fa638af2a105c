import JobRoster.Proofs.Job.Extraction

/-!
# Hosts with other symbols

Symbols are compared with the marker and with nothing else. Hosts that differ in their symbols only
come to the same if the same attributes denote the marker in both.
-/

namespace JobRoster

variable {δ α ε σ τ : Type}

/-- The host with other symbols in place of its own. -/
def Declarations.withSymbols (host : Declarations δ α ε σ) (symbol? : α → Option τ)
    (symbolNamed? : String → Option τ) (symbolsEqual : τ → τ → Bool) : Declarations δ α ε τ where
  moduleIdentity := host.moduleIdentity
  decls := host.decls
  kind := host.kind
  generics := host.generics
  identity := host.identity
  typePath? := host.typePath?
  location := host.location
  attributes := host.attributes
  shortName := host.shortName
  arguments := host.arguments
  symbol? := symbol?
  symbolNamed? := symbolNamed?
  symbolsEqual := symbolsEqual
  constant? := host.constant?
  display := host.display

theorem marking_eq (host : Declarations δ α ε σ) (marker : Option σ) (decl : δ) :
    marking host marker decl =
      if !(host.kind decl).isConcrete || host.generics decl > 0 then .unmarked
      else
        match (host.attributes decl).filter fun attr => marker.any (host.denotes · attr) with
        | [] => .unmarked
        | [attr] => .marked attr
        | _ :: _ :: _ => .repeated := by
  cases marker with
  | none =>
    have hnothing : ((host.attributes decl).filter fun _ => false) = [] := by simp
    simp only [Option.any_none, hnothing, ite_self]
    rfl
  | some symbol => rfl

variable {host : Declarations δ α ε σ} {marker : Option σ} {symbol? : α → Option τ}
  {symbolNamed? : String → Option τ} {symbolsEqual : τ → τ → Bool} {marker' : Option τ}

/-- The same attributes of a declaration denote the marker in both hosts. -/
abbrev MarkedAlike (host : Declarations δ α ε σ) (marker : Option σ)
    (host' : Declarations δ α ε τ) (marker' : Option τ) (decl : δ) : Prop :=
  ∀ attr ∈ host.attributes decl,
    marker.any (host.denotes · attr) = marker'.any (host'.denotes · attr)

section Decl

variable {decl : δ}
  (h : MarkedAlike host marker (host.withSymbols symbol? symbolNamed? symbolsEqual) marker' decl)
include h

theorem marking_withSymbols :
    marking (host.withSymbols symbol? symbolNamed? symbolsEqual) marker' decl =
      marking host marker decl := by
  rw [marking_eq, marking_eq, List.filter_congr h]
  rfl

theorem extract_withSymbols :
    extract (host.withSymbols symbol? symbolNamed? symbolsEqual) marker' decl =
      extract host marker decl := by
  rw [extract_eq, extract_eq, marking_withSymbols h]
  rfl

theorem attributesRead_withSymbols :
    attributesRead (host.withSymbols symbol? symbolNamed? symbolsEqual) marker' decl =
      attributesRead host marker decl := by
  rw [attributesRead_eq, attributesRead_eq, marking_withSymbols h]

end Decl

/-- A pass depends on which attributes denote the marker, and on whether it is known. -/
theorem runPass_withSymbols (settings : Settings) (cancel : Cancellation)
    (hknown : marker.isNone = marker'.isNone)
    (h : ∀ decl ∈ host.decls,
      MarkedAlike host marker (host.withSymbols symbol? symbolNamed? symbolsEqual) marker' decl) :
    runPass settings (host.withSymbols symbol? symbolNamed? symbolsEqual) marker' cancel =
      runPass settings host marker cancel := by
  let other := host.withSymbols symbol? symbolNamed? symbolsEqual
  let found := candidates host settings.markerShortName
  have hfound : candidates other settings.markerShortName = found := rfl
  have hmem : ∀ decl ∈ found, MarkedAlike host marker other marker' decl :=
    fun decl hdecl => h decl (List.mem_filter.1 hdecl).1
  have hvisits : visitAll other marker' cancel found = visitAll host marker cancel found := by
    apply List.mapIdx_eq_mapIdx_iff.2
    intro i hi
    rw [extract_withSymbols (hmem _ (List.getElem_mem hi))]
  have hreads : readsOf other marker' cancel found = readsOf host marker cancel found := by
    apply congrArg fun read : List (List α) => read.flatten.length
    apply List.mapIdx_eq_mapIdx_iff.2
    intro i hi
    rw [attributesRead_withSymbols (hmem _ (List.getElem_mem hi))]
  unfold runPass
  simp only [other, found] at hfound hvisits hreads
  simp only [hfound, hvisits, hreads, hknown]
  rfl

end JobRoster
