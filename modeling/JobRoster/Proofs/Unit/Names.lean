import JobRoster.Proofs.Syntax.Parsing
import JobRoster.Proofs.Syntax.PlainPath
import JobRoster.Proofs.Syntax.Spelling
import JobRoster.Unit.Rendering

/-!
# Names in generated source

A segment of a path is written so that it reads back as that name: as it is, or marked as raw where
it is a keyword. Five keywords cannot be marked so. The method of a unit is a name that is no keyword,
whatever the crate is called.
-/

namespace JobRoster

open Syntax Text Lexer

variable {line : Nat} {rest : List Char}

/-! ## Identifiers alone -/

theorem tokenize_identifier {word : String} (hword : IsIdentifier word) :
    tokenize word.toList = .ok [.ident (.plain word hword) 1] := by
  have hmark : dropByteOrderMark word.toList = word.toList := by
    obtain ⟨c, after, hcons, hc⟩ := exists_cons_of_isIdentifier hword
    refine if_neg fun hhead => ?_
    rw [hcons] at hhead
    obtain rfl : c = byteOrderMark := Option.some.inj hhead
    exact absurd hc (by decide +kernel)
  have hreads := Reads.word hword endsName_nil 1
  rw [List.append_nil] at hreads
  exact tokenize_eq_ok_iff.2 ⟨1, by rw [hmark]; exact hreads⟩

/-- What is read as an identifier is one token that is no keyword, blanks and comments aside. -/
theorem tokenize_of_parseIdent {text : String} {ident : Ident} (h : parseIdent text = .ok ident) :
    ∃ line, tokenize text.toList = .ok [.ident ident line] ∧
      Ahead.reserved.contains ident.text = false := by
  rw [parseIdent, readText] at h
  cases htokens : tokenize text.toList with
  | error error =>
    rw [htokens] at h
    cases h
  | ok tokens =>
    rw [htokens] at h
    obtain ⟨close, hread⟩ := Parser.eq_ok_of_readAll h
    obtain ⟨hident, line, after, rfl, hafter⟩ := Parser.takeIdent_eq_ok_iff.1 hread
    obtain rfl : after = [] := congrArg Input.tokens hafter.symm
    exact ⟨line, rfl, by simpa [Ahead.ident] using hident⟩

theorem not_reserved_of_parseIdent {word : String} (hword : IsIdentifier word) {ident : Ident}
    (h : parseIdent word = .ok ident) : Ahead.reserved.contains word = false := by
  obtain ⟨line, htokens, hreserved⟩ := tokenize_of_parseIdent h
  rw [tokenize_identifier hword] at htokens
  obtain ⟨rfl, -⟩ := Token.ident.inj (List.cons.inj (Except.ok.inj htokens)).1
  simpa using hreserved

/-! ## Path segments -/

/-- A segment reads back as a name that is no keyword, unless it is one even where it is marked. -/
theorem reads_pathSegment {segment : String} (hsegment : IsIdentifier segment)
    (hkeyword : segment ∉ unraw) (hrest : EndsName rest) (line : Nat) :
    ∃ ident, ident.name = segment ∧ Ahead.reserved.contains ident.text = false ∧
      Reads line ((pathSegment segment).toList ++ rest) line rest [.ident ident line] := by
  unfold pathSegment
  split
  next ident hident =>
    refine ⟨.plain segment hsegment, rfl, ?_, .word hsegment hrest line⟩
    simpa using not_reserved_of_parseIdent hsegment hident
  next =>
    refine ⟨⟨true, segment, hsegment, fun _ => hkeyword⟩, rfl, ?_, ?_⟩
    · have hplain : ∀ word ∈ Ahead.reserved, ¬['r', '#'] <+: word.toList := by decide +kernel
      refine Bool.eq_false_iff.2 fun hcontains => ?_
      refine hplain _ (List.contains_iff_mem.1 hcontains) ?_
      exact ⟨segment.toList, by simp [Ident.text, String.toList_append]⟩
    · have hmark : ("r#" ++ segment).toList = 'r' :: '#' :: segment.toList := by
        simp [String.toList_append]
      rw [hmark]
      exact .rawWord hsegment hkeyword hrest line

/-! ## The method of a unit -/

theorem isIdentContinue_toLower {c : Char} (h : isIdentifierChar c = true) :
    isIdentContinue c.toLower = true := by
  have hall : ∀ code < 128, isIdentifierChar (Char.ofNat code) = true →
      isIdentContinue (Char.ofNat code).toLower = true := by decide +kernel
  have hascii : c.toNat < 128 := by
    have hupper : c ≤ 'z' := by
      simp only [isIdentifierChar, isAsciiLetter, isAsciiDigit, Bool.or_eq_true, Bool.and_eq_true,
        decide_eq_true_eq] at h
      obtain ((⟨-, h⟩ | ⟨-, h⟩) | ⟨-, h⟩) | rfl := h
      · exact h
      · exact Char.le_trans h (by decide)
      · exact Char.le_trans h (by decide)
      · decide
    exact Nat.lt_of_le_of_lt hupper (by decide)
  have hcode := hall c.toNat hascii
  rw [Char.ofNat_toNat] at hcode
  exact hcode h

theorem isIdentContinue_sanitizeIdentifier (name : String) :
    ∀ c ∈ (sanitizeIdentifier name).toList, isIdentContinue c = true := by
  unfold sanitizeIdentifier
  have hall : ∀ c ∈ (name.toList.filter isIdentifierChar).map Char.toLower,
      isIdentContinue c = true := by
    intro c hc
    obtain ⟨d, hd, rfl⟩ := List.mem_map.1 hc
    exact isIdentContinue_toLower (List.mem_filter.1 hd).2
  split
  next => exact List.all_eq_true.1 (by decide)
  next c cs hchars =>
    rw [hchars] at hall
    rw [String.toList_ofList]
    split
    · intro d hd
      obtain rfl | hd := List.mem_cons.1 hd
      · decide
      · exact hall d hd
    · exact hall

theorem isIdentifier_methodName (moduleIdentity : String) :
    IsIdentifier (methodName moduleIdentity) := by
  have hstem : ∃ c cs, methodStem.toList = c :: cs ∧ isIdentStart c = true ∧
      cs.all isIdentContinue = true := ⟨'r', methodStem.toList.tail, by decide +kernel⟩
  obtain ⟨c, cs, hcons, hstart, hall⟩ := hstem
  have hrest := List.all_eq_true.2 (isIdentContinue_sanitizeIdentifier moduleIdentity)
  simp [IsIdentifier, methodName, String.toList_append, hcons, isIdent, hstart, List.all_append,
    hall, hrest]

theorem not_reserved_methodName (moduleIdentity : String) :
    Ahead.reserved.contains (methodName moduleIdentity) = false := by
  have hshort : ∀ word ∈ Ahead.reserved, word.length < methodStem.length := by decide +kernel
  refine Bool.eq_false_iff.2 fun hcontains => ?_
  have hlt := hshort _ (List.contains_iff_mem.1 hcontains)
  rw [methodName, String.length_append] at hlt
  omega

end JobRoster
