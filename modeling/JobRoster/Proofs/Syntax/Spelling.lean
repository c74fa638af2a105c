import JobRoster.Proofs.Syntax.LiteralText
import JobRoster.Proofs.Syntax.Splicing
import JobRoster.Proofs.Text.Trimming

/-!
# Reading what is written

How names, punctuation, literals and line comments are read from a text that writes them out, with
whatever may follow them.
-/

namespace JobRoster.Syntax.Lexer

open JobRoster.Text

variable {line line' : Nat} {cs rest : List Char} {c d : Char} {tokens : List Token}

/-! ## Names -/

/-- What follows a name: no character that continues it, nor one that makes it the lead of a
    literal. -/
def EndsName (rest : List Char) : Prop :=
  ∀ d ∈ rest.head?, isIdentContinue d = false ∧ d ∉ ['"', '\'', '#']

theorem endsName_nil : EndsName [] :=
  nofun

theorem endsName_cons (hd : isIdentContinue d = false) (hmark : d ∉ ['"', '\'', '#'])
    (rest : List Char) : EndsName (d :: rest) := by
  rintro _ ⟨⟩
  exact ⟨hd, hmark⟩

theorem dropWhile_name {word : List Char} (hword : ∀ c ∈ word, isIdentContinue c = true)
    (hrest : EndsName rest) : (word ++ rest).dropWhile isIdentContinue = rest := by
  rw [List.dropWhile_append_of_pos hword]
  cases rest with
  | nil => rfl
  | cons d rest => simp [(hrest d rfl).1]

theorem takeIdent?_name {word : List Char} (hword : isIdent word = true) (hrest : EndsName rest) :
    takeIdent? (word ++ rest) = some (word, rest) := by
  cases word with
  | nil => cases hword
  | cons c word =>
    obtain ⟨hstart, hall⟩ : isIdentStart c = true ∧ ∀ d ∈ word, isIdentContinue d = true := by
      simpa [isIdent] using hword
    have htake : (word ++ rest).takeWhile isIdentContinue = word := by
      rw [List.takeWhile_append_of_pos hall]
      cases rest with
      | nil => simp
      | cons d rest => simp [(hrest d rfl).1]
    simp [takeIdent?, hstart, htake, dropWhile_name hall hrest]

/-- The letters of a lead end at a mark, so a name that ends otherwise is no lead. -/
theorem no_lead {word : List Char} (hword : ∀ c ∈ word, isIdentContinue c = true)
    (hrest : EndsName rest) : literalLeads.any (·.isPrefixOf (word ++ rest)) = false := by
  have hmarks : ∀ lead ∈ literalLeads,
      (lead.dropWhile isIdentContinue).head?.any (· ∈ ['"', '\'', '#']) = true := by decide
  rw [List.any_eq_false]
  intro lead hlead hprefix
  obtain ⟨after, happend⟩ := List.isPrefixOf_iff_prefix.1 hprefix
  obtain ⟨mark, hhead, hmark⟩ := (Option.any_eq_true ..).1 (hmarks lead hlead)
  obtain ⟨tail, hdrop⟩ := List.head?_eq_some_iff.1 hhead
  have hmore := (takeWhile_append_of_dropWhile hdrop after).2
  rw [happend, dropWhile_name hword hrest] at hmore
  obtain ⟨-, hnot⟩ := hrest mark (by rw [hmore]; rfl)
  exact hnot (of_decide_eq_true hmark)

theorem namedIdent?_name {word : String} (hword : IsIdentifier word) (hrest : EndsName rest)
    {raw : Bool} (hraw : raw = true → word ∉ unraw) :
    namedIdent? raw (word.toList ++ rest) = some (⟨raw, word, hword, hraw⟩, rest) := by
  rw [namedIdent?_of_takeIdent? (takeIdent?_name hword hrest)]
  simpa [String.ofList_toList] using hraw

theorem identifier?_name {word : String} (hword : IsIdentifier word) (hrest : EndsName rest) :
    identifier? (word.toList ++ rest) = some (.plain word hword, rest) := by
  unfold identifier?
  split
  next after heq =>
    -- the number sign would be in the name or behind it
    have hdrop := dropWhile_name hword.isIdentContinue hrest
    rw [heq] at hdrop
    have hsign : '#' :: after = rest := hdrop
    obtain ⟨-, hnot⟩ := hrest '#' (by rw [← hsign]; rfl)
    exact absurd (by decide) hnot
  next => exact namedIdent?_name hword hrest _

/-! ## Tokens -/

theorem not_isSourceBlank_of_isIdentStart (h : isIdentStart c = true) :
    isSourceBlank c = false := by
  have hcontinue : isIdentContinue c = true := isIdentContinue_of_isIdentStart h
  have hblank : isBlank c = false := not_isBlank_of_isIdentContinue hcontinue
  have hcodes : ∀ code ∈ [0x200e, 0x200f], isIdentContinue (Char.ofNat code) = false := by
    decide +kernel
  by_contra hsource
  have hcode : c.toNat ∈ [0x200e, 0x200f] := by
    simpa [isSourceBlank, hblank, or_iff_not_imp_left] using hsource
  have hfalse := hcodes c.toNat hcode
  rw [Char.ofNat_toNat, hcontinue] at hfalse
  cases hfalse

theorem opens?_eq_none_of_isIdentStart (h : isIdentStart c = true) :
    opens? c = none ∧ closes? c = none := by
  have hmarks : c ∉ marks := not_mem_marks_of_isIdentStart h
  have hall : ∀ pair ∈ pairs, pair.2.1 ∈ marks ∧ pair.2.2 ∈ marks := by decide
  constructor
  · cases hopen : opens? c with
    | none => rfl
    | some delimiter =>
      obtain ⟨closing, hpair⟩ := mem_pairs_of_opens? hopen
      exact absurd (hall _ hpair).1 hmarks
  · cases hclose : closes? c with
    | none => rfl
    | some delimiter =>
      obtain ⟨opening, hpair⟩ := mem_pairs_of_closes? hclose
      exact absurd (hall _ hpair).2 hmarks

/-- A text that starts with an identifier, but not with the lead of a literal, is read so. -/
theorem Reads.ident {ident : Ident} (hleads : literalLeads.any (·.isPrefixOf cs) = false)
    (h : identifier? cs = some (ident, rest)) (line : Nat) :
    Reads line cs line rest [.ident ident line] := by
  have hleaf : leaf? cs = some (.ident ident, rest) := leaf?_of_identifier? hleads h
  obtain ⟨c, after, rfl, hc⟩ := isIdentStart_of_identifier? h
  obtain ⟨hopen, hclose⟩ := opens?_eq_none_of_isIdentStart hc
  have hslash : c ≠ '/' := fun heq => not_mem_marks_of_isIdentStart hc (heq ▸ by decide)
  refine .leaf (not_isSourceBlank_of_isIdentStart hc) (comment?_cons_of_ne hslash after) ?_ hclose
    hleaf (.refl _ _)
  split
  · rfl
  · exact hopen

theorem Reads.word {word : String} (hword : IsIdentifier word) (hrest : EndsName rest)
    (line : Nat) :
    Reads line (word.toList ++ rest) line rest [.ident (.plain word hword) line] :=
  .ident (no_lead hword.isIdentContinue hrest) (identifier?_name hword hrest) line

theorem exists_cons_of_isIdentifier {word : String} (hword : IsIdentifier word) :
    ∃ c after, word.toList = c :: after ∧ isIdentStart c = true := by
  have hident : isIdent word.toList = true := hword
  cases hchars : word.toList with
  | nil =>
    rw [hchars] at hident
    cases hident
  | cons c after =>
    rw [hchars] at hident
    exact ⟨c, after, rfl, (Bool.and_eq_true_iff.1 hident).1⟩

theorem Reads.rawWord {word : String} (hword : IsIdentifier word) (hkeyword : word ∉ unraw)
    (hrest : EndsName rest) (line : Nat) :
    Reads line ('r' :: '#' :: (word.toList ++ rest)) line rest
      [.ident ⟨true, word, hword, fun _ => hkeyword⟩ line] := by
  have hleads : literalLeads.any (·.isPrefixOf ('r' :: '#' :: (word.toList ++ rest))) = false := by
    obtain ⟨c, after, hcons, hc⟩ := exists_cons_of_isIdentifier hword
    have hmarks := not_mem_marks_of_isIdentStart hc
    have hquote : c ≠ '"' := fun heq => hmarks (heq ▸ by decide)
    have hsign : c ≠ '#' := fun heq => hmarks (heq ▸ by decide)
    rw [hcons]
    simp [literalLeads, List.isPrefixOf, hquote.symm, hsign.symm]
  refine .ident hleads ?_ line
  exact namedIdent?_name hword hrest fun _ => hkeyword

theorem startsPunctuation_of_ne (hc : c ≠ '/') (cs : List Char) :
    startsPunctuation (c :: cs) = isPunctuation c := by
  cases cs with
  | nil => simp [startsPunctuation]
  | cons c' cs => rw [startsPunctuation_cons_cons, if_neg (fun h => hc h.1)]

/-- A punctuation character other than a slash or an apostrophe is a token by itself. -/
theorem Reads.mark (hc : isPunctuation c = true) (hne : c ∉ ['/', '\''])
    (line : Nat) (cs : List Char) :
    Reads line (c :: cs) line cs [.punct c (startsPunctuation cs) line] := by
  simp only [List.mem_cons, List.not_mem_nil, or_false, not_or] at hne
  obtain ⟨hslash, hquote⟩ := hne
  have hall : ∀ c ∈ "~!@#$%^&*-=+|;:,<.>/?'".toList,
      isSourceBlank c = false ∧ opens? c = none ∧ closes? c = none :=
    List.all_iff_forall_prop.1 (by decide +kernel)
  obtain ⟨hblank, hopen, hclose⟩ := hall c (List.contains_iff_mem.1 hc)
  have hleaf : leaf? (c :: cs) = some (.punct c (startsPunctuation cs), cs) := by
    simp [leaf?, literal?_eq_none_of_isPunctuation hquote hc, punct?_of_ne hquote,
      startsPunctuation_of_ne hslash, hc]
  refine .leaf hblank (comment?_cons_of_ne hslash cs) ?_ hclose hleaf (.refl _ _)
  split
  · rfl
  · exact hopen

theorem Reads.markBefore {joint : Bool} (hc : isPunctuation c = true) (hne : c ∉ ['/', '\''])
    (hd : d ≠ '/') (hjoint : isPunctuation d = joint) (line : Nat) (cs : List Char) :
    Reads line (c :: d :: cs) line (d :: cs) [.punct c joint line] := by
  have hmark : Reads line (c :: d :: cs) line (d :: cs) [.punct c (startsPunctuation (d :: cs)) line] :=
    .mark hc hne line (d :: cs)
  rwa [startsPunctuation_of_ne hd, hjoint] at hmark

theorem Reads.separator (line : Nat) (cs : List Char) :
    ∃ joint, Reads line (':' :: ':' :: cs) line cs
      [.punct ':' true line, .punct ':' joint line] := by
  have hfirst : Reads line (':' :: ':' :: cs) line (':' :: cs) [.punct ':' true line] :=
    .markBefore (by decide) (by decide) (by decide) (by decide) line cs
  exact ⟨_, hfirst.trans (.mark (by decide) (by decide) line cs)⟩

theorem Reads.literal (hrest : skipIdent rest = rest) (value : String) (line : Nat) :
    ∃ line', Reads line ((Text.literal value).toList ++ rest) line' rest
      [.literal (.str value) line] := by
  have hleaf := leaf?_literal hrest value
  obtain ⟨after, hcons⟩ : ∃ after, (Text.literal value).toList ++ rest = '"' :: after := by
    simp [Text.literal]
  rw [hcons] at hleaf ⊢
  have hopen : (if expansionError.isPrefixOf ('"' :: after) then none else opens? '"') = none := by
    split
    · rfl
    · decide
  exact ⟨_, .leaf (by decide) (comment?_cons_of_ne (by decide) after) hopen (by decide) hleaf
    (.refl _ _)⟩

theorem Reads.spaces (count : Nat) (h : Reads line cs line' rest tokens) :
    Reads line (List.replicate count ' ' ++ cs) line' rest tokens := by
  induction count with
  | zero => exact h
  | succ count ih => exact .blank (by decide) ih

/-! ## Line comments -/

theorem takeLine_line {text : List Char} (htext : '\n' ∉ text) (rest : List Char) :
    (takeLine (text ++ '\n' :: rest)).2 = '\n' :: rest := by
  induction text with
  | nil => rfl
  | cons c text ih =>
    obtain ⟨hc, hafter⟩ : c ≠ '\n' ∧ '\n' ∉ text := by
      simpa [eq_comm] using htext
    by_cases hreturn : ∃ after, c = '\r' ∧ text ++ '\n' :: rest = '\n' :: after
    · obtain ⟨after, rfl, heq⟩ := hreturn
      have hnil : text = [] := by
        cases text with
        | nil => rfl
        | cons d text => exact absurd ((List.cons.inj heq).1 ▸ List.mem_cons_self) hafter
      subst hnil
      rfl
    · have hnot : ∀ after, c = '\r' → text ++ '\n' :: rest ≠ '\n' :: after :=
        fun after hc heq => hreturn ⟨after, hc, heq⟩
      rw [List.cons_append, takeLine_cons hc hnot, ih hafter]

/-- A line that starts with two slashes and a blank has no tokens. -/
theorem Reads.lineComment {text : List Char} (htext : '\n' ∉ text) (line : Nat)
    (rest : List Char) :
    Reads line ('/' :: '/' :: ' ' :: (text ++ '\n' :: rest)) (line + 1) rest [] := by
  have hcomment : comment? ('/' :: '/' :: ' ' :: (text ++ '\n' :: rest)) =
      some (.plain, '\n' :: rest) := by
    have htake := takeLine_line htext rest
    have hblank : takeLine (' ' :: (text ++ '\n' :: rest)) =
        (' ' :: (takeLine (text ++ '\n' :: rest)).1, (takeLine (text ++ '\n' :: rest)).2) :=
      takeLine_cons (by decide) (by simp)
    simp [comment?, hblank, htake]
  have hline : lineAfter line ('/' :: '/' :: ' ' :: (text ++ '\n' :: rest)) ('\n' :: rest) =
      line := by
    simp [lineAfter, List.count_eq_zero.2 htext]
  refine .comment hcomment ?_
  rw [hline]
  exact .blank (by decide) (.refl _ _)

end JobRoster.Syntax.Lexer
