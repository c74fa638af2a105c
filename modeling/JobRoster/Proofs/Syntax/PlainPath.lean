import Mathlib.Data.Bool.AllAny
import JobRoster.Crate.ItemPath
import JobRoster.Proofs.Syntax.Parsing
import JobRoster.Proofs.Syntax.Reading
import JobRoster.Proofs.Text.Trimming
import JobRoster.Syntax.Source

/-!
# Paths in plain spelling

A path is read in two ways: as a part of speech, by its tokens, and as a text that is split where
its separators are. Where the text holds nothing but identifiers without raw marks, separators and
blanks, both come to the same segments.
-/

namespace JobRoster.Syntax

open JobRoster.Text Syntax.Parser

/-! ## From tokens to a path -/

/-- The tokens behind the first segment of a path without arguments. -/
inductive SegmentTokens : List Token → List PathSegment → Prop
  | nil : SegmentTokens [] []
  | cons {tokens : List Token} {segments : List PathSegment} (first second : Nat) (joint : Bool)
      (ident : Ident) (line : Nat) (after : SegmentTokens tokens segments) :
      SegmentTokens (.punct ':' true first :: .punct ':' joint second :: .ident ident line :: tokens)
        (⟨ident, .none⟩ :: segments)

/-- The tokens of a path without arguments. -/
inductive PathTokens : List Token → Path → Prop
  | relative {tokens : List Token} {segments : List PathSegment} (ident : Ident) (line : Nat)
      (after : SegmentTokens tokens segments) :
      PathTokens (.ident ident line :: tokens) ⟨false, ⟨ident, .none⟩ :: segments⟩
  | absolute {tokens : List Token} {segments : List PathSegment} (first second : Nat) (joint : Bool)
      (ident : Ident) (line : Nat) (after : SegmentTokens tokens segments) :
      PathTokens (.punct ':' true first :: .punct ':' joint second :: .ident ident line :: tokens)
        ⟨true, ⟨ident, .none⟩ :: segments⟩

/-- Identifiers and colons, up to the first literal. -/
inductive PlainTokens : List Token → Prop
  | nil : PlainTokens []
  | literal (value : Literal) (line : Nat) (tokens : List Token) :
      PlainTokens (.literal value line :: tokens)
  | ident {tokens : List Token} (ident : Ident) (line : Nat) (after : PlainTokens tokens) :
      PlainTokens (.ident ident line :: tokens)
  | colon {tokens : List Token} (joint : Bool) (line : Nat) (after : PlainTokens tokens) :
      PlainTokens (.punct ':' joint line :: tokens)

namespace PlainTokens

theorem after_ident {ident : Ident} {line : Nat} {tokens : List Token}
    (h : PlainTokens (.ident ident line :: tokens)) : PlainTokens tokens := by
  cases h with
  | ident _ _ after => exact after

theorem after_separator {first second : Nat} {joint joint' : Bool} {tokens : List Token}
    (h : PlainTokens (.punct ':' joint first :: .punct ':' joint' second :: tokens)) :
    PlainTokens tokens := by
  cases h with
  | colon _ _ after =>
    cases after with
    | colon _ _ after => exact after

theorem not_angle {tokens : List Token} (h : PlainTokens tokens) :
    Ahead.punct "<" tokens = false := by
  cases h <;> rfl

end PlainTokens

theorem eq_of_punct_separator {tokens : List Token} (h : Ahead.punct "::" tokens = true) :
    ∃ first second joint rest,
      tokens = .punct ':' true first :: .punct ':' joint second :: rest := by
  rcases tokens with _ | ⟨_ | ⟨c, marked, first⟩ | _ | _, tokens⟩
  case cons.punct =>
    have hchars : (decide (c = ':') && marked && Ahead.punctChars [':'] tokens) = true := h
    simp only [Bool.and_eq_true, decide_eq_true_eq] at hchars
    obtain ⟨⟨rfl, rfl⟩, hsecond⟩ := hchars
    rcases tokens with _ | ⟨_ | ⟨c', joint, second⟩ | _ | _, rest⟩
    case cons.punct =>
      obtain rfl : c' = ':' := of_decide_eq_true hsecond
      exact ⟨first, second, joint, rest, rfl⟩
    all_goals cases hsecond
  all_goals cases h

/-- No arguments are introduced where no angle bracket comes. -/
theorem PlainTokens.not_introduced {tokens : List Token} (h : PlainTokens tokens) :
    (Ahead.punct "::" tokens && Ahead.punct "<" (tokens.drop 2)) = false := by
  cases hpunct : Ahead.punct "::" tokens with
  | false => rfl
  | true =>
    obtain ⟨first, second, joint, rest, rfl⟩ := eq_of_punct_separator hpunct
    exact h.after_separator.not_angle

/-- A segment that no angle bracket follows is one identifier. -/
theorem eq_of_parseSegment {g : Grammar} {input rest : Input} {segment : PathSegment}
    (hplain : PlainTokens input.tokens)
    (h : PathSegment.parse g false input = .ok (segment, rest)) :
    ∃ ident line tokens, segment = ⟨ident, .none⟩ ∧ input.tokens = .ident ident line :: tokens ∧
      rest = { input with tokens } := by
  rw [PathSegment.parse, look_bind] at h
  split at h
  next =>
    obtain ⟨ident, next, hident, hpure⟩ := bind_eq_ok_iff.1 h
    obtain ⟨rfl, rfl⟩ := pure_eq_ok_iff.1 hpure
    obtain ⟨line, tokens, htokens, rfl⟩ := takeAnyIdent_eq_ok_iff.1 hident
    exact ⟨ident, line, tokens, rfl, htokens, rfl⟩
  next =>
    dsimp only at h
    split at h
    case' isTrue =>
      obtain ⟨ident, next, hident, hafter⟩ := bind_eq_ok_iff.1 h
      obtain ⟨line, tokens, htokens, rfl⟩ := takeAnyIdent_eq_ok_iff.1 hident
    case' isFalse =>
      obtain ⟨ident, next, hident, hafter⟩ := bind_eq_ok_iff.1 h
      obtain ⟨-, line, tokens, htokens, rfl⟩ := takeIdent_eq_ok_iff.1 hident
    -- neither kind of arguments can follow
    all_goals
      have hrest : PlainTokens tokens := (htokens ▸ hplain).after_ident
      simp only [look_bind, hrest.not_angle, hrest.not_introduced, Bool.not_false, Bool.true_and,
        Bool.false_and, Bool.or_self, Bool.false_eq_true, if_false] at hafter
      obtain ⟨rfl, rfl⟩ := pure_eq_ok_iff.1 hafter
      exact ⟨ident, line, tokens, rfl, htokens, rfl⟩

theorem segmentTokens_of_many {g : Grammar} {test : List Token → Bool} {input : Input}
    {segments : List PathSegment} {close : Nat} (hplain : PlainTokens input.tokens)
    (htest : ∀ tokens, test tokens = true → Ahead.punct "::" tokens = true)
    (h : Many test (do punct "::"; PathSegment.parse g false) input segments ⟨[], close, none⟩) :
    SegmentTokens input.tokens segments := by
  generalize hrest : (⟨[], close, none⟩ : Input) = rest at h
  induction h with
  | stop =>
    subst hrest
    exact .nil
  | more hmore hp _ ih =>
    obtain ⟨first, second, joint, tokens, htokens⟩ := eq_of_punct_separator (htest _ hmore)
    obtain ⟨_, next, hpunct, hsegment⟩ := bind_eq_ok_iff.1 hp
    obtain ⟨-, rfl⟩ := punct_eq_ok_iff.1 hpunct
    rw [htokens] at hplain hsegment ⊢
    have hafter : PlainTokens tokens := hplain.after_separator
    obtain ⟨ident, line, tokens', rfl, htokens', rfl⟩ := eq_of_parseSegment hafter hsegment
    obtain rfl : tokens = .ident ident line :: tokens' := htokens'
    exact .cons first second joint ident line (ih hafter.after_ident hrest)

theorem pathTokens_of_parse {g : Grammar} {tokens : List Token} {close close' : Nat} {path : Path}
    (hplain : PlainTokens tokens)
    (h : Path.parse g false ⟨tokens, close, none⟩ = .ok (path, ⟨[], close', none⟩)) :
    PathTokens tokens path := by
  obtain ⟨leading, start, hleading, hpath⟩ := bind_eq_ok_iff.1 h
  obtain ⟨segment, next, hsegment, hmore⟩ := bind_eq_ok_iff.1 hpath
  obtain ⟨segments, rest, hmany, hpure⟩ := bind_eq_ok_iff.1 hmore
  obtain ⟨rfl, rfl⟩ := pure_eq_ok_iff.1 hpure
  rw [punct?_apply] at hleading
  -- what is left behind the separator that may stand first is a segment and more of them
  have hsegments : ∀ {before : List Token}, start = ⟨before, close, none⟩ → PlainTokens before →
      ∃ ident line after, segment = ⟨ident, .none⟩ ∧ before = .ident ident line :: after ∧
        SegmentTokens after segments := by
    rintro before rfl hbefore
    obtain ⟨ident, line, after, rfl, rfl, rfl⟩ := eq_of_parseSegment hbefore hsegment
    refine ⟨ident, line, after, rfl, rfl, ?_⟩
    refine segmentTokens_of_many hbefore.after_ident (fun tokens htest => ?_) (many_of_manyWhile hmany)
    exact (Bool.and_eq_true _ _ ▸ htest).1
  cases hpunct : Ahead.punct "::" tokens with
  | false =>
    rw [hpunct] at hleading
    obtain ⟨rfl, rfl⟩ := Prod.mk.inj (Except.ok.inj hleading)
    obtain ⟨ident, line, after, rfl, rfl, hafter⟩ := hsegments rfl hplain
    exact .relative ident line hafter
  | true =>
    rw [hpunct] at hleading
    obtain ⟨rfl, rfl⟩ := Prod.mk.inj (Except.ok.inj hleading)
    obtain ⟨first, second, joint, tokens, rfl⟩ := eq_of_punct_separator hpunct
    obtain ⟨ident, line, after, rfl, rfl, hafter⟩ := hsegments rfl hplain.after_separator
    exact .absolute first second joint ident line hafter

/-! ## From a text to tokens -/

/-- The characters of paths in plain spelling. -/
def isPathChar (c : Char) : Bool :=
  isIdentContinue c || c = ':' || isBlank c

/-- The text of a path that holds no raw mark, no comment and no arguments. -/
def PlainText (cs : List Char) : Prop :=
  ∀ c ∈ cs, isPathChar c = true

instance : DecidablePred PlainText :=
  fun cs => decidable_of_iff (cs.all isPathChar = true) List.all_eq_true

/-- Characters that start what is neither a name nor a separator. -/
def marks : List Char :=
  "/()[]\x7b\x7d#'\u200e\u200f\ufeff".toList

theorem not_mem_marks_of_isPathChar {c : Char} (h : isPathChar c = true) : c ∉ marks := by
  have hmarks : ∀ mark ∈ marks, isPathChar mark = false :=
    List.all_iff_forall_prop.1 (by decide +kernel)
  intro hmem
  rw [hmarks c hmem] at h
  cases h

theorem PlainText.tail {c : Char} {cs : List Char} (h : PlainText (c :: cs)) : PlainText cs :=
  fun d hd => h d (List.mem_cons_of_mem c hd)

theorem comment?_eq_none {c : Char} (h : c ≠ '/') (cs : List Char) : Lexer.comment? (c :: cs) = none := by
  unfold Lexer.comment?
  split <;> first | rfl | exact absurd (List.cons.inj ‹_›).1 h

theorem PlainText.comment?_eq_none {cs : List Char} (h : PlainText cs) :
    Lexer.comment? cs = none := by
  cases cs with
  | nil => rfl
  | cons c cs =>
    refine Syntax.comment?_eq_none ?_ cs
    rintro rfl
    exact not_mem_marks_of_isPathChar (h _ List.mem_cons_self) (by decide)

theorem opens?_eq_none {c : Char} (h : isPathChar c = true) : Lexer.opens? c = none := by
  have hmarks : c ∉ marks := not_mem_marks_of_isPathChar h
  refine Option.map_eq_none_iff.2 (List.find?_eq_none.2 fun pair hpair heq => hmarks ?_)
  have hall : ∀ pair ∈ Lexer.pairs, pair.2.1 ∈ marks := by decide
  rw [← of_decide_eq_true heq]
  exact hall pair hpair

theorem isBlank_of_isSourceBlank {c : Char} (h : isPathChar c = true)
    (hblank : isSourceBlank c = true) : isBlank c = true := by
  have hcodes : ∀ code ∈ [0x200e, 0x200f], Char.ofNat code ∈ marks := by decide
  simp only [isSourceBlank, Bool.or_eq_true, decide_eq_true_eq] at hblank
  by_contra hnot
  have hcode : c.toNat ∈ [0x200e, 0x200f] := by simpa [hnot] using hblank
  refine not_mem_marks_of_isPathChar h ?_
  simpa using hcodes c.toNat hcode

/-- A plain text is read as single tokens with blanks between. -/
theorem exists_leaf_of_reads {line line' : Nat} {cs : List Char} {token : Token}
    {tokens : List Token} (hplain : PlainText cs)
    (h : Lexer.Reads line cs line' [] (token :: tokens)) :
    ∃ blanks c rest after leaf start next, (∀ b ∈ blanks, isBlank b = true) ∧
      cs = blanks ++ c :: rest ∧ Lexer.leaf? (c :: rest) = some (leaf, after) ∧
      token = leaf.token start ∧ Lexer.Reads next after line' [] tokens := by
  generalize hend : ([] : List Char) = stop at h
  generalize hall : token :: tokens = all at h
  induction h with
  | refl => cases hall
  | @blank line line' c cs rest all hblank _ ih =>
    obtain ⟨blanks, d, rest, after, leaf, start, next, hblanks, rfl, hleaf⟩ :=
      ih hplain.tail hend hall
    refine ⟨c :: blanks, d, rest, after, leaf, start, next, ?_, rfl, hleaf⟩
    rintro b (_ | ⟨_, hb⟩)
    · exact isBlank_of_isSourceBlank (hplain _ List.mem_cons_self) hblank
    · exact hblanks b hb
  | comment hcomment => rw [hplain.comment?_eq_none] at hcomment; cases hcomment
  | doc hcomment => rw [hplain.comment?_eq_none] at hcomment; cases hcomment
  | group _ hopen =>
    rw [opens?_eq_none (hplain _ List.mem_cons_self)] at hopen
    cases hopen
  | @leaf line line' c cs cs' rest leaf all _ _ _ _ hleaf after =>
    obtain ⟨rfl, rfl⟩ := List.cons.inj hall
    subst hend
    exact ⟨[], c, cs, cs', leaf, line, _, by simp, rfl, hleaf, rfl, after⟩

theorem isBlank_of_reads_nil {line line' : Nat} {cs : List Char} (hplain : PlainText cs)
    (h : Lexer.Reads line cs line' [] []) : ∀ b ∈ cs, isBlank b = true := by
  generalize hend : ([] : List Char) = stop at h
  generalize hall : ([] : List Token) = all at h
  induction h with
  | refl => simp [← hend]
  | blank hblank _ ih =>
    rintro b (_ | ⟨_, hb⟩)
    · exact isBlank_of_isSourceBlank (hplain _ List.mem_cons_self) hblank
    · exact ih hplain.tail hend hall b hb
  | comment hcomment => rw [hplain.comment?_eq_none] at hcomment; cases hcomment
  | doc hcomment => rw [hplain.comment?_eq_none] at hcomment; cases hcomment
  | group => cases hall
  | leaf => cases hall

/-- The only punctuation of a plain text is the colon. -/
theorem eq_colon_of_startsPunctuation {c : Char} {cs : List Char} (hplain : PlainText (c :: cs))
    (h : Lexer.startsPunctuation (c :: cs) = true) : c = ':' := by
  have hall : ∀ mark ∈ "~!@#$%^&*-=+|;:,<.>/?'".toList, isPathChar mark = true → mark = ':' :=
    List.all_iff_forall_prop.1 (by decide +kernel)
  have hpunctuation : Lexer.isPunctuation c = true := by
    unfold Lexer.startsPunctuation at h
    split at h
    · cases h
    · cases h
    next heq => exact (List.cons.inj heq).1 ▸ h
    next heq => cases heq
  exact hall c (List.contains_iff_mem.1 hpunctuation) (hplain c List.mem_cons_self)

theorem punct?_of_plainText {c d : Char} {cs rest : List Char} {joint : Bool}
    (hplain : PlainText (c :: cs)) (h : Lexer.punct? (c :: cs) = some (d, joint, rest)) :
    c = ':' ∧ d = ':' ∧ joint = Lexer.startsPunctuation cs ∧ rest = cs := by
  have hmarks : c ∉ marks := not_mem_marks_of_isPathChar (hplain c List.mem_cons_self)
  unfold Lexer.punct? at h
  split at h
  next heq => exact absurd ((List.cons.inj heq).1 ▸ by decide) hmarks
  next c' cs' _ heq =>
    obtain ⟨rfl, rfl⟩ := List.cons.inj heq
    split at h
    next hstarts =>
      obtain ⟨rfl, hread⟩ := Prod.mk.inj (Option.some.inj h)
      obtain ⟨rfl, rfl⟩ := Prod.mk.inj hread
      obtain rfl : c = ':' := eq_colon_of_startsPunctuation hplain hstarts
      exact ⟨rfl, rfl, rfl, rfl⟩
    · cases h
  next heq => cases heq

theorem identifier?_of_plainText {cs rest : List Char} {ident : Ident} (hplain : PlainText cs)
    (h : Lexer.identifier? cs = some (ident, rest)) :
    ident.raw = false ∧ takeIdent? cs = some (ident.name.toList, rest) := by
  unfold Lexer.identifier? at h
  split at h
  next =>
    have hmark : '#' ∉ marks := not_mem_marks_of_isPathChar (hplain '#' (by simp))
    exact absurd (by decide) hmark
  next =>
    unfold Lexer.namedIdent? at h
    split at h
    next name rest' htake =>
      split at h
      · obtain ⟨rfl, rfl⟩ := Prod.mk.inj (Option.some.inj h)
        exact ⟨rfl, by simpa using htake⟩
      · cases h
    · cases h

/-- A token of a plain text is a literal, a colon or an identifier without raw mark. -/
theorem leaf?_of_plainText {c : Char} {cs rest : List Char} {leaf : Lexer.Leaf}
    (hplain : PlainText (c :: cs)) (h : Lexer.leaf? (c :: cs) = some (leaf, rest)) :
    (∃ value, leaf = .literal value) ∨
      (c = ':' ∧ leaf = .punct ':' (Lexer.startsPunctuation cs) ∧ rest = cs) ∨
      ∃ ident, leaf = .ident ident ∧ ident.raw = false ∧
        takeIdent? (c :: cs) = some (ident.name.toList, rest) := by
  have hmarks : c ∉ marks := not_mem_marks_of_isPathChar (hplain c List.mem_cons_self)
  unfold Lexer.leaf? at h
  split at h
  next value _ _ =>
    obtain ⟨rfl, rfl⟩ := Prod.mk.inj (Option.some.inj h)
    exact .inl ⟨value, rfl⟩
  split at h
  next d joint _ hpunct =>
    obtain ⟨rfl, rfl⟩ := Prod.mk.inj (Option.some.inj h)
    obtain ⟨hc, rfl, rfl, rfl⟩ := punct?_of_plainText hplain hpunct
    exact .inr (.inl ⟨hc, rfl, rfl⟩)
  split at h
  · cases h
  split at h
  next ident _ hident =>
    obtain ⟨rfl, rfl⟩ := Prod.mk.inj (Option.some.inj h)
    obtain ⟨hraw, htake⟩ := identifier?_of_plainText hplain hident
    exact .inr (.inr ⟨ident, rfl, hraw, htake⟩)
  next =>
    obtain ⟨tail, hprefix, -⟩ := Option.map_eq_some_iff.1 h
    have hopen : '(' = c :=
      (List.cons.inj (List.isPrefixOf?_eq_some_iff_append_eq.1 hprefix)).1
    exact absurd (hopen ▸ by decide) hmarks

theorem PlainText.after {taken rest : List Char} (h : PlainText (taken ++ rest)) : PlainText rest :=
  fun c hc => h c (List.mem_append_right taken hc)

theorem plainTokens_of_reads {line line' : Nat} {cs : List Char} {tokens : List Token}
    (hplain : PlainText cs) (h : Lexer.Reads line cs line' [] tokens) : PlainTokens tokens := by
  induction tokens generalizing line cs with
  | nil => exact .nil
  | cons token tokens ih =>
    obtain ⟨blanks, c, rest, after, leaf, start, next, -, rfl, hleaf, rfl, hafter⟩ :=
      exists_leaf_of_reads hplain h
    obtain ⟨value, rfl⟩ | ⟨rfl, rfl, rfl⟩ | ⟨ident, rfl, -, htake⟩ :=
      leaf?_of_plainText hplain.after hleaf
    · exact .literal value start tokens
    · exact .colon _ start (ih hplain.after.tail hafter)
    · rw [← takeIdent?_append htake] at hplain
      exact .ident ident start (ih hplain.after.after hafter)

/-- The text of a name, and what is read behind it. -/
theorem exists_name_of_reads {line line' start : Nat} {cs : List Char} {ident : Ident}
    {tokens : List Token} (hplain : PlainText cs)
    (h : Lexer.Reads line cs line' [] (.ident ident start :: tokens)) :
    ∃ blanks after next, (∀ b ∈ blanks, isBlank b = true) ∧
      cs = blanks ++ ident.name.toList ++ after ∧ Lexer.Reads next after line' [] tokens := by
  obtain ⟨blanks, c, rest, after, leaf, _, next, hblanks, rfl, hleaf, htoken, hafter⟩ :=
    exists_leaf_of_reads hplain h
  obtain ⟨value, rfl⟩ | ⟨rfl, rfl, rfl⟩ | ⟨ident', rfl, -, htake⟩ :=
    leaf?_of_plainText hplain.after hleaf
  · cases htoken
  · cases htoken
  · obtain rfl : ident = ident' := (Token.ident.inj htoken).1
    refine ⟨blanks, after, next, hblanks, ?_, hafter⟩
    rw [List.append_assoc, takeIdent?_append htake]

/-- The text of a separator, and what is read behind it. -/
theorem exists_separator_of_reads {line line' first second : Nat} {joint : Bool} {cs : List Char}
    {tokens : List Token} (hplain : PlainText cs)
    (h : Lexer.Reads line cs line' []
      (.punct ':' true first :: .punct ':' joint second :: tokens)) :
    ∃ blanks after next, (∀ b ∈ blanks, isBlank b = true) ∧ cs = blanks ++ ':' :: ':' :: after ∧
      Lexer.Reads next after line' [] tokens := by
  obtain ⟨blanks, c, rest, after, leaf, _, next, hblanks, rfl, hleaf, htoken, hafter⟩ :=
    exists_leaf_of_reads hplain h
  obtain ⟨value, rfl⟩ | ⟨rfl, rfl, rfl⟩ | ⟨ident, rfl, -, -⟩ :=
    leaf?_of_plainText hplain.after hleaf
  · cases htoken
  · have hjoint : Lexer.startsPunctuation after = true := (Token.punct.inj htoken).2.1.symm
    have hrest : PlainText after := hplain.after.tail
    obtain ⟨blanks', c', rest', after', leaf', _, next', hblanks', rfl, hleaf', htoken', hafter'⟩ :=
      exists_leaf_of_reads hrest hafter
    obtain ⟨value, rfl⟩ | ⟨rfl, rfl, rfl⟩ | ⟨ident, rfl, -, -⟩ :=
      leaf?_of_plainText hrest.after hleaf'
    · cases htoken'
    · -- the second colon is joint to the first, so nothing is between them
      cases blanks' with
      | nil => exact ⟨blanks, after', next', hblanks, rfl, hafter'⟩
      | cons b blanks' =>
        have hb : isBlank b = true := hblanks' b List.mem_cons_self
        rw [eq_colon_of_startsPunctuation hrest hjoint, not_isBlank_colon] at hb
        cases hb
    · cases htoken'
  · cases htoken

/-! ## The segments in the text -/

/-- The names of segments, as characters. -/
def nameChars (segments : List PathSegment) : List (List Char) :=
  segments.map (·.ident.name.toList)

/-- Between its separators the text has the first name with blanks around it, and then the names
    of the segments that are read. -/
theorem pieces_of_segmentTokens {tokens : List Token} {segments : List PathSegment}
    (h : SegmentTokens tokens segments) {line line' : Nat} {cs lead : List Char}
    (hplain : PlainText cs) (hreads : Lexer.Reads line cs line' [] tokens) (hlead : ':' ∉ lead) :
    (splitSegmentChars (lead ++ cs)).map trimChars = trimChars lead :: nameChars segments := by
  induction h generalizing line cs lead with
  | nil =>
    have hblank : ∀ b ∈ cs, isBlank b = true := isBlank_of_reads_nil hplain hreads
    have hcolon : ':' ∉ lead ++ cs := by simp [hlead, colon_not_mem_of_isBlank hblank]
    rw [splitSegmentChars_of_not_mem hcolon]
    simp [trimChars_append_blank hblank, nameChars]
  | cons first second joint ident start after ih =>
    obtain ⟨blanks, cs, next, hblanks, rfl, hname⟩ := exists_separator_of_reads hplain hreads
    have hcs : PlainText cs := hplain.after.tail.tail
    obtain ⟨blanks', cs, next', hblanks', rfl, hrest⟩ := exists_name_of_reads hcs hname
    have hcolon : ':' ∉ lead ++ blanks := by simp [hlead, colon_not_mem_of_isBlank hblanks]
    have hlast : (lead ++ blanks).getLast? ≠ some ':' :=
      fun hend => hcolon (List.mem_of_getLast? hend)
    have hname : ':' ∉ blanks' ++ ident.name.toList := by
      simp [colon_not_mem_of_isBlank hblanks', ident.isIdentifier.colon_not_mem]
    rw [← List.append_assoc, splitSegmentChars_append hlast, splitSegmentChars_of_not_mem hcolon,
      List.map_append, ih hcs.after hrest hname]
    simp [trimChars_append_blank hblanks, trimChars_blank_append hblanks',
      ident.isIdentifier.trimChars_eq, nameChars]

/-- The last of these names is what follows the last separator. -/
theorem lastSegment_of_segmentTokens {tokens : List Token} {segments : List PathSegment}
    (h : SegmentTokens tokens segments) {line line' : Nat} {cs lead : List Char}
    (hplain : PlainText cs) (hreads : Lexer.Reads line cs line' [] tokens) (hlead : ':' ∉ lead) :
    trim (lastSegment (String.ofList (lead ++ cs))) =
      String.ofList ((nameChars segments).getLastD (trimChars lead)) := by
  induction h generalizing line cs lead with
  | nil =>
    have hblank : ∀ b ∈ cs, isBlank b = true := isBlank_of_reads_nil hplain hreads
    have hcolon : ':' ∉ lead ++ cs := by simp [hlead, colon_not_mem_of_isBlank hblank]
    rw [lastSegment_of_not_mem hcolon, trim, String.toList_ofList, trimChars_append_blank hblank]
    rfl
  | @cons tokens segments first second joint ident start after ih =>
    obtain ⟨blanks, cs, next, hblanks, rfl, hname⟩ := exists_separator_of_reads hplain hreads
    have hcs : PlainText cs := hplain.after.tail.tail
    obtain ⟨blanks', cs, next', hblanks', rfl, hrest⟩ := exists_name_of_reads hcs hname
    have hname : ':' ∉ blanks' ++ ident.name.toList := by
      simp [colon_not_mem_of_isBlank hblanks', ident.isIdentifier.colon_not_mem]
    have hhead : (blanks' ++ ident.name.toList ++ cs).head? ≠ some ':' := by
      have hne : blanks' ++ ident.name.toList ≠ [] := by simp [ident.isIdentifier.ne_empty]
      rw [List.head?_append_of_ne_nil _ hne]
      exact fun hstart => hname (List.mem_of_head? hstart)
    rw [← List.append_assoc, lastSegment_append hhead, ih hcs.after hrest hname,
      trimChars_blank_append hblanks', ident.isIdentifier.trimChars_eq]
    exact congrArg String.ofList (List.getLastD_cons ..).symm

/-- A name and the segments behind it. -/
theorem pieces_of_name {ident : Ident} {start : Nat} {tokens : List Token}
    {segments : List PathSegment} (h : SegmentTokens tokens segments) {line line' : Nat}
    {cs : List Char} (hplain : PlainText cs)
    (hreads : Lexer.Reads line cs line' [] (.ident ident start :: tokens)) :
    (splitSegmentChars cs).map trimChars = ident.name.toList :: nameChars segments ∧
      some (trim (lastSegment (String.ofList cs))) =
        (ident.name.toList :: nameChars segments).getLast?.map String.ofList ∧
      cs.head? ≠ some ':' := by
  obtain ⟨blanks, cs, next, hblanks, rfl, hrest⟩ := exists_name_of_reads hplain hreads
  have hname : ':' ∉ blanks ++ ident.name.toList := by
    simp [colon_not_mem_of_isBlank hblanks, ident.isIdentifier.colon_not_mem]
  have hne : blanks ++ ident.name.toList ≠ [] := by simp [ident.isIdentifier.ne_empty]
  have htrim : trimChars (blanks ++ ident.name.toList) = ident.name.toList :=
    (trimChars_blank_append hblanks _).trans ident.isIdentifier.trimChars_eq
  refine ⟨?_, ?_, ?_⟩
  · rw [pieces_of_segmentTokens h hplain.after hrest hname, htrim]
  · rw [lastSegment_of_segmentTokens h hplain.after hrest hname, htrim, List.getLast?_cons,
      List.getLastD_eq_getLast?]
    rfl
  · rw [List.head?_append_of_ne_nil _ hne]
    exact fun hstart => hname (List.mem_of_head? hstart)

/-- The tokens of a path in plain spelling. -/
theorem pathTokens_of_parsePath {text : String} {path : Path} (hplain : PlainText text.toList)
    (h : parsePath text = .ok path) :
    ∃ tokens line, PathTokens tokens path ∧ Lexer.Reads 1 text.toList line [] tokens := by
  have hmark : dropByteOrderMark text.toList = text.toList := by
    refine if_neg fun hhead => ?_
    exact not_mem_marks_of_isPathChar (hplain _ (List.mem_of_head? hhead)) (by decide)
  rw [parsePath, readText] at h
  cases htokens : tokenize text.toList with
  | error error => rw [htokens] at h; cases h
  | ok tokens =>
    rw [htokens] at h
    obtain ⟨line, hreads⟩ := Lexer.reads_of_tokenize htokens
    rw [hmark] at hreads
    obtain ⟨close, hparse⟩ := eq_ok_of_readAll h
    exact ⟨tokens, line, pathTokens_of_parse (plainTokens_of_reads hplain hreads) hparse, hreads⟩

/-- The text of a path in plain spelling: its pieces are the names of its segments, behind an empty
    one if a separator comes first, and its last segment is the last name. -/
theorem pieces_of_parsePath {text : String} {path : Path} (hplain : PlainText text.toList)
    (h : parsePath text = .ok path) :
    (splitSegmentChars text.toList).map trimChars =
        (if path.leadingColon then [[]] else []) ++ nameChars path.segments ∧
      some (trim (lastSegment text)) = (nameChars path.segments).getLast?.map String.ofList := by
  obtain ⟨tokens, line, hpath, hreads⟩ := pathTokens_of_parsePath hplain h
  have htext : text = String.ofList text.toList := String.ofList_toList.symm
  generalize text.toList = cs at hplain hreads htext ⊢
  subst htext
  cases hpath with
  | relative ident start after =>
    obtain ⟨hpieces, hlast, -⟩ := pieces_of_name after hplain hreads
    exact ⟨hpieces, hlast⟩
  | absolute first second joint ident start after =>
    obtain ⟨blanks, cs, next, hblanks, rfl, hname⟩ := exists_separator_of_reads hplain hreads
    obtain ⟨hpieces, hlast, hhead⟩ := pieces_of_name after hplain.after.tail.tail hname
    have hcolon : ':' ∉ blanks := colon_not_mem_of_isBlank hblanks
    constructor
    · rw [splitSegmentChars_append fun hend => hcolon (List.mem_of_getLast? hend),
        splitSegmentChars_of_not_mem hcolon, List.map_append, hpieces, List.map_singleton,
        trimChars_of_isBlank hblanks]
      rfl
    · rw [lastSegment_append hhead]
      exact hlast

end JobRoster.Syntax
