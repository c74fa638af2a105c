import Mathlib.Data.Bool.AllAny
import Mathlib.Data.List.Infix
import JobRoster.Proofs.Syntax.Reading

/-!
# Everything that can be read is read

Whatever the lexer recognises at the start of a text has at least one character, so the steps that
`tokenize` takes are enough for any text. The tokens of a text are therefore exactly those that can
be read from it.
-/

namespace JobRoster.Syntax

open JobRoster.Text

variable {cs rest : List Char}

/-- `rest` is what is left of `cs` when at least one character has been taken. -/
def Leaves (cs rest : List Char) : Prop :=
  ∃ c taken, cs = c :: (taken ++ rest)

namespace Leaves

variable {cs' rest' : List Char}

theorem suffix (h : Leaves cs rest) : rest <:+ cs := by
  obtain ⟨c, taken, rfl⟩ := h
  exact ⟨c :: taken, rfl⟩

theorem length_lt (h : Leaves cs rest) : rest.length < cs.length := by
  obtain ⟨c, taken, rfl⟩ := h
  simp only [List.length_cons, List.length_append]
  omega

theorem of_suffix {c : Char} (h : rest <:+ cs) : Leaves (c :: cs) rest := by
  obtain ⟨taken, rfl⟩ := h
  exact ⟨c, taken, rfl⟩

theorem trans_suffix (h : Leaves cs rest) (h' : rest' <:+ rest) : Leaves cs rest' := by
  obtain ⟨c, taken, rfl⟩ := h
  obtain ⟨more, rfl⟩ := h'
  exact ⟨c, taken ++ more, by rw [List.append_assoc]⟩

theorem of_suffix_leaves (h : cs' <:+ cs) (h' : Leaves cs' rest) : Leaves cs rest := by
  obtain ⟨taken, rfl⟩ := h
  cases taken with
  | nil => exact h'
  | cons c taken => exact ⟨c, taken ++ _, by rw [List.append_assoc, h'.suffix.choose_spec]; rfl⟩

end Leaves

theorem suffix_cons_of_suffix {c : Char} (h : rest <:+ cs) : rest <:+ c :: cs :=
  h.trans (List.suffix_cons c cs)

theorem leaves_of_takeIdent? {name : List Char} (h : takeIdent? cs = some (name, rest)) :
    Leaves cs rest := by
  cases name with
  | nil => exact absurd (isIdentifier_of_takeIdent? h) (by decide)
  | cons c name => exact ⟨c, name, (takeIdent?_append h).symm⟩

theorem skipIdent_suffix (cs : List Char) : skipIdent cs <:+ cs := by
  unfold skipIdent
  split
  next htake => exact (leaves_of_takeIdent? htake).suffix
  next => exact List.suffix_refl cs

/-! ## Quoted literals -/

/-- A reader takes at least one character. -/
def Shortens {α : Type} (read : Option (α × List Char)) (cs : List Char) : Prop :=
  ∀ a rest, read = some (a, rest) → Leaves cs rest

namespace Shortens

variable {α β : Type} {read : Option (α × List Char)}

theorem none : Shortens (none : Option (α × List Char)) cs :=
  nofun

theorem some {a : α} {c : Char} (h : rest <:+ cs) : Shortens (some (a, rest)) (c :: cs) := by
  rintro _ _ ⟨⟩
  exact .of_suffix h

theorem pair {o : Option α} {c : Char} (h : rest <:+ cs) :
    Shortens (o.map (·, rest)) (c :: cs) := by
  intro a after hmap
  obtain ⟨_, -, heq⟩ := Option.map_eq_some_iff.1 hmap
  obtain ⟨-, rfl⟩ := Prod.mk.inj heq
  exact .of_suffix h

theorem mono {cs' : List Char} (h : Shortens read cs) (hsuffix : cs <:+ cs') : Shortens read cs' :=
  fun a rest hread => .of_suffix_leaves hsuffix (h a rest hread)

theorem cons {c : Char} (h : Shortens read cs) : Shortens read (c :: cs) :=
  h.mono (List.suffix_cons c cs)

theorem map {f : α × List Char → β × List Char} (h : Shortens read cs)
    (hf : ∀ x, (f x).2 <:+ x.2) : Shortens (read.map f) cs := by
  intro b rest hmap
  obtain ⟨⟨a, after⟩, hread, hfx⟩ := Option.map_eq_some_iff.1 hmap
  have hsuffix := hf (a, after)
  rw [hfx] at hsuffix
  exact (h a after hread).trans_suffix hsuffix

end Shortens

theorem shortens_scanCooked (kind : StringKind) (mode : ScanMode) (cs : List Char) :
    Shortens (scanCooked kind mode cs) cs := by
  -- each step drops some characters, and at the end the closing quote
  fun_induction scanCooked kind mode cs
  all_goals
    first
    | exact .none
    | exact .some (List.suffix_refl _)
    | repeat apply Shortens.cons
      first | assumption | exact .map ‹_› fun _ => List.suffix_refl _

theorem dropPounds?_suffix {count : Nat} (h : dropPounds? count cs = some rest) : rest <:+ cs := by
  fun_induction dropPounds? count cs with
  | case1 cs =>
    obtain rfl := Option.some.inj h
    exact List.suffix_refl _
  | case2 count cs ih => exact suffix_cons_of_suffix (ih h)
  | case3 => cases h

theorem shortens_scanRaw (kind : StringKind) (pounds : Nat) (cs : List Char) :
    Shortens (scanRaw kind pounds cs) cs := by
  have hcontinued : ∀ {c : Char} {cs : List Char}, Shortens (scanRaw kind pounds cs) cs →
      Shortens (if kind.allows c then (scanRaw kind pounds cs).map fun scanned => (c :: scanned.1, scanned.2)
        else none) (c :: cs) := by
    intro c cs h
    split
    · exact .cons (.map h fun _ => List.suffix_refl _)
    · exact .none
  fun_induction scanRaw kind pounds cs with
  | case1 => exact .none
  | case2 cs ih => exact .cons (.cons (.map ih fun _ => List.suffix_refl _))
  | case3 => exact .none
  | case4 cs rest hrest => exact .some (dropPounds?_suffix hrest)
  | case5 cs _ _ _ _ ih => exact hcontinued ih
  | case6 c cs _ _ _ _ ih => exact hcontinued ih

theorem shortens_rawString? (kind : StringKind) (cs : List Char) :
    Shortens (rawString? kind cs) cs := by
  unfold rawString?
  dsimp only
  split
  next rest hrest =>
    have hsuffix : cs.dropWhile (· = '#') <:+ cs := List.dropWhile_suffix _
    rw [hrest] at hsuffix
    split
    · exact (shortens_scanRaw kind _ rest).cons.mono hsuffix
    · exact .none
  next => exact .none

theorem shortens_codePoint? (value digits : Nat) (cs : List Char) :
    Shortens (codePoint? value digits cs) cs := by
  fun_induction codePoint? value digits cs
  all_goals
    first
    | exact .none
    | exact .cons ‹_›
    | exact .pair (List.suffix_refl _)

theorem shortens_charBody? (cs : List Char) : Shortens (charBody? cs) cs := by
  intro c rest h
  unfold charBody? at h
  dsimp only at h
  split at h
  next after hread =>
    obtain ⟨rfl, rfl⟩ := Prod.mk.inj (Option.some.inj h)
    -- what is read before the closing quote leaves a suffix, too
    have hbefore : Leaves cs ('\'' :: after) := by
      split at hread
      next high low rest =>
        split at hread
        next =>
          split at hread
          · exact Shortens.some (((List.suffix_cons low rest).trans (List.suffix_cons high _)).trans
              (List.suffix_cons 'x' _)) _ _ hread
          · cases hread
        next => cases hread
      next rest => exact (shortens_codePoint? 0 0 rest).cons.cons.cons _ _ hread
      next c rest _ _ => exact Shortens.pair (List.suffix_cons c rest) _ _ hread
      next => cases hread
      next rest _ _ _ _ => exact Shortens.some (List.suffix_refl rest) _ _ hread
      next => cases hread
    exact hbefore.trans_suffix (List.suffix_cons _ _)
  next => cases h

theorem leaves_of_byteBody? (h : byteBody? cs = some rest) : Leaves cs rest := by
  unfold byteBody? at h
  dsimp only at h
  split at h
  next after hread =>
    obtain rfl := Option.some.inj h
    have hbefore : Leaves cs ('\'' :: after) := by
      split at hread
      next high low rest =>
        split at hread
        · obtain rfl := Option.some.inj hread
          exact .of_suffix (((List.suffix_cons low _).trans (List.suffix_cons high _)).trans
            (List.suffix_cons 'x' _))
        · cases hread
      next c rest _ =>
        obtain ⟨_, -, rfl⟩ := Option.map_eq_some_iff.1 hread
        exact .of_suffix (List.suffix_cons c _)
      next => cases hread
      next =>
        split at hread
        · obtain rfl := Option.some.inj hread
          exact .of_suffix (List.suffix_refl _)
        · cases hread
      next => cases hread
    exact hbefore.trans_suffix (List.suffix_cons _ _)
  next => cases h

theorem shortens_quoted? (cs : List Char) : Shortens (quoted? cs) cs := by
  have hskip : ∀ x : List Char, skipIdent x <:+ x := skipIdent_suffix
  unfold quoted?
  dsimp only
  split
  next rest => exact .cons (.map (shortens_scanCooked _ _ rest) fun x => hskip x.2)
  next rest => exact .cons (.map (shortens_rawString? _ rest) fun x => hskip x.2)
  next rest => exact .cons (.cons (.map (shortens_scanCooked _ _ rest) fun x => hskip x.2))
  next rest => exact .cons (.cons (.map (shortens_rawString? _ rest) fun x => hskip x.2))
  next rest =>
    intro value after h
    obtain ⟨body, hbody, heq⟩ := Option.map_eq_some_iff.1 h
    obtain ⟨-, rfl⟩ := Prod.mk.inj heq
    have hafter : skipIdent body <:+ rest := (hskip body).trans (leaves_of_byteBody? hbody).suffix
    exact .of_suffix (suffix_cons_of_suffix hafter)
  next rest => exact .cons (.cons (.map (shortens_scanCooked _ _ rest) fun x => hskip x.2))
  next rest => exact .cons (.cons (.map (shortens_rawString? _ rest) fun x => hskip x.2))
  next rest => exact .cons (.map (shortens_charBody? rest) fun x => hskip x.2)
  next => exact .none

/-! ## Numbers -/

namespace Numeral

theorem mantissa?_suffix {point point' : Bool} (h : mantissa? point cs = some (point', rest)) :
    rest <:+ cs := by
  fun_induction mantissa? point cs with
  | case1 => simp_all
  | case2 _ _ _ _ ih => exact suffix_cons_of_suffix (ih h)
  | case3 => cases h
  | case4 _ _ _ _ _ _ ih => exact suffix_cons_of_suffix (ih h)
  | case5 => simp_all

theorem exponent?_suffix {signed valued : Bool} (h : exponent? signed valued cs = some rest) :
    rest <:+ cs := by
  fun_induction exponent? signed valued cs with
  | case1 => simp_all
  | case2 => cases h
  | case3 _ _ _ _ _ ih => exact suffix_cons_of_suffix (ih h)
  | case4 _ _ _ _ ih => exact suffix_cons_of_suffix (ih h)
  | case5 => cases h
  | case6 _ _ _ _ _ _ _ _ ih => exact suffix_cons_of_suffix (ih h)
  | case7 => simp_all
  | case8 => cases h

theorem afterDigits?_suffix {base : Nat} {empty : Bool}
    (h : afterDigits? base empty cs = some rest) : rest <:+ cs := by
  fun_induction afterDigits? base empty cs with
  | case1 => cases h
  | case2 => simp_all
  | case3 _ _ _ _ _ _ ih => exact suffix_cons_of_suffix (ih h)
  | case4 => cases h
  | case5 => cases h
  | case6 => simp_all
  | case7 => cases h
  | case8 _ _ _ _ ih => exact suffix_cons_of_suffix (ih h)
  | case9 => cases h
  | case10 => simp_all

/-- An integer has a digit. -/
theorem leaves_of_afterDigits? {base : Nat} (h : afterDigits? base true cs = some rest) :
    Leaves cs rest := by
  generalize hempty : true = empty at h
  fun_induction afterDigits? base empty cs with
  | case3 _ _ _ _ _ _ _ => exact .of_suffix (afterDigits?_suffix h)
  | case8 _ _ _ _ ih => exact .of_suffix (ih hempty h).suffix
  | _ => simp_all

theorem base_suffix (cs : List Char) : (base cs).2 <:+ cs := by
  unfold base
  split
  case h_4 => exact List.suffix_refl cs
  all_goals exact suffix_cons_of_suffix (List.suffix_cons _ _)

/-- A floating-point number has a digit. -/
theorem leaves_of_afterFloat? (h : afterFloat? cs = some rest) : Leaves cs rest := by
  unfold afterFloat? at h
  split at h
  next hdigit =>
    cases cs with
    | nil => cases hdigit
    | cons c cs =>
      have hc : isAsciiDigit c = true := hdigit
      have hmantissa : mantissa? false (c :: cs) = mantissa? false cs := by
        simp [mantissa?, hc]
      rw [hmantissa] at h
      apply Leaves.of_suffix
      split at h
      · cases h
      next point after hafter =>
        have hsuffix : after <:+ cs := mantissa?_suffix hafter
        split at h
        next d more =>
          split at h
          · split at h
            next rest' hexponent =>
              obtain rfl := Option.some.inj h
              exact ((exponent?_suffix hexponent).trans (List.suffix_cons d more)).trans hsuffix
            next =>
              split at h
              · exact Option.some.inj h ▸ hsuffix
              · cases h
          · split at h
            · exact Option.some.inj h ▸ hsuffix
            · cases h
        next =>
          split at h
          · exact Option.some.inj h ▸ hsuffix
          · cases h
  next => cases h

theorem afterSuffix?_suffix (h : afterSuffix? cs = some rest) : rest <:+ cs := by
  unfold afterSuffix? at h
  dsimp only at h
  split at h
  · cases h
  · obtain rfl := Option.some.inj h
    exact skipIdent_suffix cs

theorem leaves_of_after? (h : after? cs = some rest) : Leaves cs rest := by
  unfold after? at h
  split at h
  next after hfloat =>
    obtain rfl := Option.some.inj h
    obtain ⟨digits, hdigits, hsuffix⟩ := Option.bind_eq_some_iff.1 hfloat
    exact (leaves_of_afterFloat? hdigits).trans_suffix (afterSuffix?_suffix hsuffix)
  next =>
    obtain ⟨digits, hdigits, hsuffix⟩ := Option.bind_eq_some_iff.1 h
    have hafter : Leaves (base cs).2 rest :=
      (leaves_of_afterDigits? hdigits).trans_suffix (afterSuffix?_suffix hsuffix)
    exact .of_suffix_leaves (base_suffix cs) hafter

end Numeral

namespace Lexer

/-! ## Single tokens and comments -/

theorem shortens_literal? (cs : List Char) : Shortens (literal? cs) cs := by
  unfold literal?
  split
  next read hread =>
    intro value rest h
    exact shortens_quoted? cs value rest (hread.trans h)
  next =>
    intro value rest h
    obtain ⟨after, hafter, heq⟩ := Option.map_eq_some_iff.1 h
    obtain ⟨-, rfl⟩ := Prod.mk.inj heq
    exact Numeral.leaves_of_after? hafter

theorem shortens_namedIdent? (raw : Bool) (cs : List Char) : Shortens (namedIdent? raw cs) cs := by
  unfold namedIdent?
  split
  next name rest htake =>
    split
    · rintro _ _ ⟨⟩
      exact leaves_of_takeIdent? htake
    · exact .none
  next => exact .none

theorem shortens_identifier? (cs : List Char) : Shortens (identifier? cs) cs := by
  unfold identifier?
  split
  next cs => exact (shortens_namedIdent? true cs).cons.cons
  next => exact shortens_namedIdent? false cs

theorem leaves_of_punct? {c : Char} {joint : Bool} (h : punct? cs = some (c, joint, rest)) :
    Leaves cs rest := by
  have hsame : ∀ {first : Char} {cs : List Char} {joint' : Bool},
      some (first, joint', cs) = some (c, joint, rest) → Leaves (first :: cs) rest := by
    rintro first cs joint' ⟨⟩
    exact .of_suffix (List.suffix_refl _)
  unfold punct? at h
  split at h
  next =>
    split at h
    next =>
      split at h
      · cases h
      · split at h
        · exact hsame h
        · cases h
      · exact hsame h
    · cases h
  next =>
    split at h
    · exact hsame h
    · cases h
  next => cases h

theorem shortens_leaf? (cs : List Char) : Shortens (leaf? cs) cs := by
  intro leaf rest h
  unfold leaf? at h
  split at h
  next value after hliteral =>
    obtain ⟨rfl, rfl⟩ := Prod.mk.inj (Option.some.inj h)
    exact shortens_literal? cs value after hliteral
  split at h
  next c joint after hpunct =>
    obtain ⟨rfl, rfl⟩ := Prod.mk.inj (Option.some.inj h)
    exact leaves_of_punct? hpunct
  split at h
  · cases h
  split at h
  next ident after hident =>
    obtain ⟨rfl, rfl⟩ := Prod.mk.inj (Option.some.inj h)
    exact shortens_identifier? cs ident after hident
  next =>
    obtain ⟨after, hafter, heq⟩ := Option.map_eq_some_iff.1 h
    obtain ⟨-, rfl⟩ := Prod.mk.inj heq
    exact ⟨'(', expansionError.tail, (List.isPrefixOf?_eq_some_iff_append_eq.1 hafter).symm⟩

theorem takeLine_suffix (cs : List Char) : (takeLine cs).2 <:+ cs := by
  fun_induction takeLine cs with
  | case1 => exact List.suffix_refl _
  | case2 => exact List.suffix_refl _
  | case3 => exact List.suffix_cons _ _
  | case4 c cs _ _ text rest hline ih =>
    rw [hline] at ih
    exact suffix_cons_of_suffix ih

theorem leaves_of_blockCommentEnd? {depth : Nat} (h : blockCommentEnd? depth cs = some rest) :
    Leaves cs rest := by
  fun_induction blockCommentEnd? depth cs with
  | case1 _ cs ih => exact .of_suffix (suffix_cons_of_suffix (ih h).suffix)
  | case2 _ cs =>
    obtain rfl := Option.some.inj h
    exact .of_suffix (List.suffix_cons _ _)
  | case3 _ cs _ ih => exact .of_suffix (suffix_cons_of_suffix (ih h).suffix)
  | case4 _ _ _ _ _ ih => exact .of_suffix (ih h).suffix
  | case5 => cases h

theorem shortens_blockComment? (cs : List Char) : Shortens (blockComment? cs) cs := by
  intro text rest h
  obtain ⟨after, hafter, heq⟩ := Option.map_eq_some_iff.1 h
  obtain ⟨-, rfl⟩ := Prod.mk.inj heq
  exact leaves_of_blockCommentEnd? hafter

theorem shortens_docComment? {inner : Bool} {read : Option (List Char × List Char)}
    (h : Shortens read cs) : Shortens (docComment? inner read) cs := by
  unfold docComment?
  split
  next text rest =>
    split
    · exact .none
    · rintro _ _ ⟨⟩
      exact h text rest rfl
  next => exact .none

theorem shortens_comment? (cs : List Char) : Shortens (comment? cs) cs := by
  have hline : ∀ cs : List Char, (takeLine cs).2 <:+ cs := takeLine_suffix
  unfold comment?
  split
  next rest => exact .cons (.cons (.cons (.some (hline rest))))
  next rest _ => exact .cons (.cons (shortens_docComment? (.some (hline rest))))
  next rest => exact .cons (.cons (shortens_docComment? (.some (hline rest))))
  case h_4 => exact .cons (.some (hline _))
  next rest => exact .cons (.cons (.cons (.some (List.suffix_refl rest))))
  next => exact .map (shortens_blockComment? _) fun _ => List.suffix_refl _
  next => exact shortens_docComment? (shortens_blockComment? _)
  next => exact shortens_docComment? (shortens_blockComment? _)
  next => exact .map (shortens_blockComment? _) fun _ => List.suffix_refl _
  next => exact .none

/-- A comment starts with a slash. -/
theorem exists_cons_of_comment? {comment : Comment} (h : comment? cs = some (comment, rest)) :
    ∃ after, cs = '/' :: after := by
  unfold comment? at h
  split at h
  case h_10 => cases h
  all_goals exact ⟨_, rfl⟩

/-! ## Delimiters -/

theorem mem_pairs_of_opens? {c : Char} {delimiter : Delimiter} (h : opens? c = some delimiter) :
    ∃ closing, (delimiter, c, closing) ∈ pairs := by
  obtain ⟨⟨_, opening, closing⟩, hfind, rfl⟩ := Option.map_eq_some_iff.1 h
  obtain rfl : opening = c := by simpa using List.find?_some hfind
  exact ⟨closing, List.mem_of_find?_eq_some hfind⟩

theorem mem_pairs_of_closes? {c : Char} {delimiter : Delimiter} (h : closes? c = some delimiter) :
    ∃ opening, (delimiter, opening, c) ∈ pairs := by
  obtain ⟨⟨_, opening, closing⟩, hfind, rfl⟩ := Option.map_eq_some_iff.1 h
  obtain rfl : closing = c := by simpa using List.find?_some hfind
  exact ⟨opening, List.mem_of_find?_eq_some hfind⟩

/-- A delimiter is neither blank nor the start of a comment, and none closes what it opens. -/
theorem not_blank_of_mem_pairs {delimiter : Delimiter} {opening closing : Char}
    (h : (delimiter, opening, closing) ∈ pairs) :
    (isSourceBlank opening = false ∧ opening ≠ '/') ∧
      isSourceBlank closing = false ∧ closing ≠ '/' ∧ opens? closing = none := by
  have hpairs : (delimiter, opening, closing) ∈
      [(Delimiter.paren, '(', ')'), (.bracket, '[', ']'), (.brace, '\x7b', '\x7d')] := h
  simp only [List.mem_cons, Prod.mk.injEq, List.not_mem_nil, or_false] at hpairs
  obtain ⟨-, rfl, rfl⟩ | ⟨-, rfl, rfl⟩ | ⟨-, rfl, rfl⟩ := hpairs
  all_goals exact ⟨⟨by decide, by decide⟩, by decide, by decide, by decide⟩

theorem comment?_cons_of_ne {c : Char} (h : c ≠ '/') (cs : List Char) :
    comment? (c :: cs) = none := by
  cases hcomment : comment? (c :: cs) with
  | none => rfl
  | some read =>
    obtain ⟨comment, rest⟩ := read
    obtain ⟨after, heq⟩ := exists_cons_of_comment? hcomment
    exact absurd (List.cons.inj heq).1 h

/-! ## Runs -/

variable {line line' : Nat} {tokens : List Token}

/-- A run that has steps left goes on behind the tokens. It takes at most one step for each
    character. -/
def Runs (line : Nat) (cs : List Char) (line' : Nat) (rest : List Char) (tokens : List Token) :
    Prop :=
  ∃ count, count + rest.length ≤ cs.length ∧ ∀ steps stack done,
    run (count + steps) line cs stack done = run steps line' rest stack (tokens.reverse ++ done)

namespace Runs

variable {cs' : List Char} {middle : Nat}

theorem refl (line : Nat) (cs : List Char) : Runs line cs line cs [] :=
  ⟨0, by omega, fun steps stack done => by simp⟩

theorem trans {more : List Token} (h : Runs line cs middle cs' tokens)
    (h' : Runs middle cs' line' rest more) : Runs line cs line' rest (tokens ++ more) := by
  obtain ⟨first, hfirst, hrun⟩ := h
  obtain ⟨second, hsecond, hrun'⟩ := h'
  refine ⟨first + second, by omega, fun steps stack done => ?_⟩
  rw [Nat.add_assoc, hrun, hrun', List.reverse_append, List.append_assoc]

theorem step (hlt : cs'.length < cs.length)
    (h : ∀ steps stack done,
      run (steps + 1) line cs stack done = run steps middle cs' stack (tokens.reverse ++ done)) :
    Runs line cs middle cs' tokens := by
  refine ⟨1, by omega, fun steps stack done => ?_⟩
  rw [Nat.add_comm, h]

theorem blank {c : Char} (hblank : isSourceBlank c = true) :
    Runs line (c :: cs) (if c = '\n' then line + 1 else line) cs [] :=
  step (Nat.lt_succ_self _) fun steps stack done => by simp [run, hblank]

theorem comment (hcomment : comment? cs = some (.plain, rest)) :
    Runs line cs (lineAfter line cs rest) rest [] := by
  have hlt := (shortens_comment? cs _ _ hcomment).length_lt
  obtain ⟨after, rfl⟩ := exists_cons_of_comment? hcomment
  have hblank : isSourceBlank '/' = false := by decide
  exact step hlt fun steps stack done => by simp [run, hblank, hcomment]

theorem doc {inner : Bool} {text : List Char}
    (hcomment : comment? cs = some (.doc inner text, rest)) :
    Runs line cs (lineAfter line cs rest) rest (docAttribute inner text line) := by
  have hlt := (shortens_comment? cs _ _ hcomment).length_lt
  obtain ⟨after, rfl⟩ := exists_cons_of_comment? hcomment
  have hblank : isSourceBlank '/' = false := by decide
  exact step hlt fun steps stack done => by simp [run, hblank, hcomment]

theorem leaf {c : Char} {leaf : Leaf} (hblank : isSourceBlank c = false)
    (hcomment : comment? (c :: cs) = none)
    (hopen : (if expansionError.isPrefixOf (c :: cs) then none else opens? c) = none)
    (hclose : closes? c = none) (hleaf : leaf? (c :: cs) = some (leaf, rest)) :
    Runs line (c :: cs) (leaf.lineAfter line (c :: cs) rest) rest [leaf.token line] := by
  refine step (shortens_leaf? _ _ _ hleaf).length_lt fun steps stack done => ?_
  simp only [run, hblank, hcomment, hopen, hclose, hleaf]
  cases leaf <;> rfl

/-- What is inside a group runs on a larger stack. -/
theorem group {close : Nat} {opening closing : Char} {delimiter : Delimiter} {content : List Token}
    (hstart : expansionError.isPrefixOf (opening :: cs) = false)
    (hopen : opens? opening = some delimiter) (hclose : closes? closing = some delimiter)
    (h : Runs line cs close (closing :: rest) content) :
    Runs line (opening :: cs) close rest [.group delimiter content line close] := by
  obtain ⟨count, hle, hinside⟩ := h
  obtain ⟨_, hpair⟩ := mem_pairs_of_opens? hopen
  obtain ⟨⟨hblank, hslash⟩, -⟩ := not_blank_of_mem_pairs hpair
  obtain ⟨_, hpair'⟩ := mem_pairs_of_closes? hclose
  obtain ⟨-, hblank', hslash', hnone⟩ := not_blank_of_mem_pairs hpair'
  have hopening : ∀ steps stack done, run (steps + 1) line (opening :: cs) stack done =
      run steps line cs (⟨delimiter, line, done⟩ :: stack) [] := by
    intro steps stack done
    simp [run, hblank, comment?_cons_of_ne hslash, hstart, hopen]
  have hclosing : ∀ steps stack done, run (steps + 1) close (closing :: rest)
      (⟨delimiter, line, done⟩ :: stack) content.reverse =
        run steps close rest stack (.group delimiter content line close :: done) := by
    intro steps stack done
    simp [run, hblank', comment?_cons_of_ne hslash', hnone, hclose]
  refine ⟨count + 2, ?_, fun steps stack done => ?_⟩
  · simp only [List.length_cons] at hle ⊢
    omega
  · calc run (count + 2 + steps) line (opening :: cs) stack done
      _ = run (count + (steps + 1) + 1) line (opening :: cs) stack done := by
        congr 1
        omega
      _ = run (steps + 1) close (closing :: rest) (⟨delimiter, line, done⟩ :: stack)
            content.reverse := by rw [hopening, hinside, List.append_nil]
      _ = run steps close rest stack ([.group delimiter content line close].reverse ++ done) :=
        hclosing steps stack done

end Runs

/-- A run reads what can be read. -/
theorem runs_of_reads (h : Reads line cs line' rest tokens) : Runs line cs line' rest tokens := by
  induction h with
  | refl line cs => exact .refl line cs
  | blank hblank _ ih => exact (Runs.blank hblank).trans ih
  | comment hcomment _ ih => exact (Runs.comment hcomment).trans ih
  | doc hcomment _ ih => exact (Runs.doc hcomment).trans ih
  | group hstart hopen _ hclose _ ihinside ihafter =>
    exact (Runs.group hstart hopen hclose ihinside).trans ihafter
  | leaf hblank hcomment hopen hclose hleaf _ ih =>
    exact (Runs.leaf hblank hcomment hopen hclose hleaf).trans ih

/-- The tokens of a text are those that can be read from it to its end. -/
theorem tokenize_eq_ok_iff {text : List Char} :
    tokenize text = .ok tokens ↔ ∃ line, Reads 1 (dropByteOrderMark text) line [] tokens := by
  constructor
  · exact reads_of_tokenize
  · rintro ⟨line, hreads⟩
    obtain ⟨count, hle, hrun⟩ := runs_of_reads hreads
    obtain ⟨spare, hspare⟩ := Nat.exists_eq_add_of_le hle
    have hsteps : (dropByteOrderMark text).length + 1 = count + (spare + 1) := by
      simp only [List.length_nil] at hspare
      omega
    simp only [tokenize]
    rw [hsteps, hrun]
    simp [run]

end Lexer

end JobRoster.Syntax
