import JobRoster.Proofs.Syntax.Tokenizing

/-!
# Single tokens inside a larger text

A token at the end of a text is the same token where the text stands inside a larger one, if what
follows it there ends it: each reader that succeeds on the text alone takes as much of the larger
text.
-/

namespace JobRoster.Syntax

open JobRoster.Text

/-- Characters that end any name, number or suffix before them. -/
def stops : List Char := [' ', '\n', ':']

section

variable {cs rest more : List Char} {d : Char}

theorem takeWhile_append_stop {p : Char → Bool} (hd : p d = false) (cs more : List Char) :
    (cs ++ d :: more).takeWhile p = cs.takeWhile p := by
  induction cs with
  | nil => simp [hd]
  | cons c cs ih =>
    rw [List.cons_append, List.takeWhile_cons, List.takeWhile_cons, ih]

theorem dropWhile_append_stop {p : Char → Bool} (hd : p d = false) (cs more : List Char) :
    (cs ++ d :: more).dropWhile p = cs.dropWhile p ++ d :: more := by
  induction cs with
  | nil => simp [hd]
  | cons c cs ih =>
    rw [List.cons_append, List.dropWhile_cons, List.dropWhile_cons]
    split
    · exact ih
    · rfl

/-- A text with a character in it that a word lacks starts with the word only before it. -/
theorem isPrefixOf_append_stop {word : List Char} (hd : d ∉ word) (cs more : List Char) :
    word.isPrefixOf (cs ++ d :: more) = word.isPrefixOf cs := by
  induction word generalizing cs with
  | nil => simp
  | cons w word ih =>
    obtain ⟨hne, hd⟩ : d ≠ w ∧ d ∉ word := by simpa using hd
    cases cs with
    | nil => simp [List.isPrefixOf, hne.symm]
    | cons c cs =>
      rw [List.cons_append, List.isPrefixOf_cons_cons, List.isPrefixOf_cons_cons, ih hd]

theorem isPrefixOf?_append {word : List Char} (h : word.isPrefixOf? cs = some rest)
    (more : List Char) : word.isPrefixOf? (cs ++ more) = some (rest ++ more) := by
  rw [List.isPrefixOf?_eq_some_iff_append_eq] at h ⊢
  rw [← h, List.append_assoc]

/-! ## Names -/

theorem not_identContinue_of_mem_stops (hd : d ∈ stops) : isIdentContinue d = false := by
  have hall : ∀ d ∈ stops, isIdentContinue d = false :=
    List.all_iff_forall_prop.1 (by decide)
  exact hall d hd

theorem not_identStart_of_mem_stops (hd : d ∈ stops) : isIdentStart d = false := by
  have hall : ∀ d ∈ stops, isIdentStart d = false :=
    List.all_iff_forall_prop.1 (by decide)
  exact hall d hd

theorem takeIdent?_append_stop (hd : d ∈ stops) (cs more : List Char) :
    takeIdent? (cs ++ d :: more) =
      (takeIdent? cs).map fun (name, rest) => (name, rest ++ d :: more) := by
  have hcontinue := not_identContinue_of_mem_stops hd
  cases cs with
  | nil => simp [takeIdent?, not_identStart_of_mem_stops hd]
  | cons c cs =>
    simp only [takeIdent?, List.cons_append, takeWhile_append_stop hcontinue,
      dropWhile_append_stop hcontinue]
    split <;> rfl

theorem skipIdent_append_stop (hd : d ∈ stops) (cs more : List Char) :
    skipIdent (cs ++ d :: more) = skipIdent cs ++ d :: more := by
  rw [skipIdent, takeIdent?_append_stop hd, skipIdent]
  cases takeIdent? cs <;> rfl

/-! ## Quoted literals -/

theorem map_append_eq_some {α β : Type} {read read' : Option (α × List Char)} {f : α → β} {b : β}
    (ih : ∀ {a}, read = some (a, rest) → read' = some (a, rest ++ more))
    (h : (read.map fun (a, rest) => (f a, rest)) = some (b, rest)) :
    (read'.map fun (a, rest) => (f a, rest)) = some (b, rest ++ more) := by
  obtain ⟨⟨a, after⟩, hread, heq⟩ := Option.map_eq_some_iff.1 h
  obtain ⟨rfl, rfl⟩ := Prod.mk.inj heq
  rw [ih hread]
  rfl

/-- The letters `u` and `x` start longer escapes. -/
theorem simpleEscape?_ne {kind : StringKind} {c decoded : Char}
    (h : simpleEscape? kind c = some decoded) : c ∉ ['\n', '\r', 'u', 'x'] := by
  intro hc
  simp only [List.mem_cons, List.not_mem_nil, or_false] at hc
  obtain rfl | rfl | rfl | rfl := hc
  all_goals cases h

theorem scanCooked_char {kind : StringKind} {skipping : Bool} {c : Char}
    (hc : c ∉ ['"', '\r', '\\']) (cs : List Char) :
    scanCooked kind (.plain skipping) (c :: cs) =
      if skipping && (c = ' ' || c = '\t' || c = '\n') then scanCooked kind (.plain true) cs
      else if kind.allows c then
        (scanCooked kind (.plain false) cs).map fun (text, rest) => (c :: text, rest)
      else none := by
  simp only [List.mem_cons, List.not_mem_nil, or_false, not_or] at hc
  obtain ⟨hquote, hreturn, hslash⟩ := hc
  simp [scanCooked, hreturn, hslash]

theorem scanCooked_append {kind : StringKind} {mode : ScanMode} {value : List Char}
    (h : scanCooked kind mode cs = some (value, rest)) (more : List Char) :
    scanCooked kind mode (cs ++ more) = some (value, rest ++ more) := by
  fun_induction scanCooked kind mode cs generalizing value
  case case5 ih => simpa [scanCooked, *] using map_append_eq_some ih h
  case case11 ih => simpa [scanCooked, *] using map_append_eq_some ih h
  case case17 high low hhigh hlow code hcode ih =>
    have hcode : kind.allowsCode (high * 16 + low) = true := hcode
    simpa [scanCooked, hhigh, hlow, hcode] using map_append_eq_some ih h
  case case20 hescape ih =>
    have hne := simpleEscape?_ne hescape
    simp only [List.mem_cons, List.not_mem_nil, or_false, not_or] at hne
    simpa [scanCooked, *] using map_append_eq_some ih h
  case case22 skipping c cs hquote _ hreturn _ _ _ _ _ hblank ih =>
    have hslash : c ≠ '\\' := by
      rintro rfl
      simp at hblank
    have hc : c ∉ ['"', '\r', '\\'] := by simpa using ⟨hquote, hreturn, hslash⟩
    rw [List.cons_append, scanCooked_char hc, if_pos hblank]
    exact ih h
  case case23 skipping c cs hquote _ hreturn _ _ _ _ _ hblank hplain ih =>
    obtain ⟨hallows, hslash⟩ : kind.allows c = true ∧ c ≠ '\\' := by simpa using hplain
    have hc : c ∉ ['"', '\r', '\\'] := by simpa using ⟨hquote, hreturn, hslash⟩
    rw [List.cons_append, scanCooked_char hc, if_neg hblank, if_pos hallows]
    exact map_append_eq_some ih h
  all_goals simp_all [scanCooked]

theorem dropPounds?_append {count : Nat} (h : dropPounds? count cs = some rest)
    (more : List Char) : dropPounds? count (cs ++ more) = some (rest ++ more) := by
  fun_induction dropPounds? count cs with
  | case1 cs =>
    obtain rfl := Option.some.inj h
    rfl
  | case2 count cs ih => exact ih h
  | case3 => cases h

/-- The rest of a raw string after a character that does not end it. -/
def scanRawAfter (kind : StringKind) (pounds : Nat) (c : Char) (cs : List Char) :
    Option (List Char × List Char) :=
  if kind.allows c then (scanRaw kind pounds cs).map fun (text, rest) => (c :: text, rest) else none

theorem scanRaw_quote (kind : StringKind) (pounds : Nat) (cs : List Char) :
    scanRaw kind pounds ('"' :: cs) =
      match dropPounds? pounds cs with
      | some rest => some ([], rest)
      | none => scanRawAfter kind pounds '"' cs := by
  rfl

theorem scanRaw_char {kind : StringKind} {pounds : Nat} {c : Char} (hc : c ∉ ['"', '\r'])
    (cs : List Char) : scanRaw kind pounds (c :: cs) = scanRawAfter kind pounds c cs := by
  simp only [List.mem_cons, List.not_mem_nil, or_false, not_or] at hc
  obtain ⟨hquote, hreturn⟩ := hc
  simp [scanRaw, scanRawAfter, hquote, hreturn]

theorem exists_of_scanRawAfter {kind : StringKind} {pounds : Nat} {c : Char}
    {read : List Char × List Char} (h : scanRawAfter kind pounds c cs = some read) :
    ∃ read, scanRaw kind pounds cs = some read := by
  unfold scanRawAfter at h
  split at h
  · exact ⟨_, (Option.map_eq_some_iff.1 h).choose_spec.1⟩
  · cases h

theorem scanRawAfter_append {kind : StringKind} {pounds : Nat} {c : Char} {value : List Char}
    (ih : ∀ {value}, scanRaw kind pounds cs = some (value, rest) →
      scanRaw kind pounds (cs ++ more) = some (value, rest ++ more))
    (h : scanRawAfter kind pounds c cs = some (value, rest)) :
    scanRawAfter kind pounds c (cs ++ more) = some (value, rest ++ more) := by
  unfold scanRawAfter at h ⊢
  split at h
  next hallows => exact (if_pos hallows).trans (map_append_eq_some ih h)
  next => cases h

/-- A raw string that has its end goes on after number signs that do not end it. -/
theorem dropPounds?_append_eq_none {kind : StringKind} {pounds count : Nat}
    {read : List Char × List Char} (h : dropPounds? count cs = none)
    (hread : scanRaw kind pounds cs = some read) (more : List Char) :
    dropPounds? count (cs ++ more) = none := by
  fun_induction dropPounds? count cs generalizing read with
  | case1 => cases h
  | case2 count cs ih =>
    rw [scanRaw_char (by decide)] at hread
    obtain ⟨read, hread⟩ := exists_of_scanRawAfter hread
    exact ih h hread
  | case3 count cs hnone =>
    cases cs with
    | nil => cases hread
    | cons c cs =>
      have hc : c ≠ '#' := fun heq => hnone cs (heq ▸ rfl)
      simp [dropPounds?, hc]

theorem scanRaw_append {kind : StringKind} {pounds : Nat} {value : List Char}
    (h : scanRaw kind pounds cs = some (value, rest)) (more : List Char) :
    scanRaw kind pounds (cs ++ more) = some (value, rest ++ more) := by
  fun_induction scanRaw kind pounds cs generalizing value
  case case1 => cases h
  case case2 cs ih => exact map_append_eq_some (f := fun text => '\r' :: '\n' :: text) ih h
  case case3 => cases h
  case case4 cs rest' hrest _ _ _ =>
    obtain ⟨rfl, rfl⟩ := Prod.mk.inj (Option.some.inj h)
    rw [List.cons_append, scanRaw_quote, dropPounds?_append hrest]
  case case5 cs hrest _ _ continued ih =>
    have h : scanRawAfter kind pounds '"' cs = some (value, rest) := h
    obtain ⟨read, hread⟩ := exists_of_scanRawAfter h
    rw [List.cons_append, scanRaw_quote, dropPounds?_append_eq_none hrest hread]
    exact scanRawAfter_append ih h
  case case6 c cs _ hreturn continued hquote ih =>
    have hc : c ∉ ['"', '\r'] := by simpa using ⟨hquote, hreturn⟩
    have h : scanRawAfter kind pounds c cs = some (value, rest) := h
    rw [List.cons_append, scanRaw_char hc]
    exact scanRawAfter_append ih h

theorem takeWhile_append_of_dropWhile {p : Char → Bool} {c : Char} {cs after : List Char}
    (h : cs.dropWhile p = c :: after) (more : List Char) :
    (cs ++ more).takeWhile p = cs.takeWhile p ∧ (cs ++ more).dropWhile p = c :: (after ++ more) := by
  induction cs with
  | nil => cases h
  | cons d cs ih =>
    rw [List.dropWhile_cons] at h
    rw [List.cons_append, List.takeWhile_cons, List.takeWhile_cons, List.dropWhile_cons]
    split at h
    next hd =>
      obtain ⟨htake, hdrop⟩ := ih h
      simp [hd, htake, hdrop]
    next hd =>
      obtain ⟨rfl, rfl⟩ := List.cons.inj h
      simp [hd]

theorem rawString?_append {kind : StringKind} {value : List Char}
    (h : rawString? kind cs = some (value, rest)) (more : List Char) :
    rawString? kind (cs ++ more) = some (value, rest ++ more) := by
  unfold rawString? at h
  dsimp only at h
  split at h
  next after hafter =>
    obtain ⟨htake, hdrop⟩ := takeWhile_append_of_dropWhile hafter more
    split at h
    next hpounds =>
      unfold rawString?
      simp only [htake, hdrop, if_pos hpounds]
      exact scanRaw_append h more
    next => cases h
  next => cases h

theorem codePoint?_append {value digits : Nat} {c : Char}
    (h : codePoint? value digits cs = some (c, rest)) (more : List Char) :
    codePoint? value digits (cs ++ more) = some (c, rest ++ more) := by
  fun_induction codePoint? value digits cs
  all_goals simp_all [codePoint?]

theorem charBody?_append {c : Char} (h : charBody? cs = some (c, rest)) (more : List Char) :
    charBody? (cs ++ more) = some (c, rest ++ more) := by
  unfold charBody? at h
  dsimp only at h
  split at h
  next after hread =>
    obtain ⟨rfl, rfl⟩ := Prod.mk.inj (Option.some.inj h)
    split at hread
    next high low rest =>
      split at hread
      next hhigh hlow =>
        split at hread
        next hcode =>
          obtain ⟨rfl, rfl⟩ := Prod.mk.inj (Option.some.inj hread)
          simp [charBody?, hhigh, hlow, hcode]
        next => cases hread
      next => cases hread
    next rest => simp [charBody?, codePoint?_append hread]
    next escape rest _ _ =>
      obtain ⟨decoded, hescape, heq⟩ := Option.map_eq_some_iff.1 hread
      obtain ⟨rfl, rfl⟩ := Prod.mk.inj heq
      have hne := simpleEscape?_ne hescape
      simp only [List.mem_cons, List.not_mem_nil, or_false, not_or] at hne
      simp [charBody?, hescape, hne]
    all_goals simp_all [charBody?]
  next => cases h

theorem byteBody?_append (h : byteBody? cs = some rest) (more : List Char) :
    byteBody? (cs ++ more) = some (rest ++ more) := by
  unfold byteBody? at h
  dsimp only at h
  split at h
  next after hread =>
    obtain rfl := Option.some.inj h
    split at hread
    case h_2 escape rest _ =>
      obtain ⟨decoded, hescape, rfl⟩ := Option.map_eq_some_iff.1 hread
      have hne := simpleEscape?_ne hescape
      simp only [List.mem_cons, List.not_mem_nil, or_false, not_or] at hne
      simp [byteBody?, hescape, hne]
    all_goals simp_all [byteBody?]
  next => cases h

theorem quoted?_append {value : Literal} (hd : d ∈ stops) (h : quoted? cs = some (value, rest))
    (more : List Char) : quoted? (cs ++ d :: more) = some (value, rest ++ d :: more) := by
  have hbody : ∀ {α : Type} {read read' : Option (α × List Char)} (f : α → Literal),
      (∀ a after, read = some (a, after) → read' = some (a, after ++ d :: more)) →
      (read.map fun body => (f body.1, skipIdent body.2)) = some (value, rest) →
      (read'.map fun body => (f body.1, skipIdent body.2)) = some (value, rest ++ d :: more) := by
    intro α read read' f hread h
    obtain ⟨⟨a, after⟩, hsome, heq⟩ := Option.map_eq_some_iff.1 h
    obtain ⟨rfl, rfl⟩ := Prod.mk.inj heq
    simp [hread a after hsome, skipIdent_append_stop hd]
  unfold quoted? at h
  dsimp only at h
  split at h
  next => exact hbody (fun text => .str (String.ofList text)) (fun _ _ h => scanCooked_append h _) h
  next => exact hbody (fun text => .str (String.ofList text)) (fun _ _ h => rawString?_append h _) h
  next => exact hbody (fun _ => .byteString) (fun _ _ h => scanCooked_append h _) h
  next => exact hbody (fun _ => .byteString) (fun _ _ h => rawString?_append h _) h
  next =>
    obtain ⟨body, hbyte, heq⟩ := Option.map_eq_some_iff.1 h
    obtain ⟨rfl, rfl⟩ := Prod.mk.inj heq
    simp [quoted?, byteBody?_append hbyte, skipIdent_append_stop hd]
  next => exact hbody (fun _ => .cString) (fun _ _ h => scanCooked_append h _) h
  next => exact hbody (fun _ => .cString) (fun _ _ h => rawString?_append h _) h
  next => exact hbody .char (fun _ _ h => charBody?_append h _) h
  next => cases h

/-! ## Numbers -/

namespace Numeral

theorem mantissa?_append_stop (hd : d ∈ stops) (point : Bool) (cs more : List Char) :
    mantissa? point (cs ++ d :: more) =
      (mantissa? point cs).map fun (point, rest) => (point, rest ++ d :: more) := by
  have hall : ∀ d ∈ stops, isAsciiDigit d = false ∧ d ≠ '_' ∧ d ≠ '.' ∧ isIdentStart d = false :=
    List.all_iff_forall_prop.1 (by decide)
  obtain ⟨hdigit, hunderscore, hpoint, hstart⟩ := hall d hd
  -- what decides whether a point belongs to the number is the same before a stop and at the end
  have hhead : ∀ cs : List Char,
      ((cs ++ d :: more).head?.any fun next => next = '.' || isIdentStart next) =
        cs.head?.any fun next => next = '.' || isIdentStart next := by
    intro cs
    cases cs <;> simp [hpoint, hstart]
  fun_induction mantissa? point cs with
  | case1 => simp [mantissa?, hdigit, hunderscore, hpoint]
  | case2 _ _ _ hcontinue ih => simpa [mantissa?, hcontinue] using ih
  | case3 _ _ _ hcontinue hdot hnext =>
    simp only [List.cons_append, mantissa?, if_neg hcontinue, if_pos hdot, hhead, if_pos hnext]
    rfl
  | case4 _ _ _ hcontinue hdot hnext ih =>
    simp only [List.cons_append, mantissa?, if_neg hcontinue, if_pos hdot, hhead, if_neg hnext]
    exact ih
  | case5 _ _ _ hcontinue hdot =>
    simp only [List.cons_append, mantissa?, if_neg hcontinue, if_neg hdot]
    rfl

theorem exponent?_append_stop (hd : d ∈ stops) (signed valued : Bool) (cs more : List Char) :
    exponent? signed valued (cs ++ d :: more) =
      (exponent? signed valued cs).map (· ++ d :: more) := by
  have hall : ∀ d ∈ stops, isAsciiDigit d = false ∧ d ≠ '_' ∧ d ≠ '+' ∧ d ≠ '-' :=
    List.all_iff_forall_prop.1 (by decide)
  obtain ⟨hdigit, hunderscore, hplus, hminus⟩ := hall d hd
  fun_induction exponent? signed valued cs
  all_goals simp_all [exponent?]

theorem afterDigits?_append_stop (hd : d ∈ stops) (base : Nat) (empty : Bool)
    (cs more : List Char) :
    afterDigits? base empty (cs ++ d :: more) =
      (afterDigits? base empty cs).map (· ++ d :: more) := by
  have hall : ∀ d ∈ stops, digit? 16 d = none ∧ d ≠ '_' :=
    List.all_iff_forall_prop.1 (by decide)
  obtain ⟨hdigit, hunderscore⟩ := hall d hd
  fun_induction afterDigits? base empty cs
  all_goals simp_all [afterDigits?, Nat.not_lt_of_le]

theorem base_append_stop (hd : d ∈ stops) (cs more : List Char) :
    base (cs ++ d :: more) = ((base cs).1, (base cs).2 ++ d :: more) := by
  have hall : ∀ d ∈ stops, d ≠ '0' ∧ d ≠ 'x' ∧ d ≠ 'o' ∧ d ≠ 'b' :=
    List.all_iff_forall_prop.1 (by decide)
  obtain ⟨hzero, hx, ho, hb⟩ := hall d hd
  match cs with
  | [] => simp [base, hzero]
  | [c] => simp [base, hx, ho, hb]
  | c :: c' :: cs =>
    simp only [base, List.cons_append]
    split <;> simp_all

theorem afterSuffix?_append_stop (hd : d ∈ stops) (cs more : List Char) :
    afterSuffix? (cs ++ d :: more) = (afterSuffix? cs).map (· ++ d :: more) := by
  have hcontinue := not_identContinue_of_mem_stops hd
  simp only [afterSuffix?, skipIdent_append_stop hd]
  cases skipIdent cs with
  | nil => simp [hcontinue]
  | cons c rest =>
    by_cases hc : isIdentContinue c = true <;> simp [hc]

theorem afterFloat?_append_stop (hd : d ∈ stops) (cs more : List Char) :
    afterFloat? (cs ++ d :: more) = (afterFloat? cs).map (· ++ d :: more) := by
  have hall : ∀ d ∈ stops, isAsciiDigit d = false ∧ d ≠ 'e' ∧ d ≠ 'E' :=
    List.all_iff_forall_prop.1 (by decide)
  obtain ⟨hdigit, he, hE⟩ := hall d hd
  have hhead : (cs ++ d :: more).head?.any isAsciiDigit = cs.head?.any isAsciiDigit := by
    cases cs <;> simp [hdigit]
  simp only [afterFloat?, hhead, mantissa?_append_stop hd]
  split
  next =>
    cases mantissa? false cs with
    | none => rfl
    | some read =>
      obtain ⟨point, rest⟩ := read
      cases rest with
      | nil => cases point <;> simp [he, hE]
      | cons c rest =>
        simp only [Option.map_some, List.cons_append, exponent?_append_stop hd]
        split
        · cases exponent? false false rest <;> cases point <;> rfl
        · cases point <;> rfl
  next => rfl

theorem after?_append_stop (hd : d ∈ stops) (cs more : List Char) :
    after? (cs ++ d :: more) = (after? cs).map (· ++ d :: more) := by
  have hsuffix : ∀ read : Option (List Char),
      (read.map (· ++ d :: more)).bind afterSuffix? =
        (read.bind afterSuffix?).map (· ++ d :: more) := by
    intro read
    cases read with
    | none => rfl
    | some rest => exact afterSuffix?_append_stop hd rest more
  simp only [after?, base_append_stop hd, afterFloat?_append_stop hd, afterDigits?_append_stop hd,
    hsuffix]
  cases (afterFloat? cs).bind afterSuffix? <;> rfl

theorem isAsciiDigit_of_digit? {c : Char} {n : Nat} (h : digit? 16 c = some n) (hn : n < 10) :
    isAsciiDigit c = true := by
  unfold digit? at h
  split at h
  next hdigit => exact hdigit
  next =>
    have hletter : 10 ≤ n := by
      split at h
      · obtain rfl := Option.some.inj h
        exact Nat.le_add_left 10 _
      · split at h
        · obtain rfl := Option.some.inj h
          exact Nat.le_add_left 10 _
        · cases h
    exact absurd hn (Nat.not_lt.2 hletter)

/-- A number starts with a digit. -/
theorem isAsciiDigit_of_after? {c : Char} (h : after? (c :: cs) = some rest) :
    isAsciiDigit c = true := by
  by_contra hdigit
  have hzero : c ≠ '0' := by
    rintro rfl
    exact hdigit rfl
  have hfloat : afterFloat? (c :: cs) = none := by simp [afterFloat?, hdigit]
  have hdigits : afterDigits? 10 true (c :: cs) = none := by
    simp only [afterDigits?]
    split
    next n hn =>
      have hlt : ¬n < 10 := fun hlt => hdigit (isAsciiDigit_of_digit? hn hlt)
      simp [hlt]
    next => simp
  have hbase : base (c :: cs) = (10, c :: cs) := by simp [base, hzero]
  simp [after?, hfloat, hbase, hdigits] at h

end Numeral

namespace Lexer

/-! ## Single tokens -/

/-- A word that is none of the letters before a quote starts no quoted literal. -/
theorem quoted?_eq_none {c : Char} (hc : c ∉ ['"', 'r', 'b', 'c', '\'']) (cs : List Char) :
    quoted? (c :: cs) = none := by
  simp only [List.mem_cons, List.not_mem_nil, or_false, not_or] at hc
  simp [quoted?, hc]

theorem literal?_append {value : Literal} (hd : d ∈ stops) (h : literal? cs = some (value, rest))
    (more : List Char) : literal? (cs ++ d :: more) = some (value, rest ++ d :: more) := by
  unfold literal? at h ⊢
  split at h
  next read hread =>
    obtain rfl := Option.some.inj h
    rw [quoted?_append hd hread]
  next =>
    obtain ⟨after, hafter, heq⟩ := Option.map_eq_some_iff.1 h
    obtain ⟨rfl, rfl⟩ := Prod.mk.inj heq
    obtain ⟨c, taken, rfl⟩ := Numeral.leaves_of_after? hafter
    have hdigit : isAsciiDigit c = true := Numeral.isAsciiDigit_of_after? hafter
    have hquoted : ∀ cs, quoted? (c :: cs) = none := by
      intro cs
      apply quoted?_eq_none
      intro hc
      have hall : ∀ c ∈ ['"', 'r', 'b', 'c', '\''], isAsciiDigit c = false :=
        List.all_iff_forall_prop.1 (by decide)
      rw [hall c hc] at hdigit
      cases hdigit
    have hspelling : ∀ rest : List Char,
        (c :: (taken ++ rest)).take ((c :: (taken ++ rest)).length - rest.length) = c :: taken := by
      intro rest
      rw [← List.cons_append, List.length_append, Nat.add_sub_cancel, List.take_left]
    rw [Numeral.after?_append_stop hd, hafter, hspelling, List.cons_append, List.append_assoc,
      hquoted]
    simp only [Option.map_some, hspelling]

/-- The leads of quoted literals stay what they are before a stop. -/
theorem literalLeads_append_stop (hd : d ∈ stops) (cs more : List Char) :
    literalLeads.any (·.isPrefixOf (cs ++ d :: more)) = literalLeads.any (·.isPrefixOf cs) := by
  have hall : ∀ d ∈ stops, ∀ lead ∈ literalLeads, d ∉ lead :=
    List.all_iff_forall_prop.1 (by decide)
  rw [Bool.eq_iff_iff, List.any_eq_true, List.any_eq_true]
  refine exists_congr fun lead => and_congr_right fun hlead => ?_
  rw [isPrefixOf_append_stop (hall d hd lead hlead)]

theorem namedIdent?_of_takeIdent? {raw : Bool} {name : List Char}
    (h : takeIdent? cs = some (name, rest)) :
    namedIdent? raw cs =
      if hraw : raw = true → String.ofList name ∉ unraw then
        some (⟨raw, String.ofList name, isIdentifier_of_takeIdent? h, hraw⟩, rest)
      else none := by
  unfold namedIdent?
  split
  next name' rest' htake =>
    obtain ⟨rfl, rfl⟩ := Prod.mk.inj (Option.some.inj (htake.symm.trans h))
    rfl
  next htake => cases htake.symm.trans h

theorem namedIdent?_of_takeIdent?_none {raw : Bool} (h : takeIdent? cs = none) :
    namedIdent? raw cs = none := by
  unfold namedIdent?
  split
  next htake => cases htake.symm.trans h
  next => rfl

theorem namedIdent?_append_stop (hd : d ∈ stops) (raw : Bool) (cs more : List Char) :
    namedIdent? raw (cs ++ d :: more) =
      (namedIdent? raw cs).map fun (ident, rest) => (ident, rest ++ d :: more) := by
  have htake := takeIdent?_append_stop hd cs more
  cases hread : takeIdent? cs with
  | none =>
    rw [hread] at htake
    rw [namedIdent?_of_takeIdent?_none hread, namedIdent?_of_takeIdent?_none htake]
    rfl
  | some read =>
    rw [hread] at htake
    rw [namedIdent?_of_takeIdent? hread, namedIdent?_of_takeIdent? htake]
    split <;> rfl

theorem identifier?_append_stop (hd : d ∈ stops) (cs more : List Char) :
    identifier? (cs ++ d :: more) =
      (identifier? cs).map fun (ident, rest) => (ident, rest ++ d :: more) := by
  have hall : ∀ d ∈ stops, d ≠ 'r' ∧ d ≠ '#' :=
    List.all_iff_forall_prop.1 (by decide)
  obtain ⟨hr, hsign⟩ := hall d hd
  have hplain : ∀ cs : List Char, (∀ after, cs ≠ 'r' :: '#' :: after) →
      identifier? cs = namedIdent? false cs := by
    intro cs hcs
    unfold identifier?
    split
    next after => exact absurd rfl (hcs after)
    next => rfl
  by_cases hraw : ∃ after, cs = 'r' :: '#' :: after
  · obtain ⟨after, rfl⟩ := hraw
    simp only [List.cons_append, identifier?, namedIdent?_append_stop hd]
  · have hcs : ∀ after, cs ≠ 'r' :: '#' :: after := fun after heq => hraw ⟨after, heq⟩
    have happend : ∀ after, cs ++ d :: more ≠ 'r' :: '#' :: after := by
      intro after heq
      match cs with
      | [] => exact hr (List.cons.inj heq).1
      | [c] => exact hsign (List.cons.inj (List.cons.inj heq).2).1
      | c :: c' :: cs =>
        obtain ⟨rfl, htail⟩ := List.cons.inj heq
        obtain ⟨rfl, -⟩ := List.cons.inj htail
        exact hcs cs rfl
    rw [hplain cs hcs, hplain _ happend, namedIdent?_append_stop hd]

theorem startsPunctuation_cons_cons (c c' : Char) (cs : List Char) :
    startsPunctuation (c :: c' :: cs) =
      if c = '/' ∧ (c' = '/' ∨ c' = '*') then false else isPunctuation c := by
  unfold startsPunctuation
  split
  next heq => simp_all
  next heq => simp_all
  next c₀ tail hslash hstar heq =>
    obtain ⟨rfl, rfl⟩ := List.cons.inj heq
    have hcomment : ¬(c = '/' ∧ (c' = '/' ∨ c' = '*')) := by
      rintro ⟨rfl, rfl | rfl⟩
      · exact hslash cs rfl rfl
      · exact hstar cs rfl rfl
    rw [if_neg hcomment]
  next heq => cases heq

theorem startsPunctuation_append_stop (hd : d ∈ stops) (c : Char) (cs more : List Char) :
    startsPunctuation (c :: cs ++ d :: more) = startsPunctuation (c :: cs) := by
  have hall : ∀ d ∈ stops, d ≠ '/' ∧ d ≠ '*' :=
    List.all_iff_forall_prop.1 (by decide)
  obtain ⟨hslash, hstar⟩ := hall d hd
  cases cs with
  | nil =>
    rw [List.cons_append, List.nil_append, startsPunctuation_cons_cons]
    simp [startsPunctuation, hslash, hstar]
  | cons c' cs =>
    rw [List.cons_append, List.cons_append, startsPunctuation_cons_cons,
      startsPunctuation_cons_cons]

/-- Whether a punctuation character is joint to the next one. -/
theorem joint_append_stop (hd : d ∈ stops) {cs : List Char}
    (hend : cs = [] → isPunctuation d = false) (more : List Char) :
    startsPunctuation (cs ++ d :: more) = startsPunctuation cs := by
  cases cs with
  | nil =>
    have hall : ∀ d ∈ stops, d ≠ '/' :=
      List.all_iff_forall_prop.1 (by decide)
    have hslash : d ≠ '/' := hall d hd
    have hd : isPunctuation d = false := hend rfl
    simpa [startsPunctuation, hslash] using hd
  | cons c cs => exact startsPunctuation_append_stop hd c cs more

/-- Whether an apostrophe before the text leads a lifetime. -/
def leadsLifetime (cs : List Char) : Bool :=
  match identifier? cs with
  | some (ident, rest) => rest.head? ≠ some '\'' && (rest.head? ≠ some '#' || ident.raw)
  | none => false

theorem punct?_quote (cs : List Char) :
    punct? ('\'' :: cs) = if leadsLifetime cs then some ('\'', true, cs) else none := by
  cases hident : identifier? cs with
  | none => simp [punct?, leadsLifetime, hident]
  | some read =>
    obtain ⟨ident, rest⟩ := read
    cases rest with
    | nil => simp [punct?, leadsLifetime, hident]
    | cons c rest =>
      by_cases hquote : c = '\''
      · simp [punct?, leadsLifetime, hident, hquote]
      · by_cases hsign : c = '#'
        · simp [punct?, leadsLifetime, hident, hsign]
        · simp [punct?, leadsLifetime, hident, hquote, hsign]

theorem punct?_of_ne {c : Char} (hc : c ≠ '\'') (cs : List Char) :
    punct? (c :: cs) =
      if startsPunctuation (c :: cs) then some (c, startsPunctuation cs, cs) else none := by
  unfold punct?
  split
  next heq => exact absurd (List.cons.inj heq).1 hc
  next heq =>
    obtain ⟨rfl, rfl⟩ := List.cons.inj heq
    rfl
  next heq => cases heq

theorem leadsLifetime_append_stop (hd : d ∈ stops) (cs more : List Char) :
    leadsLifetime (cs ++ d :: more) = leadsLifetime cs := by
  have hall : ∀ d ∈ stops, d ≠ '\'' ∧ d ≠ '#' :=
    List.all_iff_forall_prop.1 (by decide)
  obtain ⟨hquote, hsign⟩ := hall d hd
  simp only [leadsLifetime, identifier?_append_stop hd]
  cases identifier? cs with
  | none => rfl
  | some read =>
    obtain ⟨ident, rest⟩ := read
    cases rest <;> simp [hquote, hsign]

theorem punct?_append {c : Char} {joint : Bool} (hd : d ∈ stops)
    (h : punct? cs = some (c, joint, rest)) (hend : rest = [] → isPunctuation d = false)
    (more : List Char) : punct? (cs ++ d :: more) = some (c, joint, rest ++ d :: more) := by
  cases cs with
  | nil => cases h
  | cons c' cs =>
    by_cases hquote : c' = '\''
    · subst hquote
      rw [punct?_quote] at h
      rw [List.cons_append, punct?_quote, leadsLifetime_append_stop hd]
      split at h
      next hleads =>
        obtain ⟨rfl, rfl, rfl⟩ : '\'' = c ∧ true = joint ∧ cs = rest := by simpa using h
        exact if_pos hleads
      next => cases h
    · rw [punct?_of_ne hquote] at h
      rw [List.cons_append, punct?_of_ne hquote, ← List.cons_append,
        startsPunctuation_append_stop hd]
      split at h
      next hstarts =>
        obtain ⟨rfl, rfl, rfl⟩ : c' = c ∧ startsPunctuation cs = joint ∧ cs = rest := by
          simpa using h
        rw [if_pos hstarts, joint_append_stop hd hend]
      next => cases h

/-- A raw string starts, after its letter, with a quote or with number signs. -/
theorem exists_lead_of_rawString? {kind : StringKind} {read : List Char × List Char}
    (h : rawString? kind cs = some read) :
    ∃ lead ∈ [['"'], ['#', '"'], ['#', '#']], lead <+: cs := by
  unfold rawString? at h
  dsimp only at h
  split at h
  next rest hrest =>
    match cs with
    | [] => cases hrest
    | [c] =>
      by_cases hsign : c = '#' <;> simp_all [List.dropWhile]
    | c :: c' :: cs =>
      by_cases hsign : c = '#'
      · by_cases hsign' : c' = '#'
        · simp [hsign, hsign', List.cons_prefix_cons]
        · have hquote : c' = '"' := by simp_all [List.dropWhile]
          simp [hsign, hquote, List.cons_prefix_cons]
      · have hquote : c = '"' := by simp_all [List.dropWhile]
        simp [hquote, List.cons_prefix_cons]
  next => cases h

/-- A text that no lead starts is no quoted literal, unless a quote starts it. -/
theorem quoted?_eq_none_of_leads {c : Char} (hc : c ∉ ['"', '\''])
    (hleads : literalLeads.any (·.isPrefixOf (c :: cs)) = false) : quoted? (c :: cs) = none := by
  have hnone : ∀ lead ∈ literalLeads, ¬lead <+: c :: cs := by
    intro lead hlead hprefix
    have hfalse := List.any_eq_false.1 hleads lead hlead
    exact hfalse (List.isPrefixOf_iff_prefix.2 hprefix)
  have hraw : ∀ (kind : StringKind) (letters : List Char) {rest : List Char},
      (∀ lead ∈ [['"'], ['#', '"'], ['#', '#']], ∃ short ∈ literalLeads,
        short <+: letters ++ lead) →
      c :: cs = letters ++ rest → rawString? kind rest = none := by
    intro kind letters rest hshort heq
    cases hread : rawString? kind rest with
    | none => rfl
    | some read =>
      obtain ⟨lead, hlead, hprefix⟩ := exists_lead_of_rawString? hread
      obtain ⟨short, hmem, hletters⟩ := hshort lead hlead
      have hwhole : letters ++ lead <+: c :: cs := by
        rw [heq]
        exact (List.prefix_append_right_inj letters).2 hprefix
      exact absurd (hletters.trans hwhole) (hnone short hmem)
  have hquote : ∀ (letter mark : Char) {rest : List Char}, [letter, mark] ∈ literalLeads →
      c :: cs ≠ letter :: mark :: rest := by
    intro letter mark rest hmem heq
    refine hnone _ hmem ?_
    rw [heq]
    exact ⟨rest, rfl⟩
  simp only [List.mem_cons, List.not_mem_nil, or_false, not_or] at hc
  unfold quoted?
  dsimp only
  split
  next heq => exact absurd (List.cons.inj heq).1 hc.1
  next heq => rw [hraw .text ['r'] (by decide) heq, Option.map_none]
  next heq => exact absurd heq (hquote 'b' '"' (by decide))
  next heq => rw [hraw .bytes ['b', 'r'] (by decide) heq, Option.map_none]
  next heq => exact absurd heq (hquote 'b' '\'' (by decide))
  next heq => exact absurd heq (hquote 'c' '"' (by decide))
  next heq => rw [hraw .cText ['c', 'r'] (by decide) heq, Option.map_none]
  next heq => exact absurd (List.cons.inj heq).1 hc.2
  next => rfl

/-- Behind a character that is not escaped, only a quote closes a character literal. -/
theorem charBody?_eq_none {c : Char} (hc : c ≠ '\\') (h : cs.head? ≠ some '\'') :
    charBody? (c :: cs) = none := by
  cases cs with
  | nil => simp [charBody?, hc]
  | cons c' cs =>
    have hquote : c' ≠ '\'' := fun heq => h (congrArg some heq)
    simp [charBody?, hc, hquote]

theorem literal?_eq_none {c : Char} (hquoted : quoted? (c :: cs) = none)
    (hc : isAsciiDigit c = false) : literal? (c :: cs) = none := by
  have hafter : Numeral.after? (c :: cs) = none := by
    cases hread : Numeral.after? (c :: cs) with
    | none => rfl
    | some rest =>
      have hdigit := Numeral.isAsciiDigit_of_after? hread
      rw [hc] at hdigit
      cases hdigit
  simp [literal?, hquoted, hafter]

/-- A punctuation character starts no literal, except for the apostrophe. -/
theorem literal?_eq_none_of_isPunctuation {c : Char} (hquote : c ≠ '\'')
    (hc : isPunctuation c = true) (cs : List Char) : literal? (c :: cs) = none := by
  have hall : ∀ c ∈ "~!@#$%^&*-=+|;:,<.>/?'".toList,
      c ∉ ['"', 'r', 'b', 'c'] ∧ isAsciiDigit c = false :=
    List.all_iff_forall_prop.1 (by decide)
  obtain ⟨hletter, hdigit⟩ := hall c (List.contains_iff_mem.1 hc)
  refine literal?_eq_none (quoted?_eq_none ?_ cs) hdigit
  simp only [List.mem_cons, List.not_mem_nil, or_false, not_or] at hletter ⊢
  exact ⟨hletter.1, hletter.2.1, hletter.2.2.1, hletter.2.2.2, hquote⟩

/-- Characters that no name starts with. -/
def marks : List Char :=
  "\"'\\~!@#$%^&*-=+|;:,<.>/?()[]\x7b\x7d".toList

theorem not_mem_marks_of_isIdentStart {c : Char} (h : isIdentStart c = true) : c ∉ marks := by
  have hall : ∀ mark ∈ marks, isIdentStart mark = false :=
    List.all_iff_forall_prop.1 (by decide +kernel)
  intro hc
  rw [hall c hc] at h
  cases h

theorem not_isAsciiDigit_of_isIdentStart {c : Char} (h : isIdentStart c = true) :
    isAsciiDigit c = false := by
  by_contra hdigit
  simp only [isAsciiDigit, Bool.not_eq_false, Bool.and_eq_true, decide_eq_true_eq] at hdigit
  obtain ⟨hlow, hhigh⟩ := hdigit
  have hlow : 48 ≤ c.toNat := hlow
  have hhigh : c.toNat ≤ 57 := hhigh
  have hascii : c.toNat < 0x80 := by omega
  simp only [isIdentStart, hascii, if_true, isAsciiLetter, Bool.or_eq_true, Bool.and_eq_true,
    decide_eq_true_eq] at h
  obtain (⟨hlower, -⟩ | ⟨hupper, -⟩) | rfl := h
  · have hlower : 97 ≤ c.toNat := hlower
    omega
  · have hupper : 65 ≤ c.toNat := hupper
    omega
  · exact absurd hhigh (by decide)

/-- What an identifier starts with, raw or not. -/
theorem isIdentStart_of_identifier? {ident : Ident} (h : identifier? cs = some (ident, rest)) :
    ∃ c after, cs = c :: after ∧ isIdentStart c = true := by
  have hnamed : ∀ {raw : Bool} {cs rest : List Char} {ident : Ident},
      namedIdent? raw cs = some (ident, rest) →
        ∃ c after, cs = c :: after ∧ isIdentStart c = true := by
    intro raw cs rest ident h
    cases htake : takeIdent? cs with
    | none =>
      rw [namedIdent?_of_takeIdent?_none htake] at h
      cases h
    | some read =>
      cases cs with
      | nil => cases htake
      | cons c after =>
        refine ⟨c, after, rfl, ?_⟩
        by_contra hstart
        simp [takeIdent?, hstart] at htake
  unfold identifier? at h
  split at h
  next after => exact ⟨'r', '#' :: after, rfl, by decide⟩
  next => exact hnamed h

theorem identifier?_eq_none {c : Char} (hc : isIdentStart c = false) (cs : List Char) :
    identifier? (c :: cs) = none := by
  cases hread : identifier? (c :: cs) with
  | none => rfl
  | some read =>
    obtain ⟨first, after, heq, hfirst⟩ := isIdentStart_of_identifier? hread
    rw [← (List.cons.inj heq).1, hc] at hfirst
    cases hfirst

theorem literal?_eq_none_of_isIdentStart {c : Char} (hc : isIdentStart c = true)
    (hleads : literalLeads.any (·.isPrefixOf (c :: cs)) = false) : literal? (c :: cs) = none := by
  have hmarks : c ∉ marks := not_mem_marks_of_isIdentStart hc
  refine literal?_eq_none (quoted?_eq_none_of_leads ?_ hleads) (not_isAsciiDigit_of_isIdentStart hc)
  intro hquote
  have hall : ∀ c ∈ ['"', '\''], c ∈ marks :=
    List.all_iff_forall_prop.1 (by decide)
  exact hmarks (hall c hquote)

theorem punct?_eq_none_of_isIdentStart {c : Char} (hc : isIdentStart c = true) (cs : List Char) :
    punct? (c :: cs) = none := by
  have hmarks : c ∉ marks := not_mem_marks_of_isIdentStart hc
  have hall : ∀ c ∈ "~!@#$%^&*-=+|;:,<.>/?'".toList, c ∈ marks :=
    List.all_iff_forall_prop.1 (by decide)
  have hpunctuation : isPunctuation c = false := by
    by_contra hpunctuation
    exact hmarks (hall c (List.contains_iff_mem.1 (Bool.not_eq_false _ ▸ hpunctuation)))
  have hquote : c ≠ '\'' := fun heq => hmarks (heq ▸ by decide)
  have hstarts : startsPunctuation (c :: cs) = false := by
    cases cs with
    | nil => simpa [startsPunctuation] using hpunctuation
    | cons c' cs =>
      rw [startsPunctuation_cons_cons, hpunctuation]
      split <;> rfl
  rw [punct?_of_ne hquote, hstarts]
  rfl

/-- A text that starts with a name, unless with the lead of a literal, starts with that token. -/
theorem leaf?_of_identifier? {ident : Ident}
    (hleads : literalLeads.any (·.isPrefixOf cs) = false)
    (h : identifier? cs = some (ident, rest)) : leaf? cs = some (.ident ident, rest) := by
  obtain ⟨c, after, rfl, hc⟩ := isIdentStart_of_identifier? h
  simp [leaf?, literal?_eq_none_of_isIdentStart hc hleads, punct?_eq_none_of_isIdentStart hc,
    hleads, h]

theorem isPunctuation_of_startsPunctuation {c : Char} (h : startsPunctuation (c :: cs) = true) :
    isPunctuation c = true := by
  cases cs with
  | nil => simpa [startsPunctuation] using h
  | cons c' cs =>
    rw [startsPunctuation_cons_cons] at h
    split at h
    · cases h
    · exact h

/-- An apostrophe that leads a lifetime starts no literal in a larger text, either. -/
theorem literal?_quote_append_eq_none (hd : d ∈ stops) (hliteral : literal? ('\'' :: cs) = none)
    (hleads : leadsLifetime cs = true) (more : List Char) :
    literal? ('\'' :: (cs ++ d :: more)) = none := by
  have hall : ∀ d ∈ stops, d ≠ '\'' :=
    List.all_iff_forall_prop.1 (by decide)
  have hbody : charBody? cs = none := by
    cases hread : charBody? cs with
    | none => rfl
    | some read => simp [literal?, quoted?, hread] at hliteral
  obtain ⟨⟨ident, after⟩, hident⟩ : ∃ read, identifier? cs = some read := by
    cases hread : identifier? cs with
    | none => simp [leadsLifetime, hread] at hleads
    | some read => exact ⟨read, rfl⟩
  obtain ⟨first, cs, rfl, hfirst⟩ := isIdentStart_of_identifier? hident
  have hslash : first ≠ '\\' := fun heq =>
    not_mem_marks_of_isIdentStart hfirst (heq ▸ by decide)
  -- behind the first character stands no closing quote, nor does the stop close it
  have hhead : (cs ++ d :: more).head? ≠ some '\'' := by
    cases cs with
    | nil => simpa using hall d hd
    | cons second cs =>
      rintro heq
      obtain rfl : second = '\'' := by simpa using heq
      simp [charBody?, hslash] at hbody
  refine literal?_eq_none ?_ (by decide)
  simp [quoted?, charBody?_eq_none hslash hhead]

/-- A punctuation character starts no literal in a larger text, either. -/
theorem literal?_append_eq_none {c : Char} {joint : Bool} (hd : d ∈ stops)
    (hliteral : literal? cs = none) (h : punct? cs = some (c, joint, rest)) (more : List Char) :
    literal? (cs ++ d :: more) = none := by
  cases cs with
  | nil => cases h
  | cons c' cs =>
    by_cases hquote : c' = '\''
    · subst hquote
      rw [punct?_quote] at h
      split at h
      next hleads => exact literal?_quote_append_eq_none hd hliteral hleads more
      next => cases h
    · rw [punct?_of_ne hquote] at h
      split at h
      next hstarts =>
        exact literal?_eq_none_of_isPunctuation hquote
          (isPunctuation_of_startsPunctuation hstarts) _
      next => cases h

/-- Code that could not be expanded starts with a parenthesis, as no other token does. -/
theorem leaf?_of_expansionError (h : expansionError.isPrefixOf? cs = some rest) :
    leaf? cs = some (.literal (.unknown (String.ofList expansionError)), rest) := by
  have hparen : expansionError = '(' :: expansionError.tail := by decide
  obtain ⟨tail, rfl⟩ : ∃ tail, cs = '(' :: tail := by
    rw [← List.isPrefixOf?_eq_some_iff_append_eq.1 h, hparen]
    exact ⟨_, rfl⟩
  have hliteral : literal? ('(' :: tail) = none :=
    literal?_eq_none (quoted?_eq_none (by decide) tail) (by decide)
  have hpunct : punct? ('(' :: tail) = none := by
    simp [punct?, startsPunctuation, isPunctuation]
  have hleads : literalLeads.any (·.isPrefixOf ('(' :: tail)) = false := by
    simp [literalLeads, List.isPrefixOf]
  have hident : identifier? ('(' :: tail) = none := identifier?_eq_none (by decide) tail
  simp [leaf?, hliteral, hpunct, hleads, hident, h]

theorem leaf?_append {leaf : Leaf} (hd : d ∈ stops) (h : leaf? cs = some (leaf, rest))
    (hend : rest = [] → isPunctuation d = true → ∀ c joint, leaf ≠ .punct c joint)
    (more : List Char) : leaf? (cs ++ d :: more) = some (leaf, rest ++ d :: more) := by
  unfold leaf? at h
  split at h
  next value after hliteral =>
    obtain ⟨rfl, rfl⟩ := Prod.mk.inj (Option.some.inj h)
    simp [leaf?, literal?_append hd hliteral]
  next hliteral =>
    split at h
    next c joint after hpunct =>
      obtain ⟨rfl, rfl⟩ := Prod.mk.inj (Option.some.inj h)
      have hplain : after = [] → isPunctuation d = false := by
        intro hafter
        by_contra hpunctuation
        exact hend hafter (Bool.not_eq_false _ ▸ hpunctuation) c joint rfl
      simp [leaf?, literal?_append_eq_none hd hliteral hpunct, punct?_append hd hpunct hplain]
    next hpunct =>
      split at h
      · cases h
      next hleads =>
        have hleads : literalLeads.any (·.isPrefixOf cs) = false := Bool.eq_false_iff.2 hleads
        split at h
        next ident after hident =>
          obtain ⟨rfl, rfl⟩ := Prod.mk.inj (Option.some.inj h)
          refine leaf?_of_identifier? ?_ ?_
          · rw [literalLeads_append_stop hd, hleads]
          · rw [identifier?_append_stop hd, hident]
            rfl
        next hident =>
          obtain ⟨after, hafter, heq⟩ := Option.map_eq_some_iff.1 h
          obtain ⟨rfl, rfl⟩ := Prod.mk.inj heq
          exact leaf?_of_expansionError (isPrefixOf?_append hafter (d :: more))

end Lexer

end

end JobRoster.Syntax
