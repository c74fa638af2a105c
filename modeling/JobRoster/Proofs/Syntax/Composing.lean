import JobRoster.Proofs.Syntax.Parsing
import JobRoster.Proofs.Syntax.PlainPath
import JobRoster.Syntax.Source

/-!
# Parsing what is put together

What a parser gives for tokens of a known shape: it reads what its parts read, one after another. A
path of names is read up to what ends it, and a type that is such a path, too.
-/

namespace JobRoster.Syntax

open Syntax.Parser

variable {g : Grammar} {line close : Nat} {stray : Option Nat} {tokens rest : List Token}

/-! ## Reading on -/

namespace Parser

variable {α : Type} {p : Parser α} {a : α}

theorem takeIdent_cons {ident : Ident} (h : Ahead.reserved.contains ident.text = false)
    (line : Nat) (tokens : List Token) (close : Nat) (stray : Option Nat) :
    takeIdent ⟨.ident ident line :: tokens, close, stray⟩ = .ok (ident, ⟨tokens, close, stray⟩) :=
  takeIdent_eq_ok_iff.2 ⟨by simpa [Ahead.ident] using h, line, tokens, rfl, rfl⟩

theorem word?_eq_false {spelling : String} (h : Ahead.word spelling tokens = false) :
    word? spelling ⟨tokens, close, stray⟩ = .ok (false, ⟨tokens, close, stray⟩) := by
  rw [word?, look_bind, h]
  rfl

theorem punct?_eq_false {spelling : String} (h : Ahead.punct spelling tokens = false) :
    punct? spelling ⟨tokens, close, stray⟩ = .ok (false, ⟨tokens, close, stray⟩) := by
  rw [punct?_apply, h]
  rfl

theorem inGroup_cons {delimiter : Delimiter} {content : List Token} {start inside : Nat}
    (h : p ⟨content, inside, stray⟩ = .ok (a, ⟨[], inside, stray⟩)) :
    inGroup delimiter p ⟨.group delimiter content start inside :: rest, close, stray⟩ =
      .ok (a, ⟨rest, close, stray⟩) :=
  inGroup_eq_ok_iff.2 ⟨content, start, inside, rest, _, rfl, h, rfl⟩

theorem loop_inr {σ : Type} {step : σ → Parser (σ ⊕ α)} {state : σ} {input rest : Input}
    (h : step state input = .ok (.inr a, rest)) : loop step state input = .ok (a, rest) :=
  bind_eq_ok_iff.2 ⟨_, _, rfl, bind_eq_ok_iff.2 ⟨.inr a, rest, h, rfl⟩⟩

theorem separatedUntil_single {stop : List Token → Bool} {separator : String} {p : Parser Unit}
    {input rest : Input} (hfirst : stop input.tokens = false) (h : p input = .ok ((), rest))
    (hlast : stop rest.tokens = true) : separatedUntil stop separator p input = .ok ((), rest) := by
  refine loop_inr (bind_eq_ok_iff.2 ⟨_, _, rfl, ?_⟩)
  rw [hfirst]
  refine bind_eq_ok_iff.2 ⟨(), rest, h, bind_eq_ok_iff.2 ⟨_, _, rfl, ?_⟩⟩
  rw [hlast]
  rfl

/-- What is read one by one is read by `manyWhile`, if it does not take more turns than there are. -/
theorem iterate_of_many {test : List Token → Bool} {turns : Nat} {done as : List α}
    {input rest : Input} (h : Many test p input as rest) (hturns : as.length < turns) :
    iterate (manyStep test p) turns done input = .ok (done.reverse ++ as, rest) := by
  induction h generalizing turns done with
  | @stop input htest =>
    cases turns with
    | zero => cases hturns
    | succ turns =>
      refine bind_eq_ok_iff.2 ⟨.inr done.reverse, input, ?_, ?_⟩
      · rw [manyStep, look_bind, htest]
        rfl
      · simp [pure_apply]
  | @more input next rest a as htest hp _ ih =>
    cases turns with
    | zero => cases hturns
    | succ turns =>
      refine bind_eq_ok_iff.2 ⟨.inl (a :: done), next, ?_, ?_⟩
      · rw [manyStep, look_bind, htest]
        exact bind_eq_ok_iff.2 ⟨a, next, hp, rfl⟩
      · simpa using @ih turns (a :: done) (Nat.lt_of_succ_lt_succ hturns)

theorem manyWhile_of_many {test : List Token → Bool} {as : List α} {input rest : Input}
    (h : Many test p input as rest) (hlength : as.length ≤ input.tokens.length + 1) :
    manyWhile test p input = .ok (as, rest) :=
  iterate_of_many h (Nat.lt_succ_of_le hlength)

end Parser

/-! ## Paths -/

/-- Whether a path ends before these tokens. -/
def EndsPath (tokens : List Token) : Prop :=
  Ahead.punct "::" tokens = false ∧ Ahead.punct "<" tokens = false

theorem parseSegment_name {g : Grammar} {ident : Ident}
    (hname : Ahead.reserved.contains ident.text = false)
    (hrest : Ahead.punct "<" rest = false)
    (harguments : (Ahead.punct "::" rest && Ahead.punct "<" (rest.drop 2)) = false)
    (line close : Nat) (stray : Option Nat) :
    PathSegment.parse g false ⟨.ident ident line :: rest, close, stray⟩ =
      .ok (⟨ident, .none⟩, ⟨rest, close, stray⟩) := by
  have hword : ∀ word ∈ Ahead.reserved, Ahead.word word (.ident ident line :: rest) = false := by
    intro word hmem
    refine decide_eq_false fun heq => ?_
    rw [heq, List.contains_iff_mem.2 hmem] at hname
    cases hname
  have hwords : Ahead.anyWord ["super", "self", "crate", "try"] (.ident ident line :: rest) =
      false := by
    simp only [Ahead.anyWord, List.any_cons, List.any_nil, Bool.or_false]
    rw [hword _ (by decide), hword _ (by decide), hword _ (by decide), hword _ (by decide)]
    rfl
  have hself : Ahead.word "Self" (.ident ident line :: rest) = false := hword _ (by decide)
  unfold PathSegment.parse
  rw [look_bind, if_neg (by simp [hwords])]
  simp only [hself, Bool.false_eq_true, if_false]
  refine bind_eq_ok_iff.2 ⟨ident, _, takeIdent_cons hname line rest close stray, ?_⟩
  rw [look_bind]
  dsimp only
  rw [hrest, harguments]
  rfl

/-- Segments without arguments are read one by one. -/
theorem many_segments {g : Grammar} {below : List PathSegment} (h : SegmentTokens tokens below)
    (hnames : ∀ segment ∈ below, Ahead.reserved.contains segment.ident.text = false)
    (hrest : EndsPath rest) (close : Nat) (stray : Option Nat) :
    Many (fun tokens => Ahead.punct "::" tokens && !Ahead.group .paren (tokens.drop 2))
      (do punct "::"; PathSegment.parse g false) ⟨tokens ++ rest, close, stray⟩ below
      ⟨rest, close, stray⟩ := by
  induction h with
  | nil => exact .stop (by simp [hrest.1])
  | @cons tokens below first second joint ident line after ih =>
    obtain ⟨hident, hnames⟩ := List.forall_mem_cons.1 hnames
    have hnext : Ahead.punct "<" (tokens ++ rest) = false ∧
        (Ahead.punct "::" (tokens ++ rest) && Ahead.punct "<" ((tokens ++ rest).drop 2)) = false := by
      cases after with
      | nil => simp [hrest.1, hrest.2]
      | cons => exact ⟨rfl, rfl⟩
    refine .more rfl ?_ (ih hnames)
    exact bind_eq_ok_iff.2 ⟨(), _, rfl, parseSegment_name hident hnext.1 hnext.2 line close stray⟩

theorem length_le_of_segmentTokens {below : List PathSegment} (h : SegmentTokens tokens below) :
    below.length ≤ tokens.length := by
  induction h with
  | nil => exact Nat.le_refl _
  | cons first second joint ident line after ih =>
    simp only [List.length_cons]
    omega

/-! ## Types -/

/-- Whether a type that is a path ends before these tokens. -/
structure EndsType (tokens : List Token) : Prop where
  separator : Ahead.punct "::" tokens = false
  parenthesis : Ahead.group .paren tokens = false
  mark : Ahead.punct "!" tokens = false
  plus : Ahead.punct "+" tokens = false

theorem parseCallArguments_none {path : Path} (hrest : EndsType rest) (close : Nat)
    (stray : Option Nat) :
    path.parseCallArguments g ⟨rest, close, stray⟩ = .ok ((path, none), ⟨rest, close, stray⟩) := by
  unfold Path.parseCallArguments
  rw [look_bind]
  simp only [hrest.parenthesis, hrest.separator, Bool.false_and, Bool.or_self, Bool.false_eq_true,
    if_false]
  generalize path.segments.reverse = segments
  rcases segments with _ | ⟨⟨ident, _ | _ | _⟩, before⟩ <;> rfl

/-- Tokens that a path starts, and no other type. -/
structure StartsNamed (tokens : List Token) : Prop where
  binder : Ahead.word "for" tokens = false
  function : Ahead.anyWord ["fn", "unsafe", "extern"] tokens = false
  parenthesis : Ahead.group .paren tokens = false
  angle : Ahead.punct "<" tokens = false
  path : Ty.startsPath tokens = true ∨ Ahead.punct "::" tokens = true

theorem parseType_of_parsePath {path : Path} (hstart : StartsNamed tokens)
    (hpath : Path.parse g false ⟨tokens, close, stray⟩ = .ok (path, ⟨rest, close, stray⟩))
    (hrest : EndsType rest) (allowPlus : Bool) :
    Ty.parse g allowPlus ⟨tokens, close, stray⟩ = .ok (.named path, ⟨rest, close, stray⟩) := by
  have hbinder : Bound.parseBinder? g ⟨tokens, close, stray⟩ =
      .ok (false, ⟨tokens, close, stray⟩) :=
    bind_eq_ok_iff.2 ⟨false, _, word?_eq_false hstart.binder, rfl⟩
  have hqualified : Path.parseQualified g false ⟨tokens, close, stray⟩ =
      .ok ((false, path), ⟨rest, close, stray⟩) := by
    refine bind_eq_ok_iff.2 ⟨false, _, punct?_eq_false hstart.angle, ?_⟩
    exact bind_eq_ok_iff.2 ⟨path, _, hpath, rfl⟩
  have hnamed : Ty.parseNamed g false allowPlus ⟨tokens, close, stray⟩ =
      .ok (.named path, ⟨rest, close, stray⟩) := by
    refine bind_eq_ok_iff.2 ⟨(false, path), ⟨rest, close, stray⟩, ?_, ?_⟩
    · refine bind_eq_ok_iff.2 ⟨(false, path), _, hqualified, ?_⟩
      exact bind_eq_ok_iff.2 ⟨(path, none), _, parseCallArguments_none hrest close stray, rfl⟩
    · simp [look_bind, hrest.mark, hrest.plus, pure_apply]
  have hpath : (Ty.startsPath tokens || Ahead.punct "::" tokens || Ahead.punct "<" tokens) = true := by
    simpa [hstart.angle] using hstart.path
  refine bind_eq_ok_iff.2 ⟨_, _, rfl, bind_eq_ok_iff.2 ⟨false, _, hbinder, ?_⟩⟩
  rw [look_bind]
  simp only [hstart.parenthesis, hstart.function, hpath, Bool.false_and, Bool.false_eq_true,
    if_false, if_true, hnamed]

end JobRoster.Syntax
