import JobRoster.Syntax.Parser

/-!
# What parsers read

A parser that is repeated reads one thing after the other. `Many` states what is read in all, and
each of the things that are read, without the turns that are counted.
-/

namespace JobRoster.Syntax.Parser

variable {α β : Type}

theorem bind_eq_ok_iff {p : Parser α} {f : α → Parser β} {input rest : Input} {b : β} :
    (p >>= f) input = .ok (b, rest) ↔
      ∃ a next, p input = .ok (a, next) ∧ f a next = .ok (b, rest) := by
  rw [bind_apply]
  cases p input with
  | error error => simp
  | ok read =>
    obtain ⟨a, next⟩ := read
    simp only [Except.ok.injEq, Prod.mk.injEq]
    constructor
    · intro h
      exact ⟨a, next, ⟨rfl, rfl⟩, h⟩
    · rintro ⟨a', next', ⟨rfl, rfl⟩, h⟩
      exact h

theorem pure_eq_ok_iff {a b : α} {input rest : Input} :
    (pure a : Parser α) input = .ok (b, rest) ↔ b = a ∧ rest = input := by
  rw [pure_apply, Except.ok.injEq, Prod.mk.injEq, eq_comm, eq_comm (a := input)]

theorem fail_ne_ok {message : String} {input rest : Input} {a : α} :
    (fail message : Parser α) input ≠ .ok (a, rest) :=
  nofun

/-! ## Single tokens -/

theorem look_bind (f : List Token → Parser α) (input : Input) :
    (look >>= f) input = f input.tokens input := rfl

theorem punct?_apply (spelling : String) (input : Input) :
    punct? spelling input =
      .ok (if Ahead.punct spelling input.tokens then
        (true, { input with tokens := input.tokens.drop spelling.length }) else (false, input)) := by
  rw [punct?, look_bind]
  split <;> rfl

theorem punct_eq_ok_iff {spelling : String} {input rest : Input} {u : Unit} :
    punct spelling input = .ok (u, rest) ↔
      Ahead.punct spelling input.tokens = true ∧
        rest = { input with tokens := input.tokens.drop spelling.length } := by
  rw [punct, bind_apply, punct?_apply]
  cases Ahead.punct spelling input.tokens with
  | true => exact (pure_eq_ok_iff (a := ())).trans (by simp)
  | false => exact iff_of_false fail_ne_ok (by simp)

theorem word?_apply (spelling : String) (input : Input) :
    word? spelling input =
      .ok (if Ahead.word spelling input.tokens then
        (true, { input with tokens := input.tokens.drop 1 }) else (false, input)) := by
  rw [word?, look_bind]
  split <;> rfl

theorem word_apply (spelling : String) (input : Input) :
    word spelling input =
      if Ahead.word spelling input.tokens then .ok ((), { input with tokens := input.tokens.drop 1 })
      else fail ("expected `" ++ spelling ++ "`") input := by
  rw [word, bind_apply, word?_apply]
  cases Ahead.word spelling input.tokens <;> rfl

theorem takeAnyIdent_eq_ok_iff {ident : Ident} {input rest : Input} :
    takeAnyIdent input = .ok (ident, rest) ↔
      ∃ line tokens, input.tokens = .ident ident line :: tokens ∧ rest = { input with tokens } := by
  rw [takeAnyIdent, look_bind]
  rcases htokens : input.tokens with _ | ⟨⟨found, line⟩ | _, tokens⟩
  case cons.ident =>
    constructor
    · intro h
      obtain ⟨rfl, rfl⟩ := Prod.mk.inj (Except.ok.inj h)
      exact ⟨line, tokens, rfl, rfl⟩
    · rintro ⟨line', tokens', heq, rfl⟩
      obtain ⟨hident, rfl⟩ := List.cons.inj heq
      obtain ⟨rfl, rfl⟩ := Token.ident.inj hident
      rfl
  all_goals
    refine iff_of_false fail_ne_ok ?_
    rintro ⟨line, tokens, heq, -⟩
    cases heq

theorem takeIdent_eq_ok_iff {ident : Ident} {input rest : Input} :
    takeIdent input = .ok (ident, rest) ↔
      Ahead.ident input.tokens = true ∧
        ∃ line tokens, input.tokens = .ident ident line :: tokens ∧
          rest = { input with tokens } := by
  rw [takeIdent, look_bind, ← takeAnyIdent_eq_ok_iff]
  split
  next hident => simp [hident]
  next hident => exact iff_of_false fail_ne_ok fun h => hident h.1

/-! ## Groups -/

theorem inGroup_group (delimiter found : Delimiter) (p : Parser α) (content tokens : List Token)
    (start close outer : Nat) (stray : Option Nat) :
    inGroup delimiter p ⟨.group found content start close :: tokens, outer, stray⟩ =
      if found = delimiter then
        (p >>= fun a inner => .ok (a, ⟨tokens, outer, noteStray inner.stray inner.tokens⟩))
          ⟨content, close, stray⟩
      else fail "expected other delimiter"
        ⟨.group found content start close :: tokens, outer, stray⟩ := by
  cases delimiter <;> cases found <;> rfl

theorem inGroup_eq_ok_iff {delimiter : Delimiter} {p : Parser α} {input rest : Input} {a : α} :
    inGroup delimiter p input = .ok (a, rest) ↔
      ∃ content start close tokens inner,
        input.tokens = .group delimiter content start close :: tokens ∧
          p ⟨content, close, input.stray⟩ = .ok (a, inner) ∧
            rest = { input with tokens, stray := noteStray inner.stray inner.tokens } := by
  obtain ⟨tokens, outer, stray⟩ := input
  rcases tokens with _ | ⟨_ | _ | _ | ⟨found, content, start, close⟩, tokens⟩
  case cons.group =>
    rw [inGroup_group]
    split
    next heq =>
      subst heq
      refine bind_eq_ok_iff.trans ⟨?_, ?_⟩
      · rintro ⟨b, inner, hp, hrest⟩
        obtain ⟨rfl, rfl⟩ := Prod.mk.inj (Except.ok.inj hrest)
        exact ⟨content, start, close, tokens, inner, rfl, hp, rfl⟩
      · rintro ⟨content', start', close', tokens', inner, heq, hp, rfl⟩
        obtain ⟨hgroup, rfl⟩ := List.cons.inj heq
        obtain ⟨-, rfl, rfl, rfl⟩ := Token.group.inj hgroup
        exact ⟨a, inner, hp, rfl⟩
    next hne =>
      refine iff_of_false fail_ne_ok ?_
      rintro ⟨content', start', close', tokens', inner, heq, -⟩
      exact hne (Token.group.inj (List.cons.inj heq).1).1
  all_goals
    refine iff_of_false fail_ne_ok ?_
    rintro ⟨content, start, close, tokens, inner, heq, -⟩
    cases heq

/-! ## Repetition -/

/-- `p` reads some things as long as the test holds, and leaves a rest for which it does not. -/
inductive Many (test : List Token → Bool) (p : Parser α) : Input → List α → Input → Prop
  | stop {input : Input} (h : test input.tokens = false) : Many test p input [] input
  | more {input next rest : Input} {a : α} {as : List α} (h : test input.tokens = true)
      (hp : p input = .ok (a, next)) (after : Many test p next as rest) :
      Many test p input (a :: as) rest

/-- One turn of `manyWhile`. -/
def manyStep (test : List Token → Bool) (p : Parser α) (done : List α) :
    Parser (List α ⊕ List α) := do
  if test (← look) then return .inl ((← p) :: done) else return .inr done.reverse

theorem many_of_iterate {test : List Token → Bool} {p : Parser α} {turns : Nat} {done all : List α}
    {input rest : Input} (h : iterate (manyStep test p) turns done input = .ok (all, rest)) :
    ∃ as, all = done.reverse ++ as ∧ Many test p input as rest := by
  induction turns generalizing done input with
  | zero => cases h
  | succ turns ih =>
    obtain ⟨turn, next, hturn, hafter⟩ := bind_eq_ok_iff.1 h
    obtain ⟨tokens, input', hlook, hturn⟩ := bind_eq_ok_iff.1 hturn
    obtain ⟨rfl, rfl⟩ : tokens = input.tokens ∧ input' = input := by
      obtain ⟨htokens, hinput⟩ := Prod.mk.inj (Except.ok.inj hlook)
      exact ⟨htokens.symm, hinput.symm⟩
    split at hturn
    next htest =>
      obtain ⟨a, next', hp, hpure⟩ := bind_eq_ok_iff.1 hturn
      obtain ⟨rfl, rfl⟩ := pure_eq_ok_iff.1 hpure
      obtain ⟨as, rfl, hmany⟩ := ih hafter
      exact ⟨a :: as, by simp, .more htest hp hmany⟩
    next htest =>
      obtain ⟨rfl, rfl⟩ := pure_eq_ok_iff.1 hturn
      obtain ⟨rfl, rfl⟩ := pure_eq_ok_iff.1 hafter
      exact ⟨[], by simp, .stop (Bool.eq_false_iff.2 htest)⟩

theorem many_of_manyWhile {test : List Token → Bool} {p : Parser α} {as : List α}
    {input rest : Input} (h : manyWhile test p input = .ok (as, rest)) :
    Many test p input as rest := by
  obtain ⟨tokens, next, hlook, hloop⟩ := bind_eq_ok_iff.1 h
  obtain ⟨-, rfl⟩ := Prod.mk.inj (Except.ok.inj hlook)
  obtain ⟨as, rfl, hmany⟩ := many_of_iterate hloop
  exact hmany

/-- Whatever has been read in all has left nothing over. -/
theorem eq_ok_of_readAll {p : Parser α} {tokens : List Token} {close : Nat} {a : α}
    (h : readAll p tokens close = .ok a) :
    ∃ close', p ⟨tokens, close, none⟩ = .ok (a, ⟨[], close', none⟩) := by
  unfold readAll at h
  split at h
  next a' rest hp =>
    split at h
    · cases h
    next hstray =>
      obtain rfl := Except.ok.inj h
      obtain ⟨tokens', close', stray⟩ := rest
      cases tokens' with
      | nil =>
        obtain rfl : stray = none := hstray
        exact ⟨close', hp⟩
      | cons token tokens' => cases stray <;> cases hstray
  · cases h

end JobRoster.Syntax.Parser
