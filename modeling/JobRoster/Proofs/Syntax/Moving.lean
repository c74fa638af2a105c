import JobRoster.Proofs.Syntax.Parsing
import JobRoster.Proofs.Syntax.Places
import Mathlib.Data.List.Forall2

/-!
# Parsing in another place

What a parser reads of some tokens alone it reads of them in a place too, up to the lines that it
read, as long as it does not take what stands behind for something of its own. `Keeps` says so of two
parsers and is kept by all the ways to make parsers of others; `KeepsBefore` says so where the parser
would look at what stands behind. Inside of a group there is nothing behind.
-/

namespace JobRoster.Syntax

/-! ## Inputs -/

/-- The same input in a place, where nothing is left over if nothing is left over here. -/
structure Place.Moved {line : Nat → Nat} (place : Place line) (input input' : Input) : Prop where
  tokens : input'.tokens = place.move input.tokens
  stray : input.stray = none → input'.stray = none
  close : input'.close = place.outer

/-- What one parser reads the other reads in a place, up to `R`. -/
def Place.Keeps {line : Nat → Nat} (place : Place line) {α : Type} (R : α → α → Prop)
    (p p' : Parser α) : Prop :=
  ∀ ⦃input input' rest : Input⦄ ⦃a : α⦄, place.Moved input input' → p input = .ok (a, rest) →
    ∃ a' rest', p' input' = .ok (a', rest') ∧ R a a' ∧ place.Moved rest rest'

/-- Relates everything: what is read is discarded. -/
def Discarded {α : Type} (_ _ : α) : Prop :=
  True

theorem discarded {α : Type} (a a' : α) : Discarded a a' :=
  trivial

namespace Place.Keeps

open Syntax.Parser

variable {line : Nat → Nat} {place : Place line} {α β : Type} {R : α → α → Prop}
  {S : β → β → Prop} {p p' : Parser α}

theorem pure {a a' : α} (h : R a a') : place.Keeps R (pure a) (pure a') := by
  intro input input' rest b hmoved hp
  obtain ⟨rfl, rfl⟩ := pure_eq_ok_iff.1 hp
  exact ⟨a', input', rfl, h, hmoved⟩

/-- The results are related, and what follows them is, whatever they are. -/
theorem bindUpTo {f f' : α → Parser β} (h : place.Keeps R p p')
    (hf : ∀ a a', R a a' → place.Keeps S (f a) (f' a')) : place.Keeps S (p >>= f) (p' >>= f') := by
  intro input input' rest b hmoved hp
  obtain ⟨a, next, hp, hfa⟩ := bind_eq_ok_iff.1 hp
  obtain ⟨a', next', hp', hR, hnext⟩ := h hmoved hp
  obtain ⟨b', rest', hfa', hS, hrest⟩ := hf a a' hR hnext hfa
  exact ⟨b', rest', bind_eq_ok_iff.2 ⟨a', next', hp', hfa'⟩, hS, hrest⟩

theorem bind {f f' : α → Parser β} (h : place.Keeps Eq p p')
    (hf : ∀ a, place.Keeps S (f a) (f' a)) : place.Keeps S (p >>= f) (p' >>= f') :=
  h.bindUpTo fun a _ heq => heq ▸ hf a

/-- What is read first does not matter for the rest. -/
theorem seq {q q' : Parser β} (h : place.Keeps R p p') (hq : place.Keeps S q q') :
    place.Keeps S (p >>= fun _ => q) (p' >>= fun _ => q') :=
  h.bindUpTo fun _ _ _ => hq

/-- What is made of what is read last is discarded. -/
theorem last {f f' : α → β} (h : place.Keeps R p p') :
    place.Keeps Discarded (p >>= fun a => Pure.pure (f a)) (p' >>= fun a => Pure.pure (f' a)) :=
  h.bindUpTo fun _ _ _ => .pure trivial

theorem mono {T : α → α → Prop} (h : place.Keeps R p p') (hR : ∀ a a', R a a' → T a a') :
    place.Keeps T p p' := by
  intro input input' rest a hmoved hp
  obtain ⟨a', rest', hp', ha, hrest⟩ := h hmoved hp
  exact ⟨a', rest', hp', hR a a' ha, hrest⟩

theorem discard (h : place.Keeps R p p') : place.Keeps Discarded p p' :=
  h.mono fun a a' _ => discarded a a'

/-- What fails need not be read in a place. -/
theorem of_ne_ok (h : ∀ input input' a rest, place.Moved input input' → p input ≠ .ok (a, rest)) :
    place.Keeps R p p' :=
  fun input input' rest a hmoved hp => absurd hp (h input input' a rest hmoved)

theorem fail (message : String) : place.Keeps R (fail message : Parser α) p' :=
  of_ne_ok fun _ _ _ _ _ => fail_ne_ok

theorem failAt (line : Nat) (message : String) :
    place.Keeps R (failAt line message : Parser α) p' :=
  of_ne_ok nofun

theorem ite {c : Prop} [Decidable c] {q q' : Parser α} (hp : place.Keeps R p p')
    (hq : place.Keeps R q q') :
    place.Keeps R (if c then p else q) (if c then p' else q') := by
  split
  · exact hp
  · exact hq

/-- Something more may be read before the rest. -/
theorem then_seq {c : Prop} [Decidable c] {q q' : Parser α} {r r' : Parser β}
    (hq : place.Keeps R q q') (hr : place.Keeps S r r') :
    place.Keeps S (if c then q >>= fun _ => r else r) (if c then q' >>= fun _ => r' else r') :=
  .ite (hq.seq hr) hr

theorem else_seq {c : Prop} [Decidable c] {q q' : Parser α} {r r' : Parser β}
    (hq : place.Keeps R q q') (hr : place.Keeps S r r') :
    place.Keeps S (if c then r else q >>= fun _ => r) (if c then r' else q' >>= fun _ => r') :=
  .ite hr (hq.seq hr)

/-! ### Tokens -/

theorem look {f f' : List Token → Parser α}
    (h : ∀ tokens, place.Keeps R (f tokens) (f' (place.move tokens))) :
    place.Keeps R (Parser.look >>= f) (Parser.look >>= f') := by
  intro input input' rest a hmoved hp
  rw [look_bind] at hp ⊢
  rw [hmoved.tokens]
  exact h input.tokens hmoved hp

/-- A parser that needs a token never comes to look at what stands behind. -/
theorem look_before {f f' : List Token → Parser α}
    (hnil : ∀ input a rest, input.tokens = [] → f [] input ≠ .ok (a, rest))
    (h : ∀ tokens, place.Hidden tokens → place.Keeps R (f tokens) (f' (place.move tokens))) :
    place.Keeps R (Parser.look >>= f) (Parser.look >>= f') := by
  intro input input' rest a hmoved hp
  rw [look_bind] at hp ⊢
  rw [hmoved.tokens]
  by_cases htokens : input.tokens = []
  · rw [htokens] at hp
    exact absurd hp (hnil input a rest htokens)
  · exact h input.tokens (hidden_of_ne_nil htokens) hmoved hp

theorem here {f f' : Nat → Parser α} (h : ∀ line line', place.Keeps R (f line) (f' line')) :
    place.Keeps R (Parser.here >>= f) (Parser.here >>= f') := by
  intro input input' rest a hmoved hp
  exact h _ _ hmoved hp

theorem continueAt (tokens : List Token) :
    place.Keeps Eq (Parser.continueAt tokens) (Parser.continueAt (place.move tokens)) := by
  intro input input' rest a hmoved hp
  obtain ⟨rfl, rfl⟩ := Prod.mk.inj (Except.ok.inj hp)
  exact ⟨(), _, rfl, rfl, rfl, hmoved.stray, hmoved.close⟩

theorem length_le_of_punctChars {chars : List Char} {tokens : List Token}
    (h : Ahead.punctChars chars tokens = true) : chars.length ≤ tokens.length := by
  induction chars generalizing tokens with
  | nil => exact Nat.zero_le _
  | cons c chars ih =>
    rcases tokens with _ | ⟨_ | ⟨found, joint, line⟩ | _ | _, tokens⟩
    case cons.punct =>
      cases chars with
      | nil => simp
      | cons d chars =>
        simp only [Ahead.punctChars, Bool.and_eq_true] at h
        simpa using ih h.2
    all_goals cases chars <;> cases h

theorem punct? (spelling : String) :
    place.Keeps Eq (Parser.punct? spelling) (Parser.punct? spelling) := by
  refine .look fun tokens => ?_
  rw [punct_move]
  cases hpunct : Ahead.punct spelling tokens with
  | true =>
    have hlength : spelling.length ≤ tokens.length := length_le_of_punctChars hpunct
    simp only [drop_move hlength]
    exact (continueAt _).seq (.pure rfl)
  | false => exact .pure rfl

theorem punct (spelling : String) :
    place.Keeps Eq (Parser.punct spelling) (Parser.punct spelling) :=
  (punct? spelling).bind fun _ => .ite (.pure rfl) (.fail _)

theorem word? (spelling : String) :
    place.Keeps Eq (Parser.word? spelling) (Parser.word? spelling) := by
  refine .look fun tokens => ?_
  rw [word_move]
  cases hword : Ahead.word spelling tokens with
  | true =>
    have hlength : 1 ≤ tokens.length := by
      cases tokens with
      | nil => cases hword
      | cons => simp
    simp only [drop_move hlength]
    exact (continueAt _).seq (.pure rfl)
  | false => exact .pure rfl

theorem word (spelling : String) :
    place.Keeps Eq (Parser.word spelling) (Parser.word spelling) :=
  (word? spelling).bind fun _ => .ite (.pure rfl) (.fail _)

theorem takeAnyIdent : place.Keeps Eq Parser.takeAnyIdent Parser.takeAnyIdent := by
  refine .look fun tokens => ?_
  rcases tokens with _ | ⟨_ | _, tokens⟩
  case cons.ident => exact (continueAt tokens).seq (.pure rfl)
  all_goals exact .fail _

theorem takeIdent : place.Keeps Eq Parser.takeIdent Parser.takeIdent := by
  refine .look fun tokens => ?_
  rw [ident_move]
  exact .ite takeAnyIdent (.fail _)

theorem eq_of_lifetime {tokens : List Token} (h : Ahead.lifetime tokens = true) :
    ∃ line ident line' rest, tokens = .punct '\'' true line :: .ident ident line' :: rest := by
  rcases tokens with _ | ⟨_ | ⟨c, joint, line⟩ | _ | _, tokens⟩
  case cons.punct =>
    rw [lifetime_punct] at h
    simp only [Bool.and_eq_true, decide_eq_true_eq] at h
    obtain ⟨⟨rfl, rfl⟩, hident⟩ := h
    rcases tokens with _ | ⟨⟨ident, line'⟩ | _, rest⟩
    case cons.ident => exact ⟨line, ident, line', rest, rfl⟩
    all_goals cases hident
  all_goals cases h

theorem takeLifetime : place.Keeps Eq Parser.takeLifetime Parser.takeLifetime := by
  refine .look fun tokens => ?_
  rw [lifetime_move]
  cases hlifetime : Ahead.lifetime tokens with
  | true =>
    obtain ⟨line, ident, line', rest, rfl⟩ := eq_of_lifetime hlifetime
    exact continueAt rest
  | false => exact .fail _

theorem takeLifetime? : place.Keeps Eq Parser.takeLifetime? Parser.takeLifetime? := by
  refine .look fun tokens => ?_
  rw [lifetime_move]
  exact .ite (takeLifetime.seq (.pure rfl)) (.pure rfl)

theorem takeLiteral : place.Keeps Eq Parser.takeLiteral Parser.takeLiteral := by
  refine .look fun tokens => ?_
  rw [literal?_move]
  cases Ahead.literal? tokens with
  | none => exact .fail _
  | some found => exact (continueAt found.2).seq (.pure rfl)

/-! ### Groups -/

theorem noteStray_eq_none_iff {stray : Option Nat} {tokens : List Token} :
    noteStray stray tokens = none ↔ stray = none ∧ tokens = [] := by
  cases tokens <;> cases stray <;> simp [noteStray]

/-- What is read inside of a group is read inside of it in a place. -/
theorem inGroup (delimiter : Delimiter)
    (h : ∀ close, (inside close : Place line).Keeps R p p') :
    place.Keeps R (Parser.inGroup delimiter p) (Parser.inGroup delimiter p') := by
  intro input input' rest a hmoved hp
  obtain ⟨content, start, close, tokens, inner, htokens, hinner, rfl⟩ := inGroup_eq_ok_iff.1 hp
  have hinside : (inside (line close) : Place line).Moved ⟨content, close, input.stray⟩
      ⟨Token.mapLines line content, line close, input'.stray⟩ :=
    ⟨(move_inside _ _).symm, hmoved.stray, rfl⟩
  obtain ⟨a', rest', hp', hR, hrest⟩ := h (line close) hinside hinner
  refine ⟨a', _, inGroup_eq_ok_iff.2 ⟨_, line start, _, place.move tokens, rest', ?_, hp', rfl⟩,
    hR, rfl, fun hnone => ?_, hmoved.close⟩
  · rw [hmoved.tokens, htokens]
    rfl
  · obtain ⟨hstray, hempty⟩ := noteStray_eq_none_iff.1 hnone
    exact noteStray_eq_none_iff.2 ⟨hrest.stray hstray, by rw [hrest.tokens, hempty]; rfl⟩

/-- The delimiter of a group that is not read. -/
theorem anyGroup : place.Keeps (fun group group' => group'.1 = group.1) Parser.anyGroup
    Parser.anyGroup := by
  refine .look fun tokens => ?_
  rcases tokens with _ | ⟨_ | _, tokens⟩
  case cons.group => exact (continueAt tokens).seq (.pure rfl)
  all_goals exact .fail _

/-! ### Looking ahead -/

theorem lookAhead (h : place.Keeps R p p') :
    place.Keeps R (Parser.lookAhead p) (Parser.lookAhead p') := by
  intro input input' rest a hmoved hp
  unfold Parser.lookAhead at hp ⊢
  split at hp
  next b next hnext =>
    obtain ⟨rfl, rfl⟩ := Prod.mk.inj (Except.ok.inj hp)
    obtain ⟨a', next', hp', hR, -⟩ := h hmoved hnext
    exact ⟨a', input', by rw [hp'], hR, hmoved⟩
  next => cases hp

/-- What is read only if it can be, and what follows. Where the other parser can read and this one
    cannot, nothing may follow this one. -/
theorem attempt_bind {f f' : Option α → Parser β} (h : place.Keeps R p p')
    (hsome : ∀ a a', R a a' → place.Keeps S (f (some a)) (f' (some a')))
    (hnone : place.Keeps S (f none) (f' none)) {input input' rest : Input} {b : β}
    (hlate : (∀ a rest, p { input with stray := none } ≠ .ok (a, rest)) →
      (∃ a rest, p' { input' with stray := none } = .ok (a, rest)) → f none input ≠ .ok (b, rest))
    (hmoved : place.Moved input input') (hp : (Parser.attempt p >>= f) input = .ok (b, rest)) :
    ∃ b' rest', (Parser.attempt p' >>= f') input' = .ok (b', rest') ∧ S b b' ∧
      place.Moved rest rest' := by
  obtain ⟨read, next, hread, hafter⟩ := bind_eq_ok_iff.1 hp
  have hclear : place.Moved { input with stray := none } { input' with stray := none } :=
    ⟨hmoved.tokens, fun _ => rfl, hmoved.close⟩
  unfold Parser.attempt at hread
  split at hread
  next a after hok =>
    obtain ⟨rfl, rfl⟩ := Prod.mk.inj (Except.ok.inj hread)
    obtain ⟨a', after', hok', ha, hmoved'⟩ := h hclear hok
    have hnext : place.Moved { after with stray := input.stray <|> after.stray }
        { after' with stray := input'.stray <|> after'.stray } := by
      refine ⟨hmoved'.tokens, fun hstray => ?_, hmoved'.close⟩
      obtain ⟨hbefore, hinner⟩ : input.stray = none ∧ after.stray = none := by simpa using hstray
      simp [hmoved.stray hbefore, hmoved'.stray hinner]
    obtain ⟨b', rest', hafter', hb, hrest⟩ := hsome a a' ha hnext hafter
    refine ⟨b', rest', bind_eq_ok_iff.2 ⟨some a', _, ?_, hafter'⟩, hb, hrest⟩
    rw [Parser.attempt, hok']
  next error herror =>
    obtain ⟨rfl, rfl⟩ := Prod.mk.inj (Except.ok.inj hread)
    have hfails : ∀ a rest, p { input with stray := none } ≠ .ok (a, rest) :=
      fun a rest hok => by simp [hok] at herror
    obtain ⟨b', rest', hafter', hb, hrest⟩ := hnone hmoved hafter
    refine ⟨b', rest', bind_eq_ok_iff.2 ⟨none, input', ?_, hafter'⟩, hb, hrest⟩
    cases hok' : p' { input' with stray := none } with
    | ok read => exact absurd hafter (hlate hfails ⟨read.1, read.2, hok'⟩)
    | error => rw [Parser.attempt, hok']

/-! ### Repetition -/

section

variable {σ : Type} {T : σ → σ → Prop} {step step' : σ → Parser (σ ⊕ α)}

theorem iterate (h : ∀ state state', T state state' →
      place.Keeps (Sum.LiftRel T R) (step state) (step' state')) {turns turns' : Nat}
    (hturns : turns ≤ turns') {state state' : σ} (hstate : T state state') :
    place.Keeps R (Parser.iterate step turns state) (Parser.iterate step' turns' state') := by
  induction turns generalizing turns' state state' with
  | zero => exact .fail _
  | succ turns ih =>
    -- with a group behind them there are more tokens, and so more turns
    obtain ⟨turns', rfl⟩ : ∃ n, turns' = n + 1 := ⟨turns' - 1, by omega⟩
    refine (h state state' hstate).bindUpTo fun turn turn' hturn => ?_
    cases hturn with
    | inl hstate => exact ih (by omega) hstate
    | inr ha => exact .pure ha

theorem loopUpTo (h : ∀ state state', T state state' →
      place.Keeps (Sum.LiftRel T R) (step state) (step' state')) {state state' : σ}
    (hstate : T state state') :
    place.Keeps R (Parser.loop step state) (Parser.loop step' state') :=
  .look fun tokens =>
    iterate h (Nat.add_le_add_right (length_le_length_move tokens) 2) hstate

theorem loop (h : ∀ state, place.Keeps (Sum.LiftRel Eq R) (step state) (step' state))
    (state : σ) : place.Keeps R (Parser.loop step state) (Parser.loop step' state) :=
  loopUpTo (fun state _ heq => heq ▸ h state) rfl

/-- One more turn, or the end. -/
theorem again {state state' : σ} (h : T state state') :
    place.Keeps (Sum.LiftRel T R) (Pure.pure (.inl state)) (Pure.pure (.inl state')) :=
  .pure (.inl h)

theorem done {a a' : α} (h : R a a') :
    place.Keeps (Sum.LiftRel T R) (Pure.pure (.inr a)) (Pure.pure (.inr a')) :=
  .pure (.inr h)

end

theorem manyWhile {test : List Token → Bool}
    (htest : ∀ tokens, test (place.move tokens) = test tokens) (h : place.Keeps R p p') :
    place.Keeps (List.Forall₂ R) (Parser.manyWhile test p) (Parser.manyWhile test p') := by
  refine loopUpTo (T := List.Forall₂ R) (fun done done' hdone => .look fun tokens => ?_) .nil
  rw [htest]
  refine .ite (h.bindUpTo fun a a' ha => .again (.cons ha hdone)) (.done ?_)
  exact List.rel_reverse hdone

theorem manyWhile_eq {test : List Token → Bool}
    (htest : ∀ tokens, test (place.move tokens) = test tokens) (h : place.Keeps Eq p p') :
    place.Keeps Eq (Parser.manyWhile test p) (Parser.manyWhile test p') :=
  (manyWhile htest h).mono fun _ _ h => by rwa [List.forall₂_eq_eq_eq] at h

theorem separatedUnless {stop : List Token → Bool}
    (hstop : ∀ tokens, stop (place.move tokens) = stop tokens) (separator : String)
    {p p' : Parser Unit} (h : place.Keeps Eq p p') :
    place.Keeps Eq (Parser.separatedUnless stop separator p)
      (Parser.separatedUnless stop separator p') := by
  refine loop (fun _ => .look fun tokens => ?_) ()
  rw [hstop]
  refine .ite (.done rfl) (h.bind fun _ => (punct? separator).bind fun found => ?_)
  exact .ite (.again rfl) (.done rfl)

end Place.Keeps

/-! ## Up to what stands behind -/

/-- What one parser reads the other reads in a place, unless it comes to what stands behind. -/
def Place.KeepsBefore {line : Nat → Nat} (place : Place line) {α : Type} (p p' : Parser α) : Prop :=
  ∀ ⦃input rest : Input⦄ ⦃a : α⦄, p input = .ok (a, rest) → place.Hidden rest.tokens →
    place.Hidden input.tokens ∧ ∀ input', place.Moved input input' →
      ∃ a' rest', p' input' = .ok (a', rest') ∧ a = a' ∧ place.Moved rest rest'

/-- What leaves nothing where there is nothing. -/
def LeavesNothing {α : Type} (p : Parser α) : Prop :=
  ∀ input a rest, input.tokens = [] → p input = .ok (a, rest) → rest.tokens = []

/-- What reads a token. -/
def NeedsToken {α : Type} (p : Parser α) : Prop :=
  ∀ input a rest, input.tokens = [] → p input ≠ .ok (a, rest)

section

open Syntax.Parser

variable {line : Nat → Nat} {place : Place line} {α β : Type} {p p' : Parser α}

theorem NeedsToken.leavesNothing (h : NeedsToken p) : LeavesNothing p :=
  fun input a rest hempty hp => absurd hp (h input a rest hempty)

theorem NeedsToken.bind {f : α → Parser β} (h : NeedsToken p) : NeedsToken (p >>= f) := by
  intro input b rest hempty hp
  obtain ⟨a, next, hp, -⟩ := bind_eq_ok_iff.1 hp
  exact h input a next hempty hp

theorem LeavesNothing.bind {f : α → Parser β} (h : LeavesNothing p)
    (hf : ∀ a, LeavesNothing (f a)) : LeavesNothing (p >>= f) := by
  intro input b rest hempty hp
  obtain ⟨a, next, hp, hfa⟩ := bind_eq_ok_iff.1 hp
  exact hf a next b rest (h input a next hempty hp) hfa

theorem LeavesNothing.look {f : List Token → Parser α} (h : LeavesNothing (f [])) :
    LeavesNothing (Parser.look >>= f) := by
  intro input a rest hempty hp
  rw [look_bind, hempty] at hp
  exact h input a rest hempty hp

theorem leavesNothing_pure (a : α) : LeavesNothing (pure a) := by
  intro input b rest hempty hp
  rw [(pure_eq_ok_iff.1 hp).2, hempty]

theorem LeavesNothing.iterate {σ : Type} {step : σ → Parser (σ ⊕ α)}
    (h : ∀ state, LeavesNothing (step state)) {turns : Nat} (state : σ) :
    LeavesNothing (Parser.iterate step turns state) := by
  induction turns generalizing state with
  | zero => exact fun _ _ _ _ hp => absurd hp fail_ne_ok
  | succ turns ih =>
    refine (h state).bind fun turn => ?_
    cases turn with
    | inl state => exact ih state
    | inr a => exact leavesNothing_pure a

theorem leavesNothing_punct? (spelling : String) : LeavesNothing (punct? spelling) := by
  intro input a rest hempty hp
  rw [punct?_apply, hempty] at hp
  split at hp
  · obtain ⟨-, rfl⟩ := Prod.mk.inj (Except.ok.inj hp)
    exact List.drop_nil
  · obtain ⟨-, rfl⟩ := Prod.mk.inj (Except.ok.inj hp)
    exact hempty

theorem leavesNothing_word? (spelling : String) : LeavesNothing (word? spelling) := by
  intro input a rest hempty hp
  rw [word?, look_bind, hempty] at hp
  obtain ⟨-, rfl⟩ := Prod.mk.inj (Except.ok.inj hp)
  exact hempty

theorem needsToken_fail (message : String) : NeedsToken (fail message : Parser α) :=
  fun _ _ _ _ => fail_ne_ok

theorem needsToken_punct {spelling : String} (h : Ahead.punct spelling [] = false) :
    NeedsToken (punct spelling) := by
  intro input a rest hempty hp
  have hfound := (punct_eq_ok_iff.1 hp).1
  rw [hempty, h] at hfound
  cases hfound

theorem needsToken_takeAnyIdent : NeedsToken takeAnyIdent := by
  intro input a rest hempty hp
  obtain ⟨line, tokens, htokens, -⟩ := takeAnyIdent_eq_ok_iff.1 hp
  rw [hempty] at htokens
  cases htokens

theorem needsToken_takeIdent : NeedsToken takeIdent := by
  intro input a rest hempty hp
  obtain ⟨-, line, tokens, htokens, -⟩ := takeIdent_eq_ok_iff.1 hp
  rw [hempty] at htokens
  cases htokens

theorem needsToken_takeLifetime : NeedsToken takeLifetime := by
  intro input a rest hempty hp
  rw [takeLifetime, look_bind, hempty] at hp
  exact fail_ne_ok hp

end

namespace Place.KeepsBefore

open Syntax.Parser

variable {line : Nat → Nat} {place : Place line} {α β : Type} {p p' : Parser α}

theorem of_keeps (h : place.Keeps Eq p p') (hnil : LeavesNothing p) : place.KeepsBefore p p' :=
  fun _ _ _ hp hrest => ⟨fun hempty => hrest (hnil _ _ _ hempty hp), fun _ hmoved => h hmoved hp⟩

/-- Inside of a group there is nothing to come to. -/
theorem keeps_inside {close : Nat} (h : (inside close : Place line).KeepsBefore p p') :
    (inside close : Place line).Keeps Eq p p' :=
  fun _ input' _ _ hmoved hp => (h hp (hidden_inside _ _)).2 input' hmoved

theorem bind {f f' : α → Parser β} (h : place.KeepsBefore p p')
    (hf : ∀ a, place.KeepsBefore (f a) (f' a)) : place.KeepsBefore (p >>= f) (p' >>= f') := by
  intro input rest b hp hrest
  obtain ⟨a, next, hp, hfa⟩ := bind_eq_ok_iff.1 hp
  obtain ⟨hnext, hafter⟩ := hf a hfa hrest
  obtain ⟨hinput, hmoved⟩ := h hp hnext
  refine ⟨hinput, fun input' hinput' => ?_⟩
  obtain ⟨_, next', hp', rfl, hnext'⟩ := hmoved input' hinput'
  obtain ⟨b', rest', hfa', heq, hrest'⟩ := hafter next' hnext'
  exact ⟨b', rest', bind_eq_ok_iff.2 ⟨a, next', hp', hfa'⟩, heq, hrest'⟩

/-- What is read first does not matter for the rest. -/
theorem seq {R : α → α → Prop} {q q' : Parser β} (h : place.Keeps R p p') (hnil : LeavesNothing p)
    (hq : place.KeepsBefore q q') :
    place.KeepsBefore (p >>= fun _ => q) (p' >>= fun _ => q') := by
  intro input rest b hp hrest
  obtain ⟨a, next, hp, hafter⟩ := bind_eq_ok_iff.1 hp
  obtain ⟨hnext, hmore⟩ := hq hafter hrest
  refine ⟨fun hempty => hnext (hnil _ _ _ hempty hp), fun input' hmoved => ?_⟩
  obtain ⟨a', next', hp', -, hnext'⟩ := h hmoved hp
  obtain ⟨b', rest', hq', heq, hrest'⟩ := hmore next' hnext'
  exact ⟨b', rest', bind_eq_ok_iff.2 ⟨a', next', hp', hq'⟩, heq, hrest'⟩

theorem pure (a : α) : place.KeepsBefore (pure a) (pure a) :=
  of_keeps (.pure rfl) (leavesNothing_pure a)

theorem of_needsToken (h : place.Keeps Eq p p') (hneeds : NeedsToken p) : place.KeepsBefore p p' :=
  of_keeps h hneeds.leavesNothing

theorem fail (message : String) : place.KeepsBefore (fail message : Parser α) p' :=
  of_needsToken (.fail message) (needsToken_fail message)

theorem punct? (spelling : String) :
    place.KeepsBefore (Parser.punct? spelling) (Parser.punct? spelling) :=
  of_keeps (.punct? spelling) (leavesNothing_punct? spelling)

theorem word? (spelling : String) :
    place.KeepsBefore (Parser.word? spelling) (Parser.word? spelling) :=
  of_keeps (.word? spelling) (leavesNothing_word? spelling)

theorem ite {b : Bool} {q q' : Parser α} (hp : place.KeepsBefore p p')
    (hq : place.KeepsBefore q q') :
    place.KeepsBefore (if b then p else q) (if b then p' else q') := by
  cases b
  · exact hq
  · exact hp

theorem then_seq {b : Bool} {q q' : Parser α} {r r' : Parser β} (hq : place.KeepsBefore q q')
    (hr : place.KeepsBefore r r') :
    place.KeepsBefore (if b then q >>= fun _ => r else r) (if b then q' >>= fun _ => r' else r') :=
  .ite (hq.bind fun _ => hr) hr

theorem look {f f' : List Token → Parser α} (hnil : LeavesNothing (f []))
    (h : ∀ tokens, place.Hidden tokens → place.KeepsBefore (f tokens) (f' (place.move tokens))) :
    place.KeepsBefore (Parser.look >>= f) (Parser.look >>= f') := by
  intro input rest a hp hrest
  rw [look_bind] at hp
  have hinput : place.Hidden input.tokens := by
    intro hempty
    rw [hempty] at hp
    exact hrest (hnil input a rest hempty hp)
  refine ⟨hinput, fun input' hmoved => ?_⟩
  rw [look_bind, hmoved.tokens]
  exact (h input.tokens hinput hp hrest).2 input' hmoved

theorem iterate {σ : Type} {step step' : σ → Parser (σ ⊕ α)}
    (h : ∀ state, place.KeepsBefore (step state) (step' state)) {turns turns' : Nat}
    (hturns : turns ≤ turns') (state : σ) :
    place.KeepsBefore (Parser.iterate step turns state) (Parser.iterate step' turns' state) := by
  induction turns generalizing turns' state with
  | zero => exact fun _ _ _ hp => absurd hp fail_ne_ok
  | succ turns ih =>
    obtain ⟨turns', rfl⟩ : ∃ n, turns' = n + 1 := ⟨turns' - 1, by omega⟩
    refine (h state).bind fun turn => ?_
    cases turn with
    | inl state => exact ih (by omega) state
    | inr a => exact .pure a

/-- Bounds that end where there is nothing more end before what stands behind. -/
theorem separatedUnless {stop : List Token → Bool}
    (hstop : ∀ tokens, place.Hidden tokens → stop (place.move tokens) = stop tokens)
    (hnil : stop [] = true) (separator : String) {p p' : Parser Unit} (h : place.KeepsBefore p p') :
    place.KeepsBefore (Parser.separatedUnless stop separator p)
      (Parser.separatedUnless stop separator p') := by
  have hstep : ∀ state : Unit, place.KeepsBefore
      (do
        if stop (← Parser.look) then return .inr ()
        p
        if ← Parser.punct? separator then return .inl () else return (.inr () : Unit ⊕ Unit))
      (do
        if stop (← Parser.look) then return .inr ()
        p'
        if ← Parser.punct? separator then return .inl () else return .inr ()) := by
    refine fun _ => .look ?_ fun tokens htokens => ?_
    · rw [hnil]
      exact leavesNothing_pure _
    · rw [hstop tokens htokens]
      refine .ite (.pure _) (h.bind fun _ => (punct? separator).bind fun _ => ?_)
      exact .ite (.pure _) (.pure _)
  have hleaves : LeavesNothing (do
      if stop (← Parser.look) then return .inr ()
      p
      if ← Parser.punct? separator then return .inl () else return (.inr () : Unit ⊕ Unit)) :=
    .look (by rw [hnil]; exact leavesNothing_pure _)
  exact .look (.iterate (fun _ => hleaves) ()) fun tokens _ =>
    iterate hstep (Nat.add_le_add_right (length_le_length_move tokens) 2) ()

end Place.KeepsBefore

namespace Place.Keeps

open Syntax.Parser

variable {line : Nat → Nat} {place : Place line}

/-- What is separated until a token comes never comes to what stands behind. -/
theorem separatedUntil {stop : List Token → Bool}
    (hstop : ∀ tokens, stop (place.move tokens) = stop tokens) (hnil : stop [] = false)
    {separator : String} (hseparator : Ahead.punct separator [] = false) {p p' : Parser Unit}
    (h : place.KeepsBefore p p') :
    place.Keeps Eq (Parser.separatedUntil stop separator p)
      (Parser.separatedUntil stop separator p') := by
  refine loop (fun _ => .look fun tokens => ?_) ()
  rw [hstop]
  refine .ite (.done rfl) fun input input' rest a hmoved hp => ?_
  obtain ⟨u, next, hp, hafter⟩ := bind_eq_ok_iff.1 hp
  -- a separator or the end comes next, so a token is left in front of what stands behind
  have hnext : next.tokens ≠ [] := by
    intro hempty
    rw [look_bind, hempty, hnil] at hafter
    obtain ⟨_, _, hpunct, -⟩ := bind_eq_ok_iff.1 hafter
    have hfound := (punct_eq_ok_iff.1 hpunct).1
    rw [hempty, hseparator] at hfound
    cases hfound
  obtain ⟨_, next', hp', rfl, hmoved'⟩ := (h hp (hidden_of_ne_nil hnext)).2 input' hmoved
  have hkeeps : place.Keeps (Sum.LiftRel Eq Eq)
      (do
        if stop (← Parser.look) then return .inr ()
        Parser.punct separator
        return .inl ())
      (do
        if stop (← Parser.look) then return .inr ()
        Parser.punct separator
        return (.inl () : Unit ⊕ Unit)) := by
    refine .look fun tokens => ?_
    rw [hstop]
    exact .ite (.done rfl) ((punct separator).seq (.again rfl))
  obtain ⟨a', rest', hafter', hR, hrest⟩ := hkeeps hmoved' hafter
  exact ⟨a', rest', bind_eq_ok_iff.2 ⟨u, next', hp', hafter'⟩, hR, hrest⟩

/-! ### Inside of a group -/

section

variable {close : Nat} {α β : Type} {R : α → α → Prop} {S : β → β → Prop} {p p' : Parser α}

theorem separatedUntil_inside {stop : List Token → Bool}
    (hstop : ∀ tokens, stop ((inside close : Place line).move tokens) = stop tokens)
    (separator : String) {p p' : Parser Unit} (h : (inside close : Place line).Keeps Eq p p') :
    (inside close : Place line).Keeps Eq (Parser.separatedUntil stop separator p)
      (Parser.separatedUntil stop separator p') := by
  refine loop (fun _ => .look fun tokens => ?_) ()
  rw [hstop]
  refine .ite (.done rfl) (h.seq (.look fun tokens => ?_))
  rw [hstop]
  exact .ite (.done rfl) ((punct separator).seq (.again rfl))

theorem isEnd : (inside close : Place line).Keeps Eq Parser.isEnd Parser.isEnd := by
  refine .look fun tokens => ?_
  rw [isEmpty_inside]
  exact .pure rfl

theorem untilEnd (h : (inside close : Place line).Keeps R p p') :
    (inside close : Place line).Keeps (List.Forall₂ R) (Parser.untilEnd p)
      (Parser.untilEnd p') :=
  manyWhile (fun tokens => by rw [isEmpty_inside]) h

theorem commaList (h : (inside close : Place line).Keeps R p p') :
    (inside close : Place line).Keeps (List.Forall₂ R) (Parser.commaList p)
      (Parser.commaList p') := by
  refine loopUpTo (T := List.Forall₂ R) (fun done done' hdone => isEnd.bind fun _ => ?_) .nil
  refine .ite (.done (List.rel_reverse hdone)) (h.bindUpTo fun a a' ha => isEnd.bind fun _ => ?_)
  exact .ite (.done (List.rel_reverse (.cons ha hdone))) ((punct ",").seq (.again (.cons ha hdone)))

/-- A parser that reads the same on whatever lines reads wherever it reads once, since the lines can
    be changed back. -/
theorem exists_ok_of_moved {back : Nat → Nat} (hback : Function.LeftInverse back line)
    (h : ∀ close, (inside close : Place back).Keeps R p p) {input input' : Input}
    (hmoved : (inside close : Place line).Moved input input') {stray : Option Nat} {a : α}
    {rest : Input} (hp : p { input' with stray := stray } = .ok (a, rest)) :
    ∃ a rest, p { input with stray := none } = .ok (a, rest) := by
  have hreturn : (inside input.close : Place back).Moved { input' with stray }
      { input with stray := none } := by
    refine ⟨?_, fun _ => rfl, rfl⟩
    rw [hmoved.tokens, move_inside, move_inside, Token.mapLines_mapLines_of_leftInverse hback]
  obtain ⟨a', rest', hok, -⟩ := h _ hreturn hp
  exact ⟨a', rest', hok⟩

/-- What is read only if it can be, by a parser that reads the same on whatever lines. -/
theorem attempt_same {back : Nat → Nat} (hback : Function.LeftInverse back line)
    {Q : α → α → Prop} (hreturn : ∀ close, (inside close : Place back).Keeps Q p p)
    {f f' : Option α → Parser β} (h : (inside close : Place line).Keeps R p p)
    (hsome : ∀ a a', R a a' → (inside close : Place line).Keeps S (f (some a)) (f' (some a')))
    (hnone : (inside close : Place line).Keeps S (f none) (f' none)) :
    (inside close : Place line).Keeps S (Parser.attempt p >>= f) (Parser.attempt p >>= f') := by
  refine fun input input' rest b hmoved => attempt_bind h hsome hnone ?_ hmoved
  intro hfails hread hok
  obtain ⟨a, rest', hread⟩ := hread
  obtain ⟨a', rest'', hread'⟩ := exists_ok_of_moved hback hreturn hmoved hread
  exact hfails a' rest'' hread'

theorem attempt {back : Nat → Nat} (hback : Function.LeftInverse back line) {Q : α → α → Prop}
    (hreturn : ∀ close, (inside close : Place back).Keeps Q p p)
    (h : (inside close : Place line).Keeps R p p) :
    (inside close : Place line).Keeps (Option.Rel R) (Parser.attempt p) (Parser.attempt p) := by
  have hpure : (Parser.attempt p >>= Pure.pure) = Parser.attempt p := by
    funext input
    rw [bind_apply]
    cases Parser.attempt p input <;> rfl
  have hattempt : (inside close : Place line).Keeps (Option.Rel R) (Parser.attempt p >>= Pure.pure)
      (Parser.attempt p >>= Pure.pure) :=
    .attempt_same hback hreturn h (fun _ _ ha => .pure (.some ha)) (.pure .none)
  rwa [hpure] at hattempt

end

end Place.Keeps

end JobRoster.Syntax
