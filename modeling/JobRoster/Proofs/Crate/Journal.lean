import Mathlib.Data.List.Nodup
import JobRoster.Proofs.Crate.Loading
import JobRoster.Proofs.Crate.Search

/-!
# Look-ups are made once

While a path is resolved, the globs of a module are searched for a name once at most: as soon as a
look-up begins it is in the memo, and one that is in the memo is not begun again. To speak of the
memo at every moment, the search is made with a journal of what is put into the memo. Nothing in it
is overwritten, so the memo of a moment is what the journal until then comes to.
-/

namespace JobRoster.Crate

open Search

variable {c : Crate}

/-! ## Searches step by step -/

/-- A relation between searches that holds of searches if it holds of their steps. -/
structure Search.Congruence (R : Search → Search → Prop) : Prop where
  pure : ∀ answer, R (Pure.pure answer) (Pure.pure answer)
  bind : ∀ {s t : Search} {f g : Option String → Search}, R s t →
    (∀ answer, R (f answer) (g answer)) → R (s >>= f) (t >>= g)

namespace Search.Congruence

variable {R : Search → Search → Prop} (h : Congruence R) {ask ask' : Ask}
  (hask : ∀ question, R (ask question) (ask' question))
include h hask

theorem followReexports (path : String) :
    R (followReexports c ask path) (followReexports c ask' path) := by
  unfold Crate.followReexports
  cases (localSegments? c path).bind (reexportAlong? c 0) with
  | none => exact h.pure _
  | some met =>
    apply h.bind (hask _)
    intro answer
    cases answer with
    | none => exact h.pure _
    | some target => exact hask _

theorem searchGlob (module : Nat) (name base : String) (target : Nat) :
    R (searchGlob c ask module name base target) (searchGlob c ask' module name base target) := by
  unfold Crate.searchGlob
  split_ifs
  · exact h.pure _
  · exact h.pure _
  · exact hask _

theorem searchGlobs (module : Nat) (name : String) (external : List String) (globs : List Glob) :
    R (searchGlobs c ask module name external globs)
      (searchGlobs c ask' module name external globs) := by
  induction globs generalizing external with
  | nil => exact h.pure _
  | cons glob globs ih =>
    rw [Crate.searchGlobs, Crate.searchGlobs]
    apply h.bind (hask _)
    intro answer
    cases answer with
    | none => exact ih external
    | some base =>
      dsimp only
      cases c.moduleNamed? base with
      | none => exact ih _
      | some target =>
        apply h.bind (h.searchGlob hask module name base target)
        intro answer
        cases answer with
        | none => exact ih external
        | some found => exact h.pure _

variable {throughGlobs throughGlobs' : GlobSearch}
  (hglobs : ∀ module name, R (throughGlobs module name) (throughGlobs' module name))
include hglobs

theorem resolveRelative (module : Nat) (first : String) (rest : List String)
    (without : Option BindingSite) :
    R (resolveRelative c ask throughGlobs module first rest without)
      (resolveRelative c ask' throughGlobs' module first rest without) := by
  unfold Crate.resolveRelative
  cases bindingOf? c module first without with
  | some hit => exact h.bind (hask _) fun _ => h.pure _
  | none =>
    dsimp only
    split_ifs
    · exact h.pure _
    · exact h.pure _
    · apply h.bind (hglobs module first)
      intro answer
      cases answer with
      | some found => exact h.pure _
      | none =>
        dsimp only
        split <;> exact h.pure _

theorem resolveWritten (module : Nat) (path : ItemPath) (without : Option BindingSite) :
    R (resolveWritten c ask throughGlobs module path without)
      (resolveWritten c ask' throughGlobs' module path without) := by
  unfold Crate.resolveWritten
  cases path.segments with
  | nil => exact h.pure _
  | cons first rest =>
    dsimp only
    split_ifs
    · exact h.pure _
    · exact h.pure _
    · exact h.pure _
    · exact h.pure _
    · exact h.pure _
    · exact h.resolveRelative hask hglobs module first rest without

theorem answerBy (question : Question) :
    R (answerBy c ask throughGlobs question) (answerBy c ask' throughGlobs' question) := by
  cases question with
  | path module path without =>
    apply h.bind (h.resolveWritten hask hglobs module path without)
    intro answer
    cases answer with
    | none => exact h.pure _
    | some canonical => exact h.followReexports hask canonical
  | reexports path => exact h.followReexports hask path
  | glob module name => exact hglobs module name

end Search.Congruence

/-! ## The journal -/

namespace Memo

variable {memo journal : Memo} {lookup other : Lookup} {answer : Option String}

/-- The memo with the answer to a look-up in it, in place of the one that it had if it had any. -/
def insert (memo : Memo) (lookup : Lookup) (answer : Option String) : Memo :=
  if memo.find? lookup = none then ⟨(lookup, answer) :: memo.entries⟩
  else memo.finish lookup answer

/-- The journal with one more answer at its end. The entries are in the order of a memo, the last
    one first. -/
def record (journal : Memo) (lookup : Lookup) (answer : Option String) : Memo :=
  ⟨(lookup, answer) :: journal.entries⟩

/-- What a journal has written of a look-up, the last entry first. -/
def entriesOf (journal : Memo) (lookup : Lookup) : List (Lookup × Option String) :=
  journal.entries.filter (·.1 = lookup)

/-- The memo that is left once all that is in the journal has been put into it. -/
def replay (journal : Memo) : Memo :=
  journal.entries.foldr (fun entry memo => memo.insert entry.1 entry.2) empty

/-- The look-ups of a memo. -/
def lookups (memo : Memo) : List Lookup := memo.entries.map (·.1)

theorem find?_eq_none_iff : memo.find? lookup = none ↔ lookup ∉ memo.lookups := by
  simp only [find?, lookups, Option.map_eq_none_iff, List.find?_eq_none, decide_eq_true_eq,
    List.mem_map, not_exists, not_and]

theorem find?_eq_head? (journal : Memo) (lookup : Lookup) :
    journal.find? lookup = (journal.entriesOf lookup).head?.map (·.2) := by
  unfold find? entriesOf
  rw [List.head?_filter]

theorem lookups_finish : (memo.finish lookup answer).lookups = memo.lookups := by
  unfold lookups finish
  simp only [List.map_map]
  apply List.map_congr_left
  intro entry _
  by_cases h : entry.1 = lookup <;> simp [h]

theorem find?_insert :
    (memo.insert lookup answer).find? other =
      if lookup = other then some answer else memo.find? other := by
  unfold insert
  split_ifs with hnew hsame hsame
  · simp [find?, hsame]
  · simp [find?, hsame]
  · rw [find?_finish, if_pos hsame]
    subst hsame
    obtain ⟨known, hknown⟩ := Option.ne_none_iff_exists'.1 hnew
    rw [hknown, Option.map_some]
  · rw [find?_finish, if_neg hsame]

theorem replay_record :
    (journal.record lookup answer).replay = journal.replay.insert lookup answer := rfl

theorem find?_record :
    (journal.record lookup answer).find? other =
      if lookup = other then some answer else journal.find? other := by
  unfold find? record
  by_cases h : lookup = other <;> simp [h]

/-- What was written last of a look-up is what the memo says of it. -/
theorem find?_replay (journal : Memo) (lookup : Lookup) :
    journal.replay.find? lookup = journal.find? lookup := by
  obtain ⟨entries⟩ := journal
  induction entries with
  | nil => rfl
  | cons entry entries ih =>
    -- what is put into the memo last hides what was in it before
    have hreplay := @replay_record ⟨entries⟩ entry.1 entry.2
    have hrecord := @find?_record ⟨entries⟩ entry.1 lookup entry.2
    rw [record] at hreplay hrecord
    rw [hreplay, find?_insert, hrecord, ih]

theorem lookups_suffix_insert : memo.lookups <:+ (memo.insert lookup answer).lookups := by
  unfold insert
  split_ifs
  · exact List.suffix_cons _ _
  · exact lookups_finish ▸ List.suffix_rfl

theorem nodup_lookups_insert (h : memo.lookups.Nodup) : (memo.insert lookup answer).lookups.Nodup := by
  unfold insert
  split_ifs with hnew
  · exact List.nodup_cons.2 ⟨find?_eq_none_iff.1 hnew, h⟩
  · rwa [lookups_finish]

theorem nodup_lookups_replay (journal : Memo) : journal.replay.lookups.Nodup := by
  obtain ⟨entries⟩ := journal
  induction entries with
  | nil => exact List.nodup_nil
  | cons entry entries ih => exact nodup_lookups_insert ih

/-- A memo only grows. -/
theorem lookups_suffix_replay {past later : List (Lookup × Option String)} (h : past <:+ later) :
    (replay ⟨past⟩).lookups <:+ (replay ⟨later⟩).lookups := by
  obtain ⟨new, rfl⟩ := h
  induction new with
  | nil => exact List.suffix_rfl
  | cons entry new ih => exact ih.trans lookups_suffix_insert

@[simp] theorem entriesOf_record_self :
    (journal.record lookup answer).entriesOf lookup =
      (lookup, answer) :: journal.entriesOf lookup := by
  simp [entriesOf, record]

theorem entriesOf_record_of_ne (h : lookup ≠ other) :
    (journal.record lookup answer).entriesOf other = journal.entriesOf other := by
  simp [entriesOf, record, h]

/-- The journal has gone on: a look-up of which something is written now was written of before and
    has no entry since, or it has begun and ended since. -/
structure Continues (before after : Memo) : Prop where
  suffix : before.entries <:+ after.entries
  once : ∀ lookup, after.entriesOf lookup = before.entriesOf lookup ∨
    before.entriesOf lookup = [] ∧
      ∃ found, after.entriesOf lookup = [(lookup, found), (lookup, none)]

namespace Continues

variable {before middle after : Memo}

theorem refl (journal : Memo) : journal.Continues journal :=
  ⟨List.suffix_rfl, fun _ => .inl rfl⟩

theorem trans (h : before.Continues middle) (h' : middle.Continues after) :
    before.Continues after where
  suffix := h.suffix.trans h'.suffix
  once lookup := by
    obtain hsame | ⟨hnew, hended⟩ := h'.once lookup
    · rw [hsame]
      exact h.once lookup
    · -- one that ended before the middle has entries there, and does not begin after it
      right
      obtain hsame' | ⟨_, found, hmiddle⟩ := h.once lookup
      · exact ⟨hsame' ▸ hnew, hended⟩
      · rw [hmiddle] at hnew
        cases hnew

/-- A look-up between whose beginning and end the journal has gone on. -/
theorem of_record (hnew : before.entriesOf lookup = [])
    (h : (before.record lookup none).Continues after) (found : Option String) :
    after.entriesOf lookup = [(lookup, none)] ∧
      before.Continues (after.record lookup found) := by
  -- its beginning is written down before, so nothing is written of it in between
  have hbegun : after.entriesOf lookup = [(lookup, none)] := by
    obtain hsame | ⟨hnone, _⟩ := h.once lookup
    · rw [hsame, entriesOf_record_self, hnew]
    · rw [entriesOf_record_self] at hnone
      cases hnone
  refine ⟨hbegun, ?_, ?_⟩
  · exact ((List.suffix_cons _ _).trans h.suffix).trans (List.suffix_cons _ _)
  · intro other
    by_cases hother : lookup = other
    · subst hother
      right
      exact ⟨hnew, found, by rw [entriesOf_record_self, hbegun]⟩
    · have hothers := h.once other
      rwa [entriesOf_record_of_ne hother] at hothers ⊢

end Continues

end Memo

/-- A look-up has one entry more when it begins, and one more when it ends. -/
def Noting.journal : Noting where
  start journal lookup := journal.record lookup none
  finish := Memo.record

/-! ## The journal of a search -/

/-- The search `s` writes into its journal what `t` puts into the memo, and the look-ups it writes
    of are new ones that begin and end. -/
def Search.Journals (s t : Search) : Prop :=
  ∀ journal : Memo, t journal.replay = ((s journal).1, (s journal).2.replay) ∧
    journal.Continues (s journal).2

namespace Search

theorem congruence_journals : Congruence Journals where
  pure _ journal := ⟨rfl, .refl journal⟩
  bind {s t f g} hs hf journal := by
    obtain ⟨hstep, hcontinues⟩ := hs journal
    obtain ⟨hnext, hcontinues'⟩ := hf (s journal).1 (s journal).2
    refine ⟨?_, hcontinues.trans hcontinues'⟩
    rw [bind_apply, bind_apply, hstep]
    exact hnext

end Search

/-- One look-up. It is new if nothing is written of it; what is asked inside finds its beginning in
    the journal. -/
theorem journals_globLookup {ask ask' : Ask}
    (hask : ∀ question, (ask question).Journals (ask' question)) (module : Nat) (name : String) :
    (lookupNoting .journal c ask module name).Journals (globLookup c ask' module name) := by
  intro journal
  rw [globLookup_apply, lookupNoting_apply, Memo.find?_replay]
  simp only [Noting.journal]
  cases hfind : journal.find? ⟨module, name⟩ with
  | some known => exact ⟨rfl, .refl journal⟩
  | none =>
    have hstart : journal.replay.start ⟨module, name⟩ =
        (journal.record ⟨module, name⟩ none).replay := by
      rw [Memo.replay_record, Memo.insert, Memo.find?_replay, if_pos hfind]
      rfl
    have hnew : journal.entriesOf ⟨module, name⟩ = [] := by
      rwa [Memo.find?_eq_head?, Option.map_eq_none_iff, List.head?_eq_none_iff] at hfind
    obtain ⟨hsearch, hcontinues⟩ :=
      congruence_journals.searchGlobs (c := c) hask module name [] (c.module module).globs
        (journal.record ⟨module, name⟩ none)
    generalize searchGlobs c ask module name [] (c.module module).globs
      (journal.record ⟨module, name⟩ none) = result at hsearch hcontinues
    obtain ⟨found, after⟩ := result
    obtain ⟨hbegun, hcontinues'⟩ := hcontinues.of_record hnew found
    refine ⟨?_, hcontinues'⟩
    -- the answer takes the place of the entry that the beginning has made
    have hfinish : (after.record ⟨module, name⟩ found).replay =
        after.replay.finish ⟨module, name⟩ found := by
      rw [Memo.replay_record, Memo.insert, Memo.find?_replay, Memo.find?_eq_head?]
      dsimp only at hbegun
      rw [hbegun]
      rfl
    dsimp only
    rw [hstart, hsearch, hfinish]

theorem journals_answer (budget : Nat) (question : Question) :
    (answerNoting .journal c budget question).Journals (answer c budget question) := by
  induction budget generalizing question with
  | zero => exact congruence_journals.pure none
  | succ budget ih =>
    exact congruence_journals.answerBy ih (journals_globLookup ih) question

/-! ## The moments of a search -/

/-- The journal of the look-ups made while a path is resolved. -/
def journalOf (c : Crate) (module : Nat) (path : ItemPath) : Memo :=
  (answerNoting .journal c searchBudget (.path module path none) Memo.empty).2

theorem answer_eq_replay (module : Nat) (path : ItemPath) :
    answer c searchBudget (.path module path none) Memo.empty =
      ((answerNoting .journal c searchBudget (.path module path none) Memo.empty).1,
        (journalOf c module path).replay) :=
  (journals_answer searchBudget (.path module path none) Memo.empty).1

theorem entriesOf_journalOf (module : Nat) (path : ItemPath) (lookup : Lookup) :
    (journalOf c module path).entriesOf lookup = [] ∨
      ∃ found, (journalOf c module path).entriesOf lookup = [(lookup, found), (lookup, none)] := by
  obtain hnone | ⟨_, hended⟩ :=
    (journals_answer searchBudget (.path module path none) Memo.empty).2.once lookup
  · exact .inl hnone
  · exact .inr hended

/-- A look-up that begins with nothing and ends once has an answer for good when it has one. -/
theorem Memo.find?_of_suffix {past later : Memo} {lookup : Lookup} {answer : Option String}
    {found : String} (hpast : past.entries <:+ later.entries)
    (honce : later.entriesOf lookup <:+ [(lookup, answer), (lookup, none)])
    (h : past.find? lookup = some (some found)) : later.find? lookup = some (some found) := by
  have hentries : past.entriesOf lookup <:+ later.entriesOf lookup := hpast.filter _
  rw [find?_eq_head?] at h ⊢
  obtain hwhole | hbegun := List.suffix_cons_iff.1 (hentries.trans honce)
  · -- it has ended in the past, and there is nothing to be written of it
    rw [← hentries.eq_of_length_le (hwhole ▸ honce.length_le)]
    exact h
  · obtain hbegun | hnone := List.suffix_cons_iff.1 hbegun
    · rw [hbegun] at h
      cases h
    · rw [List.suffix_nil.1 hnone] at h
      cases h

/-- While a path is resolved, each look-up begins once at most and ends before the search does. The
    memo of every moment only grows, and what is found in it stays. -/
theorem globs_searched_once (c : Crate) (module : Nat) (path : ItemPath) :
    answer c searchBudget (.path module path none) Memo.empty =
        (resolvePath c module path, (journalOf c module path).replay) ∧
      (∀ lookup, (journalOf c module path).entriesOf lookup = [] ∨ ∃ found,
        (journalOf c module path).entriesOf lookup = [(lookup, found), (lookup, none)]) ∧
      (journalOf c module path).replay.lookups.Nodup ∧
      ∀ past later : Memo, past.entries <:+ later.entries →
        later.entries <:+ (journalOf c module path).entries →
          past.replay.lookups <:+ later.replay.lookups ∧
          ∀ lookup found, past.replay.find? lookup = some (some found) →
            later.replay.find? lookup = some (some found) := by
  refine ⟨?_, entriesOf_journalOf module path, Memo.nodup_lookups_replay _, ?_⟩
  · rw [resolvePath, answer_eq_replay]
  · intro past later hpast hlater
    refine ⟨Memo.lookups_suffix_replay hpast, fun lookup found hfound => ?_⟩
    rw [Memo.find?_replay] at hfound ⊢
    have hentries : later.entriesOf lookup <:+ (journalOf c module path).entriesOf lookup :=
      hlater.filter _
    have hended : ∃ answer, later.entriesOf lookup <:+ [(lookup, answer), (lookup, none)] := by
      obtain hnone | ⟨answer, hended⟩ := entriesOf_journalOf module path lookup
      · exact ⟨none, (hnone ▸ hentries).trans List.nil_suffix⟩
      · exact ⟨answer, hended ▸ hentries⟩
    obtain ⟨answer, hended⟩ := hended
    exact Memo.find?_of_suffix hpast hended hfound

/-- Two modules that import all of each other. -/
example :
    ∃ c, load (.ofTexts [(⟨"lib.rs"⟩, "mod a; pub use a::*; use jobs::*;"),
        (⟨"a.rs"⟩, "pub use crate::*; pub struct N;")]) "app" ["jobs"] ⟨"lib.rs"⟩ = .ok c ∧
      (journalOf c 1 ⟨false, ["M"]⟩).entries =
        [(⟨1, "M"⟩, some "jobs::M"), (⟨0, "M"⟩, some "jobs::M"), (⟨0, "M"⟩, none),
          (⟨1, "M"⟩, none)] :=
  exists_loaded_of_decide (by decide +kernel)

end JobRoster.Crate
