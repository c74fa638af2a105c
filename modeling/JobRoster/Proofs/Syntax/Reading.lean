import JobRoster.Syntax.Lexer

/-!
# How a text is read

`Lexer.run` keeps the groups that are open on a stack. `Reads` states what it does without one: a
text is read piece by piece, and what is inside a group is read like a text of its own.
-/

namespace JobRoster.Syntax

open JobRoster.Text

namespace Lexer

/-- The line after a single token. Of these only literals hold line breaks. -/
def Leaf.lineAfter (line : Nat) (cs rest : List Char) : Leaf → Nat
  | literal _ => Lexer.lineAfter line cs rest
  | _ => line

/-- Reading some characters from a line on gives tokens, and leaves a rest at another line. -/
inductive Reads : (line : Nat) → List Char → (line' : Nat) → (rest : List Char) → List Token → Prop
  | refl (line : Nat) (cs : List Char) : Reads line cs line cs []
  | blank {line line' : Nat} {c : Char} {cs rest : List Char} {tokens : List Token}
      (h : isSourceBlank c = true)
      (after : Reads (if c = '\n' then line + 1 else line) cs line' rest tokens) :
      Reads line (c :: cs) line' rest tokens
  | comment {line line' : Nat} {cs cs' rest : List Char} {tokens : List Token}
      (h : comment? cs = some (.plain, cs'))
      (after : Reads (lineAfter line cs cs') cs' line' rest tokens) :
      Reads line cs line' rest tokens
  | doc {line line' : Nat} {cs cs' rest text : List Char} {inner : Bool} {tokens : List Token}
      (h : comment? cs = some (.doc inner text, cs'))
      (after : Reads (lineAfter line cs cs') cs' line' rest tokens) :
      Reads line cs line' rest (docAttribute inner text line ++ tokens)
  | group {line close line' : Nat} {opening closing : Char} {cs cs' rest : List Char}
      {delimiter : Delimiter} {content tokens : List Token}
      (hstart : expansionError.isPrefixOf (opening :: cs) = false)
      (hopen : opens? opening = some delimiter)
      (inside : Reads line cs close (closing :: cs') content)
      (hclose : closes? closing = some delimiter)
      (after : Reads close cs' line' rest tokens) :
      Reads line (opening :: cs) line' rest (.group delimiter content line close :: tokens)
  | leaf {line line' : Nat} {c : Char} {cs cs' rest : List Char} {leaf : Leaf}
      {tokens : List Token} (hblank : isSourceBlank c = false) (hcomment : comment? (c :: cs) = none)
      (hopen : (if expansionError.isPrefixOf (c :: cs) then none else opens? c) = none)
      (hclose : closes? c = none) (hleaf : leaf? (c :: cs) = some (leaf, cs'))
      (after : Reads (leaf.lineAfter line (c :: cs) cs') cs' line' rest tokens) :
      Reads line (c :: cs) line' rest (leaf.token line :: tokens)

namespace Reads

variable {line line' line'' : Nat} {cs rest rest' : List Char} {tokens more : List Token}

theorem trans (h : Reads line cs line' rest tokens) (h' : Reads line' rest line'' rest' more) :
    Reads line cs line'' rest' (tokens ++ more) := by
  induction h with
  | refl => exact h'
  | blank hblank _ ih => exact .blank hblank (ih h')
  | comment hcomment _ ih => exact .comment hcomment (ih h')
  | doc hcomment _ ih =>
    rw [List.append_assoc]
    exact .doc hcomment (ih h')
  | group hstart hopen inside hclose _ _ ih => exact .group hstart hopen inside hclose (ih h')
  | leaf hblank hcomment hopen hclose hleaf _ ih =>
    exact .leaf hblank hcomment hopen hclose hleaf (ih h')

end Reads

/-! ## What is read has been read so -/

/-- Where a text in which some groups are open is read to its end, what is left of the innermost
    group is read first, and then what follows the group. -/
def Closes (line : Nat) (cs : List Char) (done : List Token) (result : List Token) :
    List Frame → Prop
  | [] => ∃ line' tokens, Reads line cs line' [] tokens ∧ result = done.reverse ++ tokens
  | frame :: stack => ∃ close closing cs' tokens, Reads line cs close (closing :: cs') tokens ∧
      closes? closing = some frame.delimiter ∧
      Closes close cs' (.group frame.delimiter (done.reverse ++ tokens) frame.line close ::
        frame.before) result stack

theorem Closes.of_reads {line line' : Nat} {cs cs' : List Char} {tokens done result : List Token}
    {stack : List Frame} (h : Reads line cs line' cs' tokens)
    (hafter : Closes line' cs' (tokens.reverse ++ done) result stack) :
    Closes line cs done result stack := by
  cases stack with
  | nil =>
    obtain ⟨last, more, hreads, rfl⟩ := hafter
    exact ⟨last, tokens ++ more, h.trans hreads, by simp⟩
  | cons frame stack =>
    obtain ⟨close, closing, cs'', more, hreads, hclose, hrest⟩ := hafter
    refine ⟨close, closing, cs'', tokens ++ more, h.trans hreads, hclose, ?_⟩
    simpa using hrest

theorem closes_of_run {steps line : Nat} {cs : List Char} {stack : List Frame}
    {done result : List Token} (h : run steps line cs stack done = .ok result) :
    Closes line cs done result stack := by
  -- the steps are those of the run, and a group that is opened is closed in the run that is left
  induction steps generalizing line cs stack done with
  | zero => cases h
  | succ steps ih =>
    cases cs with
    | nil =>
      cases stack with
      | nil => exact ⟨line, [], .refl line [], by simpa using (Except.ok.inj h).symm⟩
      | cons frame stack => cases h
    | cons c cs =>
      simp only [run] at h
      split at h
      next hblank => exact .of_reads (.blank hblank (.refl _ _)) (ih h)
      next hblank =>
        have hblank : isSourceBlank c = false := Bool.eq_false_iff.2 hblank
        split at h
        next rest hcomment => exact .of_reads (.comment hcomment (.refl _ _)) (ih h)
        next inner text rest hcomment =>
          refine .of_reads (.doc hcomment (.refl _ _)) ?_
          simpa using ih h
        next hcomment =>
          split at h
          next delimiter hopen =>
            obtain ⟨hstart, hopen⟩ : expansionError.isPrefixOf (c :: cs) = false ∧
                opens? c = some delimiter := by
              split at hopen
              · cases hopen
              next hstart => exact ⟨Bool.eq_false_iff.2 hstart, hopen⟩
            obtain ⟨close, closing, cs', tokens, hinside, hclose, hafter⟩ := ih h
            refine .of_reads (.group hstart hopen hinside hclose (.refl _ _)) ?_
            simpa using hafter
          next hopen =>
            split at h
            next delimiter hclose =>
              cases stack with
              | nil => cases h
              | cons frame stack =>
                simp only at h
                split at h
                next hsame =>
                  subst hsame
                  refine ⟨line, c, cs, [], .refl _ _, hclose, ?_⟩
                  simpa using ih h
                next => cases h
            next hclose =>
              split at h
              next leaf rest hleaf =>
                refine .of_reads (.leaf hblank hcomment hopen hclose hleaf (.refl _ _)) ?_
                cases leaf <;> exact ih h
              next => cases h

/-- The tokens of a text are read from it. -/
theorem reads_of_tokenize {text : List Char} {tokens : List Token}
    (h : tokenize text = .ok tokens) :
    ∃ line, Reads 1 (dropByteOrderMark text) line [] tokens := by
  obtain ⟨line, tokens, hreads, rfl⟩ := closes_of_run h
  exact ⟨line, hreads⟩

end Lexer

end JobRoster.Syntax
