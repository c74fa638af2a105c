import JobRoster.Text.Segments

/-!
# Texts that show where they end

A value can be read back from a text that holds more than its own where what is written for it shows
its end. Such texts stay so when they are put behind one another, between fixed texts, and in lists
whose end differs from every item.
-/

namespace JobRoster.Text

variable {α β : Type} {valid : α → Prop} {ends : List Char → Prop} {write : α → List Char}

/-- Two valid values that are written at the start of one text are the same and leave the same rest, as
    long as what follows them is as expected. -/
def Delimited (valid : α → Prop) (ends : List Char → Prop) (write : α → List Char) : Prop :=
  ∀ ⦃a b : α⦄, valid a → valid b → ∀ ⦃rest rest' : List Char⦄, ends rest → ends rest' →
    write a ++ rest = write b ++ rest' → a = b ∧ rest = rest'

/-- What follows may be anything. -/
abbrev SelfDelimited (valid : α → Prop) (write : α → List Char) : Prop :=
  Delimited valid (fun _ => True) write

namespace Delimited

/-- With nothing behind, the whole text tells the value. -/
theorem eq_of_write_eq (h : SelfDelimited valid write) {a b : α} (ha : valid a) (hb : valid b)
    (heq : write a = write b) : a = b :=
  (h ha hb trivial trivial (congrArg (· ++ []) heq)).1

/-- Fixed text in front changes nothing. -/
theorem behind (h : Delimited valid ends write) (lead : List Char) :
    Delimited valid ends fun a => lead ++ write a := by
  intro a b ha hb rest rest' hrest hrest' heq
  simp only [List.append_assoc, List.append_cancel_left_eq] at heq
  exact h ha hb hrest hrest' heq

/-- Fixed text behind takes the place of what is expected to follow. -/
theorem before (h : Delimited valid ends write) {stop : List Char}
    (hstop : ∀ rest, ends (stop ++ rest)) : SelfDelimited valid fun a => write a ++ stop := by
  intro a b ha hb rest rest' _ _ heq
  simp only [List.append_assoc] at heq
  obtain ⟨rfl, hrest⟩ := h ha hb (hstop rest) (hstop rest') heq
  exact ⟨rfl, List.append_cancel_left hrest⟩

/-- One behind the other. -/
theorem pair {valid' : β → Prop} {ends' : List Char → Prop} {write' : β → List Char}
    (h : Delimited valid ends write) (h' : Delimited valid' ends' write')
    (hnext : ∀ b, valid' b → ∀ rest, ends' rest → ends (write' b ++ rest)) :
    Delimited (fun p : α × β => valid p.1 ∧ valid' p.2) ends' fun p => write p.1 ++ write' p.2 := by
  rintro ⟨a, a'⟩ ⟨b, b'⟩ ⟨ha, ha'⟩ ⟨hb, hb'⟩ rest rest' hrest hrest' heq
  simp only [List.append_assoc] at heq
  obtain ⟨rfl, hmore⟩ := h ha hb (hnext a' ha' rest hrest) (hnext b' hb' rest' hrest') heq
  obtain ⟨rfl, rfl⟩ := h' ha' hb' hrest hrest' hmore
  exact ⟨rfl, rfl⟩

/-- Values that are made of others are read back with those. -/
theorem image (h : Delimited valid ends write) (f : α → β) {valid' : β → Prop}
    {write' : β → List Char} (hvalid : ∀ b, valid' b → ∃ a, valid a ∧ f a = b)
    (hwrite : ∀ a, valid a → write' (f a) = write a) : Delimited valid' ends write' := by
  intro b b' hb hb' rest rest' hrest hrest' heq
  obtain ⟨a, ha, rfl⟩ := hvalid b hb
  obtain ⟨a', ha', rfl⟩ := hvalid b' hb'
  rw [hwrite a ha, hwrite a' ha'] at heq
  obtain ⟨rfl, rfl⟩ := h ha ha' hrest hrest' heq
  exact ⟨rfl, rfl⟩

/-- A list is read back item by item, up to a stop that no item can be taken for. -/
theorem list (h : Delimited valid ends write) {stop : List Char}
    (hitem : ∀ a, valid a → ∀ rest, ends (write a ++ rest)) (hends : ∀ rest, ends (stop ++ rest))
    (hstop : ∀ a, valid a → ∀ rest rest', write a ++ rest ≠ stop ++ rest') :
    SelfDelimited (fun as : List α => ∀ a ∈ as, valid a) fun as => as.flatMap write ++ stop := by
  have hfollows : ∀ as : List α, (∀ a ∈ as, valid a) → ∀ rest,
      ends (as.flatMap write ++ (stop ++ rest)) := by
    rintro (_ | ⟨a, as⟩) has rest
    · exact hends rest
    · rw [List.flatMap_cons, List.append_assoc]
      exact hitem a (has a List.mem_cons_self) _
  intro as bs has hbs rest rest' _ _ heq
  simp only [List.append_assoc] at heq
  induction as generalizing bs with
  | nil =>
    cases bs with
    | nil => exact ⟨rfl, List.append_cancel_left heq⟩
    | cons b bs =>
      rw [List.flatMap_cons, List.append_assoc] at heq
      exact absurd heq.symm (hstop b (hbs b List.mem_cons_self) _ _)
  | cons a as ih =>
    obtain ⟨ha, has⟩ := List.forall_mem_cons.1 has
    cases bs with
    | nil =>
      rw [List.flatMap_cons, List.append_assoc] at heq
      exact absurd heq (hstop a ha _ _)
    | cons b bs =>
      obtain ⟨hb, hbs'⟩ := List.forall_mem_cons.1 hbs
      simp only [List.flatMap_cons, List.append_assoc] at heq
      obtain ⟨rfl, hmore⟩ := h ha hb (hfollows as has rest) (hfollows bs hbs' rest') heq
      obtain ⟨rfl, rfl⟩ := ih has hbs' hmore
      exact ⟨rfl, rfl⟩

end Delimited

end JobRoster.Text
