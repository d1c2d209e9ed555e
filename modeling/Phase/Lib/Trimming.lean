import Mathlib.Data.List.DropRight

/-! Lists cut at their end: what `rdropWhile` leaves of an append. -/
namespace Phase.Trimming
open List

variable {α : Type*} {p : α → Bool} {before after text : List α}

theorem dropWhile_append_of_head (stop : before.head?.any fun a => !p a) :
    (before ++ after).dropWhile p = before ++ after := by
  cases before with
  | nil => simp at stop
  | cons a before => simp_all

theorem rdropWhile_append_of_all (all : ∀ a ∈ after, p a) :
    (before ++ after).rdropWhile p = before.rdropWhile p := by
  rw [rdropWhile, reverse_append, dropWhile_append_of_pos, rdropWhile]
  intro a mem
  exact all a (mem_reverse.mp mem)

theorem rdropWhile_append_of_none (none : ∀ a ∈ before, p a = false) :
    (before ++ after).rdropWhile p = before ++ after.rdropWhile p := by
  induction after using reverseRecOn with
  | nil =>
    rw [rdropWhile_nil, append_nil, rdropWhile_eq_self_iff]
    intro nonempty
    simp [none _ (getLast_mem nonempty)]
  | append_singleton after a ih =>
    rw [← append_assoc, rdropWhile_concat, rdropWhile_concat]
    split <;> simp [ih]

theorem rdropWhile_append_of_ne_nil (left : after.rdropWhile p ≠ []) :
    (before ++ after).rdropWhile p = before ++ after.rdropWhile p := by
  induction after using reverseRecOn with
  | nil => simp at left
  | append_singleton after a ih =>
    rw [rdropWhile_concat] at left
    rw [← append_assoc, rdropWhile_concat, rdropWhile_concat]
    split
    · next drops =>
      rw [if_pos drops] at left
      exact ih left
    · rw [append_assoc]

/-- The text is left as it is exactly when it does not end in what is cut. -/
theorem rdropWhile_eq_self : text.rdropWhile p = text ↔ ∀ a ∈ text.getLast?, p a = false := by
  cases text using reverseRecOn with
  | nil => simp
  | append_singleton text a => simp

theorem rdropWhile_split : ∃ cut, text = text.rdropWhile p ++ cut ∧ ∀ a ∈ cut, p a :=
  ⟨text.rtakeWhile p, rdropWhile_append_rtakeWhile.symm, fun _ => mem_rtakeWhile_imp⟩

theorem dropWhile_split : ∃ cut, text = cut ++ text.dropWhile p ∧ ∀ a ∈ cut, p a :=
  ⟨text.takeWhile p, takeWhile_append_dropWhile.symm, fun _ => mem_takeWhile_imp⟩

theorem dropWhile_stop :
    text.dropWhile p = [] ∨ ∃ a, (text.dropWhile p).head? = some a ∧ p a = false := by
  have stop := head?_dropWhile_not p text
  cases rest : text.dropWhile p with
  | nil => exact .inl rfl
  | cons a rest' =>
    rw [rest] at stop
    exact .inr ⟨a, rfl, by simpa using stop⟩

/-- A list is told apart from what follows it by its first element that stops the scan. -/
theorem takeWhile_append_of_stop (all : ∀ a ∈ before, p a)
    (stop : after = [] ∨ ∃ a, after.head? = some a ∧ p a = false) :
    (before ++ after).takeWhile p = before ∧ (before ++ after).dropWhile p = after := by
  rw [takeWhile_append_of_pos all, dropWhile_append_of_pos all]
  obtain rfl | ⟨a, head, stops⟩ := stop
  · simp
  · cases after <;> simp_all

theorem mem_intercalate {separator : List α} {parts : List (List α)} {a : α}
    (mem : a ∈ separator.intercalate parts) : a ∈ separator ∨ ∃ part ∈ parts, a ∈ part := by
  induction parts with
  | nil => simp at mem
  | cons part parts ih =>
    cases parts with
    | nil => exact .inr ⟨part, by simp, by simpa using mem⟩
    | cons next parts =>
      rw [intercalate_cons_cons, mem_append, mem_append] at mem
      obtain (mem | mem) | mem := mem
      · exact .inr ⟨part, by simp, mem⟩
      · exact .inl mem
      · obtain mem | ⟨part', inside, mem⟩ := ih mem
        · exact .inl mem
        · exact .inr ⟨part', mem_cons_of_mem _ inside, mem⟩

end Phase.Trimming
