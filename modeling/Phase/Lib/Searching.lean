import Mathlib.Data.List.Range

/-! What a search over the first numbers stops at, counting up or down. -/
namespace Searching
open List

variable {α : Type*} {n : Nat} {f : Nat → Option α} {found : α}

theorem findSome?_range_eq_none : (range n).findSome? f = none ↔ ∀ i < n, f i = none := by
  simp only [findSome?_eq_none_iff, mem_range]

theorem findSome?_range_eq_some :
    (range n).findSome? f = some found ↔ ∃ i < n, f i = some found ∧ ∀ j < i, f j = none := by
  induction n with
  | zero => simp
  | succ n ih =>
    rw [range_succ, findSome?_append, Option.or_eq_some_iff, ih,
      findSome?_range_eq_none, findSome?_singleton]
    constructor
    · rintro (⟨i, bound, here, before⟩ | ⟨before, here⟩)
      · exact ⟨i, by omega, here, before⟩
      · exact ⟨n, by omega, here, before⟩
    · rintro ⟨i, bound, here, before⟩
      rcases Nat.lt_succ_iff_lt_or_eq.mp bound with earlier | rfl
      · exact .inl ⟨i, earlier, here, before⟩
      · exact .inr ⟨before, here⟩

theorem findSome?_range_reverse_eq_some :
    (range n).reverse.findSome? f = some found ↔
      ∃ i < n, f i = some found ∧ ∀ j, i < j → j < n → f j = none := by
  induction n with
  | zero => simp
  | succ n ih =>
    rw [range_succ, reverse_append, reverse_singleton, findSome?_append,
      Option.or_eq_some_iff, findSome?_singleton, ih]
    constructor
    · rintro (here | ⟨last, i, bound, here, after⟩)
      · exact ⟨n, by omega, here, fun j above below => by omega⟩
      · refine ⟨i, by omega, here, fun j above below => ?_⟩
        rcases Nat.lt_succ_iff_lt_or_eq.mp below with below | rfl
        · exact after j above below
        · exact last
    · rintro ⟨i, bound, here, after⟩
      rcases Nat.lt_succ_iff_lt_or_eq.mp bound with earlier | rfl
      · exact .inr ⟨after n earlier (by omega), i, earlier, here,
          fun j above below => after j above (by omega)⟩
      · exact .inl here

end Searching

/-! Depth-first search for an accepted assignment. The entries that cannot stand together may be
left out of it when no accepted assignment has them. -/
namespace Backtracking

variable {ι α : Type*} (candidates : ι → List α) (admits : List (ι × α) → ι → α → Bool)
  (accepts : List (ι × α) → Bool)

/-- Assigns the open places one after the other, and stops at the first assignment accepted. -/
def extend : List ι → List (ι × α) → Option (List (ι × α))
  | [], assigned => if accepts assigned then some assigned else none
  | i :: rest, assigned =>
    (candidates i).findSome? fun a =>
      if admits assigned i a then extend rest (assigned ++ [(i, a)]) else none

/-- One candidate for each open place. -/
def Filling (candidates : ι → List α) : List ι → List (ι × α) → Prop :=
  List.Forall₂ fun i entry => entry.1 = i ∧ entry.2 ∈ candidates i

variable {candidates admits accepts} {places : List ι} {assigned result more : List (ι × α)}

theorem extend_some (found : extend candidates admits accepts places assigned = some result) :
    ∃ more, Filling candidates places more ∧ result = assigned ++ more ∧ accepts result := by
  induction places generalizing assigned with
  | nil =>
    rw [extend, Option.ite_none_right_eq_some] at found
    obtain ⟨accepted, isResult⟩ := found
    cases isResult
    exact ⟨[], .nil, (List.append_nil _).symm, accepted⟩
  | cons i rest ih =>
    obtain ⟨a, isCandidate, found⟩ := List.exists_of_findSome?_eq_some found
    rw [Option.ite_none_right_eq_some] at found
    obtain ⟨more, filling, isResult, accepted⟩ := ih found.2
    refine ⟨(i, a) :: more, .cons ⟨rfl, isCandidate⟩ filling, ?_, accepted⟩
    rw [isResult, List.append_assoc]
    rfl

/-- A search that fails has passed over no accepted assignment. -/
theorem extend_none (valid : List (ι × α) → Prop)
    (prunes : ∀ before i a after, valid (before ++ (i, a) :: after) →
      accepts (before ++ (i, a) :: after) → admits before i a)
    (failed : extend candidates admits accepts places assigned = none)
    (filling : Filling candidates places more) (isValid : valid (assigned ++ more)) :
    accepts (assigned ++ more) = false := by
  induction filling generalizing assigned with
  | nil =>
    rw [extend] at failed
    rw [List.append_nil]
    split at failed
    · cases failed
    · next refused => exact Bool.not_eq_true _ ▸ refused
  | @cons _ entry rest more first filling ih =>
    obtain ⟨i, a⟩ := entry
    obtain ⟨rfl, isCandidate⟩ := first
    rw [extend, List.findSome?_eq_none_iff] at failed
    have refused := failed a isCandidate
    by_contra accepted
    rw [Bool.not_eq_false] at accepted
    rw [if_pos (prunes _ _ _ _ isValid accepted)] at refused
    have shifted : assigned ++ (i, a) :: more = (assigned ++ [(i, a)]) ++ more := by
      rw [List.append_assoc]
      rfl
    rw [shifted] at isValid accepted
    rw [ih refused isValid] at accepted
    cases accepted

end Backtracking
