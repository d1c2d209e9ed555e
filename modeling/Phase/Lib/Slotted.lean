import Mathlib.Data.List.MinMax
import Mathlib.Data.List.Perm.Basic
import Mathlib.Data.List.Sort

/-! Values filed under strictly increasing slots, and the positional edits of the plain list
of values that changes to the slots amount to. -/
namespace Slotted
open List

variable {α β : Type}

def Ordered (xs : List (Nat × α)) : Prop := xs.Pairwise fun a b => a.1 < b.1

variable {xs : List (Nat × α)}

theorem Ordered.nodup (h : Ordered xs) : xs.Nodup :=
  Pairwise.imp (fun {a b} less same => by rw [same] at less; exact lt_irrefl _ less) h

/-- The filing is determined by what is filed where. -/
theorem Ordered.ext {ys : List (Nat × α)} (hx : Ordered xs) (hy : Ordered ys)
    (same : ∀ x, x ∈ xs ↔ x ∈ ys) : xs = ys :=
  Perm.eq_of_pairwise (fun a _ _ _ ab ba => absurd (ab.trans ba) (lt_irrefl a.1)) hx hy
    ((perm_ext_iff_of_nodup hx.nodup hy.nodup).mpr same)

variable {i : Nat}

section
variable (h : Ordered xs) {j : Nat} {a b : Nat × α} (ha : xs[i]? = some a) (hb : xs[j]? = some b)
include h ha hb

theorem Ordered.lt_of_lt (less : i < j) : a.1 < b.1 := by
  obtain ⟨boundA, rfl⟩ := List.getElem?_eq_some_iff.mp ha
  obtain ⟨boundB, rfl⟩ := List.getElem?_eq_some_iff.mp hb
  exact pairwise_iff_getElem.mp h i j boundA boundB less

theorem Ordered.index_unique (same : a.1 = b.1) : i = j := by
  rcases Nat.lt_trichotomy i j with less | equal | greater
  · have := h.lt_of_lt ha hb less
    omega
  · exact equal
  · have := h.lt_of_lt hb ha greater
    omega

end

theorem Ordered.filter (h : Ordered xs) (p : Nat × α → Bool) : Ordered (xs.filter p) :=
  Pairwise.filter p h

theorem Ordered.map (h : Ordered xs) (f : α → β) : Ordered (xs.map fun x => (x.1, f x.2)) :=
  pairwise_map.mpr h

variable {s : Nat}

theorem Ordered.concat (h : Ordered xs) (a : α) (above : ∀ x ∈ xs, x.1 < s) :
    Ordered (xs ++ [(s, a)]) := by
  refine pairwise_append.mpr ⟨h, pairwise_singleton .., ?_⟩
  intro x hx y hy
  rw [mem_singleton.mp hy]
  exact above x hx

variable {p : Nat × α → Bool}

/-- A scan stops at the least slot that passes. -/
theorem Ordered.find?_eq_some (h : Ordered xs) {x : Nat × α} (mem : x ∈ xs) (passes : p x)
    (least : ∀ y ∈ xs, p y → x.1 ≤ y.1) : xs.find? p = some x := by
  obtain ⟨before, after, rfl⟩ := append_of_mem mem
  refine find?_eq_some_iff_append.mpr ⟨passes, before, after, rfl, ?_⟩
  intro y hy
  have less : y.1 < x.1 := (pairwise_append.mp h).2.2 y hy x mem_cons_self
  by_contra passesToo
  have := least y (mem_append_left _ hy) (by simpa using passesToo)
  omega

/-- The least of some candidates is where a scan stops, when each candidate is a passing value
and each passing value has a candidate below it. -/
theorem Ordered.argmin_eq_find? (h : Ordered xs) {g : α → β} {candidates : List (Nat × β)}
    (drawn : ∀ c ∈ candidates, ∃ x ∈ xs, p x ∧ c = (x.1, g x.2))
    (covers : ∀ x ∈ xs, p x → ∃ c ∈ candidates, c.1 ≤ x.1) :
    candidates.argmin Prod.fst = (xs.find? p).map fun x => (x.1, g x.2) := by
  cases found : candidates.argmin Prod.fst with
  | none =>
    have none_ : xs.find? p = none := by
      refine find?_eq_none.mpr fun x mem passes => ?_
      obtain ⟨c, memC, -⟩ := covers x mem passes
      rw [argmin_eq_none.mp found] at memC
      cases memC
    rw [none_]
    rfl
  | some c =>
    obtain ⟨x, mem, passes, rfl⟩ := drawn c (argmin_mem found)
    have stops : xs.find? p = some x := h.find?_eq_some mem passes fun y memY passesY => by
      obtain ⟨c, memC, below⟩ := covers y memY passesY
      exact (le_of_mem_argmin memC found).trans below
    rw [stops]
    rfl

theorem Ordered.eraseIdx (h : Ordered xs) (i : Nat) : Ordered (xs.eraseIdx i) :=
  Pairwise.sublist (eraseIdx_sublist xs i) h

variable {a : α}

theorem Ordered.mem_eraseIdx (h : Ordered xs) (at_ : xs[i]? = some (s, a)) (x : Nat × α) :
    x ∈ xs.eraseIdx i ↔ x ∈ xs ∧ x.1 ≠ s := by
  rw [mem_eraseIdx_iff_getElem?]
  constructor
  · rintro ⟨j, other, found⟩
    exact ⟨mem_of_getElem? found, fun same => other (h.index_unique found at_ same)⟩
  · rintro ⟨mem, other⟩
    obtain ⟨j, found⟩ := mem_iff_getElem?.mp mem
    refine ⟨j, ?_, found⟩
    rintro rfl
    rw [at_] at found
    cases found
    exact other rfl

theorem set_slots (at_ : xs[i]? = some (s, a)) (b : α) :
    (xs.set i (s, b)).map Prod.fst = xs.map Prod.fst := by
  refine ext_getElem? fun j => ?_
  rw [map_set, getElem?_set]
  split
  · next here =>
    obtain ⟨bound, found⟩ := List.getElem?_eq_some_iff.mp at_
    simp [← here, bound, found]
  · rfl

theorem ordered_iff_slots : Ordered xs ↔ (xs.map Prod.fst).Pairwise (· < ·) :=
  pairwise_map.symm

theorem Ordered.set (h : Ordered xs) (at_ : xs[i]? = some (s, a)) (b : α) :
    Ordered (xs.set i (s, b)) := by
  rw [ordered_iff_slots, set_slots at_ b]
  exact ordered_iff_slots.mp h

theorem Ordered.mem_set (h : Ordered xs) (at_ : xs[i]? = some (s, a)) (b : α) (x : Nat × α) :
    x ∈ xs.set i (s, b) ↔ x = (s, b) ∨ (x ∈ xs ∧ x.1 ≠ s) := by
  obtain ⟨bound, -⟩ := List.getElem?_eq_some_iff.mp at_
  constructor
  · intro mem
    obtain ⟨j, found⟩ := mem_iff_getElem?.mp mem
    rw [getElem?_set] at found
    by_cases here : i = j
    · left
      rw [← here, if_pos rfl, if_pos bound] at found
      exact (Option.some.inj found).symm
    · right
      rw [if_neg here] at found
      exact ⟨mem_of_getElem? found, fun same => here (h.index_unique at_ found same.symm)⟩
  · rintro (rfl | ⟨mem, other⟩)
    · exact mem_of_getElem? (i := i) (by simp [bound])
    · obtain ⟨j, found⟩ := mem_iff_getElem?.mp mem
      refine mem_of_getElem? (i := j) ?_
      rw [getElem?_set_ne, found]
      rintro rfl
      rw [at_] at found
      cases found
      exact other rfl

/-- `Vec::swap_remove`: the last value takes the removed one's place. -/
def swapRemove (xs : List α) (i : Nat) : Option (α × List α) := do
  let x ← xs[i]?
  let last ← xs.getLast?
  return (x, (xs.set i last).dropLast)

/-- The value taken out and what stays are the values there were. -/
theorem swapRemove_perm {xs left : List α} {x : α} (taken : swapRemove xs i = some (x, left)) :
    (x :: left).Perm xs := by
  obtain ⟨y, at_, taken⟩ := Option.bind_eq_some_iff.mp taken
  obtain ⟨last, isLast, taken⟩ := Option.bind_eq_some_iff.mp taken
  cases taken
  obtain ⟨before, rfl⟩ := getLast?_eq_some_iff.mp isLast
  have bound : i < (before ++ [last]).length := (List.getElem?_eq_some_iff.mp at_).1
  rw [length_append, length_singleton] at bound
  rcases Nat.lt_succ_iff_lt_or_eq.mp bound with inside | rfl
  · rw [getElem?_append_left inside] at at_
    obtain ⟨_, rfl⟩ := List.getElem?_eq_some_iff.mp at_
    rw [set_append_left _ _ inside, dropLast_concat]
    calc (before[i] :: before.set i last).Perm (before[i] :: last :: before.eraseIdx i) :=
          (set_perm_cons_eraseIdx inside last).cons _
      Perm _ (last :: before[i] :: before.eraseIdx i) := .swap _ _ _
      Perm _ (last :: before) := (getElem_cons_eraseIdx_perm inside).cons _
      Perm _ (before ++ [last]) := (perm_append_singleton last before).symm
  · rw [getElem?_append_right (Nat.le_refl _), Nat.sub_self] at at_
    cases at_
    rw [set_append_right _ _ (Nat.le_refl _), Nat.sub_self]
    change (x :: (before ++ [x]).dropLast).Perm (before ++ [x])
    rw [dropLast_concat]
    exact (perm_append_singleton x before).symm

section
variable {xs : List (Nat × α)} {i s l : Nat} {a z : α}

theorem getElem?_set_last (at_ : xs[i]? = some (s, a)) (last : xs.getLast? = some (l, z)) :
    (xs.set i (s, z))[(xs.set i (s, z)).length - 1]? = some (l, z) := by
  obtain ⟨bound, -⟩ := List.getElem?_eq_some_iff.mp at_
  rw [getLast?_eq_getElem?] at last
  rw [length_set, getElem?_set]
  split
  · next here =>
    rw [← here, at_] at last
    cases last
    simp
  · exact last

theorem Ordered.swapRemove (h : Ordered xs) (at_ : xs[i]? = some (s, a)) (z : α) :
    Ordered (xs.set i (s, z)).dropLast :=
  Pairwise.sublist (dropLast_sublist _) (h.set at_ z)

theorem Ordered.mem_swapRemove (h : Ordered xs) (at_ : xs[i]? = some (s, a))
    (last : xs.getLast? = some (l, z)) (x : Nat × α) :
    x ∈ (xs.set i (s, z)).dropLast ↔ (x = (s, z) ∨ (x ∈ xs ∧ x.1 ≠ s)) ∧ x.1 ≠ l := by
  rw [← eraseIdx_length_sub_one, (h.set at_ z).mem_eraseIdx (getElem?_set_last at_ last),
    h.mem_set at_ z]

end

theorem Ordered.le_last (h : Ordered xs) {last : Nat × α} (isLast : xs.getLast? = some last)
    {x : Nat × α} (mem : x ∈ xs) : x.1 ≤ last.1 := by
  obtain ⟨j, found⟩ := mem_iff_getElem?.mp mem
  obtain ⟨bound, -⟩ := List.getElem?_eq_some_iff.mp found
  rw [getLast?_eq_getElem?] at isLast
  by_cases end_ : j = xs.length - 1
  · rw [← end_, found] at isLast
    cases isLast
    exact le_rfl
  · exact (h.lt_of_lt found isLast (by omega)).le

/-- `retain` with a counter: the first `n` values that pass are dropped. -/
def retainAfter (p : α → Bool) : Nat → List α → List α
  | _, [] => []
  | n, x :: xs => if n = 0 || !p x then x :: retainAfter p n xs else retainAfter p (n - 1) xs

theorem retainAfter_zero (p : α → Bool) (xs : List α) : retainAfter p 0 xs = xs := by
  induction xs with
  | nil => rfl
  | cons x xs ih => simp [retainAfter, ih]

/-- Dropping the least `n` slots that pass. -/
theorem Ordered.filter_take (h : Ordered xs) (p : α → Bool) (n : Nat) :
    (xs.filter fun x => x.1 ∉ ((xs.filter fun x => p x.2).map Prod.fst).take n).map Prod.snd =
      retainAfter p n (xs.map Prod.snd) := by
  induction xs generalizing n with
  | nil => rfl
  | cons x xs ih =>
    obtain ⟨first, rest⟩ := pairwise_cons.mp h
    have later (y) (mem : y ∈ xs) : y.1 ≠ x.1 := (first y mem).ne'
    cases n with
    | zero => simp [retainAfter_zero]
    | succ n =>
      by_cases passes : p x.2
      · have kept : (xs.filter fun y => y.1 ∉ x.1 :: ((xs.filter fun x => p x.2).map
            Prod.fst).take n) = xs.filter fun y => y.1 ∉ ((xs.filter fun x => p x.2).map
            Prod.fst).take n := by
          refine filter_congr fun y mem => ?_
          simp [later y mem]
        have here : (x :: xs).filter (fun y => p y.2) = x :: xs.filter fun y => p y.2 :=
          filter_cons_of_pos passes
        rw [here, map_cons, take_succ_cons, filter_cons_of_neg (by simp), kept, ih rest n]
        simp [retainAfter, passes]
      · have free : x.1 ∉ ((xs.filter fun x => p x.2).map Prod.fst).take (n + 1) := by
          intro mem
          obtain ⟨y, memY, same⟩ := mem_map.mp (mem_of_mem_take mem)
          exact later y (mem_of_mem_filter memY) same
        have here : (x :: xs).filter (fun y => p y.2) = xs.filter fun y => p y.2 :=
          filter_cons_of_neg passes
        rw [here, filter_cons_of_pos (by simpa using free), map_cons, ih rest (n + 1)]
        simp [retainAfter, passes]

end Slotted
