import Mathlib.Algebra.BigOperators.Group.Finset.Sigma
import Mathlib.Data.Multiset.OrderedMonoid
import Mathlib.Tactic.Abel

/-! Lists read and written by index: one value per slot, and what an update does
to a sum over the slots. -/
namespace Indexed
open List

variable {α : Type*}

theorem getD_set (xs : List α) (i j : Nat) (a d : α) :
    (xs.set i a).getD j d = if i = j ∧ i < xs.length then a else xs.getD j d := by
  by_cases same : i = j
  · subst same
    by_cases bound : i < xs.length
    · simp [bound]
    · simp [bound]
  · simp [same]

section
variable {α : Type*} (before after : List α) (x : α)

@[simp] theorem getElem?_middle : (before ++ x :: after)[before.length]? = some x := by simp

@[simp] theorem set_middle (y : α) :
    (before ++ x :: after).set before.length y = before ++ y :: after := by simp

@[simp] theorem modify_middle (f : α → α) :
    (before ++ x :: after).modify before.length f = before ++ f x :: after := by
  induction before with
  | nil => rfl
  | cons b before ih => simp [ih]

@[simp] theorem eraseIdx_middle : (before ++ x :: after).eraseIdx before.length = before ++ after := by
  induction before with
  | nil => rfl
  | cons b before ih => simp [ih]

/-- A search that succeeds splits the list where it stops. -/
theorem findIdx?_split {p : α → Bool} {xs : List α} (some_ : ∃ x ∈ xs, p x) :
    ∃ before x after, xs = before ++ x :: after ∧ p x ∧ xs.findIdx? p = some before.length := by
  induction xs with
  | nil => simp at some_
  | cons y ys ih =>
    by_cases here : p y
    · exact ⟨[], y, ys, rfl, here, by simp [findIdx?_cons, here]⟩
    · obtain ⟨x, mem, passes⟩ := some_
      rcases mem_cons.mp mem with rfl | later
      · exact absurd passes here
      · obtain ⟨before, x, after, split, passes, found⟩ := ih ⟨x, later, passes⟩
        exact ⟨y :: before, x, after, by rw [split]; rfl, passes,
          by simp [findIdx?_cons, here, found]⟩

end

theorem getElem?_filterMap {β : Type*} {f : α → Option β} {xs : List α}
    (each : ∀ x ∈ xs, (f x).isSome) (i : Nat) : (xs.filterMap f)[i]? = xs[i]?.bind f := by
  induction xs generalizing i with
  | nil => rfl
  | cons x xs ih =>
    obtain ⟨y, isY⟩ := Option.isSome_iff_exists.mp (each x mem_cons_self)
    rw [filterMap_cons_some isY]
    cases i with
    | zero => simp [isY]
    | succ i => simpa using ih (fun z mem => each z (mem_cons_of_mem x mem)) i

section
variable {α : Type*} (f : Nat → Nat) (v : Nat → α)

theorem length_foldl_set (is : List Nat) (acc : List α) :
    (is.foldl (fun acc i => acc.set (f i) (v i)) acc).length = acc.length := by
  induction is generalizing acc with
  | nil => rfl
  | cons i is ih => rw [foldl_cons, ih, length_set]

theorem getElem?_foldl_set_of_notMem {is : List Nat} {k : Nat} (h : ∀ i ∈ is, f i ≠ k)
    (acc : List α) : (is.foldl (fun acc i => acc.set (f i) (v i)) acc)[k]? = acc[k]? := by
  induction is generalizing acc with
  | nil => rfl
  | cons i is ih =>
    rw [foldl_cons, ih fun j hj => h j (mem_cons_of_mem i hj), getElem?_set_ne (h i mem_cons_self)]

/-- Writing each value at its own slot, in any order, leaves it there. -/
theorem getElem?_foldl_set {is : List Nat} (inj : ∀ i ∈ is, ∀ j ∈ is, f i = f j → i = j)
    {i : Nat} (mem : i ∈ is) {acc : List α} (bound : f i < acc.length) :
    (is.foldl (fun acc i => acc.set (f i) (v i)) acc)[f i]? = some (v i) := by
  induction is generalizing acc with
  | nil => simp at mem
  | cons j is ih =>
    rw [foldl_cons]
    by_cases later : i ∈ is
    · exact ih (fun a ha b hb => inj a (mem_cons_of_mem j ha) b (mem_cons_of_mem j hb))
        later (by simpa using bound)
    · have here : i = j := by simpa [later] using mem
      subst here
      rw [getElem?_foldl_set_of_notMem f v (fun k hk same => later
        (inj k (mem_cons_of_mem i hk) i mem_cons_self same ▸ hk))]
      simp [bound]

end

section
variable {α M : Type*} [AddCommMonoid M]

/-- Replacing one slot trades its old share of the sum for the new one. -/
theorem sum_map_set (f : α → M) {xs : List α} {i : Nat} (bound : i < xs.length) (a : α) :
    ((xs.set i a).map f).sum + f xs[i] = (xs.map f).sum + f a := by
  induction xs generalizing i with
  | nil => simp at bound
  | cons x xs ih =>
    cases i with
    | zero =>
      simp only [set_cons_zero, map_cons, sum_cons, getElem_cons_zero]
      abel
    | succ i =>
      have bound' : i < xs.length := by simpa using bound
      have rest := ih bound'
      simp only [set_cons_succ, map_cons, sum_cons, getElem_cons_succ]
      rw [add_assoc, rest, add_assoc]

theorem sum_map_rotate (f : α → M) (xs : List α) (n : Nat) :
    ((xs.rotate n).map f).sum = (xs.map f).sum :=
  ((xs.rotate_perm n).map f).sum_eq

theorem sum_map_modify (f : α → M) (g : α → α) {xs : List α} {i : Nat} (bound : i < xs.length) :
    ((xs.modify i g).map f).sum + f xs[i] = (xs.map f).sum + f (g xs[i]) := by
  have same : xs.modify i g = xs.set i (g xs[i]) := by
    refine ext_getElem (by simp) fun j _ _ => ?_
    rw [getElem_modify, getElem_set]
    split
    · next here => subst here; rfl
    · rfl
  rw [same]
  exact sum_map_set f bound (g xs[i])

theorem map_range_getD {β : Type*} (g : α → β) (xs : List α) (d : α) :
    (range xs.length).map (fun i => g (xs.getD i d)) = xs.map g := by
  refine ext_getElem (by simp) fun i h _ => ?_
  have bound : i < xs.length := by simpa using h
  simp [bound]

/-- Summing a table by rows or by columns. -/
theorem sum_range_comm (f : Nat → Nat → M) (a b : Nat) :
    ((range a).map fun i => ((range b).map fun j => f i j).sum).sum =
      ((range b).map fun j => ((range a).map fun i => f i j).sum).sum :=
  Finset.sum_comm (s := Finset.range a) (t := Finset.range b)

theorem sum_map_flatMap {β γ : Type*} (f : γ → M) (g : β → List γ) (xs : List β) :
    ((xs.flatMap g).map f).sum = (xs.map fun x => ((g x).map f).sum).sum := by
  induction xs with
  | nil => rfl
  | cons x xs ih => rw [flatMap_cons, map_append, sum_append, ih, map_cons, sum_cons]

end

theorem count_set [BEq α] [LawfulBEq α] [DecidableEq α] {xs : List α} {i : Nat}
    (bound : i < xs.length) (a b : α) : (xs.set i a).count b + (if xs[i] = b then 1 else 0) =
      xs.count b + if a = b then 1 else 0 := by
  induction xs generalizing i with
  | nil => simp at bound
  | cons x xs ih =>
    cases i with
    | zero =>
      simp only [set_cons_zero, count_cons, getElem_cons_zero, beq_iff_eq]
      omega
    | succ i =>
      have bound' : i < xs.length := by simpa using bound
      have rest := ih bound'
      simp only [set_cons_succ, count_cons, getElem_cons_succ]
      omega

theorem sum_map_ofList (xss : List (List α)) : (xss.map Multiset.ofList).sum = ↑xss.flatten := by
  induction xss with
  | nil => rfl
  | cons xs xss ih => rw [map_cons, sum_cons, ih, flatten_cons, Multiset.coe_add]

/-- What lies in one of the bags lies in their sum. -/
theorem mem_sum_map {β : Type*} {f : α → Multiset β} {xs : List α} {b : β} :
    b ∈ (xs.map f).sum ↔ ∃ x ∈ xs, b ∈ f x := by
  induction xs with
  | nil => simp
  | cons x xs ih => simp [ih]

end Indexed
