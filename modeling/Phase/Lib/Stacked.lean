import Mathlib.Algebra.GroupWithZero.Nat
import Mathlib.Algebra.BigOperators.Group.List.Basic

/-! Items that wait on a stack, numbered by their creation: every item is taken at most
once, the newest one waiting first, and a service is idle only when nothing waits. -/
namespace Stacked
open List

variable {α : Type*}

/-- The numbers of the items that wait, oldest first. -/
def waiting (created : Nat) (taken : List Nat) : List Nat :=
  (range created).filter fun i => i ∉ taken

/-- How many items had been created when the service was given, and the item it took. -/
structure Service (α : Type*) where
  created : Nat
  item : Option α
  deriving DecidableEq

/-- `taken` numbers the items that the services took, in their order. -/
inductive NewestFirst (created : List α) : List (Service α) → List Nat → Prop where
  | nil : NewestFirst created [] []
  | took {services : List (Service α)} {taken : List Nat} {n i : Nat} {item : α} :
      NewestFirst created services taken → n ≤ created.length → created[i]? = some item →
      i ∈ waiting n taken → (∀ j ∈ waiting n taken, j ≤ i) →
      NewestFirst created (services ++ [⟨n, some item⟩]) (taken ++ [i])
  | idled {services : List (Service α)} {taken : List Nat} {n : Nat} :
      NewestFirst created services taken → n ≤ created.length → waiting n taken = [] →
      NewestFirst created (services ++ [⟨n, none⟩]) taken

variable {i created : Nat} {taken : List Nat}

theorem mem_waiting : i ∈ waiting created taken ↔ i < created ∧ i ∉ taken := by
  simp [waiting]

theorem waiting_create (new : created ∉ taken) :
    waiting (created + 1) taken = waiting created taken ++ [created] := by
  simp [waiting, range_succ, new]

theorem waiting_sorted (created : Nat) (taken : List Nat) :
    (waiting created taken).Pairwise (· < ·) :=
  Pairwise.filter _ pairwise_lt_range

theorem waiting_take {rest : List Nat} (newest : waiting created taken = rest ++ [i]) :
    waiting created (taken ++ [i]) = rest := by
  have apart : ∀ j ∈ rest, j < i := by
    have sorted := waiting_sorted created taken
    rw [newest, pairwise_append] at sorted
    exact fun j inside => sorted.2.2 j inside i (mem_singleton_self i)
  have narrowed : waiting created (taken ++ [i]) =
      (waiting created taken).filter fun j => j ≠ i := by
    simp only [waiting, filter_filter]
    congr 1
    funext j
    by_cases same : j = i <;> simp [same]
  have kept : rest.filter (fun j => j ≠ i) = rest :=
    filter_eq_self.mpr fun j inside => by simpa using Nat.ne_of_lt (apart j inside)
  rw [narrowed, newest, filter_append, kept]
  simp

theorem waiting_newest {rest : List Nat} (newest : waiting created taken = rest ++ [i]) :
    ∀ j ∈ waiting created taken, j ≤ i := by
  have sorted := waiting_sorted created taken
  rw [newest, pairwise_append] at sorted
  intro j inside
  rw [newest] at inside
  rcases mem_append.mp inside with older | last
  · exact Nat.le_of_lt (sorted.2.2 j older i (mem_singleton_self i))
  · exact Nat.le_of_eq (mem_singleton.mp last)

namespace NewestFirst

variable {created : List α} {services : List (Service α)} {taken : List Nat}

theorem create (h : NewestFirst created services taken) (item : α) :
    NewestFirst (created ++ [item]) services taken := by
  induction h with
  | nil => exact .nil
  | took _ bound found inside newest ih =>
    refine .took ih (by simp; omega) ?_ inside newest
    rw [List.getElem?_append_left (List.getElem?_eq_some_iff.mp found).1, found]
  | idled _ bound none ih => exact .idled ih (by simp; omega) none

theorem nodup (h : NewestFirst created services taken) : taken.Nodup := by
  induction h with
  | nil => exact nodup_nil
  | took _ _ _ inside _ ih =>
    exact nodup_append.mpr ⟨ih, by simp, fun j old k last same => (mem_waiting.mp inside).2
        (mem_singleton.mp last ▸ same ▸ old)⟩
  | idled _ _ _ ih => exact ih

end NewestFirst

/-- A stack and its past: `queue` holds the items that wait. -/
structure Serves (created queue : List α) (services : List (Service α)) (taken : List Nat) :
    Prop where
  newestFirst : NewestFirst created services taken
  known : ∀ i ∈ taken, i < created.length
  holds : queue.map some = (waiting created.length taken).map fun i => created[i]?

theorem serves_start : Serves ([] : List α) [] [] [] where
  newestFirst := .nil
  known := by simp
  holds := by simp [waiting]

namespace Serves

variable {created queue : List α} {services : List (Service α)} {taken : List Nat}

theorem create (h : Serves created queue services taken) (item : α) :
    Serves (created ++ [item]) (queue ++ [item]) services taken where
  newestFirst := h.newestFirst.create item
  known := fun i inside => Nat.lt_of_lt_of_le (h.known i inside) (by simp)
  holds := by
    have old : (waiting created.length taken).map (fun i => (created ++ [item])[i]?) =
        (waiting created.length taken).map fun i => created[i]? :=
      map_congr_left fun i inside =>
        getElem?_append_left (mem_waiting.mp inside).1
    have new : created.length ∉ taken := fun inside => Nat.lt_irrefl _ (h.known _ inside)
    simp [waiting_create new, h.holds, old]

theorem take {item : α} (h : Serves created (queue ++ [item]) services taken) :
    ∃ i, Serves created queue (services ++ [⟨created.length, some item⟩]) (taken ++ [i]) := by
  rcases eq_nil_or_concat (waiting created.length taken) with empty | ⟨rest, i, newest⟩
  · have := h.holds
    simp [empty] at this
  · rw [concat_eq_append] at newest
    have here : i ∈ waiting created.length taken := by simp [newest]
    have held := h.holds
    rw [newest, map_append, map_append] at held
    obtain ⟨below, last⟩ := append_inj' held rfl
    have found : created[i]? = some item := by simpa using last.symm
    exact ⟨i, {
      newestFirst := .took h.newestFirst (Nat.le_refl _) found here (waiting_newest newest)
      known := fun j inside => by
        rcases mem_append.mp inside with old | last
        · exact h.known j old
        · exact mem_singleton.mp last ▸ (mem_waiting.mp here).1
      holds := by rw [below, waiting_take newest] }⟩

theorem idle (h : Serves created [] services taken) :
    Serves created [] (services ++ [⟨created.length, none⟩]) taken where
  newestFirst := .idled h.newestFirst (Nat.le_refl _) (by simpa using h.holds.symm)
  known := h.known
  holds := h.holds

end Serves
end Stacked

/-! Work done in nested units: the log of who worked when, beside the stack of units still
open. Only the innermost open unit works, so that no two units ever alternate. -/
namespace Nesting

variable {α : Type*}

theorem sublist_concat {work log : List α} {b x : α} (h : (work ++ [b]).Sublist (log ++ [x])) :
    (work ++ [b]).Sublist log ∨ b = x ∧ work.Sublist log := by
  have back : (b :: work.reverse).Sublist (x :: log.reverse) := by
    have := h.reverse
    simpa only [List.reverse_append, List.reverse_cons, List.reverse_nil, List.nil_append,
      List.singleton_append] using this
  cases back with
  | cons _ before =>
    left
    have := before.reverse
    simpa only [List.reverse_cons, List.reverse_reverse] using this
  | cons_cons _ before =>
    right
    have := before.reverse
    simp only [List.reverse_reverse] at this
    exact ⟨rfl, this⟩

/-- `stack` lists the open units, innermost first. -/
structure Nested (log stack : List α) : Prop where
  distinct : stack.Nodup
  /-- A unit that encloses another did all its work so far before the other began. -/
  ordered : stack.Pairwise fun inner outer => ¬[inner, outer].Sublist log
  /-- Nothing that worked before an open unit has worked after it. -/
  uninterrupted : ∀ b ∈ stack, ∀ a ≠ b, ¬[a, b, a].Sublist log
  uncrossed : ∀ a b, a ≠ b → ¬[a, b, a, b].Sublist log

theorem nested_start (a : α) : Nested [a] [a] where
  distinct := by simp
  ordered := List.pairwise_singleton _ _
  uninterrupted := fun _ _ _ _ h => absurd h.length_le (by simp)
  uncrossed := fun _ _ _ h => absurd h.length_le (by simp)

theorem Nested.close {log done stack : List α} (h : Nested log (done ++ stack)) :
    Nested log stack where
  distinct := h.distinct.sublist (List.sublist_append_right ..)
  ordered := h.ordered.sublist (List.sublist_append_right ..)
  uninterrupted := fun b inside => h.uninterrupted b (List.mem_append_right _ inside)
  uncrossed := h.uncrossed

variable {a : α}

theorem Nested.enter {log stack : List α} (h : Nested log stack) (new : a ∉ log)
    (closed : a ∉ stack) : Nested log (a :: stack) where
  distinct := List.nodup_cons.mpr ⟨closed, h.distinct⟩
  ordered := by
    refine List.pairwise_cons.mpr ⟨fun b _ sub => new (sub.subset (by simp)), h.ordered⟩
  uninterrupted := by
    intro b inside c apart sub
    rcases List.mem_cons.mp inside with rfl | inside
    · exact new (sub.subset (by simp))
    · exact h.uninterrupted b inside c apart sub
  uncrossed := h.uncrossed

theorem Nested.work {log stack : List α} (h : Nested log (a :: stack)) :
    Nested (log ++ [a]) (a :: stack) where
  distinct := h.distinct
  ordered := by
    have outer := (List.nodup_cons.mp h.distinct).1
    obtain ⟨top, rest⟩ := List.pairwise_cons.mp h.ordered
    have still : ∀ {b c}, c ∈ stack → ¬[b, c].Sublist log → ¬[b, c].Sublist (log ++ [a]) := by
      intro b c inside before sub
      rcases @sublist_concat _ [b] log c a sub with old | ⟨rfl, -⟩
      · exact before old
      · exact outer inside
    refine List.pairwise_cons.mpr ⟨fun c inside => still inside (top c inside), ?_⟩
    exact rest.imp_of_mem fun _ inside before => still inside before
  uninterrupted := by
    intro b inside c apart sub
    rcases @sublist_concat _ [c, b] log c a sub with old | ⟨rfl, old⟩
    · exact h.uninterrupted b inside c apart old
    · rcases List.mem_cons.mp inside with rfl | inside
      · exact apart rfl
      · exact (List.pairwise_cons.mp h.ordered).1 b inside old
  uncrossed := by
    intro b c apart sub
    rcases @sublist_concat _ [b, c, b] log c a sub with old | ⟨rfl, old⟩
    · exact h.uncrossed b c apart old
    · exact h.uninterrupted c List.mem_cons_self b apart old

theorem sum_indicator [DecidableEq α] {workers : List α} (distinct : workers.Nodup)
    (mem : a ∈ workers) : (workers.map fun b => if b = a then 1 else 0).sum = 1 := by
  induction workers with
  | nil => cases mem
  | cons b workers ih =>
    obtain ⟨new, distinct⟩ := List.nodup_cons.mp distinct
    rw [List.map_cons, List.sum_cons]
    by_cases here : b = a
    · subst here
      have rest : (workers.map fun c => if c = b then 1 else 0).sum = 0 := by
        refine List.sum_eq_zero fun n inside => ?_
        obtain ⟨c, later, rfl⟩ := List.mem_map.mp inside
        exact if_neg fun same : c = b => new (same ▸ later)
      rw [if_pos rfl, rest]
    · have later : a ∈ workers := (List.mem_cons.mp mem).resolve_left (Ne.symm here)
      rw [if_neg here, ih distinct later]

/-- A log is as long as what its workers did, taken together. -/
theorem length_eq_sum {β : Type*} [DecidableEq α] {log : List (β × α)} {workers : List α}
    (distinct : workers.Nodup) (known : ∀ record ∈ log, record.2 ∈ workers) :
    log.length = (workers.map fun a => (log.filter (·.2 = a)).length).sum := by
  induction log with
  | nil => simp
  | cons record log ih =>
    have rest := ih fun other inside => known other (List.mem_cons_of_mem record inside)
    have split : ∀ a, ((record :: log).filter (·.2 = a)).length =
        (log.filter (·.2 = a)).length + if a = record.2 then 1 else 0 := by
      intro a
      by_cases here : record.2 = a
      · simp [here]
      · simp [here, Ne.symm here]
    simp only [split]
    rw [List.sum_map_add, ← rest, sum_indicator distinct (known record List.mem_cons_self),
      List.length_cons]

end Nesting
