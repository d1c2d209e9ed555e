import Mathlib.Data.List.Nodup
import Mathlib.Logic.Relation

/-! A stack of pending items worked off until it is empty, each key at most once, and what such a
traversal has reached when it follows the edges of a relation. -/
namespace Worklist
open Relation List

/-- How an item is worked off: the state after it, and the items it adds, the last of which comes
next. The weight of the state pays for the items. -/
structure Traversal (σ ι κ : Type*) where
  key : ι → κ
  visit : σ → ι → σ × List ι
  weight : σ → Nat
  pays : ∀ s i, weight (visit s i).1 + (visit s i).2.length ≤ weight s

section
variable {σ ι κ : Type*} [DecidableEq κ]

/-- The last of the added items comes first. -/
def push (added rest : List ι) : List ι := added.reverse ++ rest

theorem length_push (added rest : List ι) :
    (push added rest).length = added.length + rest.length := by
  rw [push, length_append, length_reverse]

theorem mem_push {added rest : List ι} {i : ι} : i ∈ push added rest ↔ i ∈ added ∨ i ∈ rest := by
  rw [push, mem_append, mem_reverse]

def run (t : Traversal σ ι κ) (s : σ) (seen : List κ) : List ι → σ
  | [] => s
  | i :: rest =>
    if t.key i ∈ seen then run t s seen rest
    else run t (t.visit s i).1 (t.key i :: seen) (push (t.visit s i).2 rest)
termination_by queue => t.weight s + queue.length
decreasing_by
  · simp only [length_cons]
    omega
  · have paid := t.pays s i
    simp only [length_push, length_cons]
    omega

variable {t : Traversal σ ι κ}

/-- What every skipped and every worked off item preserves holds at the end. -/
theorem run_invariant {P : σ → List κ → List ι → Prop}
    (skip : ∀ {s seen i rest}, t.key i ∈ seen → P s seen (i :: rest) → P s seen rest)
    (visit : ∀ {s seen i rest}, t.key i ∉ seen → P s seen (i :: rest) →
      P (t.visit s i).1 (t.key i :: seen) (push (t.visit s i).2 rest))
    {s : σ} {seen : List κ} {queue : List ι} (start : P s seen queue) :
    ∃ seen', P (run t s seen queue) seen' [] := by
  induction s, seen, queue using run.induct t with
  | case1 s seen =>
    rw [run]
    exact ⟨seen, start⟩
  | case2 s seen i rest known ih =>
    rw [run, if_pos known]
    exact ih (skip known start)
  | case3 s seen i rest new ih =>
    rw [run, if_neg new]
    exact ih (visit new start)

end

section
variable {κ : Type*}

/-- The edges that lead to an open key. -/
def Edge (link : κ → κ → Prop) (opens : κ → Prop) (x y : κ) : Prop := link x y ∧ opens y

/-- The open keys reached so far, on the way to all that the links lead to from the root. -/
structure Follows (link : κ → κ → Prop) (opens : κ → Prop) (root : κ) (reached seen : List κ)
    (pending : κ → Prop) : Prop where
  rooted : root ∈ reached
  sound : ∀ x ∈ reached, ReflTransGen (Edge link opens) root x
  once : reached.Nodup
  known : ∀ x ∈ reached, x ∈ seen
  settled : ∀ y ∈ seen, opens y → y ∈ reached
  closed : ∀ x ∈ reached, ∀ y, link x y → y ∈ seen ∨ pending y

namespace Follows
variable {link : κ → κ → Prop} {opens : κ → Prop} {root : κ} {reached seen : List κ}
  {pending pending' : κ → Prop}

theorem start (covers : ∀ y, link root y → pending y) :
    Follows link opens root [root] [root] pending where
  rooted := mem_cons_self
  sound := by simp [ReflTransGen.refl]
  once := nodup_singleton root
  known := fun _ mem => mem
  settled := fun _ mem _ => mem
  closed := by
    intro x mem y linked
    obtain rfl := mem_singleton.mp mem
    exact .inr (covers y linked)

section
variable (h : Follows link opens root reached seen pending)
include h

theorem skip {k : κ} (old : k ∈ seen) (rest : ∀ y, pending y → y = k ∨ pending' y) :
    Follows link opens root reached seen pending' :=
  { h with
    closed := by
      intro x mem y linked
      rcases h.closed x mem y linked with done | waits
      · exact .inl done
      · exact (rest y waits).imp (by rintro rfl; exact old) id }

/-- A key that is not open is passed over. -/
theorem pass {k : κ} (shut : ¬opens k) (rest : ∀ y, pending y → y = k ∨ pending' y) :
    Follows link opens root reached (k :: seen) pending' :=
  { h with
    known := fun x mem => mem_cons_of_mem k (h.known x mem)
    settled := by
      intro y mem isOpen
      rcases mem_cons.mp mem with rfl | old
      · exact absurd isOpen shut
      · exact h.settled y old isOpen
    closed := by
      intro x mem y linked
      rcases h.closed x mem y linked with done | waits
      · exact .inl (mem_cons_of_mem k done)
      · exact (rest y waits).imp (by rintro rfl; exact mem_cons_self) id }

theorem take {k : κ} (new : k ∉ seen) (isOpen : opens k) (parent : ∃ x ∈ reached, link x k)
    (rest : ∀ y, pending y → y = k ∨ pending' y)
    (covers : ∀ y, link k y → y ∈ k :: seen ∨ pending' y) :
    Follows link opens root (reached ++ [k]) (k :: seen) pending' where
  rooted := mem_append_left _ h.rooted
  sound := by
    obtain ⟨x, mem, linked⟩ := parent
    intro y inside
    rcases mem_append.mp inside with old | last
    · exact h.sound y old
    · obtain rfl := mem_singleton.mp last
      exact (h.sound x mem).tail ⟨linked, isOpen⟩
  once := by
    refine nodup_append.mpr ⟨h.once, nodup_singleton k, ?_⟩
    intro x mem y last same
    obtain rfl := mem_singleton.mp last
    exact new (same ▸ h.known x mem)
  known := by
    intro x inside
    rcases mem_append.mp inside with old | last
    · exact mem_cons_of_mem k (h.known x old)
    · exact mem_singleton.mp last ▸ mem_cons_self
  settled := by
    intro y mem openY
    rcases mem_cons.mp mem with rfl | old
    · exact mem_append_right _ (mem_singleton_self y)
    · exact mem_append_left _ (h.settled y old openY)
  closed := by
    intro x mem y linked
    rcases mem_append.mp mem with old | last
    · rcases h.closed x old y linked with done | waits
      · exact .inl (mem_cons_of_mem k done)
      · exact (rest y waits).imp (by rintro rfl; exact mem_cons_self) id
    · obtain rfl := mem_singleton.mp last
      exact covers y linked

/-- With nothing pending, what is reached is all that the edges lead to. -/
theorem finish (done : ∀ y, ¬pending y) {x : κ} :
    x ∈ reached ↔ ReflTransGen (Edge link opens) root x := by
  refine ⟨h.sound x, fun path => ?_⟩
  induction path with
  | refl => exact h.rooted
  | tail _ step ih =>
    exact h.settled _ ((h.closed _ ih _ step.1).resolve_right (done _)) step.2

end

end Follows

end
end Worklist
