import Mathlib.Data.Finset.Card
import Mathlib.Data.List.GetD

/-! Union-find over a list of parents, without ranks: the classes only grow, and following the
parents always ends at the root of the class. -/
namespace UnionFind
open List Finset

variable {parent : List Nat}

def up (parent : List Nat) (x : Nat) : Nat := parent.getD x x

def follow (parent : List Nat) : Nat → Nat → Nat
  | 0, x => x
  | fuel + 1, x => if up parent x = x then x else follow parent fuel (up parent x)

/-- The element at which the parents end. -/
def root (parent : List Nat) (x : Nat) : Nat := follow parent parent.length x

/-- The root of `x`, which becomes its parent. -/
def find (parent : List Nat) (x : Nat) : Nat × List Nat :=
  (root parent x, parent.set x (root parent x))

def union (parent : List Nat) (a b : Nat) : List Nat :=
  let (ra, parent) := find parent a
  let (rb, parent) := find parent b
  if ra = rb then parent else parent.set ra rb

/-- The parents form a forest: some rank grows along them. `rootOf` tells the roots. -/
structure Forest (n : Nat) (parent : List Nat) (rank rootOf : Nat → Nat) : Prop where
  length : parent.length = n
  bounded : ∀ x < n, up parent x < n
  grows : ∀ x, up parent x ≠ x → rank x < rank (up parent x)
  top : ∀ x, up parent x = x → rootOf x = x
  along : ∀ x, rootOf (up parent x) = rootOf x

def Valid (n : Nat) (parent : List Nat) : Prop := ∃ rank rootOf, Forest n parent rank rootOf

theorem up_of_le {x : Nat} (high : parent.length ≤ x) : up parent x = x :=
  getD_eq_default _ _ high

theorem up_set {x y r : Nat} (low : x < parent.length) :
    up (parent.set x r) y = if y = x then r else up parent y := by
  unfold up
  by_cases same : y = x
  · rw [if_pos same, same, getD_eq_getElem?_getD, getElem?_set_self low]
    rfl
  · rw [if_neg same, getD_eq_getElem?_getD, getElem?_set_ne (Ne.symm same), ← getD_eq_getElem?_getD]

theorem valid_range (n : Nat) : Valid n (range n) := by
  have fixed : ∀ x, up (range n) x = x := by
    intro x
    unfold up
    by_cases low : x < n
    · rw [getD_eq_getElem _ _ (by simpa using low), getElem_range]
    · exact up_of_le (by simpa using low)
  refine ⟨fun _ => 0, id, ?_⟩
  constructor
  · exact length_range
  · intro x low
    rwa [fixed]
  · intro x moves
    exact absurd (fixed x) moves
  · intro x _
    rfl
  · intro x
    exact fixed x

namespace Forest

variable {n : Nat} {rank rootOf : Nat → Nat}

/-- How many elements are above a rank. Each step to a parent leaves fewer. -/
def above (n : Nat) (rank : Nat → Nat) (x : Nat) : Nat :=
  ((Finset.range n).filter fun y => rank x < rank y).card

section
variable (forest : Forest n parent rank rootOf)
include forest

theorem above_lt {x : Nat} (low : x < n) (moves : up parent x ≠ x) :
    above n rank (up parent x) < above n rank x := by
  have higher := forest.grows x moves
  apply Finset.card_lt_card
  refine ⟨?_, ?_⟩
  · intro y mem
    obtain ⟨inside, above⟩ := Finset.mem_filter.mp mem
    exact mem_filter.mpr ⟨inside, higher.trans above⟩
  · intro all
    have mem := all (Finset.mem_filter.mpr ⟨Finset.mem_range.mpr (forest.bounded x low), higher⟩)
    exact absurd (Finset.mem_filter.mp mem).2 (Nat.lt_irrefl _)

theorem follow_eq {fuel x : Nat} (low : x < n) (enough : above n rank x < fuel) :
    follow parent fuel x = rootOf x := by
  induction fuel generalizing x with
  | zero => cases enough
  | succ fuel ih =>
    unfold follow
    by_cases top : up parent x = x
    · rw [if_pos top, forest.top x top]
    · have fewer := forest.above_lt low top
      rw [if_neg top, ih (forest.bounded x low) (by omega), forest.along]

theorem root_eq (x : Nat) : root parent x = rootOf x := by
  unfold root
  by_cases low : x < n
  · rw [forest.length]
    apply forest.follow_eq low
    have fewer : above n rank x ≤ ((Finset.range n).erase x).card := by
      apply card_le_card
      intro y mem
      obtain ⟨inside, above⟩ := Finset.mem_filter.mp mem
      refine mem_erase.mpr ⟨?_, inside⟩
      rintro rfl
      exact absurd above (Nat.lt_irrefl _)
    rw [card_erase_of_mem (mem_range.mpr low), card_range] at fewer
    omega
  · have fixed : up parent x = x := up_of_le (by rw [forest.length]; omega)
    rw [forest.top x fixed]
    cases parent.length with
    | zero => rfl
    | succ fuel =>
      unfold follow
      rw [if_pos fixed]

/-- What holds at every top, and of an element when it holds of its parent, holds of all. -/
theorem climb {P : Nat → Prop} (top : ∀ x, up parent x = x → P x)
    (step : ∀ x < n, up parent x ≠ x → P (up parent x) → P x) (x : Nat) : P x := by
  induction size : above n rank x using Nat.strongRecOn generalizing x with
  | ind size ih =>
    by_cases here : up parent x = x
    · exact top x here
    · have low : x < n := by
        by_contra high
        exact here (up_of_le (by rw [forest.length]; omega))
      have fewer := forest.above_lt low here
      exact step x low here (ih _ (by omega) _ rfl)

theorem rootOf_top (x : Nat) : up parent (rootOf x) = rootOf x := by
  apply forest.climb (P := fun x => up parent (rootOf x) = rootOf x)
  · intro x top
    rw [forest.top x top, top]
  · intro x _ _ above
    rwa [forest.along] at above

theorem rootOf_lt {x : Nat} (low : x < n) : rootOf x < n := by
  refine forest.climb (P := fun x => x < n → rootOf x < n) ?_ ?_ x low
  · intro x top low
    rwa [forest.top x top]
  · intro x low _ above _
    have := above (forest.bounded x low)
    rwa [forest.along] at this

theorem rank_le (x : Nat) : rank x ≤ rank (rootOf x) := by
  apply forest.climb (P := fun x => rank x ≤ rank (rootOf x))
  · intro x top
    rw [forest.top x top]
  · intro x _ moves above
    rw [forest.along] at above
    exact (forest.grows x moves).le.trans above

theorem rank_lt {x : Nat} (below : rootOf x ≠ x) : rank x < rank (rootOf x) := by
  have moves : up parent x ≠ x := fun top => below (forest.top x top)
  have higher := forest.grows x moves
  have above := forest.rank_le (up parent x)
  rw [forest.along] at above
  omega

theorem rootOf_rootOf (x : Nat) : rootOf (rootOf x) = rootOf x := forest.top _ (forest.rootOf_top x)

/-- Path compression keeps the roots. -/
theorem compress {x : Nat} (low : x < n) : Forest n (parent.set x (rootOf x)) rank rootOf := by
  have inside : x < parent.length := by rwa [forest.length]
  constructor
  · rw [length_set, forest.length]
  · intro y low'
    rw [up_set inside]
    split
    · exact forest.rootOf_lt low
    · exact forest.bounded y low'
  · intro y moves
    rw [up_set inside] at moves ⊢
    split at moves
    · next same =>
      rw [if_pos same, same]
      exact forest.rank_lt (by rwa [same] at moves)
    · next other =>
      rw [if_neg other]
      exact forest.grows y moves
  · intro y top
    rw [up_set inside] at top
    split at top
    · next same => rwa [same] at top ⊢
    · exact forest.top y top
  · intro y
    rw [up_set inside]
    split
    · next same => rw [forest.rootOf_rootOf, same]
    · exact forest.along y

/-- A root gets another one as its parent. -/
theorem link {ra rb : Nat} (low : ra < n) (low' : rb < n) (top : up parent ra = ra)
    (top' : up parent rb = rb) (apart : ra ≠ rb) :
    Forest n (parent.set ra rb) (fun y => if y = rb then max (rank rb) (rank ra + 1) else rank y)
      (fun y => if rootOf y = ra then rb else rootOf y) := by
  have inside : ra < parent.length := by rwa [forest.length]
  have root_b : rootOf rb = rb := forest.top rb top'
  constructor
  · rw [length_set, forest.length]
  · intro y low''
    rw [up_set inside]
    split
    · exact low'
    · exact forest.bounded y low''
  · intro y moves
    rw [up_set inside] at moves ⊢
    split at moves
    · next same =>
      rw [if_pos same, same, if_neg apart, if_pos rfl]
      omega
    · next other =>
      have higher := forest.grows y moves
      have fixed : y ≠ rb := by
        rintro rfl
        exact moves top'
      rw [if_neg other, if_neg fixed]
      split
      · next up_is =>
        rw [up_is] at higher
        omega
      · exact higher
  · intro y top''
    rw [up_set inside] at top''
    split at top''
    · next same => exact absurd (same ▸ top'').symm apart
    · next other =>
      have fixed := forest.top y top''
      rw [fixed, if_neg other]
  · intro y
    rw [up_set inside]
    split
    · next same =>
      rw [same, forest.top ra top, if_pos rfl, root_b, if_neg (Ne.symm apart)]
    · rw [forest.along]

end

end Forest

variable {n a b x y : Nat}

section
variable (valid : Valid n parent)
include valid

theorem root_lt (low : x < n) : root parent x < n := by
  obtain ⟨rank, rootOf, forest⟩ := valid
  rw [forest.root_eq]
  exact forest.rootOf_lt low

theorem find_spec (low : x < n) :
    Valid n (find parent x).2 ∧ ∀ y, root (find parent x).2 y = root parent y := by
  obtain ⟨rank, rootOf, forest⟩ := valid
  unfold find
  rw [forest.root_eq]
  have compressed := forest.compress low
  refine ⟨⟨rank, rootOf, compressed⟩, ?_⟩
  intro y
  rw [compressed.root_eq, forest.root_eq]

/-- A union joins two classes, and keeps the others. -/
theorem union_spec (low : a < n) (low' : b < n) :
    Valid n (union parent a b) ∧ ∀ y, root (union parent a b) y =
      if root parent y = root parent a then root parent b else root parent y := by
  obtain ⟨valid', same⟩ := find_spec valid low
  obtain ⟨valid'', same'⟩ := find_spec valid' low'
  have root_a : (find parent a).1 = root parent a := rfl
  have root_b : (find (find parent a).2 b).1 = root parent b := same b
  unfold union
  dsimp only
  rw [root_a, root_b]
  by_cases joined : root parent a = root parent b
  · rw [if_pos joined]
    refine ⟨valid'', ?_⟩
    intro y
    rw [same', same]
    split
    · next here => rw [here, joined]
    · rfl
  · rw [if_neg joined]
    obtain ⟨rank, rootOf, forest⟩ := valid''
    have roots : ∀ y, root parent y = rootOf y := by
      intro y
      rw [← same, ← same', forest.root_eq]
    rw [roots a, roots b] at joined
    have linked := forest.link (forest.rootOf_lt low) (forest.rootOf_lt low')
      (forest.rootOf_top a) (forest.rootOf_top b) joined
    rw [roots a, roots b]
    refine ⟨⟨_, _, linked⟩, ?_⟩
    intro y
    rw [linked.root_eq, roots y]

theorem union_valid (low : a < n) (low' : b < n) :
    Valid n (union parent a b) := (union_spec valid low low').1

theorem union_joins (low : a < n) (low' : b < n) :
    root (union parent a b) a = root (union parent a b) b := by
  rw [(union_spec valid low low').2, (union_spec valid low low').2, if_pos rfl]
  split <;> rfl

end

/-- Elements of one class stay in one class. -/
def Coarser (parent parent' : List Nat) : Prop :=
  ∀ x y, root parent x = root parent y → root parent' x = root parent' y

theorem Coarser.refl (parent : List Nat) : Coarser parent parent := fun _ _ => id

theorem Coarser.trans {parent' parent'' : List Nat} (first : Coarser parent parent')
    (second : Coarser parent' parent'') : Coarser parent parent'' :=
  fun x y same => second x y (first x y same)

theorem union_coarser (valid : Valid n parent) (low : a < n) (low' : b < n) :
    Coarser parent (union parent a b) := by
  intro x y same
  rw [(union_spec valid low low').2, (union_spec valid low low').2, same]

end UnionFind

/-- What each step of a fold brings about stays so to its end. -/
theorem foldl_gathers {σ α : Type*} (inv : σ → Prop) (P : α → σ → Prop) {step : σ → α → σ}
    {items : List α} {s : σ} (keeps : ∀ s, ∀ a ∈ items, inv s → inv (step s a))
    (sets : ∀ s, ∀ a ∈ items, inv s → P a (step s a))
    (stays : ∀ s, ∀ a ∈ items, ∀ b, inv s → P b s → P b (step s a)) (start : inv s) :
    inv (items.foldl step s) ∧ ∀ a ∈ items, P a (items.foldl step s) := by
  induction items using List.reverseRecOn with
  | nil => exact ⟨start, nofun⟩
  | append_singleton items last ih =>
    have before : ∀ a ∈ items, a ∈ items ++ [last] := fun a => List.mem_append_left _
    have mem : last ∈ items ++ [last] := List.mem_append_right _ (List.mem_singleton_self _)
    obtain ⟨here, gathered⟩ := ih (fun s a isA => keeps s a (before a isA))
      (fun s a isA => sets s a (before a isA)) (fun s a isA => stays s a (before a isA))
    rw [List.foldl_append]
    refine ⟨keeps _ last mem here, ?_⟩
    intro a isA
    rcases List.mem_append.mp isA with old | new
    · exact stays _ last mem a here (gathered a old)
    · rw [List.mem_singleton.mp new]
      exact sets _ last mem here
