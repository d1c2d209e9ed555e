import Mathlib.Data.List.GetD
import Phase.Lib.Indexed

/-! Bipartite matching along augmenting paths: the search either places one more vertex or leaves
a set of vertices with too few neighbours, so growing a matching vertex by vertex finds one that
places them all whenever there is one. -/
namespace Augmenting
open Indexed List

/-- Who holds each place, and which places the current search has been to. -/
structure Search where
  matched : List (Option Nat)
  visited : List Bool

namespace Search

def visit (s : Search) (place : Nat) : Search := { s with visited := s.visited.set place true }

def give (s : Search) (place index : Nat) : Search :=
  { s with matched := s.matched.set place (some index) }

def Visited (s : Search) (place : Nat) : Prop := s.visited[place]? = some true

end Search

/-- Tries the places in order; the holder of one that is taken looks for another by `move`. -/
def tryPlaces (adj : Nat → Nat → Bool) (move : Nat → Search → Bool × Search) (index : Nat) :
    List Nat → Search → Bool × Search
  | [], s => (false, s)
  | place :: places, s =>
    if s.visited.getD place true || !adj index place then tryPlaces adj move index places s
    else
      let s := s.visit place
      match s.matched.getD place none with
      | none => (true, s.give place index)
      | some holder =>
        let (free, s) := move holder s
        if free then (true, s.give place index) else tryPlaces adj move index places s

/-- Places `index`, moving other holders along an augmenting path when that is what it takes.
Each move is to a place not visited before, which bounds their number by `fuel`. -/
def augment (adj : Nat → Nat → Bool) : Nat → Nat → Search → Bool × Search
  | 0, _, s => (false, s)
  | fuel + 1, index, s =>
    tryPlaces adj (augment adj fuel) index (range s.matched.length) s

/-- Whether all of these can be placed, one after the other, beside those that are. -/
def saturate (adj : Nat → Nat → Bool) : List Nat → List (Option Nat) → Bool
  | [], _ => true
  | index :: rest, matched =>
    let (free, s) := augment adj (matched.length + 1) index
      ⟨matched, replicate matched.length false⟩
    free && saturate adj rest s.matched

section
variable (adj : Nat → Nat → Bool)

def Edges (matched : List (Option Nat)) : Prop :=
  ∀ place holder, matched[place]? = some (some holder) → adj holder place

/-- One more holder; the places that had been visited before keep theirs. -/
structure Augmented (index : Nat) (s s' : Search) : Prop where
  size : s'.matched.length = s.matched.length
  kept : ∀ place, s.Visited place → s'.matched[place]? = s.matched[place]?
  edges : Edges adj s.matched → Edges adj s'.matched
  count : ∀ k, s'.matched.count (some k) = s.matched.count (some k) + if k = index then 1 else 0

/-- Nobody has moved. Every newly visited place is held by someone who could only move to a
visited one. -/
structure Stuck (index : Nat) (places : List Nat) (s s' : Search) : Prop where
  same : s'.matched = s.matched
  size : s'.visited.length = s.visited.length
  fewer : s'.visited.count false ≤ s.visited.count false
  grows : ∀ place, s.Visited place → s'.Visited place
  closed : ∀ place, s'.Visited place → ¬ s.Visited place → ∃ holder,
    s.matched[place]? = some (some holder) ∧
      ∀ other < s.matched.length, adj holder other → s'.Visited other
  tried : ∀ place ∈ places, adj index place → s'.Visited place

def Outcome (index : Nat) (places : List Nat) (s : Search) : Bool × Search → Prop
  | (true, s') => Augmented adj index s s'
  | (false, s') => Stuck adj index places s s'

end

section
variable {s : Search} {place : Nat}

theorem visited_visit (bound : place < s.visited.length) (other : Nat) :
    (s.visit place).Visited other ↔ other = place ∨ s.Visited other := by
  unfold Search.Visited Search.visit
  by_cases here : other = place
  · subst here
    simp [bound]
  · rw [getElem?_set_ne (Ne.symm here)]
    simp [here]

theorem unvisited_visit (bound : place < s.visited.length) (new : ¬ s.Visited place) :
    (s.visit place).visited.count false + 1 = s.visited.count false := by
  have held : s.visited[place] = false := by
    have new : s.visited[place]? ≠ some true := new
    rw [getElem?_eq_getElem bound] at new
    simpa using new
  have counted := count_set bound true false
  rw [if_pos held] at counted
  exact counted

end

section
variable {adj : Nat → Nat → Bool} {index : Nat} {s : Search}

/-- Taking a place that its holder, if any, does not need any more. -/
theorem Augmented.give {place : Nat} {held : Option Nat} {s' : Search}
    (bound : place < s'.matched.length) (isHeld : s'.matched[place]? = some held)
    (fits : adj index place) (new : ¬ s.Visited place)
    (size : s'.matched.length = s.matched.length)
    (kept : ∀ other, s.Visited other → s'.matched[other]? = s.matched[other]?)
    (edges : Edges adj s.matched → Edges adj s'.matched)
    (count : ∀ k, s'.matched.count (some k) =
      s.matched.count (some k) + if held = some k then 1 else 0) :
    Augmented adj index s (s'.give place index) := by
  refine ⟨?_, fun other visited => ?_, fun valid other holder isHolder => ?_, fun k => ?_⟩
  · exact (length_set ..).trans size
  · have apart : place ≠ other := fun same => new (same ▸ visited)
    exact (getElem?_set_ne apart).trans (kept other visited)
  · by_cases here : place = other
    · subst here
      have isIndex : some (some index) = some (some holder) := by
        rw [← isHolder]
        exact (getElem?_set_self bound).symm
      cases isIndex
      exact fits
    · refine edges valid other holder ?_
      rw [← isHolder]
      exact (getElem?_set_ne here).symm
  · have moved := count_set bound (some index) (some k)
    have before := count k
    rw [(List.getElem?_eq_some_iff.mp isHeld).2] at moved
    simp only [Option.some.injEq, eq_comm (a := index)] at moved
    unfold Search.give
    dsimp only
    omega

section
variable {place holder : Nat} {places : List Nat} {after final : Search}

/-- A holder who could not move leaves the search where it was, but for what it visited. -/
theorem Stuck.then_augmented (seen : place < s.visited.length)
    (stuck : Stuck adj holder (range s.matched.length) (s.visit place) after)
    (rest : Augmented adj index after final) : Augmented adj index s final := by
  have same : after.matched = s.matched := stuck.same
  obtain ⟨size, kept, edges, count⟩ := rest
  rw [same] at size edges count
  refine ⟨size, fun other visited => ?_, edges, count⟩
  rw [← same]
  exact kept other (stuck.grows other ((visited_visit seen other).mpr (.inr visited)))

theorem Stuck.then_stuck (seen : place < s.visited.length) (new : ¬ s.Visited place)
    (isHeld : s.matched[place]? = some (some holder))
    (stuck : Stuck adj holder (range s.matched.length) (s.visit place) after)
    (rest : Stuck adj index places after final) : Stuck adj index (place :: places) s final := by
  have same : after.matched = s.matched := stuck.same
  have visitedHere : final.Visited place :=
    rest.grows place (stuck.grows place ((visited_visit seen place).mpr (.inl rfl)))
  have fewer := unvisited_visit seen new
  refine ⟨rest.same.trans same, rest.size.trans (stuck.size.trans (length_set ..)),
    rest.fewer.trans (stuck.fewer.trans (by omega)), fun other visited => ?_,
    fun other visited new => ?_, fun other mem fits => ?_⟩
  · exact rest.grows other (stuck.grows other ((visited_visit seen other).mpr (.inr visited)))
  · by_cases byMove : after.Visited other
    · by_cases here : other = place
      · subst here
        exact ⟨holder, isHeld, fun next bound fits =>
          rest.grows next (stuck.tried next (mem_range.mpr bound) fits)⟩
      · have fresh : ¬ (s.visit place).Visited other := fun visited =>
          ((visited_visit seen other).mp visited).elim here new
        obtain ⟨moved, isMoved, reach⟩ := stuck.closed other byMove fresh
        exact ⟨moved, isMoved, fun next bound fits => rest.grows next (reach next bound fits)⟩
    · obtain ⟨moved, isMoved, reach⟩ := rest.closed other visited byMove
      rw [same] at isMoved reach
      exact ⟨moved, isMoved, reach⟩
  · rcases mem_cons.mp mem with rfl | mem
    · exact visitedHere
    · exact rest.tried other mem fits

end

/-- The loop over the places, given what a move of another holder comes to. -/
theorem tryPlaces_outcome {move : Nat → Search → Bool × Search} {fuel m : Nat}
    (moves : ∀ index s, s.matched.length = m → s.visited.length = s.matched.length →
      s.visited.count false < fuel →
      Outcome adj index (range s.matched.length) s (move index s))
    {places : List Nat} (inside : ∀ place ∈ places, place < s.matched.length)
    (size : s.matched.length = m) (sizes : s.visited.length = s.matched.length)
    (few : s.visited.count false ≤ fuel) :
    Outcome adj index places s (tryPlaces adj move index places s) := by
  induction places generalizing s with
  | nil => exact ⟨rfl, rfl, Nat.le_refl _, fun _ => id, fun _ here new => absurd here new,
      fun _ mem => nomatch mem⟩
  | cons place places ih =>
    have bound := inside place mem_cons_self
    have later : ∀ other ∈ places, other < s.matched.length :=
      fun other mem => inside other (mem_cons_of_mem _ mem)
    rw [tryPlaces]
    split
    · next skipped =>
      have rest := ih later size sizes few
      rcases result : tryPlaces adj move index places s with ⟨free, after⟩
      rw [result] at rest
      cases free with
      | true => exact rest
      | false =>
        obtain ⟨same, size, fewer, grows, closed, tried⟩ := rest
        refine ⟨same, size, fewer, grows, closed, fun other mem fits => ?_⟩
        rcases mem_cons.mp mem with rfl | mem
        · refine grows other ?_
          have seen : other < s.visited.length := sizes ▸ bound
          rw [fits, Bool.not_true, Bool.or_false, getD_eq_getElem _ _ seen] at skipped
          exact List.getElem?_eq_some_iff.mpr ⟨seen, skipped⟩
        · exact tried other mem fits
    · next open_ =>
      have seen : place < s.visited.length := sizes ▸ bound
      rw [Bool.or_eq_true, not_or, Bool.not_eq_true, getD_eq_getElem _ _ seen,
        Bool.not_eq_true', Bool.not_eq_false] at open_
      obtain ⟨unseen, fits⟩ := open_
      have new : ¬ s.Visited place := by
        intro visited
        rw [(List.getElem?_eq_some_iff.mp visited).2] at unseen
        cases unseen
      have fewer := unvisited_visit seen new
      have isMatched : (s.visit place).matched.getD place none = s.matched[place] :=
        getD_eq_getElem _ _ bound
      dsimp only
      rw [isMatched]
      cases isHolder : s.matched[place] with
      | none =>
        have isHeld : s.matched[place]? = some none :=
          List.getElem?_eq_some_iff.mpr ⟨bound, isHolder⟩
        exact .give bound isHeld fits new rfl (fun _ _ => rfl) id fun k => by
          simp [Search.visit]
      | some holder =>
        have isHeld : s.matched[place]? = some (some holder) :=
          List.getElem?_eq_some_iff.mpr ⟨bound, isHolder⟩
        have moved := moves holder (s.visit place) size ((length_set ..).trans sizes) (by omega)
        dsimp only
        rcases result : move holder (s.visit place) with ⟨free, after⟩
        rw [result] at moved
        cases free with
        | true =>
          have here := moved.kept place ((visited_visit seen place).mpr (.inl rfl))
          refine Augmented.give (moved.size ▸ bound) (here.trans isHeld) fits new moved.size
            (fun other visited => moved.kept other ((visited_visit seen other).mpr
              (.inr visited))) moved.edges fun k => ?_
          simp only [Option.some.injEq, eq_comm (a := holder)]
          exact moved.count k
        | false =>
          have same : after.matched = s.matched := moved.same
          have rest := @ih after (same ▸ later) ((congrArg length same).trans size)
            (moved.size.trans ((length_set ..).trans (sizes.trans (congrArg length same).symm))) ?_
          · rcases final : tryPlaces adj move index places after with ⟨free, last⟩
            rw [final] at rest
            cases free with
            | true => exact moved.then_augmented seen rest
            | false => exact moved.then_stuck seen new isHeld rest
          · exact moved.fewer.trans (by omega)

/-- With a move for every place that has not been visited the search is complete. -/
theorem augment_outcome {fuel : Nat} (sizes : s.visited.length = s.matched.length)
    (enough : s.visited.count false < fuel) :
    Outcome adj index (range s.matched.length) s (augment adj fuel index s) := by
  induction fuel generalizing index s with
  | zero => cases enough
  | succ fuel ih =>
    exact tryPlaces_outcome (fun index s _ sizes few => ih sizes few)
      (fun place mem => mem_range.mp mem) rfl sizes (Nat.le_of_lt_succ enough)

end

/-- Places for the vertices below `n`, one each. -/
def Saturating (adj : Nat → Nat → Bool) (n m : Nat) (place : Nat → Nat) : Prop :=
  (∀ i < n, place i < m ∧ adj i (place i)) ∧ ∀ i < n, ∀ j < n, place i = place j → i = j

section
variable {adj : Nat → Nat → Bool} {matched : List (Option Nat)}

/-- The vertices below `k` hold one place each, and nobody else holds one. -/
structure Placed (adj : Nat → Nat → Bool) (k m : Nat) (matched : List (Option Nat)) : Prop where
  size : matched.length = m
  edges : Edges adj matched
  count : ∀ i, matched.count (some i) = if i < k then 1 else 0

theorem Placed.start (m : Nat) : Placed adj 0 m (replicate m none) := by
  refine ⟨length_replicate, fun place holder held => ?_, fun i => ?_⟩
  · rw [getElem?_replicate] at held
    split at held
    · cases held
    · cases held
  · simp [count_replicate]

variable {m k n : Nat}

theorem Placed.holder_lt (placed : Placed adj k m matched) {place holder : Nat}
    (held : matched[place]? = some (some holder)) : holder < k := by
  have mem : some holder ∈ matched := mem_of_getElem? held
  by_contra high
  have none_ := placed.count holder
  rw [if_neg high, count_eq_zero] at none_
  exact none_ mem

/-- A holder has one place only. -/
theorem Placed.one_place (placed : Placed adj k m matched) {place other holder : Nat}
    (held : matched[place]? = some (some holder)) (heldToo : matched[other]? = some (some holder)) :
    place = other := by
  by_contra apart
  obtain ⟨bound, isHolder⟩ := List.getElem?_eq_some_iff.mp held
  have cleared := count_set bound none (some holder)
  rw [if_pos isHolder, if_neg (by simp)] at cleared
  have left : 0 < (matched.set place none).count (some holder) := by
    refine count_pos_iff.mpr (mem_of_getElem? (i := other) ?_)
    rw [getElem?_set_ne apart]
    exact heldToo
  have once := placed.count holder
  split at once <;> omega

theorem Placed.saturating (placed : Placed adj n m matched) :
    ∃ place, Saturating adj n m place := by
  have held : ∀ i, ∃ place : Nat, i < n → matched[place]? = some (some i) := by
    intro i
    by_cases bound : i < n
    · have one := placed.count i
      rw [if_pos bound] at one
      obtain ⟨place, isPlace⟩ := mem_iff_getElem?.mp
        (count_pos_iff.mp (by omega : 0 < matched.count (some i)))
      exact ⟨place, fun _ => isPlace⟩
    · exact ⟨0, fun below => absurd below bound⟩
  choose place isPlace using held
  refine ⟨place, fun i bound => ⟨?_, ?_⟩, fun i boundI j boundJ same => ?_⟩
  · rw [← placed.size]
    exact (List.getElem?_eq_some_iff.mp (isPlace i bound)).1
  · exact placed.edges _ _ (isPlace i bound)
  · have both := isPlace i boundI
    rw [same, isPlace j boundJ] at both
    cases both
    rfl

/-- The visited places have one holder each, who with the vertex that was not placed are one
too many for them. -/
theorem Placed.stuck (placed : Placed adj k m matched) (below : k < n) {after : Search}
    (stuck : Stuck adj k (range matched.length)
      ⟨matched, replicate matched.length false⟩ after) (place : Nat → Nat) :
    ¬ Saturating adj n m place := by
  rintro ⟨fits, apart⟩
  have isHeld : ∀ other, after.Visited other → ∃ holder, matched[other]? = some (some holder) ∧
        ∀ next < m, adj holder next → after.Visited next := by
    intro other visited
    obtain ⟨holder, held, reach⟩ := stuck.closed other visited (by
      unfold Search.Visited
      rw [getElem?_replicate]
      split <;> simp)
    exact ⟨holder, held, fun next bound => reach next (placed.size.symm ▸ bound)⟩
  have reached : ∀ next < m, adj k next → after.Visited next := fun next bound =>
    stuck.tried next (mem_range.mpr (placed.size.symm ▸ bound))
  choose! holder isHolder reach using isHeld
  let visited := (Finset.range m).filter fun other => after.visited[other]? = some true
  let crowd := insert k (visited.image holder)
  have isVisited : ∀ other, other ∈ visited ↔ other < m ∧ after.Visited other := by
    intro other
    rw [Finset.mem_filter, Finset.mem_range]
    rfl
  have once : Set.InjOn holder visited := by
    intro a memA b memB same
    have heldA := isHolder a ((isVisited a).mp memA).2
    have heldB := isHolder b ((isVisited b).mp memB).2
    rw [← same] at heldB
    exact placed.one_place heldA heldB
  have notPlaced : k ∉ visited.image holder := by
    intro mem
    obtain ⟨other, mem, isK⟩ := Finset.mem_image.mp mem
    have early := placed.holder_lt (isHolder other ((isVisited other).mp mem).2)
    omega
  have size : crowd.card = visited.card + 1 := by
    rw [Finset.card_insert_of_notMem notPlaced, Finset.card_image_of_injOn once]
  have early : ∀ i ∈ crowd, i < n := by
    intro i mem
    rcases Finset.mem_insert.mp mem with rfl | mem
    · exact below
    · obtain ⟨other, here, rfl⟩ := Finset.mem_image.mp mem
      exact (placed.holder_lt (isHolder other ((isVisited other).mp here).2)).trans below
  have inside : ∀ i ∈ crowd, place i ∈ visited := by
    intro i mem
    obtain ⟨bound, adjacent⟩ := fits i (early i mem)
    refine (isVisited _).mpr ⟨bound, ?_⟩
    rcases Finset.mem_insert.mp mem with rfl | mem
    · exact reached _ bound adjacent
    · obtain ⟨other, here, rfl⟩ := Finset.mem_image.mp mem
      exact reach other ((isVisited other).mp here).2 _ bound adjacent
  have fewer := Finset.card_le_card_of_injOn place inside fun i memI j memJ same =>
    apart i (early i memI) j (early j memJ) same
  omega

theorem Placed.next {k m : Nat} (placed : Placed adj k m matched) {after : Search}
    (augmented : Augmented adj k ⟨matched, replicate matched.length false⟩ after) :
    Placed adj (k + 1) m after.matched := by
  refine ⟨augmented.size.trans placed.size, augmented.edges placed.edges, fun i => ?_⟩
  have total := augmented.count i
  have before := placed.count i
  rw [total, before]
  rcases lt_trichotomy i k with less | rfl | more
  · simp [less, less.ne, less.trans k.lt_succ_self]
  · simp
  · simp [more.ne', not_lt.mpr more.le, not_lt.mpr (Nat.succ_le_of_lt more)]

/-- Vertex by vertex: what is placed grows until all are, or no matching places all of them. -/
theorem Placed.saturate_iff (placed : Placed adj k m matched) (most : k ≤ n) :
    saturate adj (range' k (n - k)) matched = true ↔ ∃ place, Saturating adj n m place := by
  induction left : n - k generalizing k matched with
  | zero =>
    have isN : k = n := by omega
    subst isN
    exact ⟨fun _ => placed.saturating, fun _ => rfl⟩
  | succ left' ih =>
    rw [range'_succ, saturate]
    have outcome := @augment_outcome adj k ⟨matched, replicate matched.length false⟩
      (matched.length + 1) length_replicate (by
        rw [count_replicate_self]
        exact matched.length.lt_succ_self)
    rcases result : augment adj (matched.length + 1) k _ with ⟨free, after⟩
    rw [result] at outcome
    cases free with
    | true =>
      exact ih (placed.next outcome) (by omega) (by omega)
    | false =>
      exact ⟨nofun, fun ⟨place, all⟩ => absurd all (placed.stuck (by omega) outcome place)⟩

theorem saturate_iff (adj : Nat → Nat → Bool) (n m : Nat) :
    saturate adj (range n) (replicate m none) = true ↔ ∃ place, Saturating adj n m place := by
  have all := (@Placed.start adj m).saturate_iff n.zero_le
  rwa [← range_eq_range'] at all

end

/-- What stands at the places, and what is left of the list without it. -/
theorem exists_chosen {α : Type} {n : Nat} {place : Nat → Nat} (items : List α)
    (inside : ∀ i < n, place i < items.length)
    (apart : ∀ i < n, ∀ j < n, place i = place j → i = j) :
    ∃ chosen others : List α, chosen.length = n ∧ (∀ i < n, chosen[i]? = items[place i]?) ∧
      (chosen ++ others).Perm items := by
  have distinct : ((range n).map place).Nodup :=
    Nodup.map_on (fun i isLow j isLow' => apart i (mem_range.mp isLow) j
      (mem_range.mp isLow')) nodup_range
  have within : (range n).map place ⊆ range items.length := by
    intro at_ isPlace
    obtain ⟨i, isLow, rfl⟩ := mem_map.mp isPlace
    exact mem_range.mpr (inside i (mem_range.mp isLow))
  obtain ⟨middle, isMiddle, part⟩ := subperm_of_subset distinct within
  obtain ⟨rest, split⟩ := part.exists_perm_append
  have all := (isMiddle.symm.append_right rest).trans split.symm
  have below : ∀ at_ ∈ (range n).map place ++ rest, at_ < items.length :=
    fun at_ isOne => mem_range.mp (all.mem_iff.mp isOne)
  have same : (range items.length).pmap (fun i low => items.get ⟨i, low⟩)
      (fun _ isLow => mem_range.mp isLow) = items :=
    ext_getElem (by rw [length_pmap, length_range]) fun i _ _ => by
      rw [getElem_pmap, get_eq_getElem]
      congr 1
      exact getElem_range _
  refine ⟨((range n).map place).pmap (fun i low => items.get ⟨i, low⟩) fun i isOne =>
    below i (mem_append_left _ isOne), rest.pmap (fun i low => items.get ⟨i, low⟩) fun i isOne =>
    below i (mem_append_right _ isOne), ?_, fun i bound => ?_, ?_⟩
  · rw [length_pmap, length_map, length_range]
  · rw [getElem?_eq_getElem (by simpa using bound), getElem_pmap,
      getElem?_eq_getElem (inside i bound)]
    simp only [getElem_map, getElem_range, get_eq_getElem]
  · rw [← pmap_append]
    exact (all.pmap fun i low => items.get ⟨i, low⟩).trans (.of_eq same)

end Augmenting
