import Phase.Lib.Augmenting

/-! Bipartite matching along listed edges, each with a label. The places are tried in the order
of the list, and who holds one also remembers by which edge. Without the labels the search is
one for an augmenting path. -/
namespace Augmenting
open List

variable {γ : Type} {edges : Nat → List (Nat × γ)}

/-- Who holds each place by which edge, and which places the current search has seen. -/
structure EdgeSearch (γ : Type) where
  owner : List (Option (Nat × γ))
  seen : List Bool

namespace EdgeSearch

def visit (s : EdgeSearch γ) (place : Nat) : EdgeSearch γ :=
  { s with seen := s.seen.set place true }

def give (s : EdgeSearch γ) (place index : Nat) (label : γ) : EdgeSearch γ :=
  { s with owner := s.owner.set place (some (index, label)) }

/-- The search without its labels. -/
def plain (s : EdgeSearch γ) : Search := ⟨s.owner.map (Option.map Prod.fst), s.seen⟩

end EdgeSearch

def tryEdges (move : Nat → EdgeSearch γ → Bool × EdgeSearch γ) (index : Nat) :
    List (Nat × γ) → EdgeSearch γ → Bool × EdgeSearch γ
  | [], s => (false, s)
  | (place, label) :: rest, s =>
    if s.seen.getD place true then tryEdges move index rest s
    else
      let s := s.visit place
      match s.owner.getD place none with
      | none => (true, s.give place index label)
      | some (holder, _) =>
        let (free, s) := move holder s
        if free then (true, s.give place index label) else tryEdges move index rest s

/-- Each move is to a place not seen before, which bounds their number by `fuel`. -/
def augmentEdges (edges : Nat → List (Nat × γ)) :
    Nat → Nat → EdgeSearch γ → Bool × EdgeSearch γ
  | 0, _, s => (false, s)
  | fuel + 1, index, s => tryEdges (augmentEdges edges fuel) index (edges index) s

/-- Places these, one after the other, beside those that are. -/
def matchEdges (edges : Nat → List (Nat × γ)) :
    List Nat → List (Option (Nat × γ)) → Option (List (Option (Nat × γ)))
  | [], owner => some owner
  | index :: rest, owner =>
    let (free, s) := augmentEdges edges (owner.length + 1) index
      ⟨owner, replicate owner.length false⟩
    if free then matchEdges edges rest s.owner else none

def Joined (edges : Nat → List (Nat × γ)) (index place : Nat) : Bool :=
  (edges index).any fun edge => edge.1 == place

variable {index : Nat}

theorem joined_iff {place : Nat} :
    Joined edges index place ↔ place ∈ (edges index).map Prod.fst := by
  unfold Joined
  simp

/-- The search of `augment` when it only goes to the places listed. -/
def augmentListed (adj : Nat → Nat → Bool) (places : Nat → List Nat) :
    Nat → Nat → Search → Bool × Search
  | 0, _, s => (false, s)
  | fuel + 1, index, s => tryPlaces adj (augmentListed adj places fuel) index (places index) s

section
variable {adj : Nat → Nat → Bool} {places : Nat → List Nat} {index m : Nat} {s : Search}

theorem Outcome.all_tried {tried : List Nat} {result : Bool × Search}
    (covers : ∀ place, adj index place → place ∈ tried)
    (outcome : Outcome adj index tried s result) :
    Outcome adj index (range s.matched.length) s result := by
  obtain ⟨free, after⟩ := result
  cases free with
  | true => exact outcome
  | false =>
    obtain ⟨same, size, fewer, grows, closed, tried⟩ := outcome
    refine ⟨same, size, fewer, grows, closed, ?_⟩
    intro place _ fits
    exact tried place (covers place fits) fits

theorem augmentListed_outcome {fuel : Nat}
    (inside : ∀ index, ∀ place ∈ places index, place < m)
    (covers : ∀ index place, adj index place → place ∈ places index)
    (length : s.matched.length = m) (sizes : s.visited.length = s.matched.length)
    (enough : s.visited.count false < fuel) :
    Outcome adj index (range s.matched.length) s (augmentListed adj places fuel index s) := by
  induction fuel generalizing index s with
  | zero => cases enough
  | succ fuel ih =>
    refine Outcome.all_tried (covers index)
      (@tryPlaces_outcome adj index s (augmentListed adj places fuel) fuel m ?_ _ ?_ length sizes ?_)
    · intro index s length sizes few
      exact ih length sizes few
    · intro place mem
      rw [length]
      exact inside index place mem
    · exact Nat.le_of_lt_succ enough

end

section
variable {index : Nat} {s : EdgeSearch γ}

theorem tryEdges_plain {adj : Nat → Nat → Bool} {move : Nat → EdgeSearch γ → Bool × EdgeSearch γ}
    {move' : Nat → Search → Bool × Search} {listed : List (Nat × γ)}
    (moves : ∀ index s, move' index s.plain = ((move index s).1, (move index s).2.plain))
    (fits : ∀ edge ∈ listed, adj index edge.1) :
    tryPlaces adj move' index (listed.map Prod.fst) s.plain =
      ((tryEdges move index listed s).1, (tryEdges move index listed s).2.plain) := by
  induction listed generalizing s with
  | nil => rfl
  | cons edge rest ih =>
    obtain ⟨place, label⟩ := edge
    have later : ∀ edge ∈ rest, adj index edge.1 :=
      fun edge mem => fits edge (mem_cons_of_mem _ mem)
    have here : adj index place = true := fits (place, label) mem_cons_self
    have isMatched : (s.plain.visit place).matched.getD place none =
        ((s.visit place).owner.getD place none).map Prod.fst := by
      show (s.owner.map (Option.map Prod.fst)).getD place none = _
      rw [getD_eq_getElem?_getD, getElem?_map]
      show _ = Option.map Prod.fst (s.owner[place]?.getD none)
      cases s.owner[place]? <;> rfl
    have given : ∀ after : EdgeSearch γ,
        after.plain.give place index = (after.give place index label).plain := by
      intro after
      unfold EdgeSearch.plain EdgeSearch.give Search.give
      rw [map_set]
      rfl
    rw [map_cons, tryPlaces, tryEdges, here]
    show (if s.seen.getD place true || !true then _ else _) = _
    rw [Bool.not_true, Bool.or_false]
    by_cases seen : s.seen.getD place true = true
    · rw [if_pos seen, if_pos seen]
      exact ih later
    · rw [if_neg seen, if_neg seen]
      dsimp only
      rw [isMatched]
      cases held : (s.visit place).owner.getD place none with
      | none =>
        rw [← given]
        rfl
      | some holding =>
        obtain ⟨holder, by_⟩ := holding
        dsimp only [Option.map]
        have moved := moves holder (s.visit place)
        rw [show s.plain.visit place = (s.visit place).plain from rfl, moved]
        obtain ⟨free, after⟩ := move holder (s.visit place)
        cases free with
        | true => exact Prod.ext rfl (given after)
        | false => exact ih later

theorem augmentEdges_plain (fuel : Nat) :
    augmentListed (Joined edges) (fun index => (edges index).map Prod.fst) fuel index s.plain =
      ((augmentEdges edges fuel index s).1, (augmentEdges edges fuel index s).2.plain) := by
  induction fuel generalizing index s with
  | zero => rfl
  | succ fuel ih =>
    apply tryEdges_plain
    · intro index s
      exact ih
    · intro edge mem
      exact joined_iff.mpr (mem_map_of_mem mem)

end

/-- Who holds a place does so by one of their edges. -/
def Labelled (edges : Nat → List (Nat × γ)) (owner : List (Option (Nat × γ))) : Prop :=
  ∀ place index label, owner[place]? = some (some (index, label)) → (place, label) ∈ edges index

variable {s : EdgeSearch γ}

theorem Labelled.give {place : Nat} {label : γ} (labelled : Labelled edges s.owner)
    (mem : (place, label) ∈ edges index) : Labelled edges (s.give place index label).owner := by
  intro other holder by_ held
  unfold EdgeSearch.give at held
  rw [getElem?_set] at held
  split at held
  · next same =>
    split at held
    · cases held
      exact same ▸ mem
    · cases held
  · exact labelled other holder by_ held

theorem tryEdges_labelled {move : Nat → EdgeSearch γ → Bool × EdgeSearch γ}
    {listed : List (Nat × γ)}
    (moves : ∀ index s, Labelled edges s.owner → Labelled edges (move index s).2.owner)
    (own : listed ⊆ edges index) (labelled : Labelled edges s.owner) :
    Labelled edges (tryEdges move index listed s).2.owner := by
  induction listed generalizing s with
  | nil => exact labelled
  | cons edge rest ih =>
    obtain ⟨place, label⟩ := edge
    have mem : (place, label) ∈ edges index := own mem_cons_self
    have later : rest ⊆ edges index := fun edge mem => own (mem_cons_of_mem _ mem)
    rw [tryEdges]
    split
    · exact ih later labelled
    · dsimp only
      split
      · exact labelled.give mem
      · next holder by_ held =>
        have moved := moves holder (s.visit place) labelled
        rcases result : move holder (s.visit place) with ⟨free, after⟩
        rw [result] at moved
        split
        · exact Labelled.give moved mem
        · exact ih later moved

theorem augmentEdges_labelled {fuel : Nat} (labelled : Labelled edges s.owner) :
    Labelled edges (augmentEdges edges fuel index s).2.owner := by
  induction fuel generalizing index s with
  | zero => exact labelled
  | succ fuel ih =>
    exact tryEdges_labelled (fun _ _ => ih) (fun _ => id) labelled

/-- The vertices below `k` hold one place each, by edges of theirs. -/
structure Matched (edges : Nat → List (Nat × γ)) (k m : Nat)
    (owner : List (Option (Nat × γ))) : Prop where
  placed : Placed (Joined edges) k m (owner.map (Option.map Prod.fst))
  labelled : Labelled edges owner

theorem Matched.start (m : Nat) : Matched edges 0 m (replicate m none) := by
  constructor
  · rw [map_replicate]
    exact Placed.start m
  · intro place index label held
    rw [getElem?_replicate] at held
    split at held <;> cases held

variable {k m : Nat} {owner : List (Option (Nat × γ))}

theorem Matched.length (matched : Matched edges k m owner) : owner.length = m := by
  rw [← matched.placed.size, length_map]

theorem Matched.holds (matched : Matched edges k m owner) (low : index < k) :
    ∃ place label, owner[place]? = some (some (index, label)) ∧ (place, label) ∈ edges index := by
  have one := matched.placed.count index
  rw [if_pos low] at one
  have mem : some index ∈ owner.map (Option.map Prod.fst) := by
    rw [← count_pos_iff]
    omega
  obtain ⟨held, isHeld, isIndex⟩ := mem_map.mp mem
  obtain ⟨⟨holder, label⟩, rfl, rfl⟩ := Option.map_eq_some_iff.mp isIndex
  obtain ⟨place, at_⟩ := mem_iff_getElem?.mp isHeld
  exact ⟨place, label, at_, matched.labelled _ _ _ at_⟩

/-- Vertex by vertex, until all are placed or no matching places all of them. -/
theorem Matched.matchEdges {n : Nat} (inside : ∀ index, ∀ edge ∈ edges index, edge.1 < m)
    (matched : Matched edges k m owner) (most : k ≤ n) :
    match matchEdges edges (range' k (n - k)) owner with
    | none => ∀ place, ¬ Saturating (Joined edges) n m place
    | some final => Matched edges n m final := by
  induction left : n - k generalizing k owner with
  | zero =>
    obtain rfl : k = n := by omega
    exact matched
  | succ left' ih =>
    let start : EdgeSearch γ := ⟨owner, replicate owner.length false⟩
    have size := matched.length
    have outcome := @augmentListed_outcome (Joined edges)
      (fun index => (edges index).map Prod.fst) k m start.plain (owner.length + 1) ?_ ?_ ?_ ?_ ?_
    · rw [augmentEdges_plain] at outcome
      have labels : Labelled edges (augmentEdges edges (owner.length + 1) k start).2.owner :=
        augmentEdges_labelled matched.labelled
      rw [range'_succ, Augmenting.matchEdges]
      rcases result : augmentEdges edges (owner.length + 1) k start with ⟨free, after⟩
      rw [result] at outcome labels
      cases free with
      | true =>
        have augmented : Augmented (Joined edges) k _ after.plain := outcome
        exact ih ⟨matched.placed.next (by simpa [start, EdgeSearch.plain] using augmented), labels⟩
          (by omega) (by omega)
      | false =>
        intro place
        have stuck : Stuck (Joined edges) k _ _ after.plain := outcome
        exact matched.placed.stuck (by omega) (by simpa [start, EdgeSearch.plain] using stuck) place
    · intro index place mem
      obtain ⟨edge, isEdge, rfl⟩ := mem_map.mp mem
      exact inside index edge isEdge
    · intro index place joined
      exact joined_iff.mp joined
    · rw [← size]
      exact length_map _
    · simp [start, EdgeSearch.plain]
    · simp [start, EdgeSearch.plain]

theorem matchEdges_spec {n m : Nat} (inside : ∀ index, ∀ edge ∈ edges index, edge.1 < m) :
    match matchEdges edges (range n) (replicate m none) with
    | none => ∀ place, ¬ Saturating (Joined edges) n m place
    | some final => Matched edges n m final := by
  have all := (@Matched.start _ edges m).matchEdges inside n.zero_le
  rwa [← range_eq_range'] at all

end Augmenting
