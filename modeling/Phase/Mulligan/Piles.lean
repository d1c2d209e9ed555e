import Phase.Mulligan.Procedure

/-! Every card is in exactly one place, and what each move does to the hands. -/
namespace Phase.Mulligan

variable {Rng : Type}

inductive Place where
  | library (holder : PlayerId)
  | hand (player : PlayerId)
  | exile
  deriving DecidableEq

namespace GameState
variable (state : GameState Rng)

def placeIn (zone : Zone) (owner : PlayerId) : Place :=
  match zone with
  | .library => .library (state.librarySeat owner)
  | .hand => .hand owner
  | .exile => .exile

def container : Place → List ObjectId
  | .library holder => state.library holder
  | .hand player => state.hand player
  | .exile => state.exile

/-- What no card move changes. -/
def table : GameFormat × List PlayerId × (PlayerId → Bool) × List PlayerId × PlayerId ×
    TurnDirection × (PlayerId → Nat) × (ObjectId → Option (String × Bool)) :=
  (state.format, state.players, state.isEliminated, state.seatOrder, state.activePlayer,
    state.turnDirection, state.commanderCount,
    fun card => (state.objects card).map fun o => (o.name, o.isLand))

/-- Each card is once where its object says, and nowhere else; and it belongs to the same pile as
ever. -/
structure Cards (pile : ObjectId → Option PlayerId) : Prop where
  placed : ∀ card place, (state.container place).count card =
    if (state.objects card).map (fun o => state.placeIn o.zone o.owner) = some place then 1 else 0
  piled : ∀ card, (state.objects card).map (fun o => state.librarySeat o.owner) = pile card

end GameState

open GameState

section
variable {state state' : GameState Rng}

theorem librarySeat_congr (same : state'.table = state.table) :
    state'.librarySeat = state.librarySeat := by
  simp only [table, Prod.mk.injEq] at same
  funext seat
  rw [librarySeat, librarySeat, canonicalSeat, canonicalSeat, same.1, same.2.1]

variable (state) in
theorem table_removeFromZone (card : ObjectId) (zone : Zone) (owner : PlayerId) :
    (state.removeFromZone card zone owner).table = state.table := by cases zone <;> rfl

theorem container_removeFromZone (card : ObjectId) (zone : Zone) (owner : PlayerId)
    (place : Place) : (state.removeFromZone card zone owner).container place =
      if place = state.placeIn zone owner then (state.container place).filter (· ≠ card)
      else state.container place := by
  cases zone <;> cases place <;>
    simp [removeFromZone, container, placeIn, Function.update_apply] <;> split <;> simp_all

variable (state) in
theorem container_addToZone (card : ObjectId) (zone : Zone) (owner : PlayerId) (place : Place) :
    (state.addToZone card zone owner).container place =
      if place = state.placeIn zone owner then state.container place ++ [card]
      else state.container place := by
  cases zone <;> cases place <;>
    simp [addToZone, container, placeIn, Function.update_apply] <;> split <;> simp_all

end

section
variable {state : GameState Rng} {pile : ObjectId → Option PlayerId}

/-- The common part of the moves: out of one place, into another. -/
def GameState.relocate (state : GameState Rng) (card : ObjectId) (object : GameObject)
    (zone : Zone) (owner : PlayerId) : GameState Rng :=
  ((state.removeFromZone card object.zone owner).addToZone card zone owner).setObject card
    { object with zone, owner }

variable (state) in
theorem objects_relocate (card : ObjectId) (object : GameObject) (zone : Zone) (owner : PlayerId)
    (other : ObjectId) : (state.relocate card object zone owner).objects other =
      if other = card then some { object with zone, owner } else state.objects other := by
  show Function.update _ card _ other = _
  rw [Function.update_apply]
  cases zone <;> cases object.zone <;> rfl

variable {card : ObjectId}

theorem table_relocate {object : GameObject} (known : state.objects card = some object)
    (zone : Zone) (owner : PlayerId) :
    (state.relocate card object zone owner).table = state.table := by
  have faces : (fun other => ((state.relocate card object zone owner).objects other).map
      fun o => (o.name, o.isLand)) =
      fun other => (state.objects other).map fun o => (o.name, o.isLand) := by
    funext other
    rw [objects_relocate]
    split
    · next same =>
      subst same
      rw [known]
      rfl
    · rfl
  rw [table, faces]
  cases object with
  | mk name isLand owner' from_ => cases zone <;> cases from_ <;> rfl

variable (state) in
theorem container_relocate (card : ObjectId) (object : GameObject) (zone : Zone)
    (owner : PlayerId) (place : Place) : (state.relocate card object zone owner).container place =
      (if place = state.placeIn object.zone owner then (state.container place).filter (· ≠ card)
      else state.container place) ++ if place = state.placeIn zone owner then [card] else [] := by
  have seat := librarySeat_congr (table_removeFromZone state card object.zone owner)
  have same : (state.removeFromZone card object.zone owner).placeIn zone owner =
      state.placeIn zone owner := by
    cases zone <;> simp [placeIn, seat]
  have added := container_addToZone (state.removeFromZone card object.zone owner) card zone
    owner place
  rw [same, container_removeFromZone] at added
  refine Eq.trans ?_ (added.trans ?_)
  · cases place <;> rfl
  · by_cases here : place = state.placeIn zone owner
    · rw [if_pos here, if_pos here]
    · rw [if_neg here, if_neg here, List.append_nil]

theorem GameState.Cards.relocate (cards : state.Cards pile) {object : GameObject}
    (known : state.objects card = some object) {owner : PlayerId}
    (seat : state.librarySeat owner = state.librarySeat object.owner)
    (before : state.placeIn object.zone owner = state.placeIn object.zone object.owner)
    (zone : Zone) : (state.relocate card object zone owner).Cards pile := by
  have seats := librarySeat_congr (table_relocate known zone owner)
  have places : ∀ z p, (state.relocate card object zone owner).placeIn z p = state.placeIn z p := by
    intro z p
    cases z <;> simp [placeIn, seats]
  have objects := objects_relocate state card object zone owner
  refine ⟨fun other place => ?_, fun other => ?_⟩
  · simp only [objects, places]
    rw [container_relocate, List.count_append]
    by_cases same : other = card
    · subst same
      have elsewhere := cards.placed other place
      simp only [known, Option.map_some, Option.some.injEq, ← before] at elsewhere
      have gone : (if place = state.placeIn object.zone owner then
          (state.container place).filter (· ≠ other) else state.container place).count other =
          0 := by
        split
        · simp [List.count_eq_zero]
        · next away => rw [elsewhere, if_neg (Ne.symm away)]
      rw [gone]
      by_cases here : place = state.placeIn zone owner
      · simp [here]
      · simp [here, Ne.symm here]
    · rw [if_neg same, ← cards.placed other place]
      have added : (if place = state.placeIn zone owner then [card] else []).count other = 0 := by
        split <;> simp [Ne.symm same]
      rw [added, Nat.add_zero]
      split
      · rw [List.count_filter (by simpa using same)]
      · rfl
  · rw [objects, seats]
    by_cases same : other = card
    · subst same
      rw [if_pos rfl, ← cards.piled other, known]
      exact congrArg some seat
    · rw [if_neg same]
      exact cards.piled other

/-- A card in a container is where its object says. -/
theorem GameState.Cards.mem (cards : state.Cards pile) {place : Place}
    (inside : card ∈ state.container place) :
    ∃ object, state.objects card = some object ∧
      state.placeIn object.zone object.owner = place := by
  have positive := List.count_pos_iff.mpr inside
  rw [cards.placed card place] at positive
  split at positive
  · next at_ => exact Option.map_eq_some_iff.mp at_
  · cases positive

theorem GameState.Cards.nodup (cards : state.Cards pile) (place : Place) :
    (state.container place).Nodup := by
  refine List.nodup_iff_count.mpr fun card => ?_
  rw [cards.placed card place]
  split <;> omega

end
end Phase.Mulligan
