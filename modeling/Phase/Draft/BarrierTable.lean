import Phase.Draft.BarrierRun
import Phase.Draft.FifoTable

/-! The barrier flow refines the table too: a seat that has picked has, in effect,
already handed its pack on. -/
namespace Phase.Draft
open List Table

/-- A pack worth queueing. -/
def queued (pack : DraftPack) : List DraftPack := if pack = [] then [] else [pack]

/-- The seat that passes to `seat`. -/
def origin (session : DraftSession) (seat : Nat) : Nat :=
  (seat + turn session.passDirection session.seats.length) % session.seats.length

def barrierTable (session : DraftSession) : Table DraftCardInstance where
  queues seat :=
    if seat < session.seats.length then
      (if picked session seat then [] else queued (heldPack session seat)) ++
        (if picked session (origin session seat) then queued (heldPack session (origin session seat))
          else [])
    else []
  pools seat := session.pools.getD seat []
  futures seat := session.packsBySeat.getD seat []
  round := session.currentPackNumber

/-- A barrier session between two picks, no id twice in a pack. -/
structure BarrierSeated (session : DraftSession) : Prop where
  shape : BarrierShape session
  phase : BarrierPhase session
  direction : session.status = .drafting →
    session.passDirection = PassDirection.forPack session.currentPackNumber
  named : ∀ seat < session.seats.length, ((heldPack session seat).map (·.instanceId)).Nodup
  unopened : ∀ future ∈ session.packsBySeat, ∀ pack ∈ future, (pack.map (·.instanceId)).Nodup

theorem origin_lt {session : DraftSession} (seated : 0 < session.seats.length) (seat : Nat) :
    origin session seat < session.seats.length := Nat.mod_lt _ seated

theorem origin_eq_iff {session : DraftSession} {seat giver : Nat}
    (bound : seat < session.seats.length) (giverBound : giver < session.seats.length) :
    origin session seat = giver ↔
      seat = session.passDirection.nextSeat giver session.seats.length := by
  have back := nextSeat_turn session.passDirection bound
  constructor
  · rintro rfl
    exact back.symm
  · intro given
    refine nextSeat_injective session.passDirection (origin_lt (by omega) seat) giverBound ?_
    rw [← given]
    exact back

theorem front_of_owing {session : DraftSession} {seat : Nat}
    (bound : seat < session.seats.length) (unpicked : picked session seat = false)
    (owes : owesPick session seat = true) :
    ∃ rest, (barrierTable session).queues seat = heldPack session seat :: rest := by
  have nonempty := owesPick_iff.mp owes
  simp [barrierTable, bound, unpicked, queued, nonempty]

variable {rules : TableRules DraftCardInstance}

theorem barrierTable_marked {rules : TableRules DraftCardInstance} {session : DraftSession}
    (shape : BarrierShape session) {seat : Nat} {left taken : DraftPack}
    (bound : seat < session.seats.length) (fresh : picked session seat = false)
    (owes : owesPick session seat = true)
    (next : rules.next session.currentPackNumber seat =
      session.passDirection.nextSeat seat session.seats.length) :
    barrierTable (markPicked
        (redeal session seat left (session.pools.getD seat [] ++ taken)) seat) =
      draftAt rules (barrierTable session) seat left taken := by
  have ownPool : seat < session.pools.length := shape.pools ▸ bound
  have held := heldPack_redeal shape bound left (session.pools.getD seat [] ++ taken)
  have flags := picked_markPicked (shape.redeal seat left (session.pools.getD seat [] ++ taken))
    bound
  have nonempty := owesPick_iff.mp owes
  refine Table.ext (funext fun k => ?_) (funext fun k => ?_) rfl rfl
  · have givenTo := @origin_eq_iff session k seat
    have heldAt : ∀ other, heldPack (markPicked (redeal session seat left
        (session.pools.getD seat [] ++ taken)) seat) other =
        if other = seat then left else heldPack session other := held
    have flagAt : ∀ other, picked (markPicked (redeal session seat left
        (session.pools.getD seat [] ++ taken)) seat) other =
        (decide (other = seat) || picked session other) := flags
    simp only [barrierTable, draftAt, handed, next, heldAt, flagAt]
    have seats : (markPicked (redeal session seat left
        (session.pools.getD seat [] ++ taken)) seat).seats = session.seats := rfl
    have origins : origin (markPicked (redeal session seat left
        (session.pools.getD seat [] ++ taken)) seat) k = origin session k := rfl
    rw [seats, origins]
    by_cases inside : k < session.seats.length
    · have givenTo := givenTo inside bound
      simp only [inside, if_true]
      by_cases own : k = seat
      · subst own
        by_cases itself : origin session k = k
        · have given := givenTo.mp itself
          simp [itself, ← given, fresh, nonempty, queued]
        · have given : k ≠ session.passDirection.nextSeat k session.seats.length :=
            fun h => itself (givenTo.mpr h)
          simp [itself, given, fresh, nonempty, queued]
      · by_cases given : origin session k = seat
        · have := givenTo.mp given
          simp [own, given, ← this, fresh, queued]
        · have : k ≠ session.passDirection.nextSeat seat session.seats.length :=
            fun h => given (givenTo.mpr h)
          simp [own, given, this]
    · have outside : k ≠ session.passDirection.nextSeat seat session.seats.length := by
        have := nextSeat_lt session.passDirection seat shape.seated
        omega
      have other : k ≠ seat := by omega
      simp [inside, other, outside]
  · simp only [barrierTable, draftAt, markPicked, redeal, setPool, setPack, Indexed.getD_set]
    by_cases own : k = seat
    · simp [own, ownPool]
    · simp [own, Ne.symm own]

/-- Once everybody has picked, what waits at a seat is what its neighbour left. -/
theorem queues_of_complete {session : DraftSession} (shape : BarrierShape session)
    (complete : roundComplete session = true) {seat : Nat}
    (bound : seat < session.seats.length) :
    (barrierTable session).queues seat = queued (heldPack session (origin session seat)) := by
  have served : ∀ other < session.seats.length, picked session other = false →
      heldPack session other = [] := by
    intro other inside unpicked
    have := all_eq_true.mp complete other (mem_range.mpr inside)
    rw [show session.seatsPickedThisRound.getD other false = false from unpicked] at this
    simpa [owesPick] using this
  have own : (if picked session seat then [] else queued (heldPack session seat)) = [] := by
    cases flag : picked session seat with
    | true => rfl
    | false => simp [served seat bound flag, queued]
  have handed : (if picked session (origin session seat) then
      queued (heldPack session (origin session seat)) else []) =
        queued (heldPack session (origin session seat)) := by
    cases flag : picked session (origin session seat) with
    | true => rfl
    | false => simp [served _ (origin_lt shape.seated seat) flag, queued]
  simp only [barrierTable, bound, if_true]
  rw [own, handed, nil_append]

theorem heldPack_of_packsEmpty {session : DraftSession} (empty : packsEmpty session = true)
    (seat : Nat) : heldPack session seat = [] := by
  have hands := sum_heldCards_eq_zero.mp ((packsEmpty_iff session).mp empty)
  unfold heldPack
  cases at_ : session.currentPack[seat]? with
  | none => rfl
  | some held =>
    have := hands held (mem_of_getElem? at_)
    cases held with
    | none => rfl
    | some pack => simpa using this

theorem queues_of_empty {session : DraftSession} (empty : packsEmpty session = true) (seat : Nat) :
    (barrierTable session).queues seat = [] := by
  simp [barrierTable, heldPack_of_packsEmpty empty, queued]

section
variable {session : DraftSession} (shape : BarrierShape session)
include shape

theorem heldPack_passPacks {seat : Nat} (bound : seat < session.seats.length) :
    heldPack (passPacks session) seat = heldPack session (origin session seat) := by
  have inside : seat < session.currentPack.length := shape.packs ▸ bound
  simp only [heldPack, passPacks, passAround_eq_rotate _ shape.packs,
    getElem?_rotate inside, origin, shape.packs]

theorem undrained_of_held (complete : roundComplete session = true)
    (pod : rules.podSize = session.seats.length) (held : packsEmpty session = false) :
    ¬Drained rules (barrierTable session) := by
  obtain ⟨giver, bound, owes⟩ := exists_owesPick held
  have giverBound : giver < session.seats.length := shape.packs ▸ bound
  have receives := nextSeat_lt session.passDirection giver shape.seated
  intro drained
  have waits := drained _ (Nat.lt_of_lt_of_eq receives pod.symm)
  rw [queues_of_complete shape complete receives,
    (origin_eq_iff receives giverBound).mpr rfl] at waits
  have nonempty := owesPick_iff.mp owes
  simp [queued, nonempty] at waits

theorem heldPack_openPacks (empty : packsEmpty session = true) (seat : Nat) :
    heldPack (openPacks session) seat = (session.packsBySeat.getD seat []).headD [] := by
  have blank := heldPack_of_packsEmpty empty seat
  simp only [heldPack, openPacks, getElem?_zipWith] at blank ⊢
  cases atHand : session.currentPack[seat]? with
  | none =>
    have outside : session.packsBySeat[seat]? = none := by
      rw [getElem?_eq_none_iff] at atHand ⊢
      have := shape.packs
      have := shape.futures
      omega
    simp [outside]
  | some held =>
    cases atFuture : session.packsBySeat[seat]? with
    | none =>
      rw [getElem?_eq_none_iff] at atFuture
      have := (List.getElem?_eq_some_iff.mp atHand).1
      have := shape.packs
      have := shape.futures
      omega
    | some future =>
      rw [atHand] at blank
      cases future with
      | nil => simpa [atFuture, openNext] using blank
      | cons next later => simp [atFuture, openNext]

theorem endStep_settles (complete : roundComplete session = true) (supplied : Supplied session)
    (pod : rules.podSize = session.seats.length)
    (rounds : rules.packCount = session.config.packCount) :
    barrierTable (endStep session).1 = settle rules (barrierTable session) := by
  have cleared := shape.clearFlags
  unfold endStep
  dsimp only
  split
  · next empty =>
    have none_ := @queues_of_empty session empty
    have drained : Drained rules (barrierTable session) := fun seat _ => none_ seat
    have here : 0 < session.packsBySeat.length := shape.futures ▸ shape.seated
    have count := supplied _ (getElem_mem here)
    split
    · next last =>
      have last : session.config.packCount ≤ session.currentPackNumber + 1 := last
      rw [settle_of_last drained (show session.currentPackNumber + 1 = rules.packCount by omega)]
      refine Table.ext (funext fun k => ?_) rfl rfl rfl
      exact (@queues_of_empty { nextRound (clearFlags session) with status := .deckbuilding }
        empty k).trans (none_ k).symm
    · next more =>
      have more : ¬session.config.packCount ≤ session.currentPackNumber + 1 := more
      rw [settle_of_more drained (show session.currentPackNumber + 1 ≠ rules.packCount by omega)]
      refine Table.ext (funext fun k => ?_) rfl (funext fun k => ?_) rfl
      · have held := heldPack_openPacks cleared.nextRound empty k
        have unpicked : ∀ seat, picked (openPacks (nextRound (clearFlags session))) seat = false :=
          picked_clearFlags session
        have sameSeats : (openPacks (nextRound (clearFlags session))).seats = session.seats := rfl
        simp only [barrierTable, unpicked, held, sameSeats]
        by_cases inside : k < session.seats.length
        · have insideF : k < session.packsBySeat.length := shape.futures ▸ inside
          have future : (nextRound (clearFlags session)).packsBySeat.getD k [] =
              session.packsBySeat[k] := getD_eq_getElem _ _ insideF
          have future' : session.packsBySeat.getD k [] = session.packsBySeat[k] :=
            getD_eq_getElem _ _ insideF
          rw [future, future']
          cases row : session.packsBySeat[k] with
          | nil => simp [queued]
          | cons pack later =>
            have nonempty := shape.unopened _ (getElem_mem insideF) pack (row ▸ mem_cons_self)
            simp [inside, queued, nonempty]
        · have outside : session.packsBySeat[k]? = none := by
            rw [getElem?_eq_none_iff, shape.futures]
            omega
          simp [inside, outside]
      · simp only [barrierTable, openPacks, nextRound, clearFlags, getD_eq_getElem?_getD,
          getElem?_map]
        cases session.packsBySeat[k]? <;> rfl
  · next held =>
    have held : packsEmpty session = false := Bool.eq_false_iff.mpr held
    rw [settle_of_undrained (undrained_of_held shape complete pod held)]
    refine Table.ext (funext fun k => ?_) rfl rfl rfl
    by_cases inside : k < session.seats.length
    · rw [queues_of_complete shape complete inside]
      have passed := heldPack_passPacks cleared inside
      have unpicked : ∀ seat, picked (passPacks (clearFlags session)) seat = false :=
        picked_clearFlags session
      have sameSeats : (passPacks (clearFlags session)).seats = session.seats := rfl
      simp only [barrierTable, unpicked, sameSeats, inside, passed]
      simp [origin, heldPack, clearFlags]
    · have sameSeats : (passPacks (clearFlags session)).seats = session.seats := rfl
      simp [barrierTable, sameSeats, inside]

theorem named_endStep
    (named : ∀ seat < session.seats.length, ((heldPack session seat).map (·.instanceId)).Nodup)
    (unopened : ∀ future ∈ session.packsBySeat, ∀ pack ∈ future, (pack.map (·.instanceId)).Nodup) :
    (∀ seat < session.seats.length,
        ((heldPack (endStep session).1 seat).map (·.instanceId)).Nodup) ∧
      (∀ future ∈ (endStep session).1.packsBySeat, ∀ pack ∈ future,
        (pack.map (·.instanceId)).Nodup) := by
  have cleared := shape.clearFlags
  unfold endStep
  dsimp only
  split
  · next empty =>
    split
    · exact ⟨named, unopened⟩
    · refine ⟨fun seat bound => ?_, ?_⟩
      · rw [heldPack_openPacks cleared.nextRound empty]
        have insideF : seat < session.packsBySeat.length := shape.futures ▸ bound
        have future : (nextRound (clearFlags session)).packsBySeat.getD seat [] =
            session.packsBySeat[seat] := getD_eq_getElem _ _ insideF
        rw [future]
        cases row : session.packsBySeat[seat] with
        | nil => simp
        | cons pack later =>
          exact unopened _ (getElem_mem insideF) pack (row ▸ mem_cons_self)
      · intro future mem pack inside
        obtain ⟨whole, member, rfl⟩ := mem_map.mp mem
        exact unopened whole member pack (mem_of_mem_tail inside)
  · refine ⟨fun seat bound => ?_, unopened⟩
    rw [heldPack_passPacks cleared bound]
    exact named _ (origin_lt shape.seated seat)

end

theorem direction_endStep {session : DraftSession}
    (direction : session.passDirection = PassDirection.forPack session.currentPackNumber)
    (drafting : (endStep session).1.status = .drafting) :
    (endStep session).1.passDirection =
      PassDirection.forPack (endStep session).1.currentPackNumber := by
  revert drafting
  unfold endStep
  dsimp only
  split
  · split
    · intro done
      cases done
    · intro _
      rfl
  · intro _
    exact direction

theorem config_endStep (session : DraftSession) : (endStep session).1.config = session.config := by
  unfold endStep
  dsimp only
  split
  · split <;> rfl
  · rfl

/-- An accepted pick of what `choose` says is a step of the table. -/
theorem pick_steps {session next : DraftSession} {seat : Nat} {deltas : List DraftDelta}
    {choose : Nat → DraftPack → List DraftCardInstance → List String}
    (seated : BarrierSeated session)
    (h : applyPick session seat (choose seat (heldPack session seat)
      (session.pools.getD seat [])) = .ok (next, deltas)) :
    BarrierSeated next ∧ next.config = session.config ∧ next.seats = session.seats ∧
      step (draftRules session.seats.length session.config.packCount choose) seat
        (barrierTable session) = some (barrierTable next) := by
  obtain ⟨left, taken, takes, _, _, move, result⟩ := applyPick_ok seated.shape h
  have supplied := seated.phase.supplied move.drafting
  have direction := seated.direction move.drafting
  have split := takes.eq_splitNamed (seated.named seat move.bound)
  let rules := draftRules session.seats.length session.config.packCount choose
  let dealt := redeal session seat left (session.pools.getD seat [] ++ taken)
  have moved := seated.shape.redeal seat left (session.pools.getD seat [] ++ taken)
  have marked := moved.markPicked seat
  have table := @barrierTable_marked rules session seated.shape seat left taken move.bound
    move.fresh move.owes (congrArg (fun d => PassDirection.nextSeat d seat session.seats.length)
      direction.symm)
  have named : ∀ other < session.seats.length,
      ((heldPack (markPicked dealt seat) other).map (·.instanceId)).Nodup := by
    intro other bound
    have held : heldPack (markPicked dealt seat) other =
        if other = seat then left else heldPack session other :=
      heldPack_redeal seated.shape move.bound left (session.pools.getD seat [] ++ taken) other
    rw [held]
    split
    · exact (seated.named seat move.bound).sublist (takes.kept.map _)
    · exact seated.named other bound
  obtain ⟨shape', phase', _, _, seats', _⟩ :=
    finishPick_spec moved move.drafting supplied move.bound
      (choose seat (heldPack session seat) (session.pools.getD seat []))
  rw [← result] at shape' phase' seats'
  have stepped (settled : barrierTable next = settle rules (barrierTable (markPicked dealt seat))) :
      step rules seat (barrierTable session) = some (barrierTable next) := by
    rw [step_eq_some]
    obtain ⟨rest, front⟩ := front_of_owing move.bound move.fresh move.owes
    refine ⟨move.bound, heldPack session seat, rest, front, ?_⟩
    have drafted : rules.draft seat (heldPack session seat)
        ((barrierTable session).pools seat) = (left, taken) := split.symm
    rw [settled, table, drafted]
  simp only [finishPick] at result
  split at result
  · next complete =>
    obtain ⟨rfl, _⟩ := Prod.mk.inj result
    obtain ⟨named', unopened'⟩ := named_endStep marked named seated.unopened
    refine ⟨⟨shape', phase', direction_endStep direction, ?_, unopened'⟩, config_endStep _, seats',
      stepped (endStep_settles marked complete supplied rfl rfl)⟩
    intro other bound
    rw [seats'] at bound
    exact named' other bound
  · next incomplete =>
    obtain ⟨rfl, _⟩ := Prod.mk.inj result
    refine ⟨⟨shape', phase', fun _ => direction, named, seated.unopened⟩, rfl, rfl, stepped ?_⟩
    rw [settle_of_undrained]
    -- A seat that still owes its pick keeps the table from being drained.
    simp only [roundComplete, all_eq_true, mem_range, Bool.or_eq_true,
      Bool.not_eq_true', not_forall, not_or, Bool.not_eq_false, Bool.not_eq_true] at incomplete
    obtain ⟨waiting, inside, owes, unpicked⟩ := incomplete
    obtain ⟨rest, front⟩ := front_of_owing inside unpicked owes
    intro drained
    have empty := drained waiting inside
    rw [front] at empty
    cases empty

theorem drained_of_deckbuilding {session : DraftSession} (seated : BarrierSeated session)
    (done : session.status = .deckbuilding) : Drained rules (barrierTable session) := by
  rcases seated.phase with ⟨drafting, _⟩ | ⟨_, zero⟩
  · rw [done] at drafting
    cases drafting
  · have hands : (session.currentPack.map heldCards).sum = 0 := (add_eq_zero.mp zero).1
    exact fun seat _ => queues_of_empty ((packsEmpty_iff session).mpr hands) seat

end Phase.Draft
