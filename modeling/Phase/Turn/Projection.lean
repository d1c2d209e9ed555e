import Phase.Turn.Order

/-! The turns that begin, and the preview of them: two implementations of the start of a turn. -/
namespace Phase.TurnOrder
open Priority List

inductive ReplacementResult where
  | execute
  | prevented
  | needsChoice
  deriving DecidableEq

/-- How one pass through the start of a turn ends: with the turn of the active player, or with a
turn that is passed over. -/
inductive Pass where
  | begins (state : ControlledGame) (events : List GameEvent)
  | recurs (state : ControlledGame) (events : List GameEvent)

namespace ControlledGame

def activePlayer (state : ControlledGame) : PlayerId := state.order.table.activePlayer

def turnKey (state : ControlledGame) : PlayerId :=
  state.order.table.normalizeSharedTurnRecipient state.activePlayer

section
variable (replaceEvent : Nat → BeginTurn → ReplacementResult)

/-- The effects that applied to the completed turn end. -/
def endTurnControl (state : ControlledGame) (events : List GameEvent) :
    ControlledGame × List GameEvent :=
  if state.turnDecisionController.isSome then
    let completedPlayer := state.activePlayer
    let completedTurnKey := state.turnKey
    let state := (state.releaseActive completedTurnKey .nextCombatPhase).1
    let (state, grantExtraTurnAfter) := state.releaseActive completedTurnKey .nextTurn
    let (order, events) :=
      if grantExtraTurnAfter then
        enqueueExtraTurn state.order completedPlayer completedTurnKey events
      else (state.order, events)
    (recomputeActivePlayerControl { state with
      order := order
      activeFullTurnControl := none
      activeCombatPhaseControl := none }, events)
  else (state, events)

/-- One pass through `start_next_turn`, up to the point where the turn has begun. -/
def startNextTurnPass (state : ControlledGame) (events : List GameEvent) : Pass :=
  let (state, events) := state.endTurnControl events
  let (order, turn) := state.order.selectTurn
  if order.skipsTurn then .recurs { state with order := order.consumeSkip } events
  else
    let proposed := { state with order := order, proposals := state.proposals + 1 }
    match replaceEvent state.proposals turn with
    | .prevented => .recurs proposed events
    | .execute | .needsChoice =>
      let activated := proposed.activateScheduledControl proposed.turnKey .nextTurn
      .begins (recomputeActivePlayerControl { activated with activeCombatPhaseControl := none })
        events

end

section
variable (beginTurnWouldBePrevented : Nat → BeginTurn → Bool)

/-- One attempt of the preview, with the slot that it adds. -/
def previewAttempt (scratch : ControlledGame) : ControlledGame × Option PlayerId :=
  let completedPlayer := scratch.activePlayer
  let completedTurnKey := scratch.order.table.normalizeSharedTurnRecipient completedPlayer
  let scratch :=
    if scratch.turnDecisionController.isSome then
      let scratch := (scratch.releaseActive completedTurnKey .nextCombatPhase).1
      let released := scratch.releaseActive completedTurnKey .nextTurn
      let scratch := released.1
      let order :=
        if released.2 then (enqueueExtraTurn scratch.order completedPlayer completedTurnKey []).1
        else scratch.order
      recomputeActivePlayerControl { scratch with
        order := order
        activeFullTurnControl := none
        activeCombatPhaseControl := none }
    else scratch
  let selected := scratch.order.selectTurn
  let scratch := { scratch with order := selected.1 }
  if scratch.order.skipsTurn then
    ({ scratch with order := scratch.order.consumeSkip }, none)
  else
    let probe := beginTurnWouldBePrevented scratch.proposals
      ⟨scratch.activePlayer, selected.2.isExtraTurn⟩
    let scratch := { scratch with proposals := scratch.proposals + 1 }
    if probe then (scratch, none)
    else
      let slot := scratch.activePlayer
      let activeTurnKey := scratch.order.table.normalizeSharedTurnRecipient scratch.activePlayer
      let scratch := scratch.activateScheduledControl activeTurnKey .nextTurn
      (recomputeActivePlayerControl { scratch with activeCombatPhaseControl := none }, some slot)

/-- The attempts that are left, while slots are missing. -/
def previewSlots (maxSlots : Nat) : Nat → ControlledGame → List PlayerId → List PlayerId
  | 0, _, slots => slots
  | attempts + 1, scratch, slots =>
    if slots.length < maxSlots then
      match previewAttempt beginTurnWouldBePrevented scratch with
      | (scratch, none) => previewSlots maxSlots attempts scratch slots
      | (scratch, some slot) => previewSlots maxSlots attempts scratch (slots ++ [slot])
    else slots

def projectedTurnOrder (state : ControlledGame) (maxSlots : Nat) : List PlayerId :=
  if maxSlots = 0 then []
  else
    let skipBudget := state.order.turnsToSkip.sum
    let attemptCap := maxSlots + skipBudget + state.order.extraTurns.length +
      state.scheduledTurnControls.length * 2 + 16
    previewSlots beginTurnWouldBePrevented maxSlots attemptCap state
      [state.order.table.normalizeSharedTurnRecipient state.activePlayer]

end

variable {replaceEvent : Nat → BeginTurn → ReplacementResult}
  {beginTurnWouldBePrevented : Nat → BeginTurn → Bool}

/-- A call of `start_next_turn` that returns. A turn that is passed over starts the next one. -/
inductive StartNextTurn (replaceEvent : Nat → BeginTurn → ReplacementResult) :
    ControlledGame → List GameEvent → ControlledGame → List GameEvent → Prop
  | begins {state state' : ControlledGame} {events events' : List GameEvent} :
      startNextTurnPass replaceEvent state events = .begins state' events' →
      StartNextTurn replaceEvent state events state' events'
  | recurs {state middle state' : ControlledGame} {events events' events'' : List GameEvent} :
      startNextTurnPass replaceEvent state events = .recurs middle events' →
      StartNextTurn replaceEvent middle events' state' events'' →
      StartNextTurn replaceEvent state events state' events''

/-- The players whose turns begin one after another. -/
inductive Turns (replaceEvent : Nat → BeginTurn → ReplacementResult) :
    ControlledGame → List GameEvent → List PlayerId → Prop
  | done {state : ControlledGame} {events : List GameEvent} : Turns replaceEvent state events []
  | next {state state' : ControlledGame} {events events' : List GameEvent}
      {players : List PlayerId} :
      StartNextTurn replaceEvent state events state' events' →
      Turns replaceEvent state' events' players →
      Turns replaceEvent state events (state'.activePlayer :: players)

theorem StartNextTurn.unique {state a b : ControlledGame} {events ea eb : List GameEvent}
    (ha : StartNextTurn replaceEvent state events a ea)
    (hb : StartNextTurn replaceEvent state events b eb) : a = b ∧ ea = eb := by
  induction ha with
  | begins pass =>
    cases hb with
    | begins pass' =>
      rw [pass] at pass'
      cases pass'
      exact ⟨rfl, rfl⟩
    | recurs pass' _ =>
      rw [pass] at pass'
      cases pass'
  | recurs pass _ ih =>
    cases hb with
    | begins pass' =>
      rw [pass] at pass'
      cases pass'
    | recurs pass' rest =>
      rw [pass] at pass'
      cases pass'
      exact ih rest

/-- Of two runs of turns one goes on from the other. -/
theorem Turns.comparable {state : ControlledGame} {events : List GameEvent}
    {players players' : List PlayerId} (h : Turns replaceEvent state events players)
    (h' : Turns replaceEvent state events players') : players <+: players' ∨ players' <+: players := by
  induction h generalizing players' with
  | done => exact .inl nil_prefix
  | next starts _ ih =>
    cases h' with
    | done => exact .inr nil_prefix
    | next starts' rest' =>
      obtain ⟨rfl, rfl⟩ := starts.unique starts'
      obtain before | after := ih rest'
      · exact .inl (prefix_cons_inj _ |>.mpr before)
      · exact .inr (prefix_cons_inj _ |>.mpr after)

theorem Turns.recurs {state middle : ControlledGame} {events events' : List GameEvent}
    {players : List PlayerId}
    (pass : startNextTurnPass replaceEvent state events = .recurs middle events')
    (rest : Turns replaceEvent middle events' players) : Turns replaceEvent state events players := by
  cases rest with
  | done => exact .done
  | next starts rest => exact .next (.recurs pass starts) rest

/-- What the preview does when a turn is completed is what play does. -/
theorem preview_endTurnControl (state : ControlledGame) (events : List GameEvent) :
    (if state.turnDecisionController.isSome then
      let scratch := (state.releaseActive state.turnKey .nextCombatPhase).1
      let released := scratch.releaseActive state.turnKey .nextTurn
      recomputeActivePlayerControl { released.1 with
        order := if released.2 then
            (enqueueExtraTurn released.1.order state.activePlayer state.turnKey []).1
          else released.1.order
        activeFullTurnControl := none
        activeCombatPhaseControl := none }
    else state) = (state.endTurnControl events).1 := by
  unfold endTurnControl
  by_cases controlled : state.turnDecisionController.isSome
  · simp only [if_pos controlled]
    split <;> rfl
  · simp only [if_neg controlled]

theorem activePlayer_begins (state : ControlledGame) :
    (recomputeActivePlayerControl { state.activateScheduledControl state.turnKey .nextTurn with
      activeCombatPhaseControl := none }).activePlayer = state.activePlayer :=
  congrArg (·.table.activePlayer) (activate_spec state state.turnKey .nextTurn).1

/-- An attempt of the preview does what a pass of play does, with the same verdict on the turn. -/
theorem previewAttempt_cases
    (agree : ∀ n turn, beginTurnWouldBePrevented n turn ↔ replaceEvent n turn = .prevented)
    (state : ControlledGame) (events : List GameEvent) :
    (∃ scratch events', previewAttempt beginTurnWouldBePrevented state = (scratch, none) ∧
      startNextTurnPass replaceEvent state events = .recurs scratch events') ∨
    ∃ scratch events', previewAttempt beginTurnWouldBePrevented state =
        (scratch, some scratch.activePlayer) ∧
      startNextTurnPass replaceEvent state events = .begins scratch events' := by
  have ended := preview_endTurnControl state events
  unfold previewAttempt startNextTurnPass
  dsimp only at ended ⊢
  rw [show state.order.table.normalizeSharedTurnRecipient state.activePlayer = state.turnKey
    from rfl, ended]
  obtain ⟨⟨after, events'⟩, isAfter⟩ : ∃ p, state.endTurnControl events = p := ⟨_, rfl⟩
  rw [isAfter]
  by_cases skips : after.order.selectTurn.1.skipsTurn
  · left
    rw [if_pos skips, if_pos skips]
    exact ⟨_, _, rfl, rfl⟩
  · rw [if_neg skips, if_neg skips]
    have same : (⟨activePlayer { after with order := after.order.selectTurn.1 },
        after.order.selectTurn.2.isExtraTurn⟩ : BeginTurn) = after.order.selectTurn.2 := rfl
    rw [same]
    have verdict := agree after.proposals after.order.selectTurn.2
    cases result : replaceEvent after.proposals after.order.selectTurn.2 with
    | prevented =>
      left
      rw [if_pos (verdict.mpr result)]
      exact ⟨_, _, rfl, rfl⟩
    | execute | needsChoice =>
      right
      rw [if_neg (by rw [verdict, result]; nofun)]
      refine ⟨_, events', ?_, rfl⟩
      rw [activePlayer_begins]
      rfl

section
variable (agree : ∀ n turn, beginTurnWouldBePrevented n turn ↔ replaceEvent n turn = .prevented)

include agree

/-- The slots that are added are turns that begin, whatever the number of attempts. -/
theorem previewSlots_turns (maxSlots attempts : Nat) (state : ControlledGame)
    (slots : List PlayerId) (events : List GameEvent) :
    ∃ begun, previewSlots beginTurnWouldBePrevented maxSlots attempts state slots = slots ++ begun ∧
      Turns replaceEvent state events begun := by
  induction attempts generalizing state slots events with
  | zero => exact ⟨[], (append_nil slots).symm, .done⟩
  | succ attempts ih =>
    unfold previewSlots
    by_cases missing : slots.length < maxSlots
    · rw [if_pos missing]
      obtain ⟨scratch, events', attempt, pass⟩ | ⟨scratch, events', attempt, pass⟩ :=
        previewAttempt_cases agree state events
      · rw [attempt]
        obtain ⟨begun, added, turns⟩ := ih scratch slots events'
        exact ⟨begun, added, turns.recurs pass⟩
      · rw [attempt]
        obtain ⟨begun, added, turns⟩ := ih scratch (slots ++ [scratch.activePlayer]) events'
        refine ⟨scratch.activePlayer :: begun, ?_, .next (.begins pass) turns⟩
        dsimp only
        rw [added, append_assoc]
        rfl
    · rw [if_neg missing]
      exact ⟨[], (append_nil slots).symm, .done⟩

end

/-- How many turns can still be passed over: those that are to be skipped, and the extra turns,
with those that controls grant. -/
def budget (state : ControlledGame) : Nat :=
  state.order.turnsToSkip.sum + state.order.extraTurns.length + state.scheduledTurnControls.length

theorem endTurnControl_budget (state : ControlledGame) (events : List GameEvent) :
    (state.endTurnControl events).1.budget ≤ state.budget := by
  unfold endTurnControl
  by_cases controlled : state.turnDecisionController.isSome
  · obtain ⟨order, -, fewer⟩ := releaseActive_spec state state.turnKey .nextCombatPhase
    obtain ⟨⟨first, granted⟩, isFirst⟩ :
      ∃ p, state.releaseActive state.turnKey .nextCombatPhase = p := ⟨_, rfl⟩
    rw [isFirst] at order fewer
    obtain ⟨order', -, fewer'⟩ := releaseActive_spec first state.turnKey .nextTurn
    obtain ⟨⟨second, grants⟩, isSecond⟩ :
      ∃ p, first.releaseActive state.turnKey .nextTurn = p := ⟨_, rfl⟩
    rw [isSecond] at order' fewer'
    dsimp only at order order' fewer fewer'
    simp only [if_pos controlled, isFirst, isSecond]
    cases grants with
    | false =>
      simp only [budget, Bool.false_eq_true, if_false, recompute_order, recompute_scheduled,
        order', order]
      omega
    | true =>
      rw [Bool.toNat_true] at fewer'
      simp only [budget, if_true, recompute_order, recompute_scheduled, enqueueExtraTurn, order',
        order, length_append, length_singleton]
      omega
  · simp only [if_neg controlled]
    exact Nat.le_refl _

theorem selectTurn_extraTurns (order : GameState) :
    order.selectTurn.1.extraTurns.length + order.selectTurn.2.isExtraTurn.toNat =
      order.extraTurns.length := by
  obtain drained | ⟨queue, entry, queued⟩ := eq_nil_or_concat' order.extraTurns
  · rw [GameState.selectTurn_drained drained]
    rfl
  · rw [GameState.selectTurn_queued queued, queued, length_append]
    rfl

/-- A pass that begins no turn uses up the budget, when only extra turns are prevented. -/
theorem pass_budget (state : ControlledGame) (events : List GameEvent) :
    match startNextTurnPass replaceEvent state events with
    | .begins state' _ => state'.budget ≤ state.budget
    | .recurs state' _ =>
      (∀ n turn, replaceEvent n turn = .prevented → turn.isExtraTurn) →
        state'.budget < state.budget := by
  have ended := endTurnControl_budget state events
  unfold startNextTurnPass
  obtain ⟨⟨after, events'⟩, isAfter⟩ : ∃ p, state.endTurnControl events = p := ⟨_, rfl⟩
  rw [isAfter] at ended ⊢
  dsimp only at ended ⊢
  have popped := selectTurn_extraTurns after.order
  have owed := GameState.selectTurn_turnsToSkip after.order
  by_cases skips : after.order.selectTurn.1.skipsTurn
  · rw [if_pos skips]
    have fewer := GameState.consumeSkip_sum_lt skips
    rw [owed] at fewer
    have same : after.order.selectTurn.1.consumeSkip.extraTurns =
        after.order.selectTurn.1.extraTurns := rfl
    unfold budget at ended ⊢
    dsimp only
    rw [same]
    omega
  · rw [if_neg skips]
    obtain ⟨proposed, isProposed⟩ : ∃ proposed : ControlledGame, { after with
      order := after.order.selectTurn.1
      proposals := after.proposals + 1 } = proposed := ⟨_, rfl⟩
    have left : proposed.budget + after.order.selectTurn.2.isExtraTurn.toNat ≤ state.budget := by
      rw [← isProposed]
      unfold budget at ended ⊢
      dsimp only
      rw [owed]
      omega
    have activated := activate_spec proposed proposed.turnKey .nextTurn
    have begun : (recomputeActivePlayerControl
        { proposed.activateScheduledControl proposed.turnKey .nextTurn with
          activeCombatPhaseControl := none }).budget ≤ proposed.budget := by
      unfold budget
      rw [recompute_order, recompute_scheduled]
      dsimp only
      rw [activated.1]
      omega
    rw [isProposed]
    cases verdict : replaceEvent after.proposals after.order.selectTurn.2 with
    | prevented =>
      intro extra
      rw [extra _ _ verdict] at left
      exact left
    | execute => exact begun.trans (by omega)
    | needsChoice => exact begun.trans (by omega)

section
variable (agree : ∀ n turn, beginTurnWouldBePrevented n turn ↔ replaceEvent n turn = .prevented)

include agree

/-- Enough attempts fill all slots. -/
theorem previewSlots_length (extra : ∀ n turn, replaceEvent n turn = .prevented → turn.isExtraTurn)
    {maxSlots attempts : Nat} {state : ControlledGame} {slots : List PlayerId}
    (room : slots.length ≤ maxSlots)
    (enough : maxSlots - slots.length + state.budget ≤ attempts) :
    (previewSlots beginTurnWouldBePrevented maxSlots attempts state slots).length = maxSlots := by
  induction attempts generalizing state slots with
  | zero =>
    unfold previewSlots
    omega
  | succ attempts ih =>
    unfold previewSlots
    by_cases missing : slots.length < maxSlots
    · rw [if_pos missing]
      have used := @pass_budget replaceEvent state []
      obtain ⟨scratch, events', attempt, pass⟩ | ⟨scratch, events', attempt, pass⟩ :=
        previewAttempt_cases agree state []
      · rw [pass] at used
        have fewer := used extra
        rw [attempt]
        exact ih room (by omega)
      · rw [pass] at used
        rw [attempt]
        apply ih
        · rw [length_append, length_singleton]
          omega
        · rw [length_append, length_singleton]
          omega
    · rw [if_neg missing]
      omega

/-- The turns that begin in play start with the projected ones after the first slot, and the
projection is full where only extra turns are prevented. -/
theorem projectedTurnOrder_agrees (state : ControlledGame) (events : List GameEvent)
    (maxSlots : Nat) :
    Turns replaceEvent state events
        (projectedTurnOrder beginTurnWouldBePrevented state maxSlots).tail ∧
      (∀ players, Turns replaceEvent state events players →
        players <+: (projectedTurnOrder beginTurnWouldBePrevented state maxSlots).tail ∨
        (projectedTurnOrder beginTurnWouldBePrevented state maxSlots).tail <+: players) ∧
      ((∀ n turn, replaceEvent n turn = .prevented → turn.isExtraTurn) →
        (projectedTurnOrder beginTurnWouldBePrevented state maxSlots).length = maxSlots) := by
  have begin_ : Turns replaceEvent state events
      (projectedTurnOrder beginTurnWouldBePrevented state maxSlots).tail := by
    unfold projectedTurnOrder
    by_cases none : maxSlots = 0
    · rw [if_pos none]
      exact .done
    · rw [if_neg none]
      dsimp only
      obtain ⟨begun, added, turns⟩ := previewSlots_turns agree maxSlots
        (maxSlots + state.order.turnsToSkip.sum + state.order.extraTurns.length +
          state.scheduledTurnControls.length * 2 + 16) state
        [state.order.table.normalizeSharedTurnRecipient state.activePlayer] events
      rw [added]
      exact turns
  refine ⟨begin_, fun players turns => turns.comparable begin_, ?_⟩
  intro extra
  unfold projectedTurnOrder
  by_cases none : maxSlots = 0
  · rw [if_pos none, none]
    rfl
  · rw [if_neg none]
    apply previewSlots_length agree extra
    · rw [length_singleton]
      omega
    · unfold budget
      omega

end

/-- The turn of the second of three players is to be skipped, the third has an extra turn, and the
first controls the next turn of the third, who gets another one after it. -/
def controlledPod : ControlledGame where
  order := {
    table := {
      players := [⟨0, false⟩, ⟨1, false⟩, ⟨2, false⟩]
      seatOrder := [0, 1, 2]
      formatConfig := ⟨.constructed, false, none⟩
      activePlayer := 0
      turnDirection := .normal }
    turnNumber := 1
    extraTurns := [⟨2, 0⟩]
    extraTurnSequenceAnchor := none
    turnsToSkip := [0, 1, 0] }
  scheduledTurnControls := [⟨2, 0, 5, true, .nextTurn⟩]
  activeFullTurnControl := none
  activeCombatPhaseControl := none
  turnDecisionController := none
  turnDecisionControlTimestamp := none
  proposals := 0

theorem projectedTurnOrder_agrees_pod :
    projectedTurnOrder (fun _ _ => false) controlledPod 5 = [0, 2, 2, 2, 0] ∧
      Turns (fun _ _ => .execute) controlledPod [] [2, 2, 2, 0] := by
  have slots : projectedTurnOrder (fun _ _ => false) controlledPod 5 = [0, 2, 2, 2, 0] := by
    decide +kernel
  refine ⟨slots, ?_⟩
  have turns := (@projectedTurnOrder_agrees (fun _ _ => .execute) (fun _ _ => false) (by simp)
    controlledPod [] 5).1
  rw [slots] at turns
  exact turns

end ControlledGame
end Phase.TurnOrder
