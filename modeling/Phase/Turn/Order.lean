import Mathlib.Algebra.GroupWithZero.Nat
import Phase.Priority.Topology

/-! Whose turn comes next: extra turns wait on a stack, and the natural order resumes after the turn
they were inserted behind. Players who control the turns of others wait on a schedule for the turn
or the combat phase of their target. -/
namespace Phase.TurnOrder
open Priority

structure ExtraTurn where
  player : PlayerId
  anchor : PlayerId
  deriving DecidableEq

inductive GameEvent where
  | extraTurnCreated (playerId anchor : PlayerId)
  deriving DecidableEq

/-- The proposal that a turn begin, as the replacement effects see it. -/
structure BeginTurn where
  playerId : PlayerId
  isExtraTurn : Bool
  deriving DecidableEq

structure GameState where
  table : Table
  turnNumber : Nat
  extraTurns : List ExtraTurn
  extraTurnSequenceAnchor : Option PlayerId
  turnsToSkip : List Nat
  deriving DecidableEq

def enqueueExtraTurn (state : GameState) (player anchor : PlayerId) (events : List GameEvent) :
    GameState × List GameEvent :=
  let player := state.table.normalizeSharedTurnRecipient player
  let anchor := state.table.normalizeSharedTurnRecipient anchor
  ({ state with extraTurns := state.extraTurns ++ [⟨player, anchor⟩] },
    events ++ [.extraTurnCreated player anchor])

def selectNextTurnAfterCompletion (state : GameState) (completedPlayer : PlayerId) :
    GameState × PlayerId × Bool :=
  match state.extraTurns.getLast? with
  | some entry =>
    let latched := match state.extraTurnSequenceAnchor with
      | none => some entry.anchor
      | some anchor => some anchor
    ({ state with
        extraTurns := state.extraTurns.dropLast
        extraTurnSequenceAnchor := latched },
      state.table.normalizeSharedTurnRecipient entry.player, true)
  | none =>
    match state.extraTurnSequenceAnchor with
    | some anchor =>
      ({ state with extraTurnSequenceAnchor := none },
        state.table.nextTurnRepresentative anchor, false)
    | none => (state, state.table.nextTurnRepresentative completedPlayer, false)

namespace GameState

/-- The turn that just ended had been controlled by an effect that grants its player an
extra turn afterwards. -/
def grantExtraTurn (state : GameState) (grantExtraTurnAfter : Bool) (events : List GameEvent) :
    GameState × List GameEvent :=
  let completedPlayer := state.table.activePlayer
  let completedTurnKey := state.table.normalizeSharedTurnRecipient completedPlayer
  if grantExtraTurnAfter then enqueueExtraTurn state completedPlayer completedTurnKey events
  else (state, events)

def selectTurn (state : GameState) : GameState × BeginTurn :=
  let selected := selectNextTurnAfterCompletion state state.table.activePlayer
  ({ selected.1 with
      turnNumber := state.turnNumber + 1
      table := { state.table with activePlayer := selected.2.1 } },
    ⟨selected.2.1, selected.2.2⟩)

def skipPlayer (state : GameState) : PlayerId :=
  state.table.normalizeSharedTurnRecipient state.table.activePlayer

def skipsTurn (state : GameState) : Bool := 0 < state.turnsToSkip.getD state.skipPlayer 0

def consumeSkip (state : GameState) : GameState :=
  { state with turnsToSkip := state.turnsToSkip.modify state.skipPlayer (· - 1) }

theorem selectTurn_turnsToSkip (state : GameState) :
    state.selectTurn.1.turnsToSkip = state.turnsToSkip := by
  simp only [selectTurn, selectNextTurnAfterCompletion]
  split
  · rfl
  · split <;> rfl

theorem grantExtraTurn_turnsToSkip (state : GameState) (grantExtraTurnAfter : Bool)
    (events : List GameEvent) :
    (state.grantExtraTurn grantExtraTurnAfter events).1.turnsToSkip = state.turnsToSkip := by
  unfold grantExtraTurn
  split <;> rfl

theorem sum_modify_pred_lt {counts : List Nat} {player : Nat} (owed : 0 < counts.getD player 0) :
    (counts.modify player (· - 1)).sum < counts.sum := by
  induction counts generalizing player with
  | nil => simp at owed
  | cons count counts ih =>
    cases player with
    | zero =>
      have : 0 < count := by simpa using owed
      simp only [List.modify_zero_cons, List.sum_cons]
      omega
    | succ player =>
      have := @ih player (by simpa using owed)
      simp only [List.modify_succ_cons, List.sum_cons]
      omega

variable {state : GameState}

theorem consumeSkip_sum_lt (skips : state.skipsTurn = true) :
    state.consumeSkip.turnsToSkip.sum < state.turnsToSkip.sum :=
  sum_modify_pred_lt (by simpa [skipsTurn] using skips)

/-- Begins the next turn that its player does not skip, with the turn proposed. -/
def startNextTurn (state : GameState) (grantExtraTurnAfter : Bool) (events : List GameEvent) :
    GameState × BeginTurn × List GameEvent :=
  let granted := state.grantExtraTurn grantExtraTurnAfter events
  let selected := granted.1.selectTurn
  if selected.1.skipsTurn then startNextTurn selected.1.consumeSkip false granted.2
  else (selected.1, selected.2, granted.2)
termination_by state.turnsToSkip.sum
decreasing_by
  next skips =>
  have fewer := consumeSkip_sum_lt skips
  rwa [selectTurn_turnsToSkip, grantExtraTurn_turnsToSkip] at fewer

theorem startNextTurn_unskipped {grantExtraTurnAfter : Bool} {events : List GameEvent}
    (unskipped :
      (state.grantExtraTurn grantExtraTurnAfter events).1.selectTurn.1.skipsTurn = false) :
    state.startNextTurn grantExtraTurnAfter events =
      ((state.grantExtraTurn grantExtraTurnAfter events).1.selectTurn.1,
        (state.grantExtraTurn grantExtraTurnAfter events).1.selectTurn.2,
        (state.grantExtraTurn grantExtraTurnAfter events).2) := by
  rw [startNextTurn]
  simp [unskipped]

theorem selectTurn_queued {queue : List ExtraTurn} {entry : ExtraTurn}
    (queued : state.extraTurns = queue ++ [entry]) :
    state.selectTurn =
      ({ state with
          table := { state.table with
            activePlayer := state.table.normalizeSharedTurnRecipient entry.player }
          turnNumber := state.turnNumber + 1
          extraTurns := queue
          extraTurnSequenceAnchor := some (state.extraTurnSequenceAnchor.getD entry.anchor) },
        ⟨state.table.normalizeSharedTurnRecipient entry.player, true⟩) := by
  cases latch : state.extraTurnSequenceAnchor <;>
    simp [selectTurn, selectNextTurnAfterCompletion, queued, latch]

theorem selectTurn_drained (drained : state.extraTurns = []) :
    state.selectTurn =
      ({ state with
          table := { state.table with
            activePlayer := state.table.nextTurnRepresentative
              (state.extraTurnSequenceAnchor.getD state.table.activePlayer) }
          turnNumber := state.turnNumber + 1
          extraTurnSequenceAnchor := none },
        ⟨state.table.nextTurnRepresentative
          (state.extraTurnSequenceAnchor.getD state.table.activePlayer), false⟩) := by
  cases latch : state.extraTurnSequenceAnchor <;>
    simp [selectTurn, selectNextTurnAfterCompletion, drained, latch]

end GameState

inductive ControlWindow where
  | nextTurn
  | nextCombatPhase
  deriving DecidableEq

structure ScheduledTurnControl where
  targetPlayer : PlayerId
  controller : PlayerId
  timestamp : Nat
  grantExtraTurnAfter : Bool
  window : ControlWindow
  deriving DecidableEq

structure ActivePlayerControl where
  controller : PlayerId
  timestamp : Nat
  deriving DecidableEq

/-- The turn order and who controls whom. `proposals` counts the turns that were proposed to begin
so far. -/
structure ControlledGame where
  order : GameState
  scheduledTurnControls : List ScheduledTurnControl
  activeFullTurnControl : Option ActivePlayerControl
  activeCombatPhaseControl : Option ActivePlayerControl
  turnDecisionController : Option PlayerId
  turnDecisionControlTimestamp : Option Nat
  proposals : Nat
  deriving DecidableEq

def controlIdentity (scheduled : ScheduledTurnControl) : ActivePlayerControl where
  controller := scheduled.controller
  timestamp := scheduled.timestamp

def ScheduledTurnControl.binds (scheduled : ScheduledTurnControl) (targetPlayer : PlayerId)
    (window : ControlWindow) : Bool :=
  scheduled.targetPlayer = targetPlayer && scheduled.window = window

/-- The position of the newest one that passes, the last one of several. -/
def newest (passes : ScheduledTurnControl → Bool) :
    List (ScheduledTurnControl × Nat) → Option (ScheduledTurnControl × Nat)
  | [] => none
  | scheduled :: rest =>
    match newest passes rest with
    | some later =>
      if passes scheduled.1 && later.1.timestamp < scheduled.1.timestamp then some scheduled
      else some later
    | none => if passes scheduled.1 then some scheduled else none

/-- Drops those that pass, except for the selected one. -/
def keepSelected (passes : ScheduledTurnControl → Bool) (selectedIdx : Nat)
    (controls : List ScheduledTurnControl) : List ScheduledTurnControl :=
  (controls.zipIdx.filter fun scheduled =>
    scheduled.2 = selectedIdx || !passes scheduled.1).map (·.1)

theorem keepSelected_length_le (passes : ScheduledTurnControl → Bool) (selectedIdx : Nat)
    (controls : List ScheduledTurnControl) :
    (keepSelected passes selectedIdx controls).length ≤ controls.length := by
  unfold keepSelected
  rw [List.length_map]
  exact (List.length_filter_le _ _).trans List.length_zipIdx.le

namespace ControlledGame

/-- The newer one of the effects that apply controls the active player. -/
def recomputeActivePlayerControl (state : ControlledGame) : ControlledGame :=
  let active := match state.activeFullTurnControl, state.activeCombatPhaseControl with
    | some full, some combat => if full.timestamp ≤ combat.timestamp then some combat else some full
    | full, combat => full.or combat
  { state with
    turnDecisionController := active.map (·.controller)
    turnDecisionControlTimestamp := active.map (·.timestamp) }

def explicitActiveControl (state : ControlledGame) : ControlWindow → Option ActivePlayerControl
  | .nextTurn => state.activeFullTurnControl
  | .nextCombatPhase => state.activeCombatPhaseControl

/-- An old game has no explicit control, only the one who decides. -/
def activeControlIdentity (state : ControlledGame) (targetPlayer : PlayerId)
    (window : ControlWindow) : Option ActivePlayerControl :=
  (state.explicitActiveControl window).or (do
    let controller ← state.turnDecisionController
    let identity := ⟨controller, state.turnDecisionControlTimestamp.getD 0⟩
    if state.scheduledTurnControls.any fun scheduled =>
        scheduled.binds targetPlayer window && controlIdentity scheduled = identity then
      some identity
    else none)

def activeScheduledControlIndex (state : ControlledGame) (targetPlayer : PlayerId)
    (window : ControlWindow) : Option Nat := do
  let identity ← state.activeControlIdentity targetPlayer window
  state.scheduledTurnControls.findIdx? fun scheduled =>
    scheduled.binds targetPlayer window && controlIdentity scheduled = identity

/-- Ends an effect, which frees the player whom it controls. -/
def releaseControlAt (state : ControlledGame) (idx : Nat) :
    Option (ControlledGame × ScheduledTurnControl) := do
  let entry ← state.scheduledTurnControls[idx]?
  let identity := controlIdentity entry
  let legacyLatch := state.activeFullTurnControl.isNone && state.activeCombatPhaseControl.isNone
  let wasActive := state.activeControlIdentity entry.targetPlayer entry.window = some identity
  let removed := { state with
    scheduledTurnControls := state.scheduledTurnControls.eraseIdx idx }
  let cleared := match entry.window with
    | .nextTurn =>
      if state.activeFullTurnControl = some identity then
        { removed with activeFullTurnControl := none }
      else removed
    | .nextCombatPhase =>
      if state.activeCombatPhaseControl = some identity then
        { removed with activeCombatPhaseControl := none }
      else removed
  let recomputed := cleared.recomputeActivePlayerControl
  if ¬wasActive ∧ legacyLatch then
    return ({ recomputed with
      turnDecisionController := state.turnDecisionController
      turnDecisionControlTimestamp := state.turnDecisionControlTimestamp }, entry)
  else return (recomputed, entry)

/-- The newest effect for a window applies, and the older ones are dropped. -/
def activateScheduledControl (state : ControlledGame) (targetPlayer : PlayerId)
    (window : ControlWindow) : ControlledGame :=
  match newest (·.binds targetPlayer window) state.scheduledTurnControls.zipIdx with
  | none => state
  | some (selected, selectedIdx) =>
    let kept := { state with
      scheduledTurnControls := keepSelected (·.binds targetPlayer window) selectedIdx
        state.scheduledTurnControls }
    let activated := match window with
      | .nextTurn => { kept with activeFullTurnControl := some (controlIdentity selected) }
      | .nextCombatPhase =>
        { kept with activeCombatPhaseControl := some (controlIdentity selected) }
    activated.recomputeActivePlayerControl

/-- Ends the effect that applies to a player in a window, and tells whether it grants the player
an extra turn. -/
def releaseActive (state : ControlledGame) (targetPlayer : PlayerId) (window : ControlWindow) :
    ControlledGame × Bool :=
  match (state.activeScheduledControlIndex targetPlayer window).bind state.releaseControlAt with
  | some (released, entry) => (released, entry.grantExtraTurnAfter)
  | none => (state, false)

theorem recompute_order (state : ControlledGame) :
    state.recomputeActivePlayerControl.order = state.order := rfl

theorem recompute_scheduled (state : ControlledGame) :
    state.recomputeActivePlayerControl.scheduledTurnControls = state.scheduledTurnControls := rfl

theorem releaseControlAt_spec {state released : ControlledGame} {idx : Nat}
    {entry : ScheduledTurnControl} (ok : state.releaseControlAt idx = some (released, entry)) :
    released.order = state.order ∧ released.proposals = state.proposals ∧
      released.scheduledTurnControls.length + 1 = state.scheduledTurnControls.length := by
  obtain ⟨found, at_, rest⟩ := Option.bind_eq_some_iff.mp ok
  have inside := (List.getElem?_eq_some_iff.mp at_).1
  have shorter : (state.scheduledTurnControls.eraseIdx idx).length + 1 =
      state.scheduledTurnControls.length := by
    rw [List.length_eraseIdx_of_lt inside]
    omega
  cases window : found.window <;> simp only [window] at rest <;> split at rest <;> cases rest <;>
    (refine ⟨?_, ?_, ?_⟩ <;> simp only [recomputeActivePlayerControl] <;> split <;> simp_all)

theorem releaseActive_spec (state : ControlledGame) (targetPlayer : PlayerId)
    (window : ControlWindow) :
    (state.releaseActive targetPlayer window).1.order = state.order ∧
      (state.releaseActive targetPlayer window).1.proposals = state.proposals ∧
      (state.releaseActive targetPlayer window).1.scheduledTurnControls.length +
        (state.releaseActive targetPlayer window).2.toNat ≤ state.scheduledTurnControls.length := by
  unfold releaseActive
  split
  · next released entry ok =>
    obtain ⟨idx, -, ok⟩ := Option.bind_eq_some_iff.mp ok
    obtain ⟨order, proposals, shorter⟩ := releaseControlAt_spec ok
    refine ⟨order, proposals, ?_⟩
    have := entry.grantExtraTurnAfter.toNat_le
    dsimp only
    omega
  · exact ⟨rfl, rfl, Nat.le_refl _⟩

theorem activate_spec (state : ControlledGame) (targetPlayer : PlayerId) (window : ControlWindow) :
    (state.activateScheduledControl targetPlayer window).order = state.order ∧
      (state.activateScheduledControl targetPlayer window).proposals = state.proposals ∧
      (state.activateScheduledControl targetPlayer window).scheduledTurnControls.length ≤
        state.scheduledTurnControls.length := by
  unfold activateScheduledControl
  split
  · exact ⟨rfl, rfl, Nat.le_refl _⟩
  · next selected selectedIdx _ =>
    have fewer := keepSelected_length_le (·.binds targetPlayer window) selectedIdx
      state.scheduledTurnControls
    cases window with
    | nextTurn => exact ⟨rfl, rfl, fewer⟩
    | nextCombatPhase => exact ⟨rfl, rfl, fewer⟩

end ControlledGame

end Phase.TurnOrder
