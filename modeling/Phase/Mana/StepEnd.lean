import Phase.Lib.Keyed
import Phase.Mana.Pool

/-! Mana pools empty when a step ends, one player after another, with a pause for every choice
that a player has to make; then the next step begins. -/
namespace Phase.StepEnd
open Mana

abbrev PlayerId := Nat

inductive UnitDisposition where
  | drop
  | keep
  | recolor (color : ManaType)
  deriving DecidableEq

structure UnitDecision where
  poolIndex : Nat
  color : ManaType
  disposition : UnitDisposition
  deriving DecidableEq

inductive EmptyPoolLifeLossCause where
  | manaBurn
  | unspentManaStatic
  deriving DecidableEq

structure PendingEmptyPoolLifeLoss where
  playerId : PlayerId
  amount : Nat
  cause : EmptyPoolLifeLossCause
  deriving DecidableEq

inductive PhaseTransitionDrainState where
  | ready
  | awaitingPostReplacementContinuation
  | awaitingBeginChoice
  deriving DecidableEq

structure PhaseTransitionProgress where
  remainingPlayers : List PlayerId
  nextPhase : TurnPhase
  /-- Not attempted yet, in the order they must apply. -/
  owedLifeLoss : List PendingEmptyPoolLifeLoss
  /-- Attempted; kept only to name its cause when it lands. -/
  inFlightLifeLoss : Option PendingEmptyPoolLifeLoss
  previousPhase : Option TurnPhase
  enteringCleanup : Bool
  drainState : PhaseTransitionDrainState
  deriving DecidableEq

inductive GameEvent where
  | manaPoolEmptied (playerId : PlayerId) (sourceId : ObjectId) (color : ManaType)
  | manaRecolored (playerId : PlayerId) (before after : ManaType)
  | manaBurn (playerId : PlayerId) (amount : Nat)
  | phaseChanged (phase : TurnPhase)
  deriving DecidableEq

inductive WaitingFor where
  | priority (player : PlayerId)
  /-- A replacement choice, with the emptying of this player's pool pending. -/
  | emptyPoolChoice (choosing player : PlayerId)
  /-- A replacement choice, with this player's life loss pending. -/
  | lifeLossChoice (choosing player : PlayerId)
  /-- A prompt of the effect that takes the place of a life loss. -/
  | substitute
  | loopCollapse (player : PlayerId)
  deriving DecidableEq

/-- What happened to the pools and to the life they cost, recorded beside the state. -/
inductive Happening where
  | processed (player : PlayerId) (owed : List PendingEmptyPoolLifeLoss)
  | attempted (loss : PendingEmptyPoolLifeLoss)
  | settled (player : PlayerId) (actual : Nat)
  | entered (phase : TurnPhase)
  deriving DecidableEq

inductive EmptyManaPoolApplyOutcome where
  | applied
  | deferred
  deriving DecidableEq

inductive ReplacementDeferred where
  | replacementChoice (choosing : PlayerId)
  | substitutionContinuation (applied : Nat)
  deriving DecidableEq

/-- The pools, and everything else that the drain does not look into. -/
structure Board (ω : Type) where
  pools : AList fun _ : PlayerId => ManaPool
  rest : ω

inductive EmptyPoolReplacement where
  | execute (units : List UnitDecision)
  | needsChoice (choosing : PlayerId)
  | prevented

/-- What the drain asks of the rest of the engine. -/
structure Engine (ω : Type) where
  activePlayer : Board ω → PlayerId
  apnapOrder : Board ω → Option PlayerId → List PlayerId
  /-- `mana_burn::applies`. -/
  burns : Board ω → Bool
  playerUnspentManaLossCausesLifeLoss : Board ω → PlayerId → Bool
  debugInfiniteMana : Board ω → PlayerId → Bool
  scanStepEndManaHandlers : Board ω → PlayerId → Board ω
  clearStepEndManaHandlers : Board ω → Board ω
  replaceEmptyManaPool : Board ω → PlayerId → List UnitDecision → Board ω × EmptyPoolReplacement
  applyLifeLoss : Board ω → PlayerId → Nat → Board ω × Except ReplacementDeferred Nat
  clearUnboundedManaLoops : Board ω → Board ω
  nextApnapPlayerWithPendingMaterialization : Board ω → Option PlayerId
  /-- What submitting the count for a loop does. -/
  materialize : Board ω → PlayerId → Nat → Board ω
  beginStep : Board ω → TurnPhase → Board ω
  finishEnterPhase : Board ω → TurnPhase → Board ω

structure GameState (ω : Type) where
  board : Board ω
  phase : TurnPhase
  pendingPhaseTransitionProgress : Option PhaseTransitionProgress
  waitingFor : WaitingFor
  events : List GameEvent
  history : List Happening

section
variable {ω : Type}

namespace GameState

def emit (state : GameState ω) (event : GameEvent) : GameState ω :=
  { state with events := state.events ++ [event] }

def note (state : GameState ω) (happening : Happening) : GameState ω :=
  { state with history := state.history ++ [happening] }

def updateProgress (state : GameState ω) (f : PhaseTransitionProgress → PhaseTransitionProgress) :
    GameState ω :=
  { state with pendingPhaseTransitionProgress := state.pendingPhaseTransitionProgress.map f }

end GameState

def applyDecision (playerId : PlayerId) (decision : UnitDecision)
    (state : ManaPool × Nat × List GameEvent) : ManaPool × Nat × List GameEvent :=
  let (pool, removed, events) := state
  match decision.disposition with
  | .drop =>
    match pool.removeAt decision.poolIndex with
    | none => state
    | some (unit, pool) =>
      (pool, removed + 1, events ++ [.manaPoolEmptied playerId unit.sourceId unit.color])
  | .keep => state
  | .recolor color =>
    match pool.recolorAt decision.poolIndex color with
    | none => state
    | some (before, pool) => (pool, removed, events ++ [.manaRecolored playerId before color])

/-- The last positions first. A repeated position, or one with mana of another color, is passed
over. -/
def applyDecisions (playerId : PlayerId) :
    List Nat → List UnitDecision → ManaPool × Nat × List GameEvent → ManaPool × Nat × List GameEvent
  | _, [], state => state
  | seen, decision :: decisions, state =>
    if decision.poolIndex ∈ seen ||
        !(state.1.unitAt decision.poolIndex).any (·.color = decision.color) then
      applyDecisions playerId (decision.poolIndex :: seen) decisions state
    else
      applyDecisions playerId (decision.poolIndex :: seen) decisions
        (applyDecision playerId decision state)

/-- Returns how many units were removed. -/
def applyEmptyManaPoolDecisions (state : GameState ω) (playerId : PlayerId)
    (units : List UnitDecision) : GameState ω × Nat :=
  match state.board.pools.lookup playerId with
  | none => (state, 0)
  | some pool =>
    let sorted := units.mergeSort fun a b => b.poolIndex ≤ a.poolIndex
    let (pool, removed, events) := applyDecisions playerId [] sorted (pool, 0, [])
    ({ state with
        board := { state.board with pools := state.board.pools.insert playerId pool }
        events := state.events ++ events },
      removed)

def emitLifeLossCause (loss : PendingEmptyPoolLifeLoss) (actual : Nat) (state : GameState ω) :
    GameState ω :=
  if actual = 0 then state
  else
    match loss.cause with
    | .manaBurn => state.emit (.manaBurn loss.playerId actual)
    | .unspentManaStatic => state

def parkInFlightLifeLoss (loss : PendingEmptyPoolLifeLoss) (state : GameState ω) : GameState ω :=
  state.updateProgress fun progress => { progress with inFlightLifeLoss := some loss }

/-- Called when any life loss comes out of a replacement choice. -/
def noteEmptyPoolLifeLossResolved (playerId : PlayerId) (actual : Nat) (state : GameState ω) :
    GameState ω :=
  match state.pendingPhaseTransitionProgress.bind (·.inFlightLifeLoss) with
  | none => state
  | some parked =>
    if parked.playerId ≠ playerId then state
    else
      emitLifeLossCause parked actual
        (state.updateProgress fun progress => { progress with inFlightLifeLoss := none })

def parkOwedLifeLosses (owed : List PendingEmptyPoolLifeLoss) (state : GameState ω) : GameState ω :=
  if owed.isEmpty then state
  else state.updateProgress fun progress => { progress with owedLifeLoss := owed }

def markPhaseTransitionAwaitingPostReplacement (state : GameState ω) : GameState ω :=
  state.updateProgress fun progress =>
    { progress with drainState := .awaitingPostReplacementContinuation }

section
variable (engine : Engine ω)

/-- `life::apply_life_loss`, and the prompt it leaves when it is deferred. -/
def applyLifeLoss (loss : PendingEmptyPoolLifeLoss) (state : GameState ω) :
    GameState ω × Except ReplacementDeferred Nat :=
  let state := state.note (.attempted loss)
  let (board, result) := engine.applyLifeLoss state.board loss.playerId loss.amount
  let state := { state with board }
  match result with
  | .ok actual => (state.note (.settled loss.playerId actual), .ok actual)
  | .error (.replacementChoice choosing) =>
    ({ state with waitingFor := .lifeLossChoice choosing loss.playerId },
      .error (.replacementChoice choosing))
  | .error (.substitutionContinuation applied) =>
    ({ state.note (.settled loss.playerId applied) with waitingFor := .substitute },
      .error (.substitutionContinuation applied))

def dischargeOwedLifeLosses :
    List PendingEmptyPoolLifeLoss → GameState ω → GameState ω × EmptyManaPoolApplyOutcome
  | [], state => (state, .applied)
  | next :: owed, state =>
    match applyLifeLoss engine next state with
    | (state, .ok actual) => dischargeOwedLifeLosses owed (emitLifeLossCause next actual state)
    | (state, .error (.replacementChoice _)) =>
      (parkOwedLifeLosses owed (parkInFlightLifeLoss next state), .deferred)
    | (state, .error (.substitutionContinuation applied)) =>
      (parkOwedLifeLosses owed (markPhaseTransitionAwaitingPostReplacement
        (emitLifeLossCause next applied state)), .deferred)

/-- Both causes can apply; mana burn comes first. -/
def owedFor (playerId : PlayerId) (amount : Nat) (burns causesLifeLoss : Bool) :
    List PendingEmptyPoolLifeLoss :=
  (if burns then [⟨playerId, amount, .manaBurn⟩] else []) ++
    if causesLifeLoss then [⟨playerId, amount, .unspentManaStatic⟩] else []

def applyEmptyManaPoolEvent (playerId : PlayerId) (units : List UnitDecision)
    (state : GameState ω) : GameState ω × EmptyManaPoolApplyOutcome :=
  let causesLifeLoss := engine.playerUnspentManaLossCausesLifeLoss state.board playerId
  let burns := engine.burns state.board
  let (state, amount) := applyEmptyManaPoolDecisions state playerId units
  let state := { state with board := engine.clearStepEndManaHandlers state.board }
  if amount = 0 then (state.note (.processed playerId []), .applied)
  else
    let owed := owedFor playerId amount burns causesLifeLoss
    dischargeOwedLifeLosses engine owed (state.note (.processed playerId owed))

/-- The units that may be lost: those that no duration holds. -/
def unitDecisions (keep : Bool) (pool : ManaPool) : List UnitDecision :=
  pool.units.zipIdx.filterMap fun (unit, index) =>
    if unit.expiry.isNone then
      some ⟨index, unit.color, if keep then .keep else .drop⟩
    else none

def endRetention (burns : Bool) (progress : PhaseTransitionProgress) (pool : ManaPool) :
    ManaPool :=
  let pool := if burns then
      pool.retainAcrossPhaseGroupSteps progress.previousPhase progress.nextPhase
    else pool
  pool.clearExpiredRetentionMarkers progress.previousPhase progress.nextPhase

/-- One player's turn in the loop of `drain_pending_phase_transition_progress`. -/
def drainPlayer (progress : PhaseTransitionProgress) (playerId : PlayerId)
    (state : GameState ω) : GameState ω × EmptyManaPoolApplyOutcome :=
  let pools := Assoc.modify playerId (endRetention (engine.burns state.board) progress)
    state.board.pools
  let board := engine.scanStepEndManaHandlers { state.board with pools } playerId
  let units := (board.pools.lookup playerId).elim []
    (unitDecisions (engine.debugInfiniteMana board playerId))
  match engine.replaceEmptyManaPool board playerId units with
  | (board, .execute units) => applyEmptyManaPoolEvent engine playerId units { state with board }
  | (board, .needsChoice choosing) =>
    ({ state with board, waitingFor := .emptyPoolChoice choosing playerId }, .deferred)
  | (board, .prevented) =>
    (({ state with board := engine.clearStepEndManaHandlers board }).note
      (.processed playerId []), .applied)

def finishEnterPhase (next : TurnPhase) (state : GameState ω) : GameState ω :=
  ({ state with
      board := engine.finishEnterPhase state.board next
      pendingPhaseTransitionProgress := none
      events := state.events ++ [GameEvent.phaseChanged next] }).note (.entered next)

/-- The branch of the loop with nobody left. -/
def drainEmptyQueue (progress : PhaseTransitionProgress) (state : GameState ω) : GameState ω :=
  let board := engine.clearUnboundedManaLoops state.board
  match engine.nextApnapPlayerWithPendingMaterialization board with
  | some controller => { state with board, waitingFor := .loopCollapse controller }
  | none => finishEnterPhase engine progress.nextPhase { state with board }

/-- The loop, over the players whose turn is yet to come. -/
def drainPlayers (progress : PhaseTransitionProgress) :
    List PlayerId → GameState ω → GameState ω
  | [], state => drainEmptyQueue engine progress state
  | playerId :: rest, state =>
    let state := state.updateProgress fun progress => { progress with remainingPlayers := rest }
    match drainPlayer engine progress playerId state with
    | (state, .deferred) => state
    | (state, .applied) => drainPlayers progress rest state

def drainPendingPhaseTransitionProgress (state : GameState ω) : GameState ω :=
  match state.pendingPhaseTransitionProgress with
  | none => state
  | some progress =>
    if progress.drainState ≠ .ready then state
    else
      let state := state.updateProgress fun progress => { progress with owedLifeLoss := [] }
      match dischargeOwedLifeLosses engine progress.owedLifeLoss state with
      | (state, .deferred) => state
      | (state, .applied) => drainPlayers engine progress progress.remainingPlayers state

def resumePhaseTransitionAfterPostReplacement (state : GameState ω) : GameState ω :=
  match state.waitingFor, state.pendingPhaseTransitionProgress with
  | .priority _, some progress =>
    if progress.drainState = .awaitingPostReplacementContinuation then
      drainPendingPhaseTransitionProgress engine
        (state.updateProgress fun progress => { progress with drainState := .ready })
    else state
  | _, _ => state

def enterPhase (next : TurnPhase) (apnapAnchor : Option PlayerId) (state : GameState ω) :
    GameState ω :=
  let board := engine.beginStep state.board next
  drainPendingPhaseTransitionProgress engine
    { state with
      board
      phase := next
      pendingPhaseTransitionProgress := some {
        remainingPlayers := engine.apnapOrder board apnapAnchor
        nextPhase := next
        owedLifeLoss := []
        inFlightLifeLoss := none
        previousPhase := some state.phase
        enteringCleanup := next = .cleanup
        drainState := .ready } }

def grantPriority (state : GameState ω) : GameState ω :=
  { state with waitingFor := .priority (engine.activePlayer state.board) }

/-- The player whose life loss is pending for the drain itself. -/
def pendingPhaseDrainLifeLoser (state : GameState ω) : Option PlayerId :=
  match state.pendingPhaseTransitionProgress, state.waitingFor with
  | some progress, .lifeLossChoice _ player =>
    if progress.drainState = .ready then some player else none
  | _, _ => none

/-- The `EmptyManaPool` arm of `handle_replacement_choice`, and the drain at its end. -/
def resumeEmptyPoolChoice (player : PlayerId) (units : List UnitDecision) (state : GameState ω) :
    GameState ω :=
  match applyEmptyManaPoolEvent engine player units state with
  | (state, .deferred) => state
  | (state, .applied) => drainPendingPhaseTransitionProgress engine (grantPriority engine state)

/-- What is left of an answer once the pending life loss is dealt with: the effect in its place may
raise a prompt of its own. -/
def finishLifeLossChoice (loser : Option PlayerId) (substitutePauses : Bool)
    (state : GameState ω) : GameState ω :=
  if substitutePauses then
    let state := { state with waitingFor := .substitute }
    if loser.isSome then markPhaseTransitionAwaitingPostReplacement state else state
  else drainPendingPhaseTransitionProgress engine (grantPriority engine state)

/-- The `LifeLoss` arm of `handle_replacement_choice`. -/
def resumeLifeLossChoice (player : PlayerId) (actual : Nat) (substitutePauses : Bool)
    (state : GameState ω) : GameState ω :=
  let loser := pendingPhaseDrainLifeLoser state
  let state := noteEmptyPoolLifeLossResolved player actual (state.note (.settled player actual))
  finishLifeLossChoice engine loser substitutePauses state

/-- Its `Prevented` arm, for the drain's own life loss. -/
def preventLifeLossChoice (substitutePauses : Bool) (state : GameState ω) : GameState ω :=
  match pendingPhaseDrainLifeLoser state with
  | none => state
  | some loser =>
    let state := noteEmptyPoolLifeLossResolved loser 0 (state.note (.settled loser 0))
    finishLifeLossChoice engine (some loser) substitutePauses state

/-- An answer to a prompt of a substitute. Life losses of its own may come out of a choice; then it
pauses again, or leaves the resolution stack for good. -/
def answerSubstitute (losses : List (PlayerId × Nat)) (pauses : Bool) (state : GameState ω) :
    GameState ω :=
  let state := losses.foldl (fun state loss => noteEmptyPoolLifeLossResolved loss.1 loss.2 state)
    state
  if pauses then state
  else resumePhaseTransitionAfterPostReplacement engine (grantPriority engine state)

/-- The `LoopCollapse` arm for a submitted amount. -/
def submitLoopCollapse (player : PlayerId) (amount : Nat) (state : GameState ω) : GameState ω :=
  let state := drainPendingPhaseTransitionProgress engine
    { state with board := engine.materialize state.board player amount }
  -- with the entry complete, the spent prompt gives way to the active player's window
  if state.pendingPhaseTransitionProgress.isNone then grantPriority engine state else state

/-- How a prompt that pauses the drain is answered; `board` is what the answer made of the rest. -/
inductive Answer : GameState ω → GameState ω → Prop where
  /-- The replacements still to be ordered are asked about again. -/
  | askEmptyPoolAgain {state : GameState ω} {choosing player : PlayerId} (board : Board ω)
      (again : PlayerId) (waiting : state.waitingFor = .emptyPoolChoice choosing player) :
      Answer state { state with board, waitingFor := .emptyPoolChoice again player }
  | emptyPool {state : GameState ω} {choosing player : PlayerId} (board : Board ω)
      (units : List UnitDecision) (waiting : state.waitingFor = .emptyPoolChoice choosing player) :
      Answer state (resumeEmptyPoolChoice engine player units { state with board })
  | askLifeLossAgain {state : GameState ω} {choosing player : PlayerId} (board : Board ω)
      (again : PlayerId) (waiting : state.waitingFor = .lifeLossChoice choosing player) :
      Answer state { state with board, waitingFor := .lifeLossChoice again player }
  | lifeLoss {state : GameState ω} {choosing player : PlayerId} (board : Board ω) (actual : Nat)
      (substitutePauses : Bool) (waiting : state.waitingFor = .lifeLossChoice choosing player) :
      Answer state (resumeLifeLossChoice engine player actual substitutePauses { state with board })
  | lifeLossPrevented {state : GameState ω} {choosing player : PlayerId} (board : Board ω)
      (substitutePauses : Bool) (waiting : state.waitingFor = .lifeLossChoice choosing player) :
      Answer state (preventLifeLossChoice engine substitutePauses { state with board })
  | substitute {state : GameState ω} (board : Board ω) (losses : List (PlayerId × Nat))
      (pauses : Bool) (waiting : state.waitingFor = .substitute) :
      Answer state (answerSubstitute engine losses pauses { state with board })
  | loopCollapse {state : GameState ω} {player : PlayerId} (amount : Nat)
      (waiting : state.waitingFor = .loopCollapse player) :
      Answer state (submitLoopCollapse engine player amount state)

end

end

end Phase.StepEnd
