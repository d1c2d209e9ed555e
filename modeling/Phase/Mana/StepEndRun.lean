import Phase.Mana.StepEnd

/-! However often the emptying of the pools is paused, each player's pool empties once, each life
loss that it costs is applied once, and the next step begins once. -/
namespace Phase.StepEnd
open Mana GameState List

def processedPlayers (history : List Happening) : List PlayerId :=
  history.filterMap fun
    | .processed player _ => some player
    | _ => none

/-- The losses that the emptied pools cost, in order. -/
def owedLosses (history : List Happening) : List PendingEmptyPoolLifeLoss :=
  history.flatMap fun
    | .processed _ owed => owed
    | _ => []

def attemptedLosses (history : List Happening) : List PendingEmptyPoolLifeLoss :=
  history.filterMap fun
    | .attempted loss => some loss
    | _ => none

/-- Whose life changed, and by how much. -/
def settledLosses (history : List Happening) : List (PlayerId × Nat) :=
  history.filterMap fun
    | .settled player actual => some (player, actual)
    | _ => none

def enteredPhases (history : List Happening) : List TurnPhase :=
  history.filterMap fun
    | .entered phase => some phase
    | _ => none

/-- The burns that the players are told about. -/
def reportedBurns (events : List GameEvent) : List (PlayerId × Nat) :=
  events.filterMap fun
    | .manaBurn player amount => some (player, amount)
    | _ => none

/-- The burns among the losses, each with what it really took. -/
def burnsOf (attempted : List PendingEmptyPoolLifeLoss) (settled : List (PlayerId × Nat)) :
    List (PlayerId × Nat) :=
  (attempted.zip settled).filterMap fun (loss, taken) =>
    if taken.2 ≠ 0 ∧ loss.cause = .manaBurn then some (loss.playerId, taken.2) else none

section
variable {ω : Type}

/-- The players still to be processed, the losses still to be attempted and the one whose fate is
open, against the record so far. -/
structure Books (queue pending : List PlayerId) (owed : List PendingEmptyPoolLifeLoss)
    (inFlight : Option PendingEmptyPoolLifeLoss) (state : GameState ω) : Prop where
  players : processedPlayers state.history ++ pending = queue
  losses : attemptedLosses state.history ++ owed = owedLosses state.history
  settles : ∃ done, attemptedLosses state.history = done ++ inFlight.toList ∧
    (settledLosses state.history).map Prod.fst = done.map (·.playerId) ∧
    reportedBurns state.events = burnsOf done (settledLosses state.history)
  owners : ∀ player owed, .processed player owed ∈ state.history →
    ∀ loss ∈ owed, loss.playerId = player
  notYet : enteredPhases state.history = []

namespace Books
variable {queue pending : List PlayerId} {owed : List PendingEmptyPoolLifeLoss}
  {inFlight : Option PendingEmptyPoolLifeLoss} {state : GameState ω}

/-- Only the record and the burns matter. -/
theorem of_eq (books : Books queue pending owed inFlight state) {state' : GameState ω}
    (history : state'.history = state.history)
    (events : reportedBurns state'.events = reportedBurns state.events) :
    Books queue pending owed inFlight state' := by
  obtain ⟨players, losses, settles, owners, notYet⟩ := books
  exact ⟨history ▸ players, history ▸ losses, by rw [history, events]; exact settles,
    history ▸ owners, history ▸ notYet⟩

variable {loss : PendingEmptyPoolLifeLoss}

theorem attempt (books : Books queue pending (loss :: owed) none state) :
    Books queue pending owed (some loss) (state.note (.attempted loss)) := by
  obtain ⟨players, losses, ⟨done, attempted, settled, burns⟩, owners, notYet⟩ := books
  refine ⟨?_, ?_, ⟨done, ?_, ?_, ?_⟩, ?_, ?_⟩
  · simpa [note, processedPlayers] using players
  · simpa [note, attemptedLosses, owedLosses] using losses
  · simpa [note, attemptedLosses] using attempted
  · simpa [note, settledLosses] using settled
  · simpa [note, settledLosses] using burns
  · intro player owed mem
    exact owners player owed (by simpa [note] using mem)
  · simpa [note, enteredPhases] using notYet

theorem reportedBurns_emitLifeLossCause (loss : PendingEmptyPoolLifeLoss) (actual : Nat)
    (state : GameState ω) : reportedBurns (emitLifeLossCause loss actual state).events =
      reportedBurns state.events ++ burnsOf [loss] [(loss.playerId, actual)] := by
  unfold emitLifeLossCause
  by_cases nothing : actual = 0
  · simp [nothing, burnsOf]
  · cases cause : loss.cause <;> simp [nothing, cause, burnsOf, emit, reportedBurns]

theorem history_emitLifeLossCause (loss : PendingEmptyPoolLifeLoss) (actual : Nat)
    (state : GameState ω) : (emitLifeLossCause loss actual state).history = state.history := by
  unfold emitLifeLossCause
  split
  · rfl
  · cases loss.cause <;> rfl

/-- A loss settles, and its cause is told. -/
theorem settle (books : Books queue pending owed (some loss) state) (actual : Nat)
    {state' : GameState ω}
    (history : state'.history = state.history ++ [.settled loss.playerId actual])
    (events : reportedBurns state'.events =
      reportedBurns state.events ++ burnsOf [loss] [(loss.playerId, actual)]) :
    Books queue pending owed none state' := by
  obtain ⟨players, losses, ⟨done, attempted, settled, burns⟩, owners, notYet⟩ := books
  have sameLength : done.length = (settledLosses state.history).length := by
    simpa using (congrArg length settled).symm
  have isSettled : settledLosses state'.history =
      settledLosses state.history ++ [(loss.playerId, actual)] := by
    simp [history, settledLosses]
  refine ⟨?_, ?_, ⟨done ++ [loss], ?_, ?_, ?_⟩, ?_, ?_⟩
  · simpa [history, processedPlayers] using players
  · simpa [history, attemptedLosses, owedLosses] using losses
  · simpa [history, attemptedLosses] using attempted
  · simp [isSettled, settled]
  · rw [events, isSettled, burns, burnsOf, burnsOf, burnsOf, zip_append sameLength,
      filterMap_append]
  · intro player owed mem
    exact owners player owed (by simpa [history] using mem)
  · simpa [history, enteredPhases] using notYet

theorem process {player : PlayerId} (books : Books queue (player :: pending) [] none state)
    (owed : List PendingEmptyPoolLifeLoss) (own : ∀ loss ∈ owed, loss.playerId = player) :
    Books queue pending owed none (state.note (.processed player owed)) := by
  obtain ⟨players, losses, ⟨done, attempted, settled, burns⟩, owners, notYet⟩ := books
  refine ⟨?_, ?_, ⟨done, ?_, ?_, ?_⟩, ?_, ?_⟩
  · simpa [note, processedPlayers] using players
  · simpa [note, attemptedLosses, owedLosses] using losses
  · simpa [note, attemptedLosses] using attempted
  · simpa [note, settledLosses] using settled
  · simpa [note, settledLosses] using burns
  · intro other others mem
    rcases mem_append.mp mem with old | last
    · exact owners other others old
    · obtain ⟨rfl, rfl⟩ := by simpa using last
      exact own
  · simpa [note, enteredPhases] using notYet

end Books

/-- The drain at work: nothing is parked. -/
structure Working (queue : List PlayerId) (next : TurnPhase) (beat : WaitingFor)
    (progress : PhaseTransitionProgress) (pending : List PlayerId)
    (owed : List PendingEmptyPoolLifeLoss) (state : GameState ω) : Prop where
  beat : state.waitingFor = beat
  cursor : state.pendingPhaseTransitionProgress = some progress
  ready : progress.drainState = .ready
  noneOwed : progress.owedLifeLoss = []
  noneInFlight : progress.inFlightLifeLoss = none
  target : progress.nextPhase = next
  books : Books queue pending owed none state

variable {queue : List PlayerId} {owed : List PendingEmptyPoolLifeLoss} {state : GameState ω}
  {next : TurnPhase}

theorem Working.setBoard {pending : List PlayerId} {beat : WaitingFor}
    {progress : PhaseTransitionProgress}
    (working : Working queue next beat progress pending owed state) (board : Board ω) :
    Working queue next beat progress pending owed { state with board } :=
  { working with books := working.books.of_eq rfl rfl }

/-- The drain at rest, until a prompt is answered. -/
inductive Paused (queue : List PlayerId) (next : TurnPhase) (state : GameState ω) : Prop where
  | emptyPool {progress : PhaseTransitionProgress} {choosing player : PlayerId}
      (working : Working queue next (.emptyPoolChoice choosing player) progress
        (player :: progress.remainingPlayers) [] state)
  | lifeLoss {progress : PhaseTransitionProgress} {choosing : PlayerId}
      {loss : PendingEmptyPoolLifeLoss}
      (cursor : state.pendingPhaseTransitionProgress = some progress)
      (ready : progress.drainState = .ready) (parked : progress.inFlightLifeLoss = some loss)
      (target : progress.nextPhase = next)
      (books : Books queue progress.remainingPlayers progress.owedLifeLoss (some loss) state)
      (waiting : state.waitingFor = .lifeLossChoice choosing loss.playerId)
  | substitute {progress : PhaseTransitionProgress}
      (cursor : state.pendingPhaseTransitionProgress = some progress)
      (awaiting : progress.drainState = .awaitingPostReplacementContinuation)
      (noneInFlight : progress.inFlightLifeLoss = none) (target : progress.nextPhase = next)
      (books : Books queue progress.remainingPlayers progress.owedLifeLoss none state)
      (waiting : state.waitingFor = .substitute)
  | loopCollapse {progress : PhaseTransitionProgress} {player : PlayerId}
      (working : Working queue next (.loopCollapse player) progress [] [] state)
      (nobody : progress.remainingPlayers = [])

theorem Paused.cursor_isSome (paused : Paused queue next state) :
    state.pendingPhaseTransitionProgress ≠ none := by
  cases paused with
  | emptyPool working => simp [working.cursor]
  | lifeLoss cursor => simp [cursor]
  | substitute cursor => simp [cursor]
  | loopCollapse working => simp [working.cursor]

/-- The step has been entered, and its entry came last. -/
structure Entered (queue : List PlayerId) (next : TurnPhase) (beat : WaitingFor)
    (state : GameState ω) : Prop where
  beat : state.waitingFor = beat
  cursor : state.pendingPhaseTransitionProgress = none
  books : ∃ before : GameState ω, Books queue [] [] none before ∧
    state.history = before.history ++ [.entered next] ∧
    reportedBurns state.events = reportedBurns before.events

/-- A stage of the drain is over, or left it at rest. -/
def Goes (queue : List PlayerId) (next : TurnPhase) (beat : WaitingFor)
    (progress : PhaseTransitionProgress) : GameState ω × EmptyManaPoolApplyOutcome → Prop
  | (after, .applied) => Working queue next beat progress progress.remainingPlayers [] after
  | (after, .deferred) => Paused queue next after

def Stands (queue : List PlayerId) (next : TurnPhase) (beat : WaitingFor) (state : GameState ω) :
    Prop :=
  Paused queue next state ∨ Entered queue next beat state

section
variable {engine : Engine ω} {queue pending : List PlayerId} {next : TurnPhase} {beat : WaitingFor}
  {progress : PhaseTransitionProgress} {owed : List PendingEmptyPoolLifeLoss}
  {state : GameState ω}

theorem emitLifeLossCause_cursor (loss : PendingEmptyPoolLifeLoss) (actual : Nat)
    (state : GameState ω) : (emitLifeLossCause loss actual state).pendingPhaseTransitionProgress =
      state.pendingPhaseTransitionProgress := by
  unfold emitLifeLossCause
  split
  · rfl
  · cases loss.cause <;> rfl

theorem emitLifeLossCause_waitingFor (loss : PendingEmptyPoolLifeLoss) (actual : Nat)
    (state : GameState ω) :
    (emitLifeLossCause loss actual state).waitingFor = state.waitingFor := by
  unfold emitLifeLossCause
  split
  · rfl
  · cases loss.cause <;> rfl

/-- Parking what is still owed changes the cursor only. -/
theorem parkOwedLifeLosses_spec (owed : List PendingEmptyPoolLifeLoss)
    (cursor : state.pendingPhaseTransitionProgress = some progress)
    (noneOwed : progress.owedLifeLoss = []) :
    (parkOwedLifeLosses owed state).pendingPhaseTransitionProgress =
        some { progress with owedLifeLoss := owed } ∧
      (parkOwedLifeLosses owed state).history = state.history ∧
      (parkOwedLifeLosses owed state).events = state.events ∧
      (parkOwedLifeLosses owed state).waitingFor = state.waitingFor := by
  unfold parkOwedLifeLosses
  cases owed with
  | nil =>
    have same : { progress with owedLifeLoss := [] } = progress := by rw [← noneOwed]
    exact ⟨by rw [same]; exact cursor, rfl, rfl, rfl⟩
  | cons loss owed => exact ⟨by simp [updateProgress, cursor], rfl, rfl, rfl⟩

/-- Each loss is attempted in turn; the one that is deferred leaves the rest parked. -/
theorem dischargeOwedLifeLosses_spec
    (working : Working queue next beat progress progress.remainingPlayers owed state) :
    Goes queue next beat progress (dischargeOwedLifeLosses engine owed state) := by
  induction owed generalizing state with
  | nil => exact working
  | cons loss owed ih =>
    obtain ⟨same, cursor, ready, noneOwed, noneInFlight, target, books⟩ := working
    have attempted := books.attempt
    obtain ⟨board, result, isResult⟩ : ∃ board result,
        engine.applyLifeLoss state.board loss.playerId loss.amount = (board, result) :=
      ⟨_, _, rfl⟩
    rw [dischargeOwedLifeLosses]
    cases result with
    | ok actual =>
      have step : applyLifeLoss engine loss state =
          ({ state.note (.attempted loss) with board }.note (.settled loss.playerId actual),
            .ok actual) := by
        simp [applyLifeLoss, isResult, note]
      rw [step]
      refine ih ⟨?_, ?_, ready, noneOwed, noneInFlight, target, ?_⟩
      · rw [emitLifeLossCause_waitingFor]
        exact same
      · rw [emitLifeLossCause_cursor]
        exact cursor
      · exact attempted.settle actual (Books.history_emitLifeLossCause ..)
          (Books.reportedBurns_emitLifeLossCause ..)
    | error deferred =>
      cases deferred with
      | replacementChoice choosing =>
        have step : applyLifeLoss engine loss state = ({ state.note (.attempted loss) with
                board, waitingFor := .lifeLossChoice choosing loss.playerId },
              .error (.replacementChoice choosing)) := by
          simp [applyLifeLoss, isResult, note]
        rw [step]
        obtain ⟨parked, history, events, waiting⟩ := @parkOwedLifeLosses_spec ω
          { progress with inFlightLifeLoss := some loss }
          (parkInFlightLifeLoss loss { state.note (.attempted loss) with
            board, waitingFor := .lifeLossChoice choosing loss.playerId }) owed
          (by simp [parkInFlightLifeLoss, updateProgress, note, cursor])
          noneOwed
        exact .lifeLoss parked ready rfl target
          (attempted.of_eq history (congrArg reportedBurns events)) waiting
      | substitutionContinuation applied =>
        have step : applyLifeLoss engine loss state =
            ({ ({ state.note (.attempted loss) with board }.note
                  (.settled loss.playerId applied)) with waitingFor := .substitute },
              .error (.substitutionContinuation applied)) := by
          simp [applyLifeLoss, isResult, note]
        rw [step]
        obtain ⟨parked, history, events, waiting⟩ := @parkOwedLifeLosses_spec ω
          { progress with drainState := .awaitingPostReplacementContinuation }
          (markPhaseTransitionAwaitingPostReplacement (emitLifeLossCause loss applied
            { ({ state.note (.attempted loss) with board }.note
                (.settled loss.playerId applied)) with waitingFor := .substitute })) owed
          (by
            simp only [markPhaseTransitionAwaitingPostReplacement, updateProgress,
              emitLifeLossCause_cursor]
            simp [note, cursor])
          noneOwed
        refine .substitute parked rfl noneInFlight target (attempted.settle applied ?_ ?_) ?_
        · exact history.trans (Books.history_emitLifeLossCause ..)
        · exact (congrArg reportedBurns events).trans (Books.reportedBurns_emitLifeLossCause ..)
        · exact waiting.trans (emitLifeLossCause_waitingFor ..)

/-- Emptying a pool changes neither the cursor nor the record. -/
theorem applyDecision_burns (player : PlayerId) (decision : UnitDecision)
    (start : ManaPool × Nat × List GameEvent) :
    reportedBurns (applyDecision player decision start).2.2 = reportedBurns start.2.2 := by
  obtain ⟨pool, removed, events⟩ := start
  unfold applyDecision
  cases decision.disposition with
  | drop =>
    cases isRemoved : pool.removeAt decision.poolIndex with
    | none => simp [isRemoved]
    | some taken => simp [isRemoved, reportedBurns]
  | keep => rfl
  | recolor color =>
    cases isRecolored : pool.recolorAt decision.poolIndex color with
    | none => simp [isRecolored]
    | some changed => simp [isRecolored, reportedBurns]

theorem applyDecisions_burns (player : PlayerId) (seen : List Nat) (decisions : List UnitDecision)
    (start : ManaPool × Nat × List GameEvent) :
    reportedBurns (applyDecisions player seen decisions start).2.2 = reportedBurns start.2.2 := by
  induction decisions generalizing seen start with
  | nil => rfl
  | cons decision decisions ih =>
    rw [applyDecisions]
    split
    · exact ih ..
    · exact (ih ..).trans (applyDecision_burns ..)

theorem applyEmptyManaPoolDecisions_spec (state : GameState ω) (player : PlayerId)
    (units : List UnitDecision) :
    let after := (applyEmptyManaPoolDecisions state player units).1
    after.waitingFor = state.waitingFor ∧
      after.pendingPhaseTransitionProgress = state.pendingPhaseTransitionProgress ∧
      after.history = state.history ∧ reportedBurns after.events = reportedBurns state.events := by
  unfold applyEmptyManaPoolDecisions
  cases state.board.pools.lookup player with
  | none => exact ⟨rfl, rfl, rfl, rfl⟩
  | some pool =>
    have none_ := applyDecisions_burns player []
      (units.mergeSort fun a b => b.poolIndex ≤ a.poolIndex) (pool, 0, [])
    simp only [reportedBurns] at none_
    simp [reportedBurns, none_]

variable {player : PlayerId} {loss : PendingEmptyPoolLifeLoss}

theorem owedFor_own {amount : Nat} {burns causes : Bool} :
    ∀ loss ∈ owedFor player amount burns causes, loss.playerId = player := by
  intro loss mem
  cases burns <;> cases causes <;> simp [owedFor] at mem <;> grind

section
variable {player : PlayerId}
  (working : Working queue next beat progress (player :: progress.remainingPlayers) [] state)
include working

/-- A player's pool empties, and what it costs is attempted. -/
theorem applyEmptyManaPoolEvent_spec (units : List UnitDecision) :
    Goes queue next beat progress (applyEmptyManaPoolEvent engine player units state) := by
  obtain ⟨same, cursor, ready, noneOwed, noneInFlight, target, books⟩ := working
  obtain ⟨sameBeat, sameCursor, history, burns⟩ := applyEmptyManaPoolDecisions_spec state player units
  obtain ⟨⟨emptied, amount⟩, isEmptied⟩ :
      ∃ p, applyEmptyManaPoolDecisions state player units = p := ⟨_, rfl⟩
  rw [isEmptied] at sameBeat sameCursor history burns
  have books' : Books queue (player :: progress.remainingPlayers) [] none
      { emptied with board := engine.clearStepEndManaHandlers emptied.board } :=
    books.of_eq history burns
  unfold applyEmptyManaPoolEvent
  simp only [isEmptied]
  by_cases nothing : amount = 0
  · rw [if_pos nothing]
    exact ⟨sameBeat.trans same, sameCursor.trans cursor, ready, noneOwed, noneInFlight, target,
      books'.process [] (by simp)⟩
  · rw [if_neg nothing]
    exact dischargeOwedLifeLosses_spec ⟨sameBeat.trans same, sameCursor.trans cursor, ready,
      noneOwed, noneInFlight, target, books'.process _ owedFor_own⟩

/-- One player's turn in the loop. -/
theorem drainPlayer_spec (reached : PhaseTransitionProgress) :
    Goes queue next beat progress (drainPlayer engine reached player state) := by
  unfold drainPlayer
  dsimp only
  split
  · next board units _ => exact applyEmptyManaPoolEvent_spec (working.setBoard board) units
  · next board choosing _ =>
    obtain ⟨same, cursor, ready, noneOwed, noneInFlight, target, books⟩ := working.setBoard board
    exact .emptyPool ⟨rfl, cursor, ready, noneOwed, noneInFlight, target, books.of_eq rfl rfl⟩
  · next board _ =>
    obtain ⟨same, cursor, ready, noneOwed, noneInFlight, target, books⟩ :=
      working.setBoard (engine.clearStepEndManaHandlers board)
    exact ⟨same, cursor, ready, noneOwed, noneInFlight, target, books.process [] (by simp)⟩

end

theorem drainEmptyQueue_spec (working : Working queue next beat progress [] [] state)
    (nobody : progress.remainingPlayers = []) (reached : PhaseTransitionProgress)
    (target : reached.nextPhase = next) :
    Stands queue next beat (drainEmptyQueue engine reached state) := by
  unfold drainEmptyQueue
  dsimp only
  split
  · next controller _ =>
    have asked : Working queue next (.loopCollapse controller) progress [] [] { state with
          board := engine.clearUnboundedManaLoops state.board
          waitingFor := .loopCollapse controller } :=
      { working with beat := rfl, books := working.books.of_eq rfl rfl }
    exact .inl (.loopCollapse asked nobody)
  · refine .inr ⟨working.beat, rfl, state, working.books, ?_, ?_⟩
    · rw [← target]
      rfl
    · simp [finishEnterPhase, note, reportedBurns]

theorem drainPlayers_spec {remaining : List PlayerId}
    (working : Working queue next beat progress remaining [] state)
    (queued : progress.remainingPlayers = remaining) (reached : PhaseTransitionProgress)
    (target : reached.nextPhase = next) :
    Stands queue next beat (drainPlayers engine reached remaining state) := by
  induction remaining generalizing state progress with
  | nil => exact drainEmptyQueue_spec working queued reached target
  | cons player rest ih =>
    have popped : Working queue next beat { progress with remainingPlayers := rest } (player :: rest) []
        (state.updateProgress fun progress => { progress with remainingPlayers := rest }) :=
      { working with
        cursor := by simp [updateProgress, working.cursor]
        books := working.books.of_eq rfl rfl }
    have goes := @drainPlayer_spec ω engine queue next beat { progress with remainingPlayers := rest }
      _ player popped reached
    rw [drainPlayers]
    revert goes
    cases drainPlayer engine reached player _ with
    | mk after outcome =>
      intro goes
      cases outcome with
      | applied => exact ih goes rfl
      | deferred => exact .inl goes

/-- The drain goes on from where it was parked. -/
theorem drainPendingPhaseTransitionProgress_spec (same : state.waitingFor = beat)
    (cursor : state.pendingPhaseTransitionProgress = some progress)
    (ready : progress.drainState = .ready) (noneInFlight : progress.inFlightLifeLoss = none)
    (target : progress.nextPhase = next)
    (books : Books queue progress.remainingPlayers progress.owedLifeLoss none state) :
    Stands queue next beat (drainPendingPhaseTransitionProgress engine state) := by
  have working : Working queue next beat { progress with owedLifeLoss := [] } progress.remainingPlayers
      progress.owedLifeLoss
      (state.updateProgress fun progress => { progress with owedLifeLoss := [] }) :=
    ⟨same, by simp [updateProgress, cursor], ready, rfl, noneInFlight, target, books.of_eq rfl rfl⟩
  have goes := @dischargeOwedLifeLosses_spec ω engine queue next beat
    { progress with owedLifeLoss := [] } _ _ working
  have isReady : ¬progress.drainState ≠ .ready := by simp [ready]
  simp only [drainPendingPhaseTransitionProgress, cursor, if_neg isReady]
  revert goes
  cases dischargeOwedLifeLosses engine progress.owedLifeLoss _ with
  | mk after outcome =>
    intro goes
    cases outcome with
    | applied => exact drainPlayers_spec goes rfl progress target
    | deferred => exact .inl goes

/-- With nothing in flight, a life loss that comes out of a choice is somebody else's. -/
theorem noteEmptyPoolLifeLossResolved_none
    (cursor : state.pendingPhaseTransitionProgress = some progress)
    (noneInFlight : progress.inFlightLifeLoss = none) (player : PlayerId) (actual : Nat) :
    noteEmptyPoolLifeLossResolved player actual state = state := by
  simp [noteEmptyPoolLifeLossResolved, cursor, noneInFlight]

theorem noteEmptyPoolLifeLossResolved_some {loss : PendingEmptyPoolLifeLoss}
    (cursor : state.pendingPhaseTransitionProgress = some progress)
    (parked : progress.inFlightLifeLoss = some loss) (actual : Nat) :
    noteEmptyPoolLifeLossResolved loss.playerId actual state = emitLifeLossCause loss actual
      (state.updateProgress fun progress => { progress with inFlightLifeLoss := none }) := by
  simp [noteEmptyPoolLifeLossResolved, cursor, parked]

theorem resumeEmptyPoolChoice_spec {choosing : PlayerId}
    (working : Working queue next (.emptyPoolChoice choosing player) progress
      (player :: progress.remainingPlayers) [] state) (units : List UnitDecision) :
    ∃ beat, Stands queue next (.priority beat)
      (resumeEmptyPoolChoice engine player units state) := by
  have goes := @applyEmptyManaPoolEvent_spec ω engine queue next _ progress state player working
    units
  unfold resumeEmptyPoolChoice
  revert goes
  cases applyEmptyManaPoolEvent engine player units state with
  | mk after outcome =>
    intro goes
    cases outcome with
    | applied =>
      obtain ⟨-, cursor, ready, noneOwed, noneInFlight, target, books⟩ := goes
      refine ⟨engine.activePlayer after.board, drainPendingPhaseTransitionProgress_spec rfl cursor
        ready noneInFlight target ?_⟩
      rw [noneOwed]
      exact books.of_eq rfl rfl
    | deferred => exact ⟨0, .inl goes⟩

/-- After the pending loss has settled, the drain goes on, or waits for the effect in its place. -/
theorem finishLifeLossChoice_spec {loser : PlayerId}
    (cursor : state.pendingPhaseTransitionProgress = some progress)
    (ready : progress.drainState = .ready) (noneInFlight : progress.inFlightLifeLoss = none)
    (target : progress.nextPhase = next)
    (books : Books queue progress.remainingPlayers progress.owedLifeLoss none state)
    (substitutePauses : Bool) : ∃ beat, Stands queue next (.priority beat)
      (finishLifeLossChoice engine (some loser) substitutePauses state) := by
  cases substitutePauses with
  | true =>
    refine ⟨0, .inl (@Paused.substitute _ queue next _
      { progress with drainState := .awaitingPostReplacementContinuation } ?_ rfl noneInFlight
      target (books.of_eq rfl rfl) rfl)⟩
    simp [finishLifeLossChoice, markPhaseTransitionAwaitingPostReplacement, updateProgress, cursor]
  | false =>
    exact ⟨engine.activePlayer state.board, drainPendingPhaseTransitionProgress_spec rfl cursor ready
      noneInFlight target (books.of_eq rfl rfl)⟩

/-- The loss in flight settles: its own cause is told, and it is in flight no more. -/
theorem settleInFlight {loss : PendingEmptyPoolLifeLoss}
    (cursor : state.pendingPhaseTransitionProgress = some progress)
    (parked : progress.inFlightLifeLoss = some loss)
    (books : Books queue progress.remainingPlayers progress.owedLifeLoss (some loss) state)
    (actual : Nat) :
    let after := noteEmptyPoolLifeLossResolved loss.playerId actual
      (state.note (.settled loss.playerId actual))
    after.pendingPhaseTransitionProgress = some { progress with inFlightLifeLoss := none } ∧
      Books queue progress.remainingPlayers progress.owedLifeLoss none after := by
  rw [@noteEmptyPoolLifeLossResolved_some ω progress
    (state.note (.settled loss.playerId actual)) loss cursor parked]
  refine ⟨?_, books.settle actual (Books.history_emitLifeLossCause ..)
    (Books.reportedBurns_emitLifeLossCause ..)⟩
  rw [emitLifeLossCause_cursor]
  simp [updateProgress, note, cursor]

theorem answerSubstitute_spec (cursor : state.pendingPhaseTransitionProgress = some progress)
    (awaiting : progress.drainState = .awaitingPostReplacementContinuation)
    (noneInFlight : progress.inFlightLifeLoss = none) (target : progress.nextPhase = next)
    (books : Books queue progress.remainingPlayers progress.owedLifeLoss none state)
    (waiting : state.waitingFor = .substitute) (losses : List (PlayerId × Nat)) (pauses : Bool) :
    ∃ beat, Stands queue next (.priority beat) (answerSubstitute engine losses pauses state) := by
  -- the losses of the substitute find nothing parked
  have unnoted : losses.foldl
      (fun state loss => noteEmptyPoolLifeLossResolved loss.1 loss.2 state) state = state := by
    induction losses with
    | nil => rfl
    | cons loss losses ih =>
      rw [foldl_cons, noteEmptyPoolLifeLossResolved_none cursor noneInFlight]
      exact ih
  unfold answerSubstitute
  rw [unnoted]
  cases pauses with
  | true => exact ⟨0, .inl (.substitute cursor awaiting noneInFlight target books waiting)⟩
  | false =>
    refine ⟨engine.activePlayer state.board, ?_⟩
    have ended : resumePhaseTransitionAfterPostReplacement engine (grantPriority engine state) =
        drainPendingPhaseTransitionProgress engine ((grantPriority engine state).updateProgress
          fun progress => { progress with drainState := .ready }) := by
      simp [resumePhaseTransitionAfterPostReplacement, grantPriority, cursor, awaiting]
    simp only [Bool.false_eq_true, if_false, ended]
    exact @drainPendingPhaseTransitionProgress_spec ω engine queue next _
      { progress with drainState := .ready } _ rfl
      (by simp [grantPriority, updateProgress, cursor]) rfl noneInFlight target
      (books.of_eq rfl rfl)

theorem submitLoopCollapse_spec
    (working : Working queue next (.loopCollapse player) progress [] [] state)
    (nobody : progress.remainingPlayers = []) (amount : Nat) :
    ∃ beat, Stands queue next (.priority beat) (submitLoopCollapse engine player amount state) := by
  obtain ⟨same, cursor, ready, noneOwed, noneInFlight, target, books⟩ :=
    working.setBoard (engine.materialize state.board player amount)
  have stands := @drainPendingPhaseTransitionProgress_spec ω engine queue next _ progress _ same
    cursor ready noneInFlight target (by rw [nobody, noneOwed]; exact books)
  refine ⟨engine.activePlayer (drainPendingPhaseTransitionProgress engine { state with
    board := engine.materialize state.board player amount }).board, ?_⟩
  unfold submitLoopCollapse
  rcases stands with paused | entered
  · have some_ := paused.cursor_isSome
    simp only [Option.isNone_iff_eq_none, if_neg some_]
    exact .inl paused
  · simp only [entered.cursor, Option.isNone_none, if_true]
    exact .inr ⟨rfl, entered.cursor, entered.books⟩

/-! ### Which prompt is answered -/

section
variable {turn : PlayerId} (stands : Stands queue next (.priority turn) state)
include stands

variable {player : PlayerId}

theorem at_emptyPoolChoice {choosing : PlayerId}
    (waiting : state.waitingFor = .emptyPoolChoice choosing player) :
    ∃ progress, Working queue next (.emptyPoolChoice choosing player) progress
      (player :: progress.remainingPlayers) [] state := by
  rcases stands with paused | entered
  · cases paused with
    | emptyPool working =>
      obtain ⟨rfl, rfl⟩ := WaitingFor.emptyPoolChoice.inj (working.beat.symm.trans waiting)
      exact ⟨_, working⟩
    | lifeLoss _ _ _ _ _ asked => cases asked.symm.trans waiting
    | substitute _ _ _ _ _ asked => cases asked.symm.trans waiting
    | loopCollapse working => cases working.beat.symm.trans waiting
  · cases entered.beat.symm.trans waiting

theorem at_lifeLossChoice {choosing : PlayerId}
    (waiting : state.waitingFor = .lifeLossChoice choosing player) :
    ∃ progress loss, state.pendingPhaseTransitionProgress = some progress ∧
      progress.drainState = .ready ∧ progress.inFlightLifeLoss = some loss ∧
      progress.nextPhase = next ∧ loss.playerId = player ∧
      Books queue progress.remainingPlayers progress.owedLifeLoss (some loss) state := by
  rcases stands with paused | entered
  · cases paused with
    | emptyPool working => cases working.beat.symm.trans waiting
    | lifeLoss cursor ready parked target books asked =>
      obtain ⟨-, own⟩ := WaitingFor.lifeLossChoice.inj (asked.symm.trans waiting)
      exact ⟨_, _, cursor, ready, parked, target, own, books⟩
    | substitute _ _ _ _ _ asked => cases asked.symm.trans waiting
    | loopCollapse working => cases working.beat.symm.trans waiting
  · cases entered.beat.symm.trans waiting

theorem at_substitute (waiting : state.waitingFor = .substitute) :
    ∃ progress, state.pendingPhaseTransitionProgress = some progress ∧
      progress.drainState = .awaitingPostReplacementContinuation ∧
      progress.inFlightLifeLoss = none ∧ progress.nextPhase = next ∧
      Books queue progress.remainingPlayers progress.owedLifeLoss none state := by
  rcases stands with paused | entered
  · cases paused with
    | emptyPool working => cases working.beat.symm.trans waiting
    | lifeLoss _ _ _ _ _ asked => cases asked.symm.trans waiting
    | substitute cursor awaiting noneInFlight target books =>
      exact ⟨_, cursor, awaiting, noneInFlight, target, books⟩
    | loopCollapse working => cases working.beat.symm.trans waiting
  · cases entered.beat.symm.trans waiting

theorem at_loopCollapse (waiting : state.waitingFor = .loopCollapse player) :
    ∃ progress, Working queue next (.loopCollapse player) progress [] [] state ∧
      progress.remainingPlayers = [] := by
  rcases stands with paused | entered
  · cases paused with
    | emptyPool working => cases working.beat.symm.trans waiting
    | lifeLoss _ _ _ _ _ asked => cases asked.symm.trans waiting
    | substitute _ _ _ _ _ asked => cases asked.symm.trans waiting
    | loopCollapse working nobody =>
      obtain rfl := WaitingFor.loopCollapse.inj (working.beat.symm.trans waiting)
      exact ⟨_, working, nobody⟩
  · cases entered.beat.symm.trans waiting

end

/-- Every answer leaves the drain paused again, or the step entered. -/
theorem Answer.stands {after : GameState ω} (answer : Answer engine state after) {turn : PlayerId}
    (stands : Stands queue next (.priority turn) state) :
    ∃ turn, Stands queue next (.priority turn) after := by
  cases answer with
  | askEmptyPoolAgain board again waiting =>
    obtain ⟨progress, working⟩ := at_emptyPoolChoice stands waiting
    exact ⟨0, .inl (@Paused.emptyPool _ queue next _ progress again _ { working with
      beat := rfl, books := working.books.of_eq rfl rfl })⟩
  | emptyPool board units waiting =>
    obtain ⟨progress, working⟩ := at_emptyPoolChoice stands waiting
    exact resumeEmptyPoolChoice_spec (working.setBoard board) units
  | askLifeLossAgain board again waiting =>
    obtain ⟨progress, loss, cursor, ready, parked, target, rfl, books⟩ :=
      at_lifeLossChoice stands waiting
    exact ⟨0, .inl (.lifeLoss cursor ready parked target (books.of_eq rfl rfl) rfl)⟩
  | lifeLoss board actual pauses waiting =>
    obtain ⟨progress, loss, cursor, ready, parked, target, rfl, books⟩ :=
      at_lifeLossChoice stands waiting
    obtain ⟨cursor', books'⟩ := @settleInFlight ω queue progress { state with board } loss cursor
      parked (books.of_eq rfl rfl) actual
    have loser : pendingPhaseDrainLifeLoser { state with board } = some loss.playerId := by
      simp [pendingPhaseDrainLifeLoser, cursor, waiting, ready]
    rw [resumeLifeLossChoice, loser]
    exact finishLifeLossChoice_spec cursor' ready rfl target books' pauses
  | lifeLossPrevented board pauses waiting =>
    obtain ⟨progress, loss, cursor, ready, parked, target, rfl, books⟩ :=
      at_lifeLossChoice stands waiting
    obtain ⟨cursor', books'⟩ := @settleInFlight ω queue progress { state with board } loss cursor
      parked (books.of_eq rfl rfl) 0
    have loser : pendingPhaseDrainLifeLoser { state with board } = some loss.playerId := by
      simp [pendingPhaseDrainLifeLoser, cursor, waiting, ready]
    simp only [preventLifeLossChoice, loser]
    exact finishLifeLossChoice_spec cursor' ready rfl target books' pauses
  | substitute board losses pauses waiting =>
    obtain ⟨progress, cursor, awaiting, noneInFlight, target, books⟩ :=
      at_substitute stands waiting
    exact @answerSubstitute_spec ω engine queue next progress { state with board } cursor awaiting
      noneInFlight target (books.of_eq rfl rfl) waiting losses pauses
  | loopCollapse amount waiting =>
    obtain ⟨progress, working, nobody⟩ := at_loopCollapse stands waiting
    exact submitLoopCollapse_spec working nobody amount

end

/-- The turn leaves a step, with nothing pending. -/
def leavingStep (board : Board ω) (phase : TurnPhase) (player : PlayerId) : GameState ω where
  board
  phase
  pendingPhaseTransitionProgress := none
  waitingFor := .priority player
  events := []
  history := []

/-- The step `next` is on its way, and some prompts have been answered since. -/
inductive Reaches (engine : Engine ω) (next : TurnPhase) (apnapAnchor : Option PlayerId)
    (board : Board ω) : GameState ω → Prop where
  | start (phase : TurnPhase) (player : PlayerId) : Reaches engine next apnapAnchor board
      (enterPhase engine next apnapAnchor (leavingStep board phase player))
  | answer {state after : GameState ω} (before : Reaches engine next apnapAnchor board state)
      (answer : Answer engine state after) : Reaches engine next apnapAnchor board after

/-- The turn-order queue that the transition builds. -/
def drainQueue (engine : Engine ω) (next : TurnPhase) (apnapAnchor : Option PlayerId)
    (board : Board ω) : List PlayerId :=
  engine.apnapOrder (engine.beginStep board next) apnapAnchor

/-- Nothing is done twice or out of turn, and every loss is its owner's. -/
structure OnceSoFar (queue : List PlayerId) (state : GameState ω) : Prop where
  players : processedPlayers state.history <+: queue
  losses : attemptedLosses state.history <+: owedLosses state.history
  owners : ∀ player owed, .processed player owed ∈ state.history →
    ∀ loss ∈ owed, loss.playerId = player
  settles : (settledLosses state.history).map Prod.fst <+:
    (attemptedLosses state.history).map (·.playerId)
  burns : reportedBurns state.events =
    burnsOf (attemptedLosses state.history) (settledLosses state.history)

/-- The step has begun, once and last, with nothing left out. -/
structure AllDone (queue : List PlayerId) (next : TurnPhase) (state : GameState ω) : Prop where
  players : processedPlayers state.history = queue
  losses : attemptedLosses state.history = owedLosses state.history
  settles : (settledLosses state.history).map Prod.fst =
    (attemptedLosses state.history).map (·.playerId)
  entered : ∃ before, state.history = before ++ [.entered next] ∧ enteredPhases before = []

/-- What is in flight has not settled, so it takes no part in the burns. -/
theorem burnsOf_append (done : List PendingEmptyPoolLifeLoss)
    (open_ : List PendingEmptyPoolLifeLoss) {settled : List (PlayerId × Nat)}
    (sameLength : done.length = settled.length) :
    burnsOf (done ++ open_) settled = burnsOf done settled := by
  have zipped : (done ++ open_).zip (settled ++ []) = done.zip settled := by
    rw [zip_append sameLength, zip_nil_right, append_nil]
  rw [append_nil] at zipped
  rw [burnsOf, zipped, burnsOf]

theorem Books.onceSoFar {pending : List PlayerId} {inFlight : Option PendingEmptyPoolLifeLoss}
    (books : Books queue pending owed inFlight state) : OnceSoFar queue state := by
  obtain ⟨players, losses, ⟨done, attempted, settled, burns⟩, owners, -⟩ := books
  refine ⟨⟨_, players⟩, ⟨_, losses⟩, owners, ?_, ?_⟩
  · rw [settled, attempted, map_append]
    exact prefix_append ..
  · rw [burns, attempted, burnsOf_append]
    simpa using (congrArg length settled).symm

theorem Paused.books (paused : Paused queue next state) :
    ∃ pending owed inFlight, Books queue pending owed inFlight state := by
  cases paused with
  | emptyPool working => exact ⟨_, _, _, working.books⟩
  | lifeLoss _ _ _ _ books => exact ⟨_, _, _, books⟩
  | substitute _ _ _ _ books => exact ⟨_, _, _, books⟩
  | loopCollapse working => exact ⟨_, _, _, working.books⟩

theorem Paused.asks (paused : Paused queue next state) (player : PlayerId) :
    state.waitingFor ≠ .priority player := by
  intro beat
  cases paused with
  | emptyPool working => cases working.beat.symm.trans beat
  | lifeLoss _ _ _ _ _ asked => cases asked.symm.trans beat
  | substitute _ _ _ _ _ asked => cases asked.symm.trans beat
  | loopCollapse working => cases working.beat.symm.trans beat

theorem Entered.onceSoFar {beat : WaitingFor} (entered : Entered queue next beat state) :
    OnceSoFar queue state ∧ AllDone queue next state := by
  obtain ⟨-, -, before, books, history, burns⟩ := entered
  obtain ⟨players, losses, owners, settles, burns'⟩ := books.onceSoFar
  have all := books.players
  have attempted := books.losses
  obtain ⟨done, inFlight, settled, -⟩ := books.settles
  rw [Option.toList_none, append_nil] at inFlight
  constructor
  · refine ⟨?_, ?_, ?_, ?_, ?_⟩
    · simpa [history, processedPlayers] using players
    · simpa [history, attemptedLosses, owedLosses] using losses
    · intro player owed mem
      exact owners player owed (by simpa [history] using mem)
    · simpa [history, settledLosses, attemptedLosses] using settles
    · rw [burns, burns', history]
      simp [attemptedLosses, settledLosses]
  · refine ⟨?_, ?_, ?_, before.history, history, books.notYet⟩
    · simpa [history, processedPlayers] using all
    · simpa [history, attemptedLosses, owedLosses] using attempted
    · rw [← inFlight] at settled
      simpa [history, settledLosses, attemptedLosses] using settled

theorem Reaches.stands {engine : Engine ω} {apnapAnchor : Option PlayerId} {board : Board ω}
    (reached : Reaches engine next apnapAnchor board state) :
    ∃ turn, Stands (drainQueue engine next apnapAnchor board) next (.priority turn) state := by
  induction reached with
  | start phase player =>
    refine ⟨player, ?_⟩
    unfold enterPhase
    refine drainPendingPhaseTransitionProgress_spec ?_ rfl rfl rfl rfl ?_
    · rfl
    · exact ⟨rfl, rfl, ⟨[], rfl, rfl, rfl⟩, fun _ _ mem => (not_mem_nil mem).elim, rfl⟩
  | answer _ answer ih =>
    obtain ⟨turn, stands⟩ := ih
    exact answer.stands stands

/-- Two players with one red mana each, in a format with mana burn. The first one orders the handlers
of the emptying pool, and every life loss waits for a choice. -/
def burnEngine : Engine Unit where
  activePlayer _ := 0
  apnapOrder _ _ := [0, 1]
  burns _ := true
  playerUnspentManaLossCausesLifeLoss _ _ := false
  debugInfiniteMana _ _ := false
  scanStepEndManaHandlers board _ := board
  clearStepEndManaHandlers board := board
  replaceEmptyManaPool board player units :=
    (board, if player = 0 then .needsChoice 0 else .execute units)
  applyLifeLoss board player _ := (board, .error (.replacementChoice player))
  clearUnboundedManaLoops board := board
  nextApnapPlayerWithPendingMaterialization _ := none
  materialize board _ _ := board
  beginStep board _ := board
  finishEnterPhase board _ := board

def burnBoard : Board Unit where
  pools :=
    let pool := ManaPool.add {} ({ color := .red, sourceId := 7, pipId := 1 } : ManaUnit)
    AList.insert 0 pool (AList.insert 1 pool ∅)
  rest := ()

def burnStart : GameState Unit :=
  enterPhase burnEngine .endStep none (leavingStep burnBoard .postCombatMain 0)

/-- The first player orders the handlers. -/
def firstEmptied : GameState Unit :=
  resumeEmptyPoolChoice burnEngine 0 [⟨0, .red, .drop⟩] burnStart

def firstBurnt : GameState Unit := resumeLifeLossChoice burnEngine 0 1 false firstEmptied

/-- The second one's loss is prevented; what takes its place asks once more. -/
def secondPrevented : GameState Unit := preventLifeLossChoice burnEngine true firstBurnt

def bothEmptied : GameState Unit := answerSubstitute burnEngine [(1, 5)] false secondPrevented

theorem bothEmptied_reached : Reaches burnEngine .endStep none burnBoard bothEmptied := by
  have start : Reaches burnEngine .endStep none burnBoard burnStart := .start .postCombatMain 0
  have emptied : Reaches burnEngine .endStep none burnBoard firstEmptied :=
    start.answer (.emptyPool burnStart.board [⟨0, .red, .drop⟩]
      (by decide +kernel : burnStart.waitingFor = .emptyPoolChoice 0 0))
  have burnt : Reaches burnEngine .endStep none burnBoard firstBurnt :=
    emptied.answer (.lifeLoss firstEmptied.board 1 false
      (by decide +kernel : firstEmptied.waitingFor = .lifeLossChoice 0 0))
  have prevented : Reaches burnEngine .endStep none burnBoard secondPrevented :=
    burnt.answer (.lifeLossPrevented firstBurnt.board true
      (by decide +kernel : firstBurnt.waitingFor = .lifeLossChoice 1 1))
  exact prevented.answer (.substitute secondPrevented.board [(1, 5)] false (by decide +kernel))

end

end Phase.StepEnd
