import Phase.Draft.FifoSnapshot

/-! `apply_at`: one FIFO operation, committed whole or not at all. -/
namespace Phase.Draft

/-- What the event decides after the draft: deck legality, pairings and results.
These read the session but touch only its event record; `none` is a refusal. -/
structure EventRules where
  /-- The record with the deck in it, and whether every human has now submitted. -/
  submitDeck : DraftSession → Nat → List String → List String → Option (EventRecord × Bool)
  generatePairings : DraftSession → EventRecord
  /-- The record with the result in it, and, once the round is complete, whether
  the tournament is over. -/
  reportMatchResult : DraftSession → String → Option Nat → Option (EventRecord × Option Bool)

inductive DraftAction where
  | startDraft
  | select (seat : Nat) (promptId : DraftPromptId) (picked burned effects : List String)
  | control (control : DraftControl)
  | advanceClock
  | pick (seat : Nat) (ids : List String)
  | pickWithDraftEffect (seat : Nat) (effectId : String) (ids : List String)
  | sharedStackDecision
  | submitDeck (seat : Nat) (mainDeck commanders : List String)
  | generatePairings
  | reportMatchResult (matchId : String) (winnerSeat : Option Nat)
  | advanceRound
  | replaceSeatWithBot (seat : Nat) (name : Option String)
  | setSeatConnected (seat : Nat) (connected : Bool)

section
variable (rules : EventRules)

def applySubmitDeck (session : DraftSession) (seat : Nat) (mainDeck commanders : List String) :
    Except DraftError (DraftSession × List DraftDelta) :=
  if session.status ≠ .deckbuilding then
    .error (.invalidTransition session.status "SubmitDeck")
  else if session.seats.length ≤ seat then .error (.seatOutOfRange seat session.seats.length)
  else
    match rules.submitDeck session seat mainDeck commanders with
    | none => .error .validationFailed
    | some (event, false) => .ok ({ session with event }, [.deckSubmitted seat])
    | some (event, true) =>
      let status : DraftStatus := match session.kind.procedure.postDraftPlay with
        | .completeImmediately => .complete
        | .tournamentPairings => .pairing
      .ok ({ session with event, status }, [.deckSubmitted seat, .transitionedTo status])

def applyGeneratePairings (session : DraftSession) :
    Except DraftError (DraftSession × List DraftDelta) :=
  if session.status ≠ .deckbuilding ∧ session.status ≠ .pairing ∧
      session.status ≠ .roundComplete then
    .error (.invalidTransition session.status "GeneratePairings")
  else if session.kind.procedure.postDraftPlay ≠ .tournamentPairings then
    .error (.invalidTransition session.status "GeneratePairings")
  else if !session.kind.procedure.allowsPodSize session.config.tournamentFormat
      session.seats.length then
    .error (.unsupportedTournamentSize session.config.tournamentFormat
      (session.kind.procedure.allowedPodSizeStart session.config.tournamentFormat)
      session.seats.length)
  else
    let event := rules.generatePairings session
    .ok ({ session with event, status := .matchInProgress },
      [.pairingsGenerated event.currentRound, .transitionedTo .matchInProgress])

def applyReportMatchResult (session : DraftSession) (matchId : String)
    (winnerSeat : Option Nat) : Except DraftError (DraftSession × List DraftDelta) :=
  if session.status ≠ .matchInProgress ∧ session.status ≠ .roundComplete then
    .error (.invalidTransition session.status "ReportMatchResult")
  else
    match rules.reportMatchResult session matchId winnerSeat with
    | none => .error .eventRefused
    | some (event, none) =>
      .ok ({ session with event }, [.matchResultRecorded matchId winnerSeat])
    | some (event, some finished) =>
      let status : DraftStatus := if finished then .complete else .roundComplete
      .ok ({ session with event, status },
        [.matchResultRecorded matchId winnerSeat, .transitionedTo status])

def applyAdvanceRound (session : DraftSession) :
    Except DraftError (DraftSession × List DraftDelta) :=
  if session.status ≠ .roundComplete then
    .error (.invalidTransition session.status "AdvanceRound")
  else .ok ({ session with status := .pairing }, [.roundAdvanced (session.event.currentRound + 1)])

def applyReplaceSeatWithBot (session : DraftSession) (seat : Nat) (name : Option String) :
    Except DraftError (DraftSession × List DraftDelta) :=
  if session.seats.length ≤ seat then .error (.seatOutOfRange seat session.seats.length)
  else .ok ({ session with
      seats := session.seats.set seat (.bot (name.getD s!"Seat {seat + 1}")) },
    [.seatReplacedWithBot seat])

def applySetSeatConnected (session : DraftSession) (seat : Nat) (connected : Bool) :
    Except DraftError (DraftSession × List DraftDelta) :=
  match session.seats[seat]? with
  | none => .error (.seatOutOfRange seat session.seats.length)
  | some (.bot _) => .error (.seatIsBot seat)
  | some (.human ..) =>
    let flags := ensureLen session.connectedSeats session.seats.length true
    .ok ({ session with connectedSeats := flags.set seat connected },
      [.seatConnectionChanged seat connected])

/-- The reducer of one action on the staged candidate. -/
def reduceFifo (source : Option (Except DraftError (List (List DraftPack))))
    (candidate : DraftSession) (now : Nat) :
    DraftAction → Except DraftError (DraftSession × List DraftDelta)
  | .startDraft => startFifo candidate source now
  | .select seat promptId picked burned effects =>
    selectFifo candidate seat promptId picked burned effects .human
  | .control action => control candidate action now
  | .advanceClock => advance candidate now
  | .pick .. | .pickWithDraftEffect .. | .sharedStackDecision => .error .incompatibleFlow
  | .submitDeck seat mainDeck commanders => applySubmitDeck rules candidate seat mainDeck commanders
  | .generatePairings => applyGeneratePairings rules candidate
  | .reportMatchResult matchId winnerSeat =>
    applyReportMatchResult rules candidate matchId winnerSeat
  | .advanceRound => applyAdvanceRound candidate
  | .replaceSeatWithBot seat name => applyReplaceSeatWithBot candidate seat name
  | .setSeatConnected seat connected => applySetSeatConnected candidate seat connected

def stamp (session : DraftSession) (now : Nat) : Except DraftError DraftSession := do
  let fifo ← session.fifoRef
  pure { session with fifo := some { fifo with lastNowMs := now } }

def bumpRevision (session : DraftSession) : Except DraftError DraftSession := do
  let fifo ← session.fifoRef
  let revision ← increment fifo.revision
  pure { session with fifo := some { fifo with revision } }

/-- `apply_at` on a FIFO session. -/
def applyAt (source : Option (Except DraftError (List (List DraftPack))))
    (session : DraftSession) (action : DraftAction) (nowMs : Nat) :
    Except DraftError (DraftSession × List DraftDelta) := do
  validateFifoSnapshot session
  let now ← clampedNow session nowMs
  let staged ← stamp session now
  let (candidate, deltas) ← reduceFifo rules source staged now action
  if candidate = session then pure (session, deltas)
  else
    let committed ← bumpRevision candidate
    validateFifoSnapshot committed
    pure (committed, deltas)

end

/-- A FIFO session before its draft: seats, and nothing dealt. -/
def lobbySession (config : DraftConfig) (seats : List DraftSeat) (sessionId : String) :
    DraftSession :=
  { DraftSession.new config seats with
    fifo := some {
      sessionId
      revision := 0
      lastNowMs := 0
      seats := List.replicate seats.length {}
      packs := ∅
      cards := ∅
      removed := []
      returnedEffects := ∅
      review := none
      paused := none } }

def newFifo (config : DraftConfig) (seats : List DraftSeat) (sessionId : String) :
    Except DraftError DraftSession := do
  if config.flow ≠ .fifoAsync then throw .incompatibleFlow
  validateFifoConfig config seats.length .configuration
  if !validDraftId sessionId then throw (snapshotError "invalid session id")
  let session := lobbySession config seats sessionId
  validateFifoSnapshot session
  pure session

end Phase.Draft
