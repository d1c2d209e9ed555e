import Phase.Draft.Barrier

/-! The FIFO flow: each seat works through its own queue of packs, under a prompt
and, where the policy says so, a clock. -/
namespace Phase.Draft

def snapshotError (reason : String) : DraftError := .invalidSnapshot reason

def DraftSession.fifoRef (session : DraftSession) : Except DraftError FifoDraftState :=
  match session.fifo with
  | some fifo => .ok fifo
  | none => .error (snapshotError "missing FIFO state")

def seatStepMs : List Nat :=
  [75000, 70000, 65000, 58000, 52000, 46000, 40000, 34000, 28000, 23000, 20000, 18000, 16000, 15000]

def increment (value : Nat) : Except DraftError Nat :=
  if value + 1 ≤ maxDraftJsonInteger then .ok (value + 1) else .error .invalidClockBounds

def clampedNow (session : DraftSession) (now : Nat) : Except DraftError Nat := do
  if maxDraftJsonInteger < now then throw .invalidClockBounds
  let fifo ← session.fifoRef
  pure (max now fifo.lastNowMs)

def pickDuration (policy : PickClockPolicy) (steps : Nat) : Option Nat :=
  match policy with
  | .off => none
  | .fixed durationMs => some durationMs
  | .seatStep => some (seatStepMs.getD (min steps 13) 0)

def deadline (now remaining : Nat) : Except DraftError Nat :=
  if now + remaining ≤ maxDraftJsonInteger then .ok (now + remaining)
  else .error .invalidClockBounds

def running (target : DraftClockTarget) (now duration : Nat) : Except DraftError DraftClock := do
  let deadlineMs ← deadline now duration
  pure { target, state := .running deadlineMs }

def promptClock (policy : PickClockPolicy) (id : DraftPromptId) (steps now : Nat) :
    Except DraftError (Option DraftClock) :=
  match pickDuration policy steps with
  | none => .ok none
  | some duration => (running (.pick id) now duration).map some

/-- A seat without a pack has no prompt; a seat whose prompt names another pack
gets a new one. -/
def reconcileSeat (policy : PickClockPolicy) (sessionId : String) (now index : Nat)
    (seat : FifoSeatState) : Except DraftError FifoSeatState :=
  match seat.queue with
  | [] => .ok { seat with prompt := none }
  | head :: _ =>
    if seat.prompt.any fun prompt => prompt.packId = head.packId then .ok seat
    else do
      let generation ← increment seat.generation
      let id : DraftPromptId := { sessionId, seat := index, generation }
      let clock ← promptClock policy id seat.roundCompletedSteps now
      pure { seat with generation, prompt := some { id, packId := head.packId, clock } }

def reconcileSeats (policy : PickClockPolicy) (sessionId : String) (now : Nat) :
    Nat → List FifoSeatState → Except DraftError (List FifoSeatState)
  | _, [] => .ok []
  | index, seat :: seats => do
      let seat ← reconcileSeat policy sessionId now index seat
      let seats ← reconcileSeats policy sessionId now (index + 1) seats
      pure (seat :: seats)

def reconcilePrompts (session : DraftSession) (now : Nat) : Except DraftError DraftSession := do
  let fifo ← session.fifoRef
  let seats ← reconcileSeats session.config.clockPolicy.pick fifo.sessionId now 0 fifo.seats
  pure { session with fifo := some { fifo with seats } }

def coordinate (podSize round seat : Nat) : DraftPackId := round * podSize + seat

def openSeat (podSize round index : Nat)
    (packs : AList fun _ : DraftPackId => DraftPackProvenance) (future : List DraftPack)
    (seat : FifoSeatState) : Except DraftError (List DraftPack × FifoSeatState) :=
  match future with
  | [] => .error (snapshotError "missing unopened pack")
  | pack :: rest =>
    let packId := coordinate podSize round index
    match packs.lookup packId with
    | none => .error (snapshotError "missing pack provenance")
    | some original =>
      let opened : QueuedDraftPack :=
        { packId, openingSeat := original.openingSeat, round,
          originalSize := original.originalSize, pack }
      .ok (rest, { seat with roundCompletedSteps := 0, queue := seat.queue ++ [opened] })

def openSeats (podSize round : Nat) (packs : AList fun _ : DraftPackId => DraftPackProvenance) :
    Nat → List (List DraftPack) → List FifoSeatState →
      Except DraftError (List (List DraftPack) × List FifoSeatState)
  | index, future :: futures, seat :: seats => do
      let (future, seat) ← openSeat podSize round index packs future seat
      let (futures, seats) ← openSeats podSize round packs (index + 1) futures seats
      pure (future :: futures, seat :: seats)
  | _, futures, seats => .ok (futures, seats)

def openFifoRound (session : DraftSession) (round now : Nat) :
    Except DraftError DraftSession := do
  let fifo ← session.fifoRef
  let (packsBySeat, seats) ←
    openSeats session.config.podSize round fifo.packs 0 session.packsBySeat fifo.seats
  reconcilePrompts { session with
    currentPackNumber := round
    passDirection := PassDirection.forPack round
    status := .drafting
    packsBySeat
    fifo := some { fifo with review := none, seats } } now

def finishFifoRound (session : DraftSession) (now : Nat) :
    Except DraftError (DraftSession × List DraftDelta) := do
  let waiting ← session.fifoRef
  let session ← reconcilePrompts session now
  if waiting.seats.any fun seat => !seat.queue.isEmpty then pure (session, [])
  else
    let exhaustedRound := session.currentPackNumber
    if 255 < exhaustedRound + 1 then throw .invalidClockBounds
    let nextRound := exhaustedRound + 1
    if nextRound = session.config.packCount then
      pure ({ session with currentPackNumber := nextRound, status := .deckbuilding },
        [.transitionedTo .deckbuilding])
    else
      let duration := session.config.clockPolicy.reviewDurationMs
      if duration = 0 then
        let session ← openFifoRound session nextRound now
        pure (session, [.packExhausted nextRound])
      else
        let clock ← running (.review nextRound) now duration
        let fifo ← session.fifoRef
        pure ({ session with
          fifo := some { fifo with review := some { exhaustedRound, nextRound, clock } }
          status := .review }, [.transitionedTo .review])

structure DraftSelectionRequirements where
  picks : Nat
  burns : Nat
  deriving DecidableEq

def duplicatePhysicalId : String := "duplicate or overlapping physical id"

/-- Each draft-effect card is listed once and lies in the seat's own pool. -/
def checkEffects (pool : List DraftCardInstance) : List String → List String → Except DraftError Unit
  | _, [] => .ok ()
  | seen, id :: ids =>
    if id ∈ seen then .error (.invalidSelection .effect duplicatePhysicalId)
    else if !(pool.any (isEffectCard id)) then .error (.draftEffectCardNotInPool id)
    else checkEffects pool (seen ++ [id]) ids

def selectionRequirements (session : DraftSession) (seat : Nat) (effects : List String) :
    Except DraftError DraftSelectionRequirements :=
  match session.headPack seat with
  | none => .error (.noPendingPack seat)
  | some head => do
      checkEffects (session.pools.getD seat []) [] effects
      let picks ←
        if effects.isEmpty then pure (session.requiredPickCount seat)
        else
          let required := session.kind.procedure.draftEffectStepSize effects.length
          if head.length < required then
            throw (.invalidDraftEffectSelection required head.length)
          else pure required
      pure { picks, burns := min session.config.selectionPolicy.burnsPerPick (head.length - picks) }

inductive SelectionTiming where
  | human
  | expiry (packId : DraftPackId) (deadlineMs : Nat)
  deriving DecidableEq

/-- One role's ids: as many as required, each new and each in the head. -/
def checkIds (role : DraftSelectionRole) (effects : List String) (head : DraftPack) :
    List String → List String → Except DraftError (List String)
  | selected, [] => .ok selected
  | selected, id :: ids =>
    if id ∈ selected then .error (.invalidSelection role duplicatePhysicalId)
    else if id ∈ effects || !(head.any fun card => card.instanceId = id) then
      .error (.cardNotInPack id)
    else checkIds role effects head (selected ++ [id]) ids

def checkRole (role : DraftSelectionRole) (effects : List String) (head : DraftPack)
    (ids : List String) (expected : Nat) (selected : List String) :
    Except DraftError (List String) :=
  if ids.length ≠ expected then .error (.invalidSelectionCount role expected ids.length)
  else checkIds role effects head selected ids

/-- The prompt stands for this head, belongs to this seat and is still open. -/
def checkPrompt (fifo : FifoDraftState) (seat : Nat) (promptId : DraftPromptId)
    (head : QueuedDraftPack) (prompt : DraftPrompt) (timing : SelectionTiming) :
    Except DraftError Unit := do
  if prompt.id ≠ promptId ∨ prompt.packId ≠ head.packId ∨ promptId.seat ≠ seat ∨
      promptId.sessionId ≠ fifo.sessionId then throw .stalePrompt
  let deadline ← match prompt.clock.map DraftClock.state with
    | some (.running deadlineMs) => pure (some deadlineMs)
    | some (.frozen _) => throw .stalePrompt
    | none => pure none
  match timing with
  | .human =>
    if deadline.any fun deadline => deadline ≤ fifo.lastNowMs then throw .expiredPrompt
  | .expiry packId deadlineMs =>
    if packId ≠ head.packId ∨ deadline ≠ some deadlineMs ∨ fifo.lastNowMs < deadlineMs then
      throw .stalePrompt

/-- The removals of one selection. -/
def removals (reason : DraftRemovalReason) (packId : DraftPackId) (ids : List String) :
    List RemovedDraftCard :=
  ids.map fun cardInstanceId => { cardInstanceId, packId, reason }

def eraseEach {β : Type} (map : AList fun _ : String => β) (ids : List String) :
    AList fun _ : String => β :=
  ids.foldl (fun map id => map.erase id) map

def insertEach {β : Type} (map : AList fun _ : String => β) (value : β) (ids : List String) :
    AList fun _ : String => β :=
  ids.foldl (fun map id => map.insert id value) map

/-- `finish_pick` in the FIFO flow. -/
def finishFifoPick (session : DraftSession) (seat : Nat) (ids : List String) :
    Except DraftError (DraftSession × List DraftDelta) := do
  let fifo ← session.fifoRef
  let (session, deltas) ← finishFifoRound session fifo.lastNowMs
  pure (session, ids.map (fun id => DraftDelta.cardPicked seat id) ++ deltas)

/-- The cards that leave a head: a remainder at or below the threshold is thrown
away whole. -/
def discardRemainder (threshold : Nat) (remainder : DraftPack) : DraftPack × List String :=
  if remainder.length ≤ threshold then ([], remainder.map (·.instanceId)) else (remainder, [])

/-- The card movement of an admitted selection, before the round is looked at:
the head is taken apart, and what is left of it passes on. -/
def moveSelection (session : DraftSession) (fifo : FifoDraftState) (seat : Nat)
    (state : FifoSeatState) (head : QueuedDraftPack) (picked burned effects : List String) :
    Except DraftError (DraftSession × List String × Bool) := do
  let (unpicked, selectedCards) := takeByIds head.pack picked
  let (unburned, _) := takeByIds unpicked burned
  let (pool, returned) := takeByIds (session.pools.getD seat []) effects
  let returnedEffects := insertEach (eraseEach fifo.returnedEffects (picked ++ burned))
    head.packId effects
  let completedSteps ← increment state.completedSteps
  let roundCompletedSteps ← increment state.roundCompletedSteps
  let selecting : FifoSeatState := { state with
    queue := state.queue.tail, completedSteps, roundCompletedSteps, prompt := none }
  let (left, discarded) :=
    discardRemainder session.config.selectionPolicy.discardThreshold (unburned ++ returned)
  let seats := fifo.seats.set seat selecting
  let recipient := session.passDirection.nextSeat seat session.config.podSize
  let passed := if left.isEmpty then seats
    else seats.modify recipient fun next =>
      { next with queue := next.queue ++ [{ head with pack := left }] }
  let fifo := { fifo with
    seats := passed
    removed := fifo.removed ++ removals .burn head.packId burned ++
      removals .threshold head.packId discarded
    returnedEffects := eraseEach returnedEffects discarded }
  pure ({ session with
    pools := session.pools.set seat (pool ++ selectedCards), fifo := some fifo },
    discarded, !left.isEmpty)

def selectFifo (session : DraftSession) (seat : Nat) (promptId : DraftPromptId)
    (picked burned effects : List String) (timing : SelectionTiming) :
    Except DraftError (DraftSession × List DraftDelta) := do
  if session.status ≠ .drafting then throw (.invalidTransition session.status "Select")
  if session.seats.length ≤ seat then throw (.seatOutOfRange seat session.config.podSize)
  let fifo ← session.fifoRef
  match fifo.seats[seat]?, session.headMetadata seat with
  | some state, some head =>
    match state.prompt with
    | none => throw .stalePrompt
    | some prompt =>
      checkPrompt fifo seat promptId head prompt timing
      let requirements ← selectionRequirements session seat effects
      let selected ← checkRole .pick effects head.pack picked requirements.picks []
      let _ ← checkRole .burn effects head.pack burned requirements.burns selected
      let (session, discarded, passed) ←
        moveSelection session fifo seat state head picked burned effects
      let (session, deltas) ← finishFifoPick session seat picked
      pure (session, deltas ++ (if passed then [.packPassed] else []) ++
        [.selectionAccepted promptId seat picked burned effects discarded])
  | _, _ => throw (.noPendingPack seat)

/-- The fallback an expired prompt gets: the front of the pack, no draft effect. -/
def legalAutoSelection (session : DraftSession) (seat : Nat) :
    Option (DraftPromptId × List String × List String) := do
  guard (session.config.flow = .fifoAsync ∧ session.status = .drafting)
  let fifo ← session.fifo
  let state ← fifo.seats[seat]?
  let prompt ← state.prompt
  let requirements ← (selectionRequirements session seat []).toOption
  let pack ← session.headPack seat
  guard (requirements.picks ≠ 0)
  pure (prompt.id, (pack.take requirements.picks).map (·.instanceId),
    ((pack.drop requirements.picks).take requirements.burns).map (·.instanceId))

inductive DraftControl where
  | pause (reason : DraftPauseReason)
  | resume
  deriving DecidableEq

def mapPromptClock (f : DraftClock → Except DraftError DraftClock) (seat : FifoSeatState) :
    Except DraftError FifoSeatState :=
  match seat.prompt with
  | none => .ok seat
  | some prompt =>
    match prompt.clock with
    | none => .ok seat
    | some clock => do
        let clock ← f clock
        pure { seat with prompt := some { prompt with clock := some clock } }

def mapSeatClocks (f : DraftClock → Except DraftError DraftClock) :
    List FifoSeatState → Except DraftError (List FifoSeatState)
  | [] => .ok []
  | seat :: seats => do
      let seat ← mapPromptClock f seat
      let seats ← mapSeatClocks f seats
      pure (seat :: seats)

def mapReviewClock (f : DraftClock → Except DraftError DraftClock) :
    Option DraftReviewState → Except DraftError (Option DraftReviewState)
  | none => .ok none
  | some review => do
      let clock ← f review.clock
      pure (some { review with clock })

def forEachClock (fifo : FifoDraftState) (f : DraftClock → Except DraftError DraftClock) :
    Except DraftError FifoDraftState := do
  let seats ← mapSeatClocks f fifo.seats
  let review ← mapReviewClock f fifo.review
  pure { fifo with seats, review }

def freeze (now : Nat) (clock : DraftClock) : Except DraftError DraftClock :=
  match clock.state with
  | .running deadlineMs => .ok { clock with state := .frozen (deadlineMs - now) }
  | .frozen _ => .error (snapshotError "pause expected running scope")

def thaw (now : Nat) (clock : DraftClock) : Except DraftError DraftClock :=
  match clock.state with
  | .frozen remainingMs => do
      let deadlineMs ← deadline now remainingMs
      pure { clock with state := .running deadlineMs }
  | .running _ => .error (snapshotError "resume expected frozen scope")

def activePhase : DraftStatus → Option DraftActivePhase
  | .drafting => some .drafting
  | .review => some .review
  | _ => none

def DraftActivePhase.status : DraftActivePhase → DraftStatus
  | .drafting => .drafting
  | .review => .review

def control (session : DraftSession) (action : DraftControl) (now : Nat) :
    Except DraftError (DraftSession × List DraftDelta) :=
  match action with
  | .pause reason =>
    match activePhase session.status with
    | none => .error (.invalidTransition session.status "Pause")
    | some phase => do
        let fifo ← session.fifoRef
        let fifo ← forEachClock fifo (freeze now)
        pure ({ session with
          fifo := some { fifo with paused := some { phase, reason } }
          status := .paused }, [.transitionedTo .paused])
  | .resume =>
    if session.status ≠ .paused then .error (.invalidTransition session.status "Resume")
    else do
      let fifo ← session.fifoRef
      match fifo.paused with
      | none => throw (snapshotError "missing paused phase")
      | some paused =>
        let fifo ← forEachClock fifo (thaw now)
        pure ({ session with
          fifo := some { fifo with paused := none }
          status := paused.phase.status }, [.transitionedTo paused.phase.status])

/-- A prompt whose deadline has passed, as it stands when expiry begins. -/
def capturedPrompt (now : Nat) (seat : FifoSeatState) :
    Option (DraftPromptId × DraftPackId × Nat) := do
  let prompt ← seat.prompt
  let clock ← prompt.clock
  match clock.state with
  | .running deadlineMs =>
    if deadlineMs ≤ now then some (prompt.id, prompt.packId, deadlineMs) else none
  | .frozen _ => none

def stillCurrent (promptId : DraftPromptId) (packId : DraftPackId) (deadlineMs : Nat)
    (seat : FifoSeatState) : Bool :=
  seat.prompt.any fun prompt => prompt.id = promptId && prompt.packId = packId &&
    prompt.clock.any fun clock => clock.state = .running deadlineMs

/-- Expired prompts are answered in seat order; one that an earlier answer has
already replaced is left alone. -/
def expirePrompts :
    List (DraftPromptId × DraftPackId × Nat) → DraftSession →
      Except DraftError (DraftSession × List DraftDelta)
  | [], session => .ok (session, [])
  | (promptId, packId, deadlineMs) :: captured, session => do
      let fifo ← session.fifoRef
      if (fifo.seats[promptId.seat]?).any (stillCurrent promptId packId deadlineMs) then
        match legalAutoSelection session promptId.seat with
        | none => expirePrompts captured session
        | some (id, picked, burned) =>
          let (session, deltas) ← selectFifo session promptId.seat id picked burned []
            (.expiry packId deadlineMs)
          let (session, more) ← expirePrompts captured session
          pure (session, deltas ++ more)
      else expirePrompts captured session

def advance (session : DraftSession) (now : Nat) :
    Except DraftError (DraftSession × List DraftDelta) :=
  match session.status with
  | .review => do
      let fifo ← session.fifoRef
      match fifo.review with
      | none => throw (snapshotError "missing Review")
      | some review =>
        match review.clock.state with
        | .running deadlineMs =>
          if deadlineMs ≤ now then
            let session ← openFifoRound session review.nextRound now
            pure (session, [.packExhausted review.nextRound, .transitionedTo .drafting])
          else pure (session, [])
        | .frozen _ => pure (session, [])
  | .drafting => do
      let fifo ← session.fifoRef
      expirePrompts (fifo.seats.filterMap (capturedPrompt now)) session
  | _ => .ok (session, [])

def registerCards (packId : DraftPackId) :
    DraftPack → (AList fun _ : String => DraftCardProvenance) →
      Except DraftError (AList fun _ : String => DraftCardProvenance)
  | [], cards => .ok cards
  | card :: pack, cards =>
    if !validDraftId card.instanceId || (cards.lookup card.instanceId).isSome then
      .error (snapshotError "generated invalid or duplicate physical id")
    else registerCards packId pack (cards.insert card.instanceId { packId, card })

/-- The packs of one seat enter the manifest in round order. -/
def registerRow (podSize seat : Nat) :
    Nat → List DraftPack → FifoDraftState → Except DraftError FifoDraftState
  | _, [], fifo => .ok fifo
  | round, pack :: row, fifo =>
    if pack.length = 0 ∨ 255 < pack.length then
      .error (snapshotError "generated empty or oversized pack")
    else do
      let packId := coordinate podSize round seat
      let cards ← registerCards packId pack fifo.cards
      let provenance : DraftPackProvenance :=
        { packId, openingSeat := seat, round, originalSize := pack.length
          originalCardIds := pack.map (·.instanceId) }
      registerRow podSize seat (round + 1) row
        { fifo with cards, packs := fifo.packs.insert packId provenance }

def registerPacks (podSize : Nat) :
    Nat → List (List DraftPack) → FifoDraftState → Except DraftError FifoDraftState
  | _, [], fifo => .ok fifo
  | seat, row :: rows, fifo => do
      let fifo ← registerRow podSize seat 0 row fifo
      registerPacks podSize (seat + 1) rows fifo

/-- `start_fifo`; `source` is what the pack source deals, if there is one. -/
def startFifo (session : DraftSession)
    (source : Option (Except DraftError (List (List DraftPack)))) (now : Nat) :
    Except DraftError (DraftSession × List DraftDelta) := do
  if session.status ≠ .lobby then throw (.invalidTransition session.status "StartDraft")
  validateFifoConfig session.config session.seats.length .configuration
  match source with
  | none => throw (.invalidConfiguration "StartDraft requires a PackSource")
  | some generated =>
    let packs ← generated
    if packs.length ≠ session.seats.length ∨
        packs.any (fun row => row.length ≠ session.config.packCount) then
      throw (snapshotError "generated matrix dimensions")
    let fifo ← session.fifoRef
    let fifo ← registerPacks session.seats.length 0 packs fifo
    let dealt := { session with
      packSizes := (packs.headD []).map List.length
      packsBySeat := packs
      fifo := some fifo }
    match session.kind.procedure.distribution with
    | .allAtOnce =>
      pure ({ dealt with
        pools := packs.map List.flatten
        packsBySeat := packs.map fun _ => []
        currentPackNumber := session.config.packCount
        status := .deckbuilding }, [.draftStarted, .transitionedTo .deckbuilding])
    | .pickAndPass =>
      let session ← openFifoRound dealt 0 now
      pure (session, [.draftStarted])
    | .sharedStackPiles _ => throw (.invalidConfiguration sharedStackHasNoFifo)

end Phase.Draft
