import Mathlib.Data.Finset.Card
import Phase.Draft.Fifo

/-! What a FIFO session must satisfy to be stored, as the code checks it before and
after every operation. -/
namespace Phase.Draft

def refuseIf (condition : Bool) (reason : String) : Except DraftError Unit :=
  if condition then .error (snapshotError reason) else .ok ()

namespace DraftSession

/-- The phase that is live or frozen; `none` before the draft and after it. -/
def livePhase (session : DraftSession) (fifo : FifoDraftState) :
    Except DraftError (Option DraftActivePhase) :=
  match session.status with
  | .drafting => .ok (some .drafting)
  | .review => .ok (some .review)
  | .paused =>
    match fifo.paused with
    | none => .error (snapshotError "paused phase missing")
    | some paused => .ok (some paused.phase)
  | _ => .ok none

def hasLegacyAuthority (session : DraftSession) : Bool :=
  session.currentPack.any Option.isSome || session.currentPackOrigins.any Option.isSome ||
    (List.range session.config.podSize).any (fun seat =>
      session.seatsPickedThisRound.getD seat false) ||
    session.pickNumber ≠ 0 || session.sharedStackLive

def perSeatLengths (session : DraftSession) (fifo : FifoDraftState) : List Nat :=
  [fifo.seats.length, session.pools.length, session.packsBySeat.length,
    session.currentPack.length, session.currentPackOrigins.length,
    session.connectedSeats.length, session.seatsPickedThisRound.length]

end DraftSession

def FifoSeatState.untouched (seat : FifoSeatState) : Bool :=
  seat.queue.isEmpty && seat.prompt.isNone && seat.generation = 0 && seat.completedSteps = 0 &&
    seat.roundCompletedSteps = 0

/-- A draft that has not started has dealt nothing. -/
def validateLobby (session : DraftSession) (fifo : FifoDraftState) : Except DraftError Unit :=
  refuseIf (!fifo.packs.entries.isEmpty || !fifo.cards.entries.isEmpty ||
    !fifo.removed.isEmpty || !fifo.returnedEffects.entries.isEmpty || fifo.review.isSome ||
    !session.packSizes.isEmpty || session.currentPackNumber ≠ 0 ||
    session.pools.any (fun pool => !pool.isEmpty) ||
    session.packsBySeat.any (fun packs => !packs.isEmpty) ||
    fifo.seats.any (fun seat => !seat.untouched)) "Lobby contains generated draft state"

def catalogueCards (fifo : FifoDraftState) (packId : DraftPackId) :
    List String → Finset String → Except DraftError (Finset String)
  | [], catalog => .ok catalog
  | cardId :: cardIds, catalog =>
    match fifo.cards.lookup cardId with
    | none => .error (snapshotError "manifest physical card missing")
    | some card =>
      if !validDraftId cardId || card.card.instanceId ≠ cardId || card.packId ≠ packId ||
          cardId ∈ catalog then
        .error (snapshotError "manifest physical identity/origin")
      else catalogueCards fifo packId cardIds (insert cardId catalog)

def cataloguePack (session : DraftSession) (fifo : FifoDraftState) (round seat : Nat)
    (catalog : Finset String) : Except DraftError (Finset String) :=
  let id := coordinate session.config.podSize round seat
  match fifo.packs.lookup id with
  | none => .error (snapshotError "manifest coordinate missing")
  | some pack => do
      refuseIf (pack.packId ≠ id || pack.openingSeat ≠ seat || pack.round ≠ round ||
        pack.originalSize = 0 || pack.originalSize ≠ pack.originalCardIds.length)
        "manifest pack identity/size"
      refuseIf (seat = 0 && session.packSizes.getD round 0 ≠ pack.originalSize)
        "compatibility pack size differs from manifest"
      catalogueCards fifo id pack.originalCardIds catalog

/-- Every coordinate, round by round. -/
def coordinates (session : DraftSession) : List (Nat × Nat) :=
  (List.range session.config.packCount).flatMap fun round =>
    (List.range session.config.podSize).map fun seat => (round, seat)

def catalogue (session : DraftSession) (fifo : FifoDraftState) :
    List (Nat × Nat) → Finset String → Except DraftError (Finset String)
  | [], catalog => .ok catalog
  | (round, seat) :: rest, catalog => do
      let catalog ← cataloguePack session fifo round seat catalog
      catalogue session fifo rest catalog

def validateOwnedCard (fifo : FifoDraftState) (owned : Finset String) (card : DraftCardInstance) :
    Except DraftError (Finset String) :=
  if !((fifo.cards.lookup card.instanceId).any fun original => original.card = card) ||
      card.instanceId ∈ owned then
    .error (snapshotError "duplicate/mismatched physical ownership")
  else .ok (insert card.instanceId owned)

def validateOwnedCards (fifo : FifoDraftState) :
    List DraftCardInstance → Finset String → Except DraftError (Finset String)
  | [], owned => .ok owned
  | card :: cards, owned => do
      let owned ← validateOwnedCard fifo owned card
      validateOwnedCards fifo cards owned

/-- The unopened packs of one seat, from round `round` on, are what was dealt. -/
def validateFuture (session : DraftSession) (fifo : FifoDraftState) (seat : Nat) :
    Nat → List DraftPack → Finset String → Except DraftError (Finset String)
  | _, [], owned => .ok owned
  | round, pack :: future, owned => do
      let original := fifo.packs.lookup (coordinate session.seats.length round seat)
      refuseIf (original.map (·.originalCardIds) ≠ some (pack.map (·.instanceId)))
        "future pack order/origin"
      let owned ← validateOwnedCards fifo pack owned
      validateFuture session fifo seat (round + 1) future owned

def validateFutures (session : DraftSession) (fifo : FifoDraftState) (nextUnopened : Nat) :
    Nat → List (List DraftPack) → Finset String → Except DraftError (Finset String)
  | _, [], owned => .ok owned
  | seat, future :: futures, owned => do
      refuseIf (future.length ≠ session.config.packCount - nextUnopened) "future pack dimensions"
      let owned ← validateFuture session fifo seat nextUnopened future owned
      validateFutures session fifo nextUnopened (seat + 1) futures owned

structure LiveLedger where
  owned : Finset String
  origins : Finset Nat
  packIds : Finset DraftPackId
  returns : Finset String

def validateLiveCards (fifo : FifoDraftState) (packId : DraftPackId) :
    List DraftCardInstance → LiveLedger → Except DraftError LiveLedger
  | [], ledger => .ok ledger
  | card :: cards, ledger => do
      let owned ← validateOwnedCard fifo ledger.owned card
      match fifo.returnedEffects.lookup card.instanceId with
      | some assignment =>
        refuseIf (assignment ≠ packId || card.draftEffect ≠ some .additionalPick)
          "counterfeit return membership"
        validateLiveCards fifo packId cards
          { ledger with owned, returns := insert card.instanceId ledger.returns }
      | none =>
        refuseIf ((fifo.cards.lookup card.instanceId).map (·.packId) ≠ some packId)
          "foreign card without return membership"
        validateLiveCards fifo packId cards { ledger with owned }

def validateLivePack (session : DraftSession) (fifo : FifoDraftState) (head : QueuedDraftPack)
    (ledger : LiveLedger) : Except DraftError LiveLedger :=
  match fifo.packs.lookup head.packId with
  | none => .error (snapshotError "unregistered live pack")
  | some original => do
      refuseIf (head.openingSeat ≠ original.openingSeat || head.round ≠ original.round ||
        head.originalSize ≠ original.originalSize || head.round ≠ session.currentPackNumber ||
        head.openingSeat ∈ ledger.origins || head.packId ∈ ledger.packIds)
        "live pack origin/round/identity"
      let size := head.pack.length
      refuseIf (size = 0 || head.originalSize < size ||
        (size < head.originalSize && size ≤ session.config.selectionPolicy.discardThreshold))
        "empty/oversized/discardable live pack"
      validateLiveCards fifo head.packId head.pack
        { ledger with
          origins := insert head.openingSeat ledger.origins
          packIds := insert head.packId ledger.packIds }

def validateQueue (session : DraftSession) (fifo : FifoDraftState) :
    List QueuedDraftPack → LiveLedger → Except DraftError LiveLedger
  | [], ledger => .ok ledger
  | head :: queue, ledger => do
      let ledger ← validateLivePack session fifo head ledger
      validateQueue session fifo queue ledger

def validateScope (clock : DraftClock) (target : DraftClockTarget)
    (paused : Option DraftPausedState) (duration now : Nat) : Except DraftError Unit :=
  if clock.target ≠ target then .error (snapshotError "clock scope mismatch")
  else
    match clock.state, paused with
    | .running deadlineMs, none =>
      refuseIf (maxDraftJsonInteger < deadlineMs || duration < deadlineMs - now)
        "clock status/bounds mismatch"
    | .frozen remainingMs, some _ =>
      refuseIf (duration < remainingMs) "clock status/bounds mismatch"
    | _, _ => .error (snapshotError "clock status/bounds mismatch")

def validatePromptClock (session : DraftSession) (fifo : FifoDraftState) (seat : FifoSeatState)
    (prompt : DraftPrompt) : Except DraftError Unit :=
  match pickDuration session.config.clockPolicy.pick seat.roundCompletedSteps, prompt.clock with
  | none, none => .ok ()
  | some duration, some clock =>
    validateScope clock (.pick prompt.id) fifo.paused duration fifo.lastNowMs
  | _, _ => .error (snapshotError "pick clock policy mismatch")

def validatePrompt (session : DraftSession) (fifo : FifoDraftState) (liveDrafting : Bool)
    (index : Nat) (seat : FifoSeatState) : Except DraftError Unit :=
  match liveDrafting, seat.queue.head? with
  | true, some head =>
    match seat.prompt with
    | none => .error (snapshotError "missing head prompt")
    | some prompt => do
        refuseIf (prompt.id.sessionId ≠ fifo.sessionId || prompt.id.seat ≠ index ||
          prompt.id.generation = 0 || prompt.id.generation ≠ seat.generation ||
          prompt.packId ≠ head.packId) "prompt/head binding"
        validatePromptClock session fifo seat prompt
  | _, _ => refuseIf seat.prompt.isSome "prompt without actionable/frozen head"

def roundSupply (session : DraftSession) (fifo : FifoDraftState) : Nat :=
  ((fifo.packs.entries.map (·.2)).filter fun pack =>
    pack.round = min session.currentPackNumber (session.config.packCount - 1)).map
      (·.originalSize) |>.sum

def validateSeat (session : DraftSession) (fifo : FifoDraftState) (liveDrafting : Bool)
    (index : Nat) (seat : FifoSeatState) (ledger : LiveLedger) : Except DraftError LiveLedger := do
  refuseIf (maxDraftJsonInteger < seat.generation ||
    fifo.cards.entries.length < seat.completedSteps ||
    seat.completedSteps < seat.roundCompletedSteps ||
    seat.completedSteps + 1 < seat.generation) "progress/generation bounds"
  refuseIf (roundSupply session fifo < seat.roundCompletedSteps) "round progress exceeds supply"
  refuseIf ((!liveDrafting && !seat.queue.isEmpty) || session.seats.length < seat.queue.length)
    "queue/status mismatch"
  let ledger ← validateQueue session fifo seat.queue ledger
  validatePrompt session fifo liveDrafting index seat
  pure ledger

def validateSeats (session : DraftSession) (fifo : FifoDraftState) (liveDrafting : Bool) :
    Nat → List FifoSeatState → LiveLedger → Except DraftError LiveLedger
  | _, [], ledger => .ok ledger
  | index, seat :: seats, ledger => do
      let ledger ← validateSeat session fifo liveDrafting index seat ledger
      validateSeats session fifo liveDrafting (index + 1) seats ledger

def removalEnabled (policy : DraftSelectionPolicy) : DraftRemovalReason → Bool
  | .burn => 0 < policy.burnsPerPick
  | .threshold => 0 < policy.discardThreshold

def validateRemovalSource (session : DraftSession) (reason : DraftRemovalReason) :
    Except DraftError Unit :=
  match session.kind.procedure.distribution with
  | .allAtOnce => .error (snapshotError "AllAtOnce cannot remove cards")
  | .pickAndPass =>
    refuseIf (!removalEnabled session.config.selectionPolicy reason)
      "removal reason is disabled by policy"
  | .sharedStackPiles _ => .error (.invalidConfiguration sharedStackHasNoFifo)

def validateRemoved (session : DraftSession) (fifo : FifoDraftState) (nextUnopened : Nat) :
    List RemovedDraftCard → Finset String → Except DraftError (Finset String)
  | [], owned => .ok owned
  | removed :: rest, owned =>
    match fifo.cards.lookup removed.cardInstanceId with
    | none => .error (snapshotError "unknown removed card")
    | some card => do
        refuseIf ((removed.packId ≠ card.packId &&
            card.card.draftEffect ≠ some .additionalPick) ||
          !((fifo.packs.lookup removed.packId).any fun pack => pack.round < nextUnopened) ||
          removed.cardInstanceId ∈ owned) "invalid removed ownership/source"
        validateRemovalSource session removed.reason
        validateRemoved session fifo nextUnopened rest (insert removed.cardInstanceId owned)

def openedBy (fifo : FifoDraftState) (seat : Nat) (card : DraftCardInstance) : Bool :=
  ((fifo.cards.lookup card.instanceId).bind fun provenance =>
    (fifo.packs.lookup provenance.packId).map (·.openingSeat)) = some seat

def validateProgress (session : DraftSession) (fifo : FifoDraftState) (index : Nat)
    (seat : FifoSeatState) (pool : List DraftCardInstance) : Except DraftError Unit :=
  match session.kind.procedure.distribution with
  | .pickAndPass =>
    refuseIf (pool.length < seat.completedSteps ||
      seat.completedSteps * session.kind.procedure.cardsPerPick < pool.length)
      "pool/progress contradiction"
  | .allAtOnce => do
      refuseIf (pool.any fun card => !openedBy fifo index card) "AllAtOnce pool origin mismatch"
      refuseIf (seat.completedSteps ≠ 0 || seat.roundCompletedSteps ≠ 0 || seat.generation ≠ 0)
        "AllAtOnce contains pick progress"
  | .sharedStackPiles _ => .error (.invalidConfiguration sharedStackHasNoFifo)

def validateAllProgress (session : DraftSession) (fifo : FifoDraftState) :
    Nat → List FifoSeatState → List (List DraftCardInstance) → Except DraftError Unit
  | index, seat :: seats, pool :: pools => do
      validateProgress session fifo index seat pool
      validateAllProgress session fifo (index + 1) seats pools
  | _, _, _ => .ok ()

def validateReview (session : DraftSession) (fifo : FifoDraftState) (reviewing : Bool)
    (nextUnopened : Nat) : Except DraftError Unit :=
  match reviewing, fifo.review with
  | true, some review => do
      refuseIf (session.config.clockPolicy.reviewDurationMs = 0 ||
        review.exhaustedRound ≠ session.currentPackNumber || review.nextRound ≠ nextUnopened ||
        session.config.packCount ≤ review.nextRound) "Review round mismatch"
      validateScope review.clock (.review review.nextRound) fifo.paused
        session.config.clockPolicy.reviewDurationMs fifo.lastNowMs
  | false, none => .ok ()
  | _, _ => .error (snapshotError "Review status mismatch")

/-- The round bookkeeping of a started draft; `phase` is its live phase. -/
def validateRounds (session : DraftSession) (phase : Option DraftActivePhase) :
    Except DraftError Unit := do
  refuseIf (session.kind.procedure.distribution = .allAtOnce && phase.isSome)
    "AllAtOnce has live draft phase"
  refuseIf (phase.isSome && session.config.packCount ≤ session.currentPackNumber)
    "live round outside manifest"
  refuseIf (phase.isNone && session.currentPackNumber ≠ session.config.packCount)
    "postdraft round is not exhausted"
  let directionRound :=
    if session.currentPackNumber = session.config.packCount then session.currentPackNumber - 1
    else session.currentPackNumber
  refuseIf (session.kind.procedure.distribution = .pickAndPass &&
    session.passDirection ≠ PassDirection.forPack directionRound) "pass direction/round mismatch"

def nextUnopened (session : DraftSession) (phase : Option DraftActivePhase) : Nat :=
  if phase.isSome then session.currentPackNumber + 1 else session.config.packCount

/-- Every card is somewhere, and nowhere twice. -/
def validateCards (session : DraftSession) (fifo : FifoDraftState)
    (phase : Option DraftActivePhase) (catalog : Finset String) : Except DraftError Unit := do
  let unopened := nextUnopened session phase
  let liveDrafting := phase = some .drafting
  let owned ← validateFutures session fifo unopened 0 session.packsBySeat ∅
  let ledger ← validateSeats session fifo liveDrafting 0 fifo.seats ⟨owned, ∅, ∅, ∅⟩
  refuseIf (liveDrafting && ledger.packIds = ∅) "undrained transition missing"
  refuseIf (ledger.returns.card ≠ fifo.returnedEffects.entries.length)
    "return membership has no live owner"
  let owned ← validateOwnedCards fifo session.pools.flatten ledger.owned
  let owned ← validateRemoved session fifo unopened fifo.removed owned
  refuseIf (owned ≠ catalog) "physical card conservation"

def validateStarted (session : DraftSession) (fifo : FifoDraftState)
    (phase : Option DraftActivePhase) : Except DraftError Unit := do
  refuseIf (fifo.packs.entries.length ≠ session.seats.length * session.config.packCount ||
    session.packSizes.length ≠ session.config.packCount) "manifest dimensions"
  let catalog ← catalogue session fifo (coordinates session) ∅
  refuseIf (catalog.card ≠ fifo.cards.entries.length) "unregistered catalog card"
  validateRounds session phase
  validateCards session fifo phase catalog
  validateAllProgress session fifo 0 fifo.seats session.pools
  validateReview session fifo (phase = some .review) (nextUnopened session phase)

def validateFifoSnapshot (session : DraftSession) : Except DraftError Unit := do
  validateFifoConfig session.config session.seats.length .fifoSnapshot
  refuseIf (session.kind ≠ session.config.kind || session.setCode ≠ session.config.setCode)
    "session/config mismatch"
  let fifo ← session.fifoRef
  refuseIf (!validDraftId fifo.sessionId || maxDraftJsonInteger < fifo.revision ||
    maxDraftJsonInteger < fifo.lastNowMs) "invalid FIFO identity/counter/time"
  refuseIf ((session.perSeatLengths fifo).any fun length => length ≠ session.seats.length)
    "per-seat dimensions"
  refuseIf session.hasLegacyAuthority "FIFO contains legacy live authority"
  let phase ← session.livePhase fifo
  refuseIf (decide (session.status = .paused) != fifo.paused.isSome) "paused status mismatch"
  if session.status = .lobby then validateLobby session fifo
  else validateStarted session fifo phase

end Phase.Draft
