import Mathlib.Algebra.GroupWithZero.Nat
import Mathlib.Data.List.AList

/-! The data model of a draft: cards and packs, kinds and their procedures, the
session record shared by the barrier flow and the FIFO flow; and the admission of a
configuration. -/
namespace Phase.Draft

/-- Unlike the library's, this instance evaluates. -/
scoped instance decidableAList {α : Type} {β : α → Type} [DecidableEq α] [∀ a, DecidableEq (β a)] :
    DecidableEq (AList β) :=
  fun a b => decidable_of_iff (a.entries = b.entries) AList.ext_iff.symm

inductive DraftEffect where
  | additionalPick
  deriving DecidableEq

structure DraftCardInstance where
  instanceId : String
  name : String := ""
  setCode : String := ""
  collectorNumber : String := ""
  rarity : String := ""
  colors : List String := []
  cmc : Nat := 0
  typeLine : String := ""
  draftEffect : Option DraftEffect := none
  deriving DecidableEq

abbrev DraftPack := List DraftCardInstance

inductive DraftSeat where
  | human (playerId : Nat) (displayName : String)
  | bot (name : String)
  deriving DecidableEq

inductive DraftKind where
  | quick | premier | traditional | sealed | commanderDraft | winston
  deriving DecidableEq

inductive PackDistribution where
  | pickAndPass
  | allAtOnce
  | sharedStackPiles (pileCount : Nat)
  deriving DecidableEq

inductive PostDraftPlay where
  | completeImmediately
  | tournamentPairings
  deriving DecidableEq

inductive TournamentFormat where
  | swiss
  | singleElimination
  deriving DecidableEq

structure DraftProcedure where
  minPodSize : Nat
  localCubeMinPodSize : Nat
  maxPodSize : Nat
  localCubeMaxPodSize : Nat
  packsPerPlayer : Nat
  cardsPerPick : Nat
  distribution : PackDistribution
  minDeckSize : Nat
  postDraftPlay : PostDraftPlay
  deriving DecidableEq

def DraftKind.procedure : DraftKind → DraftProcedure
  | .quick => ⟨2, 1, 8, 255, 3, 1, .pickAndPass, 40, .completeImmediately⟩
  | .premier => ⟨2, 2, 8, 8, 3, 1, .pickAndPass, 40, .tournamentPairings⟩
  | .traditional => ⟨2, 2, 8, 8, 3, 1, .pickAndPass, 40, .tournamentPairings⟩
  | .sealed => ⟨2, 2, 8, 8, 6, 1, .allAtOnce, 40, .tournamentPairings⟩
  | .commanderDraft => ⟨3, 3, 8, 8, 3, 2, .pickAndPass, 60, .completeImmediately⟩
  | .winston => ⟨2, 2, 4, 4, 3, 1, .sharedStackPiles 3, 40, .tournamentPairings⟩

namespace DraftProcedure

def allowsPodSize (procedure : DraftProcedure) (format : TournamentFormat) (podSize : Nat) :
    Bool :=
  if procedure.postDraftPlay = .tournamentPairings ∧ format = .singleElimination then
    procedure.maxPodSize ≤ podSize ∧ podSize ≤ procedure.maxPodSize
  else procedure.minPodSize ≤ podSize ∧ podSize ≤ procedure.maxPodSize

def allowsLocalCubePodSize (procedure : DraftProcedure) (format : TournamentFormat)
    (podSize : Nat) : Bool :=
  if procedure.postDraftPlay = .tournamentPairings ∧ format = .singleElimination then
    podSize = procedure.maxPodSize
  else procedure.localCubeMinPodSize ≤ podSize ∧ podSize ≤ procedure.localCubeMaxPodSize

/-- The first pod size of the allowed range, reported by a refusal. -/
def allowedPodSizeStart (procedure : DraftProcedure) (format : TournamentFormat) : Nat :=
  if procedure.postDraftPlay = .tournamentPairings ∧ format = .singleElimination then
    procedure.maxPodSize
  else procedure.minPodSize

def draftEffectStepSize (procedure : DraftProcedure) (draftEffectCards : Nat) : Nat :=
  procedure.cardsPerPick + draftEffectCards

end DraftProcedure

inductive SetLayout where
  | uniformByRound (codes : List String)
  | chaos (candidateCodes : List String) (assignments : List (List String))
  deriving DecidableEq

inductive DraftSource where
  | set (layout : SetLayout)
  | cube (id name : String)
  deriving DecidableEq

inductive PassDirection where
  | left
  | right
  deriving DecidableEq

namespace PassDirection

def forPack (packNumber : Nat) : PassDirection :=
  if packNumber % 2 = 0 then .left else .right

def nextSeat (direction : PassDirection) (current podSize : Nat) : Nat :=
  match direction with
  | .left => (current + 1) % podSize
  | .right => (current + podSize - 1) % podSize

end PassDirection

inductive DraftStatus where
  | lobby | drafting | review | paused | deckbuilding | pairing | matchInProgress
  | roundComplete | complete | abandoned
  deriving DecidableEq

inductive DraftFlow where
  | legacyBarrier
  | fifoAsync
  deriving DecidableEq

structure DraftSelectionPolicy where
  burnsPerPick : Nat := 0
  discardThreshold : Nat := 0
  deriving DecidableEq

inductive PickClockPolicy where
  | off
  | fixed (durationMs : Nat)
  | seatStep
  deriving DecidableEq

structure DraftClockPolicy where
  pick : PickClockPolicy := .off
  reviewDurationMs : Nat := 0
  deriving DecidableEq

structure DraftConfig where
  flow : DraftFlow
  selectionPolicy : DraftSelectionPolicy := {}
  clockPolicy : DraftClockPolicy := {}
  source : DraftSource
  setCode : String
  kind : DraftKind
  podSize : Nat
  cardsPerPack : Nat
  packCount : Nat
  minDeckSize : Nat
  tournamentFormat : TournamentFormat
  deriving DecidableEq

inductive DraftSelectionRole where
  | pick | burn | effect
  deriving DecidableEq

/-- Take the pile, or put it back. -/
inductive SharedStackPileDecision where
  | take
  | decline
  deriving DecidableEq

inductive SharedStackRefusal where
  | pileNotActive
  | pileEmpty
  | noGuaranteedCard
  deriving DecidableEq

inductive DraftError where
  | invalidConfiguration (reason : String)
  | invalidSnapshot (reason : String)
  | incompatibleFlow
  | explicitTimeRequired
  | stalePrompt
  | expiredPrompt
  | invalidSelectionCount (role : DraftSelectionRole) (expected actual : Nat)
  | invalidSelection (role : DraftSelectionRole) (reason : String)
  | invalidClockBounds
  | invalidTransition (origin : DraftStatus) (action : String)
  | seatOutOfRange (seat podSize : Nat)
  | cardNotInPack (cardInstanceId : String)
  | draftEffectCardNotInPool (cardInstanceId : String)
  | invalidDraftEffectSelection (expectedCards actualCards : Nat)
  | noPendingPack (seat : Nat)
  | validationFailed
  | unsupportedTournamentSize (format : TournamentFormat) (required actual : Nat)
  | wrongPickCardCount (seat expected actual : Nat)
  | duplicatePickCardId (seat : Nat) (cardInstanceId : String)
  | seatAlreadyPickedThisRound (seat : Nat)
  | seatIsBot (seat : Nat)
  | sealedRequiresSetSource
  | invalidPackSequence (reason : String)
  | invalidSealedConfiguration (reason : String)
  | invalidSealedSnapshot (reason : String)
  | invalidSharedStackConfiguration (reason : String)
  | insufficientCards (available required : Nat)
  | sharedStackDecisionRefused (seat pile : Nat) (reason : SharedStackRefusal)
  | podBelowMinimumSize (kind : DraftKind) (required actual : Nat)
  | pairingNotFound (matchId : String)
  | pairingNotInCurrentRound (matchId : String) (currentRound : Nat)
  | matchWinnerRequired (matchId : String)
  | seatNotInPairing (seat : Nat) (matchId : String)
  | eventRefused
  deriving DecidableEq

abbrev DraftPackId := Nat

structure DraftPromptId where
  sessionId : String
  seat : Nat
  generation : Nat
  deriving DecidableEq

inductive DraftClockTarget where
  | pick (promptId : DraftPromptId)
  | review (nextRound : Nat)
  deriving DecidableEq

inductive DraftClockState where
  | running (deadlineMs : Nat)
  | frozen (remainingMs : Nat)
  deriving DecidableEq

structure DraftClock where
  target : DraftClockTarget
  state : DraftClockState
  deriving DecidableEq

structure DraftPrompt where
  id : DraftPromptId
  packId : DraftPackId
  clock : Option DraftClock
  deriving DecidableEq

structure QueuedDraftPack where
  packId : DraftPackId
  openingSeat : Nat
  round : Nat
  originalSize : Nat
  pack : DraftPack
  deriving DecidableEq

structure FifoSeatState where
  queue : List QueuedDraftPack := []
  generation : Nat := 0
  prompt : Option DraftPrompt := none
  completedSteps : Nat := 0
  roundCompletedSteps : Nat := 0
  deriving DecidableEq

structure DraftPackProvenance where
  packId : DraftPackId
  openingSeat : Nat
  round : Nat
  originalSize : Nat
  originalCardIds : List String
  deriving DecidableEq

structure DraftCardProvenance where
  packId : DraftPackId
  card : DraftCardInstance
  deriving DecidableEq

inductive DraftRemovalReason where
  | burn
  | threshold
  deriving DecidableEq

structure RemovedDraftCard where
  cardInstanceId : String
  packId : DraftPackId
  reason : DraftRemovalReason
  deriving DecidableEq

structure DraftReviewState where
  exhaustedRound : Nat
  nextRound : Nat
  clock : DraftClock
  deriving DecidableEq

inductive DraftActivePhase where
  | drafting
  | review
  deriving DecidableEq

inductive DraftPauseReason where
  | playerDisconnected | pausedByHost | disconnectGraceExpired
  deriving DecidableEq

structure DraftPausedState where
  phase : DraftActivePhase
  reason : DraftPauseReason
  deriving DecidableEq

structure FifoDraftState where
  sessionId : String
  revision : Nat
  lastNowMs : Nat
  seats : List FifoSeatState
  packs : AList fun _ : DraftPackId => DraftPackProvenance
  cards : AList fun _ : String => DraftCardProvenance
  removed : List RemovedDraftCard
  returnedEffects : AList fun _ : String => DraftPackId
  review : Option DraftReviewState
  paused : Option DraftPausedState
  deriving DecidableEq

structure DraftDeckSubmission where
  seat : Nat
  mainDeck : List String
  commanders : List String
  deriving DecidableEq

structure DraftMatchRecord where
  player : Nat
  wins : Nat
  losses : Nat
  draws : Nat
  matchWins : Nat
  matchLosses : Nat
  deriving DecidableEq

inductive PairingStatus where
  | pending | inProgress | complete
  deriving DecidableEq

structure DraftPairing where
  round : Nat
  table : Nat
  players : Nat × Nat
  matchId : String
  status : PairingStatus
  winner : Option Nat
  deriving DecidableEq

/-- What the event keeps once the last card is drafted: decks, records and
pairings. The draft itself never reads it. -/
structure EventRecord where
  submittedDecks : AList fun _ : Nat => DraftDeckSubmission
  matchRecords : AList fun _ : Nat => DraftMatchRecord
  pairings : List DraftPairing
  currentRound : Nat
  deriving DecidableEq

structure DraftSession where
  kind : DraftKind
  setCode : String
  status : DraftStatus
  config : DraftConfig
  seats : List DraftSeat
  currentPackNumber : Nat
  packSizes : List Nat
  pickNumber : Nat
  seatsPickedThisRound : List Bool
  connectedSeats : List Bool
  passDirection : PassDirection
  packsBySeat : List (List DraftPack)
  currentPack : List (Option DraftPack)
  currentPackOrigins : List (Option Nat)
  pools : List (List DraftCardInstance)
  sharedStackLive : Bool
  fifo : Option FifoDraftState
  event : EventRecord
  deriving DecidableEq

def DraftSession.new (config : DraftConfig) (seats : List DraftSeat) : DraftSession where
  kind := config.kind
  setCode := config.setCode
  status := .lobby
  config := config
  seats := seats
  currentPackNumber := 0
  packSizes := []
  pickNumber := 0
  seatsPickedThisRound := List.replicate seats.length false
  connectedSeats := List.replicate seats.length true
  passDirection := PassDirection.forPack 0
  packsBySeat := List.replicate seats.length []
  currentPack := List.replicate seats.length none
  currentPackOrigins := List.replicate seats.length none
  pools := List.replicate seats.length []
  sharedStackLive := false
  fifo := none
  event := ⟨∅, ∅, [], 0⟩

inductive DraftDelta where
  | draftStarted
  | selectionAccepted (promptId : DraftPromptId) (seat : Nat)
      (picked burned returned discarded : List String)
  | cardPicked (seat : Nat) (cardInstanceId : String)
  | sharedStackDecisionApplied (seat pile : Nat) (decision : SharedStackPileDecision)
  | packPassed
  | packExhausted (newPackNumber : Nat)
  | transitionedTo (status : DraftStatus)
  | deckSubmitted (seat : Nat)
  | pairingsGenerated (round : Nat)
  | matchResultRecorded (matchId : String) (winnerSeat : Option Nat)
  | roundAdvanced (newRound : Nat)
  | seatReplacedWithBot (seat : Nat)
  | seatConnectionChanged (seat : Nat) (connected : Bool)
  deriving DecidableEq

namespace DraftSession

def headMetadata (session : DraftSession) (seat : Nat) : Option QueuedDraftPack := do
  let fifo ← session.fifo
  let state ← fifo.seats[seat]?
  state.queue.head?

def headPack (session : DraftSession) (seat : Nat) : Option DraftPack :=
  match session.config.flow with
  | .legacyBarrier => (session.currentPack[seat]?).join
  | .fifoAsync => (session.headMetadata seat).map (·.pack)

def requiredPickCount (session : DraftSession) (seat : Nat) : Nat :=
  min session.kind.procedure.cardsPerPick (((session.headPack seat).map List.length).getD 0)

end DraftSession

/-- A short sequence repeats its last entry. -/
def entryForPack {α : Type} (sequence : List α) (packNumber : Nat) : Option α :=
  sequence[min packNumber (sequence.length - 1)]?

def maxPackCount : Nat := 8
def maxDraftIdBytes : Nat := 128
def maxDraftJsonInteger : Nat := 9007199254740991
def maxDraftDurationMs : Nat := 86400000

/-- `char::is_control`: the Unicode category Cc. -/
def isControl (c : Char) : Bool :=
  c.toNat < 32 || (127 ≤ c.toNat && c.toNat < 160)

def validDraftId (id : String) : Bool :=
  !id.isEmpty && id.utf8ByteSize ≤ maxDraftIdBytes && !id.toList.any isControl

def eqIgnoreAsciiCase (a b : String) : Bool := a.toLower = b.toLower

def distinctSetCodes (codes : List String) : List String :=
  codes.foldl (fun distinct code =>
    if distinct.any fun held => eqIgnoreAsciiCase held code then distinct
    else distinct ++ [code]) []

namespace SetLayout

def actualSetCodes : SetLayout → List String
  | uniformByRound codes => distinctSetCodes codes
  | chaos _ assignments => distinctSetCodes assignments.flatten

def validateForDraft (layout : SetLayout) (seatCount packCount : Nat) : Except DraftError Unit :=
  match layout with
  | uniformByRound codes =>
    if codes.isEmpty then
      .error (.invalidPackSequence "a draft must name at least one set")
    else .ok ()
  | chaos candidateCodes assignments =>
    if candidateCodes.isEmpty then
      .error (.invalidPackSequence "a Chaos draft must name at least one candidate set")
    else if assignments.length ≠ seatCount then
      .error (.invalidPackSequence (s!"Chaos assignments must contain {seatCount} seats, got " ++
        toString assignments.length))
    else
      assignments.zipIdx.forM fun (rounds, seat) => do
        if rounds.length ≠ packCount then
          throw (.invalidPackSequence (s!"Chaos assignments for seat {seat} must contain " ++
            s!"{packCount} rounds, got " ++ toString rounds.length))
        rounds.forM fun code => do
          if !candidateCodes.any fun candidate => eqIgnoreAsciiCase candidate code then
            throw (.invalidPackSequence
              s!"Chaos assignment '{code}' for seat {seat} is not a candidate set")

end SetLayout

def DraftSource.setCode : DraftSource → String
  | .set layout => "+".intercalate layout.actualSetCodes
  | .cube id _ => id

def DraftSource.isCube : DraftSource → Bool
  | .set _ => false
  | .cube .. => true

/-- Which boundary admits a configuration: starting a draft, or checking a
stored session for the FIFO flow. The rules agree; the refusals differ. -/
inductive AdmissionContext where
  | configuration
  | fifoSnapshot
  deriving DecidableEq

def DraftKind.admitPodSize (kind : DraftKind) (source : DraftSource)
    (format : TournamentFormat) (podSize : Nat) (context : AdmissionContext) :
    Except DraftError Unit :=
  let procedure := kind.procedure
  if procedure.allowsPodSize format podSize ||
      (source.isCube && procedure.allowsLocalCubePodSize format podSize) then .ok ()
  else
    match context with
    | .configuration =>
      if podSize < procedure.minPodSize then
        .error (.podBelowMinimumSize kind procedure.minPodSize podSize)
      else
        .error (.unsupportedTournamentSize format (procedure.allowedPodSizeStart format) podSize)
    | .fifoSnapshot =>
      .error (.invalidSnapshot "pod size does not satisfy the draft procedure")

def AdmissionContext.sealedRefusal (context : AdmissionContext) (reason : String) : DraftError :=
  match context with
  | .configuration => .invalidSealedConfiguration reason
  | .fifoSnapshot => .invalidSnapshot reason

/-- Sealed takes a set source, its own pack count and its own deck size. The
FIFO flow passes no session label. -/
def DraftKind.admitAllAtOnce (kind : DraftKind) (config : DraftConfig)
    (sessionSetCode : Option String) (context : AdmissionContext) : Except DraftError Unit :=
  if config.source.isCube then .error .sealedRequiresSetSource
  else if config.source.setCode ≠ config.setCode ∨
      sessionSetCode.any (fun code => code ≠ config.setCode) then
    .error (context.sealedRefusal "set source and session codes must match")
  else if config.packCount ≠ kind.procedure.packsPerPlayer ∨
      config.minDeckSize ≠ kind.procedure.minDeckSize then
    .error (context.sealedRefusal "sealed requires six packs and a 40-card minimum deck")
  else .ok ()

def DraftClockPolicy.validate (policy : DraftClockPolicy) : Except DraftError Unit :=
  let pickOutside := match policy.pick with
    | .fixed durationMs => durationMs = 0 || maxDraftDurationMs < durationMs
    | .off | .seatStep => false
  if maxDraftDurationMs < policy.reviewDurationMs || pickOutside then .error .invalidClockBounds
  else .ok ()

def sharedStackHasNoFifo : String := "a shared-stack distribution never runs the FIFO flow"

def validateLayout (config : DraftConfig) (seatCount : Nat) : Except DraftError Unit :=
  match config.source with
  | .set layout => layout.validateForDraft seatCount config.packCount
  | .cube .. => .ok ()

def validateFifoConfig (config : DraftConfig) (seatCount : Nat) (context : AdmissionContext) :
    Except DraftError Unit := do
  if 255 < seatCount then throw (.invalidConfiguration "seat count exceeds u8")
  if seatCount = 0 ∨ seatCount ≠ config.podSize then
    throw (.invalidConfiguration "pod size mismatch")
  config.kind.admitPodSize config.source config.tournamentFormat seatCount context
  if config.packCount = 0 ∨ maxPackCount < config.packCount ∨ config.cardsPerPack = 0 then
    throw (.invalidConfiguration "invalid pack dimensions")
  if config.source.setCode ≠ config.setCode then
    throw (.invalidConfiguration "source code mismatch")
  validateLayout config seatCount
  config.clockPolicy.validate
  match config.kind.procedure.distribution with
  | .pickAndPass => pure ()
  | .allAtOnce =>
    config.kind.admitAllAtOnce config none context
    if config.selectionPolicy ≠ {} ∨ config.clockPolicy.reviewDurationMs ≠ 0 then
      throw (.invalidConfiguration "AllAtOnce policy")
  | .sharedStackPiles _ => throw (.invalidConfiguration sharedStackHasNoFifo)

end Phase.Draft
