import Phase.Draft.FifoStep
import Phase.Lib.Indexed

/-! What every reachable FIFO session satisfies, relative to the boosters it was
dealt. -/
namespace Phase.Draft

/-- The configured matrix of non-empty boosters, every card with an id of its own. -/
structure GoodDeal (podSize packCount : Nat) (packs : List (List DraftPack)) : Prop where
  seats : packs.length = podSize
  rounds : ∀ row ∈ packs, row.length = packCount
  sizes : ∀ row ∈ packs, ∀ pack ∈ row, 0 < pack.length ∧ pack.length ≤ 255
  valid : ∀ card ∈ packs.flatten.flatten, validDraftId card.instanceId = true
  distinct : (packs.flatten.flatten.map (·.instanceId)).Nodup

def dealtPack (packs : List (List DraftPack)) (seat round : Nat) : DraftPack :=
  (packs.getD seat []).getD round []

def provenance (packs : List (List DraftPack)) (round seat : Nat) : DraftPackProvenance :=
  { packId := coordinate packs.length round seat
    openingSeat := seat
    round
    originalSize := (dealtPack packs seat round).length
    originalCardIds := (dealtPack packs seat round).map (·.instanceId) }

/-- The manifest lists exactly the deal. -/
structure Registered (packs : List (List DraftPack)) (packCount : Nat) (fifo : FifoDraftState) :
    Prop where
  listed : ∀ seat < packs.length, ∀ round < packCount,
    fifo.packs.lookup (coordinate packs.length round seat) = some (provenance packs round seat)
  packTotal : fifo.packs.entries.length = packs.length * packCount
  cards : ∀ seat round, ∀ card ∈ dealtPack packs seat round,
    fifo.cards.lookup card.instanceId = some ⟨coordinate packs.length round seat, card⟩
  cardTotal : fifo.cards.entries.length = packs.flatten.flatten.length

def idBag (cards : List DraftCardInstance) : Multiset String :=
  ((cards.map (·.instanceId) : List String) : Multiset String)

def queueIds (seat : FifoSeatState) : Multiset String :=
  (seat.queue.map fun queued => idBag queued.pack).sum

def queueSize (seat : FifoSeatState) : Nat := (seat.queue.map fun queued => queued.pack.length).sum

def queuePackIds (seat : FifoSeatState) : Multiset DraftPackId :=
  ((seat.queue.map (·.packId) : List DraftPackId) : Multiset DraftPackId)

def futureIds (packs : List DraftPack) : Multiset String := idBag packs.flatten

/-- The ids of all cards, wherever they are. -/
def heldIds (session : DraftSession) (fifo : FifoDraftState) : Multiset String :=
  (session.packsBySeat.map futureIds).sum + (fifo.seats.map queueIds).sum +
    (session.pools.map idBag).sum + (fifo.removed.map (·.cardInstanceId) : List String)

/-- A pack in a queue is what is left of a booster of this round, with the
draft-effect cards that have been returned to it. -/
structure QueuedOk (packs : List (List DraftPack)) (session : DraftSession)
    (fifo : FifoDraftState) (queued : QueuedDraftPack) : Prop where
  opener : queued.openingSeat < packs.length
  round : queued.round = session.currentPackNumber
  id : queued.packId = coordinate packs.length queued.round queued.openingSeat
  size : queued.originalSize = (dealtPack packs queued.openingSeat queued.round).length
  nonempty : 0 < queued.pack.length
  smaller : queued.pack.length ≤ queued.originalSize
  kept : queued.pack.length < queued.originalSize →
    session.config.selectionPolicy.discardThreshold < queued.pack.length
  returned : ∀ card ∈ queued.pack, ∀ assignment,
    fifo.returnedEffects.lookup card.instanceId = some assignment →
      assignment = queued.packId ∧ card.draftEffect = some .additionalPick
  native : ∀ card ∈ queued.pack, fifo.returnedEffects.lookup card.instanceId = none →
    card ∈ dealtPack packs queued.openingSeat queued.round

/-- A removed card came from an opened pack, its own unless it was returned there. -/
structure RemovedOk (packs : List (List DraftPack)) (policy : DraftSelectionPolicy)
    (unopened : Nat) (removed : RemovedDraftCard) : Prop where
  source : ∃ seat < packs.length, ∃ round < unopened,
    removed.packId = coordinate packs.length round seat
  card : ∃ seat round, ∃ card ∈ dealtPack packs seat round,
    card.instanceId = removed.cardInstanceId ∧
      (removed.packId = coordinate packs.length round seat ∨
        card.draftEffect = some .additionalPick)
  enabled : removalEnabled policy removed.reason = true

def supply (packs : List (List DraftPack)) (round : Nat) : Nat :=
  (packs.map fun row => (row.getD round []).length).sum

/-- The step counters of a seat agree with its pool. -/
def ProgressOk (packs : List (List DraftPack)) (session : DraftSession) (index : Nat)
    (seat : FifoSeatState) (pool : List DraftCardInstance) : Prop :=
  match session.kind.procedure.distribution with
  | .pickAndPass => seat.completedSteps ≤ pool.length ∧
      pool.length ≤ seat.completedSteps * session.kind.procedure.cardsPerPick ∧
      seat.roundCompletedSteps ≤ seat.completedSteps
  | .allAtOnce => seat.completedSteps = 0 ∧ seat.roundCompletedSteps = 0 ∧ seat.generation = 0 ∧
      ∀ card ∈ pool, card ∈ (packs.getD index []).flatten
  | .sharedStackPiles _ => False

/-- The cards of a started draft, with rounds from `unopened` on still sealed. -/
structure Stock (packs : List (List DraftPack)) (session : DraftSession) (fifo : FifoDraftState)
    (unopened : Nat) : Prop where
  conserved : heldIds session fifo = idBag packs.flatten.flatten
  futures : session.packsBySeat = packs.map (·.drop unopened)
  queuedCards : ∀ seat ∈ fifo.seats, ∀ queued ∈ seat.queue, ∀ card ∈ queued.pack,
    card ∈ packs.flatten.flatten
  pooledCards : ∀ pool ∈ session.pools, ∀ card ∈ pool, card ∈ packs.flatten.flatten
  queued : ∀ seat ∈ fifo.seats, ∀ queued ∈ seat.queue, QueuedOk packs session fifo queued
  distinct : (fifo.seats.map queuePackIds).sum.Nodup
  returned : ∀ id ∈ fifo.returnedEffects.keys, ∃ seat ∈ fifo.seats, ∃ queued ∈ seat.queue,
    ∃ card ∈ queued.pack, card.instanceId = id
  removed : ∀ removed ∈ fifo.removed,
    RemovedOk packs session.config.selectionPolicy unopened removed
  supplied : (fifo.seats.map (·.roundCompletedSteps)).sum + (fifo.seats.map queueSize).sum ≤
    supply packs (min session.currentPackNumber (session.config.packCount - 1))
  progress : ∀ index seat pool, fifo.seats[index]? = some seat →
    session.pools[index]? = some pool → ProgressOk packs session index seat pool

/-- A clock runs while the draft runs and is frozen while it is paused, and never
holds more than its duration. -/
def ScopeOk (clock : DraftClock) (target : DraftClockTarget) (paused : Option DraftPausedState)
    (duration now : Nat) : Prop :=
  clock.target = target ∧
    match paused with
    | none => ∃ deadlineMs, clock.state = .running deadlineMs ∧
        deadlineMs ≤ maxDraftJsonInteger ∧ deadlineMs - now ≤ duration
    | some _ => ∃ remainingMs, clock.state = .frozen remainingMs ∧ remainingMs ≤ duration

def ClockOk (policy : PickClockPolicy) (steps : Nat) (id : DraftPromptId)
    (paused : Option DraftPausedState) (now : Nat) (clock : Option DraftClock) : Prop :=
  match pickDuration policy steps with
  | none => clock = none
  | some duration => ∃ running, clock = some running ∧
      ScopeOk running (.pick id) paused duration now

/-- A prompt is about the pack in front of its seat. -/
def PromptOk (policy : PickClockPolicy) (fifo : FifoDraftState) (index : Nat)
    (seat : FifoSeatState) (prompt : DraftPrompt) : Prop :=
  prompt.id = ⟨fifo.sessionId, index, seat.generation⟩ ∧ 0 < seat.generation ∧
    (∃ head rest, seat.queue = head :: rest ∧ prompt.packId = head.packId) ∧
    ClockOk policy seat.roundCompletedSteps prompt.id fifo.paused fifo.lastNowMs prompt.clock

/-- Every prompt a seat may have is about its head, and it has had one prompt for
each step. -/
structure LoosePrompt (policy : PickClockPolicy) (fifo : FifoDraftState) (index : Nat)
    (seat : FifoSeatState) : Prop where
  prompts : ∀ prompt, seat.prompt = some prompt → PromptOk policy fifo index seat prompt
  bound : seat.generation ≤ maxDraftJsonInteger
  steps : seat.generation ≤ seat.completedSteps + if seat.prompt.isSome then 1 else 0

/-- And a seat with a pack in front of it does have one. -/
structure Prompted (policy : PickClockPolicy) (fifo : FifoDraftState) (index : Nat)
    (seat : FifoSeatState) : Prop extends LoosePrompt policy fifo index seat where
  asked : seat.queue ≠ [] → seat.prompt.isSome = true

def phaseOf (session : DraftSession) (fifo : FifoDraftState) : Option DraftActivePhase :=
  match session.status with
  | .drafting => some .drafting
  | .review => some .review
  | .paused => fifo.paused.map (·.phase)
  | _ => none

def PhaseOk (session : DraftSession) (fifo : FifoDraftState) : Prop :=
  match phaseOf session fifo with
  | some .drafting => session.kind.procedure.distribution = .pickAndPass ∧
      session.currentPackNumber < session.config.packCount ∧
      session.passDirection = PassDirection.forPack session.currentPackNumber ∧
      (∃ seat ∈ fifo.seats, seat.queue ≠ []) ∧ fifo.review = none
  | some .review => session.kind.procedure.distribution = .pickAndPass ∧
      session.currentPackNumber + 1 < session.config.packCount ∧
      session.passDirection = PassDirection.forPack session.currentPackNumber ∧
      (∀ seat ∈ fifo.seats, seat.queue = []) ∧
      session.config.clockPolicy.reviewDurationMs ≠ 0 ∧
      ∃ clock, fifo.review = some ⟨session.currentPackNumber, session.currentPackNumber + 1, clock⟩ ∧
        ScopeOk clock (.review (session.currentPackNumber + 1)) fifo.paused
          session.config.clockPolicy.reviewDurationMs fifo.lastNowMs
  | none => session.currentPackNumber = session.config.packCount ∧
      (session.kind.procedure.distribution = .pickAndPass →
        session.passDirection = PassDirection.forPack (session.config.packCount - 1)) ∧
      (∀ seat ∈ fifo.seats, seat.queue = []) ∧ fifo.review = none

structure Started (packs : List (List DraftPack)) (session : DraftSession)
    (fifo : FifoDraftState) : Prop where
  deal : GoodDeal session.seats.length session.config.packCount packs
  registered : Registered packs session.config.packCount fifo
  sizes : session.packSizes = (packs.headD []).map List.length
  phase : PhaseOk session fifo
  stock : Stock packs session fifo (nextUnopened session (phaseOf session fifo))
  prompts : ∀ index seat, fifo.seats[index]? = some seat →
    Prompted session.config.clockPolicy.pick fifo index seat

/-- What never changes, or changes without touching the draft. -/
structure Framed (session : DraftSession) (fifo : FifoDraftState) : Prop where
  there : session.fifo = some fifo
  flow : session.config.flow = .fifoAsync
  config : validateFifoConfig session.config session.seats.length .fifoSnapshot = .ok ()
  kind : session.kind = session.config.kind
  setCode : session.setCode = session.config.setCode
  identity : validDraftId fifo.sessionId = true
  revision : fifo.revision ≤ maxDraftJsonInteger
  time : fifo.lastNowMs ≤ maxDraftJsonInteger
  dims : ∀ length ∈ session.perSeatLengths fifo, length = session.seats.length
  modern : session.hasLegacyAuthority = false
  paused : session.status = .paused ↔ fifo.paused.isSome = true

/-- The invariant of the FIFO flow; `packs` is what was dealt. -/
structure FifoValid (packs : List (List DraftPack)) (session : DraftSession)
    (fifo : FifoDraftState) : Prop extends Framed session fifo where
  state : (session.status = .lobby ∧ validateLobby session fifo = .ok ()) ∨
    (session.status ≠ .lobby ∧ Started packs session fifo)

end Phase.Draft
