import Phase.Draft.FifoInvariant
import Phase.Draft.View
import Phase.Lib.Factors

/-! A seat's view depends only on what the seat may see. -/
namespace Phase.Draft
open Function List DraftSession Factors FifoSeatState FifoDraftState

def DraftSource.withoutAssignments : DraftSource → DraftSource
  | .set (.chaos candidateCodes _) => .set (.chaos candidateCodes [])
  | .set (.uniformByRound codes) => .set (.uniformByRound codes)
  | .cube id name => .cube id name

/-- The set that fills a booster, by the seat that opens it. -/
def DraftSource.assigned (source : DraftSource) (openingSeat packNumber : Nat) : Option String :=
  match source with
  | .set (.chaos _ assignments) => (assignments[openingSeat]?).bind (·[packNumber]?)
  | .set (.uniformByRound _) | .cube .. => none

/-- The seats that opened the boosters which a seat holds. They are boosters of the current
round. -/
def heldBoosters (session : DraftSession) (seat : Nat) : List Nat :=
  match session.config.flow with
  | .fifoAsync =>
    ((fifoSeat session seat).map fun state => state.queue.map (·.openingSeat)).getD []
  | .legacyBarrier => (currentPackOrigin session seat).toList

theorem isChaos_withoutAssignments (source : DraftSource) :
    isChaos source.withoutAssignments = isChaos source := by
  rcases source with (_ | _) | _ <;> rfl

theorem isCube_withoutAssignments (source : DraftSource) :
    source.withoutAssignments.isCube = source.isCube := by
  rcases source with (_ | _) | _ <;> rfl

theorem withoutAssignments_of_open {source : DraftSource} (isOpen : isChaos source = false) :
    source.withoutAssignments = source := by
  rcases source with (_ | _) | _
  · rfl
  · cases isOpen
  · rfl

/-- The booster that a seat looks at is one that it holds. -/
theorem currentPackOrigin_held {session : DraftSession} {seat origin : Nat}
    (inHand : currentPackOrigin session seat = some origin) :
    origin ∈ heldBoosters session seat := by
  unfold heldBoosters
  cases flow : session.config.flow with
  | legacyBarrier => simp [inHand]
  | fifoAsync =>
    unfold currentPackOrigin at inHand
    rw [flow] at inHand
    obtain ⟨head, isHead, rfl⟩ := Option.map_eq_some_iff.mp inHand
    simp only [headMetadata, Option.bind_eq_bind, Option.bind_eq_some_iff] at isHead
    obtain ⟨fifo, isFifo, state, isSeat, isFirst⟩ := isHead
    simp only [fifoSeat, isFifo, Option.bind_some, isSeat, Option.map_some, Option.getD_some]
    exact mem_map_of_mem (mem_of_head? isFirst)

/-- A queued pack but for its cards, and how many they are. -/
def QueuedDraftPack.outline (queued : QueuedDraftPack) : QueuedDraftPack × Nat :=
  ({ queued with pack := [] }, queued.pack.length)

def FifoSeatState.outline (state : FifoSeatState) : FifoSeatState × List (QueuedDraftPack × Nat) :=
  ({ state with queue := [] }, state.queue.map QueuedDraftPack.outline)

def FifoDraftState.withoutCards (fifo : FifoDraftState) : FifoDraftState :=
  { fifo with seats := [], packs := ∅, cards := ∅ }

/-- How many cards a pool has, and those that lie face up. -/
def poolOutline (pool : List DraftCardInstance) : Nat × List DraftCardInstance :=
  (pool.length, faceUpDraftCards pool)

/-- Of each pile, the cards that the active seat has looked at. -/
def SharedStackState.inspectedCards (state : SharedStackState) : List (List DraftCardInstance) :=
  state.piles.mapIdx fun i pile => pile.take (min (state.inspected.getD i 0) pile.length)

/-- What a seat knows of the shared stack. -/
structure StackOutline where
  rest : SharedStackState
  remaining : Nat
  heights : List Nat
  inspected : List (List DraftCardInstance)
  notice : Option DraftCardInstance

def SharedStackState.outline (seat : Nat) (state : SharedStackState) : StackOutline where
  rest := { state with mainStack := [], piles := [], forcedDraws := [] }
  remaining := state.mainStack.length
  heights := state.piles.map length
  inspected := state.inspectedCards
  notice := (state.forcedDraws[seat]?).join

/-- A session without its cards, the seed and what follows from the seed. -/
def PodSession.withoutCards (session : PodSession) : PodSession :=
  { session with
    rngSeed := 0
    setCode := ""
    config := { session.config with
      setCode := "", source := session.config.source.withoutAssignments }
    packsBySeat := []
    currentPack := []
    pools := []
    sharedStack := none
    fifo := session.fifo.map FifoDraftState.withoutCards
    event := { session.event with submittedDecks := ∅ } }

/-- Two sessions that differ only in what this seat may not see. -/
structure AgreeFor (seat : Nat) (a b : PodSession) : Prop where
  rest : a.withoutCards = b.withoutCards
  completed : chaosAssignmentsAreComplete a.status = true → a.config.source = b.config.source
  assigned : ∀ openingSeat ∈ heldBoosters a.toDraftSession seat,
    a.config.source.assigned openingSeat a.currentPackNumber =
      b.config.source.assigned openingSeat a.currentPackNumber
  packs : a.currentPack.map (Option.map length) = b.currentPack.map (Option.map length)
  ownPack : a.currentPack[seat]? = b.currentPack[seat]?
  queues : a.fifo.map (·.seats.map outline) =
    b.fifo.map (·.seats.map outline)
  ownHead : a.headMetadata seat = b.headMetadata seat
  pools : a.pools.map poolOutline = b.pools.map poolOutline
  ownPool : a.pools[seat]? = b.pools[seat]?
  decks : ∀ playerId, (a.event.submittedDecks.lookup playerId).isSome =
    (b.event.submittedDecks.lookup playerId).isSome
  stack : a.sharedStack.map (SharedStackState.outline seat) =
    b.sharedStack.map (SharedStackState.outline seat)

namespace AgreeFor
variable {seat : Nat} {a b : PodSession} (agree : AgreeFor seat a b)
include agree

theorem kind : a.kind = b.kind := congrArg (·.kind) agree.rest
theorem status : a.status = b.status := congrArg (·.status) agree.rest
theorem seats : a.seats = b.seats := congrArg (·.seats) agree.rest
theorem flow : a.config.flow = b.config.flow := congrArg (·.config.flow) agree.rest
theorem packCount : a.config.packCount = b.config.packCount :=
  congrArg (·.config.packCount) agree.rest
theorem packNumber : a.currentPackNumber = b.currentPackNumber :=
  congrArg (·.currentPackNumber) agree.rest

theorem source : a.config.source.withoutAssignments = b.config.source.withoutAssignments :=
  congrArg (·.config.source) agree.rest

theorem cardsInPack : a.cardsInPack = b.cardsInPack := by
  have sizes : a.packSizes = b.packSizes := congrArg (·.packSizes) agree.rest
  have default : a.config.cardsPerPack = b.config.cardsPerPack :=
    congrArg (·.config.cardsPerPack) agree.rest
  unfold DraftSession.cardsInPack
  rw [sizes, default]

theorem isChaos_eq : isChaos a.config.source = isChaos b.config.source := by
  rw [← isChaos_withoutAssignments, agree.source, isChaos_withoutAssignments]

theorem isCube_eq : a.config.source.isCube = b.config.source.isCube := by
  rw [← isCube_withoutAssignments, agree.source, isCube_withoutAssignments]

theorem source_of_open (isOpen : isChaos a.config.source = false) :
    a.config.source = b.config.source := by
  have isOpen' := isOpen
  rw [agree.isChaos_eq] at isOpen'
  rw [← withoutAssignments_of_open isOpen, agree.source, withoutAssignments_of_open isOpen']

theorem fifo_eq : a.fifo.map withoutCards = b.fifo.map withoutCards :=
  congrArg (·.fifo) agree.rest

theorem paused : a.fifo.bind (·.paused) = b.fifo.bind (·.paused) := by
  have shown : (fun fifo : FifoDraftState => fifo.paused).FactorsThrough
      withoutCards := fun _ _ same => congrArg (·.paused) same
  exact option_bind shown agree.fifo_eq

theorem visibleStatus_eq : visibleStatus a.toDraftSession = visibleStatus b.toDraftSession := by
  unfold visibleStatus
  rw [agree.flow, agree.paused, agree.status]

theorem currentPackOrigin_eq :
    currentPackOrigin a.toDraftSession seat = currentPackOrigin b.toDraftSession seat := by
  have origins : a.currentPackOrigins = b.currentPackOrigins :=
    congrArg (·.currentPackOrigins) agree.rest
  unfold currentPackOrigin
  rw [agree.flow, agree.ownHead, agree.ownPack, origins]

theorem sourceView :
    sourceViewForPlayer a.toDraftSession seat = sourceViewForPlayer b.toDraftSession seat := by
  unfold sourceViewForPlayer
  rw [← agree.visibleStatus_eq, ← agree.currentPackOrigin_eq, ← agree.packNumber]
  by_cases complete : chaosAssignmentsAreComplete a.status = true
  · rw [agree.completed complete]
  have hidden : chaosAssignmentsAreComplete (visibleStatus a.toDraftSession) = false := by
    unfold visibleStatus
    split
    · rfl
    · simpa using complete
  have held := agree.assigned
  have source := agree.source
  have inHand : ∀ origin, currentPackOrigin a.toDraftSession seat = some origin →
      origin ∈ heldBoosters a.toDraftSession seat := fun origin => currentPackOrigin_held
  generalize a.config.source = x, b.config.source = y at source held
  rcases x with (codes | ⟨codes, assignments⟩) | ⟨id, name⟩ <;>
    rcases y with (codes' | ⟨codes', assignments'⟩) | ⟨id', name'⟩ <;> cases source
  · rfl
  · simp only [setSourceViewForPlayer, hidden]
    congr 2
    split
    · cases inDraft : currentPackOrigin a.toDraftSession seat with
      | none => rfl
      | some origin => exact held origin (inHand origin inDraft)
    · rfl
  · rfl

theorem spectatorSource :
    sourceViewForSpectator a.toDraftSession = sourceViewForSpectator b.toDraftSession := by
  unfold sourceViewForSpectator
  have source := agree.source
  generalize a.config.source = x, b.config.source = y at source
  rcases x with (codes | ⟨codes, assignments⟩) | ⟨id, name⟩ <;>
    rcases y with (codes' | ⟨codes', assignments'⟩) | ⟨id', name'⟩ <;> cases source <;> rfl

theorem packSetCodes :
    visiblePackSetCodes a.toDraftSession = visiblePackSetCodes b.toDraftSession := by
  unfold visiblePackSetCodes
  rw [← agree.isChaos_eq]
  split
  · rfl
  · next isOpen =>
    unfold packSetCodeSequence
    rw [agree.packCount, agree.source_of_open (by simpa using isOpen)]

theorem concessionCodes (isOpen : isChaos a.config.source = false ∨
      chaosAssignmentsAreComplete a.status = true) :
    concessionSetCodes a.toDraftSession = concessionSetCodes b.toDraftSession := by
  have source := isOpen.elim agree.source_of_open agree.completed
  unfold concessionSetCodes
  rw [agree.kind, source]

theorem visibleConcessions : visibleChaosConcessions a.toDraftSession =
    visibleChaosConcessions b.toDraftSession := by
  unfold visibleChaosConcessions
  rw [agree.isChaos_eq, agree.status]

theorem draftSetCodes :
    (if visibleChaosConcessions a.toDraftSession then concessionSetCodes a.toDraftSession else []) =
      if visibleChaosConcessions b.toDraftSession then concessionSetCodes b.toDraftSession
      else [] := by
  rw [← agree.visibleConcessions]
  split
  · next visible =>
    refine agree.concessionCodes ?_
    simpa [visibleChaosConcessions] using visible
  · rfl

theorem fillers :
    (if visibleChaosConcessions a.toDraftSession then (sessionConcessions a.toDraftSession).fillers
      else []) =
      if visibleChaosConcessions b.toDraftSession then (sessionConcessions b.toDraftSession).fillers
      else [] := by
  rw [← agree.visibleConcessions]
  unfold sessionConcessions
  split
  · next visible =>
    rw [agree.concessionCodes (by simpa [visibleChaosConcessions] using visible)]
  · rfl

theorem spectatorFillers :
    (if isChaos a.config.source then [] else (sessionConcessions a.toDraftSession).fillers) =
      if isChaos b.config.source then [] else (sessionConcessions b.toDraftSession).fillers := by
  rw [← agree.isChaos_eq]
  unfold sessionConcessions
  split
  · rfl
  · next isOpen => rw [agree.concessionCodes (.inl (by simpa using isOpen))]

theorem publicFifo : fifoPublicView a.toDraftSession = fifoPublicView b.toDraftSession := by
  have shown : publicView.FactorsThrough withoutCards := by
    intro fifo fifo' same
    change fifo.withoutCards.publicView = fifo'.withoutCards.publicView
    rw [same]
  exact option_map shown agree.fifo_eq

theorem fifoSeats (i : Nat) : (fifoSeat a.toDraftSession i).map outline =
    (fifoSeat b.toDraftSession i).map outline := by
  have shown : (fun fifo : FifoDraftState => (fifo.seats[i]?).map outline).FactorsThrough
      (·.seats.map outline) := fun _ _ same => list_getElem? i same
  have seats := option_bind shown agree.queues
  simpa only [fifoSeat, Option.map_bind, Function.comp_def] using seats

theorem progress (i : Nat) :
    fifoProgressView a.toDraftSession i = fifoProgressView b.toDraftSession i := by
  have shown : progressView.FactorsThrough outline :=
    fun _ _ same => congrArg (·.1.progressView) same
  exact option_map shown (agree.fifoSeats i)

theorem queueLengths (i : Nat) : (fifoSeat a.toDraftSession i).map (·.queue.length) =
    (fifoSeat b.toDraftSession i).map (·.queue.length) := by
  have shown : (fun state : FifoSeatState => state.queue.length).FactorsThrough
      outline := fun _ _ same => list_length (congrArg Prod.snd same)
  exact option_map shown (agree.fifoSeats i)

/-- Every seat's pack has its size. -/
theorem headSizes (i : Nat) : (a.headPack i).map length = (b.headPack i).map length := by
  unfold headPack
  rw [← agree.flow]
  cases a.config.flow with
  | legacyBarrier =>
    have sizes := congrArg Option.join (list_getElem? i agree.packs)
    simpa only [Option.join_map_eq_map_join] using sizes
  | fifoAsync =>
    have shown : (fun state : FifoSeatState => (state.queue.head?).map (·.pack.length)).FactorsThrough
        outline := by
      intro state state' same
      have first := congrArg head? (congrArg Prod.snd same)
      simp only [outline, head?_map] at first
      have size : (fun queued : QueuedDraftPack => queued.pack.length).FactorsThrough
          QueuedDraftPack.outline := fun _ _ same => congrArg Prod.snd same
      exact option_map size first
    have sizes := option_bind shown (agree.fifoSeats i)
    simpa [headMetadata, fifoSeat, Option.map_bind, Function.comp_def,
      Option.bind_assoc] using sizes

theorem ownHeadPack : a.headPack seat = b.headPack seat := by
  unfold headPack
  rw [agree.flow, agree.ownPack, agree.ownHead]

theorem requiredPickCount : a.requiredPickCount seat = b.requiredPickCount seat := by
  unfold DraftSession.requiredPickCount
  rw [agree.kind, agree.ownHeadPack]

theorem requirements : selectionRequirements a.toDraftSession seat =
    selectionRequirements b.toDraftSession seat := by
  have policy : a.config.selectionPolicy = b.config.selectionPolicy :=
    congrArg (·.config.selectionPolicy) agree.rest
  unfold selectionRequirements
  rw [getD_eq_getElem?_getD, getD_eq_getElem?_getD, agree.ownHeadPack, agree.ownPool,
    agree.requiredPickCount, agree.kind, policy]

theorem effects :
    fifoEffectOptions a.toDraftSession seat = fifoEffectOptions b.toDraftSession seat := by
  unfold fifoEffectOptions
  rw [agree.requirements, agree.ownPool]

theorem playerFifo :
    fifoPlayerView a.toDraftSession seat = fifoPlayerView b.toDraftSession seat := by
  unfold fifoPlayerView
  rw [agree.status, agree.requirements, agree.effects, agree.publicFifo, agree.progress,
    agree.ownHead]
  refine option_bind (fun state state' same => ?_) (agree.fifoSeats seat)
  have prompt : state.prompt = state'.prompt := congrArg (·.1.prompt) same
  have count : state.queue.length = state'.queue.length :=
    list_length (congrArg Prod.snd same)
  simp only [prompt, count]

theorem packCounts (i : Nat) :
    activePackCount a.toDraftSession i = activePackCount b.toDraftSession i := by
  have picked : a.seatsPickedThisRound = b.seatsPickedThisRound :=
    congrArg (·.seatsPickedThisRound) agree.rest
  have full : (a.headPack i).any (fun pack => !pack.isEmpty) =
      (b.headPack i).any (fun pack => !pack.isEmpty) := by
    have bySize (pack : Option DraftPack) :
        pack.any (fun pack => !pack.isEmpty) = (pack.map length).any (· != 0) := by
      rcases pack with _ | _ | ⟨_, _⟩ <;> rfl
    rw [bySize, bySize, agree.headSizes]
  unfold activePackCount
  rw [agree.flow, agree.queueLengths, agree.status, full, picked]

theorem packSize (viewer : Option Nat) (own : viewer = none ∨ viewer = some seat) :
    visiblePackSize a.toDraftSession viewer = visiblePackSize b.toDraftSession viewer := by
  unfold visiblePackSize privateChaosSizes
  rw [agree.flow, agree.cardsInPack, agree.packNumber, agree.isChaos_eq]
  rcases own with rfl | rfl
  · cases b.config.flow <;> rfl
  · cases b.config.flow with
    | legacyBarrier => rfl
    | fifoAsync => simp only [agree.ownHead]

theorem packSizes : visiblePackSizes a.toDraftSession = visiblePackSizes b.toDraftSession := by
  unfold visiblePackSizes privateChaosSizes packSizeSequence
  rw [agree.flow, agree.cardsInPack, agree.isChaos_eq, agree.packCount]

theorem packPickSteps :
    visiblePackPickSteps a.toDraftSession = visiblePackPickSteps b.toDraftSession := by
  unfold visiblePackPickSteps privateChaosSizes packPickStepSequence
  rw [agree.flow, agree.cardsInPack, agree.isChaos_eq, agree.packCount, agree.kind]

theorem pickStatus (i : Nat) (isDrafting : Bool) :
    pickStatusFor a.toStackSession i isDrafting = pickStatusFor b.toStackSession i isDrafting := by
  have holds : (a.headPack (asU8 i)).isSome = (b.headPack (asU8 i)).isSome := by
    rw [← Option.isSome_map, agree.headSizes, Option.isSome_map]
  have active : a.sharedStack.map (·.activeSeat) = b.sharedStack.map (·.activeSeat) := by
    have shown : (fun state : SharedStackState => state.activeSeat).FactorsThrough
        (SharedStackState.outline seat) := fun _ _ same => congrArg (·.rest.activeSeat) same
    exact option_map shown agree.stack
  unfold pickStatusFor
  rw [agree.kind, holds]
  generalize a.sharedStack = x, b.sharedStack = y at active
  cases x with
  | none =>
    cases y with
    | none => rfl
    | some y => cases active
  | some x =>
    cases y with
    | none => cases active
    | some y =>
      have sameSeat : x.activeSeat = y.activeSeat := Option.some.inj active
      simp only [sameSeat]

theorem seatView (isDrafting : Bool) :
    seatPublicView a.toStackSession isDrafting = seatPublicView b.toStackSession isDrafting := by
  have connected : a.connectedSeats = b.connectedSeats :=
    congrArg (·.connectedSeats) agree.rest
  funext seated i
  unfold seatPublicView
  rw [agree.progress, agree.pickStatus, agree.packCounts, connected]
  simp only [agree.decks]
  refine option_bind (fun pool pool' same => ?_) (list_getElem? i agree.pools)
  obtain ⟨count, faceUp⟩ := Prod.mk.inj same
  simp only [count, faceUp]

theorem seatViews : seatPublicViews a.toStackSession = seatPublicViews b.toStackSession := by
  unfold seatPublicViews
  rw [agree.seats, agree.status, agree.seatView]

theorem matchRecords : a.event.matchRecords = b.event.matchRecords :=
  congrArg (·.event.matchRecords) agree.rest

theorem pairings : a.event.pairings = b.event.pairings := congrArg (·.event.pairings) agree.rest

theorem currentRound : a.event.currentRound = b.event.currentRound :=
  congrArg (·.event.currentRound) agree.rest

theorem standings : computeStandings a.toDraftSession = computeStandings b.toDraftSession := by
  unfold computeStandings
  rw [agree.pairings, agree.seats, agree.matchRecords]

theorem pairingViews :
    computePairingViews a.toDraftSession = computePairingViews b.toDraftSession := by
  have one : pairingView a.toDraftSession = pairingView b.toDraftSession := by
    unfold pairingView playerSeat
    rw [agree.seats, agree.matchRecords]
  unfold computePairingViews
  rw [agree.currentRound, agree.pairings, one]

end AgreeFor

section
variable {seat : Nat} {s t : SharedStackState} (same : s.outline seat = t.outline seat)
include same

theorem heights_eq : s.piles.map length = t.piles.map length :=
  congrArg StackOutline.heights same

/-- A decision's legality is known from the heights. -/
theorem refusalFor_eq (viewer pile : Nat) (decision : SharedStackPileDecision) :
    refusalFor s viewer pile decision = refusalFor t viewer pile decision := by
  have active : s.activeSeat = t.activeSeat := congrArg (·.rest.activeSeat) same
  have cursor : s.cursor = t.cursor := congrArg (·.rest.cursor) same
  have remaining : s.mainStack.length = t.mainStack.length := congrArg (·.remaining) same
  have later : laterPileAvailable s pile = laterPileAvailable t pile := by
    have bySize (piles : List (List DraftCardInstance)) :
        piles.any (fun pile => !pile.isEmpty) = (piles.map length).any (· != 0) := by
      rw [any_map]
      congr 1
      funext pile
      cases pile <;> rfl
    unfold laterPileAvailable
    rw [bySize, bySize, map_drop, map_drop, heights_eq same]
  have count : s.piles.length = t.piles.length := list_length (heights_eq same)
  unfold refusalFor
  rw [active, cursor, remaining, later, count]
  have empty : (s.piles[pile]?).map isEmpty = (t.piles[pile]?).map isEmpty := by
    have shown : (isEmpty : List DraftCardInstance → Bool).FactorsThrough length := by
      intro x y length
      rw [Bool.eq_iff_iff, isEmpty_iff_length_eq_zero, isEmpty_iff_length_eq_zero, length]
    exact option_map shown (list_getElem? pile (heights_eq same))
  generalize s.piles[pile]? = x, t.piles[pile]? = y at empty
  cases x with
  | none =>
    cases y with
    | none => rfl
    | some y => cases empty
  | some x =>
    cases y with
    | none => cases empty
    | some y =>
      have isEmpty : x.isEmpty = y.isEmpty := Option.some.inj empty
      simp only [isEmpty]

/-- The viewer sees the height of a pile, and of the cards the inspected ones at most. -/
theorem pileViews_eq (viewer : Option Nat) :
    (s.piles.mapIdx fun i pile => sharedStackPileView s viewer pile i) =
      t.piles.mapIdx fun i pile => sharedStackPileView t viewer pile i := by
  have active : s.activeSeat = t.activeSeat := congrArg (·.rest.activeSeat) same
  have inspected : s.inspectedCards = t.inspectedCards := congrArg (·.inspected) same
  refine ext_getElem? fun i => ?_
  have cards := congrArg (·[i]?) inspected
  simp only [SharedStackState.inspectedCards, getElem?_mapIdx] at cards ⊢
  have height : (s.piles[i]?).map length = (t.piles[i]?).map length :=
    list_getElem? i (heights_eq same)
  generalize s.piles[i]? = x, t.piles[i]? = y at cards height
  cases x with
  | none =>
    cases y with
    | none => rfl
    | some y => cases height
  | some x =>
    cases y with
    | none => cases height
    | some y =>
      have isHeight : x.length = y.length := Option.some.inj height
      have isPrefix : x.take (min (s.inspected.getD i 0) x.length) =
          y.take (min (t.inspected.getD i 0) y.length) := Option.some.inj cards
      rw [isHeight] at isPrefix
      unfold sharedStackPileView
      simp only [Option.map_some, refusalFor_eq same, active, isPrefix, isHeight]

theorem sharedStackView_eq (viewer : Option Nat) (own : viewer = none ∨ viewer = some seat) :
    sharedStackView s viewer = sharedStackView t viewer := by
  have active : s.activeSeat = t.activeSeat := congrArg (·.rest.activeSeat) same
  have cursor : s.cursor = t.cursor := congrArg (·.rest.cursor) same
  have decisions : s.decisions = t.decisions := congrArg (·.rest.decisions) same
  have history : s.history = t.history := congrArg (·.rest.history) same
  have remaining : s.mainStack.length = t.mainStack.length := congrArg (·.remaining) same
  have notice : (s.forcedDraws[seat]?).join = (t.forcedDraws[seat]?).join :=
    congrArg (·.notice) same
  unfold sharedStackView
  rw [remaining, heights_eq same, active, cursor, pileViews_eq same, decisions, history]
  rcases own with rfl | rfl
  · rfl
  · simp only [Option.bind_some, notice]

end

namespace AgreeFor
variable {seat : Nat} {a b : PodSession} (agree : AgreeFor seat a b)
include agree

theorem stackView (isDrafting : Bool) (viewer : Option Nat)
    (own : viewer = none ∨ viewer = some seat) :
    sharedStackViewFor a.toStackSession isDrafting viewer =
      sharedStackViewFor b.toStackSession isDrafting viewer := by
  refine option_bind (fun s t same => ?_) agree.stack
  simp only [sharedStackView_eq same viewer own]

theorem firstChooser : playFirstChooser a.toStackSession = playFirstChooser b.toStackSession := by
  unfold playFirstChooser
  rw [agree.seats]
  refine option_bind (fun s t same => ?_) agree.stack
  have starting : s.startingSeat = t.startingSeat := congrArg (·.rest.startingSeat) same
  simp only [starting]

theorem fromPool (pool : List DraftCardInstance) :
    DraftPoolGroups.fromPool pool a.config.source = .fromPool pool b.config.source := by
  unfold DraftPoolGroups.fromPool
  rw [agree.isCube_eq]

end AgreeFor

/-- Sessions that differ only in what a seat may not see give it one view, and spectators of a
public draft one view. -/
theorem views_hide_cards {seat : Nat} {a b : PodSession} (agree : AgreeFor seat a b) :
    filterForPlayer a seat = filterForPlayer b seat ∧
      filterForSpectator a .publicOnly = filterForSpectator b .publicOnly := by
  have format : a.config.tournamentFormat = b.config.tournamentFormat :=
    congrArg (·.config.tournamentFormat) agree.rest
  have deckSize : a.config.minDeckSize = b.config.minDeckSize :=
    congrArg (·.config.minDeckSize) agree.rest
  have addable : a.addableCards = b.addableCards := congrArg (·.addableCards) agree.rest
  have policy : a.podPolicy = b.podPolicy := congrArg (·.podPolicy) agree.rest
  have pick : a.pickNumber = b.pickNumber := congrArg (·.pickNumber) agree.rest
  have direction : a.passDirection = b.passDirection := congrArg (·.passDirection) agree.rest
  constructor
  · have sizes : a.packSizeSequence = b.packSizeSequence := by
      unfold packSizeSequence
      rw [agree.cardsInPack, agree.packCount]
    unfold filterForPlayer
    rw [getD_eq_getElem?_getD, getD_eq_getElem?_getD]
    simp only [agree.ownPool, agree.seatViews, agree.flow, agree.playerFifo, agree.status,
      agree.kind, agree.sourceView, agree.packNumber, agree.ownHeadPack, agree.isCube_eq,
      agree.requiredPickCount, agree.fromPool, agree.packSize (some seat) (.inr rfl),
      agree.packSizes, agree.packSetCodes, agree.packPickSteps, agree.packCount, agree.fillers,
      agree.draftSetCodes, agree.standings, agree.currentRound, agree.pairingViews,
      agree.stackView _ (some seat) (.inr rfl), agree.firstChooser, sizes, format, deckSize,
      addable, policy, pick, direction]
  · unfold filterForSpectator
    simp only [agree.seatViews, agree.flow, agree.publicFifo, agree.status, agree.kind,
      agree.spectatorSource, agree.packNumber, agree.packSize none (.inl rfl), agree.packSizes,
      agree.packSetCodes, agree.packPickSteps, agree.packCount, agree.spectatorFillers,
      agree.standings, agree.currentRound, agree.pairingViews, agree.stackView _ none (.inl rfl),
      format, deckSize, addable, policy, pick, direction, reduceCtorEq, false_and, if_false]

/-- Two seats in the first round of a Chaos draft, by what seat 0 does not see of it. -/
def chaosPod (seed : Nat) (set : String) (card : DraftCardInstance) : PodSession where
  kind := .premier
  setCode := "AAA+" ++ set
  status := .drafting
  config := {
    flow := .legacyBarrier, source := .set (.chaos ["AAA", "BBB", "CCC"] [["AAA", set], [set, "AAA"]]),
    setCode := "AAA+" ++ set, kind := .premier, podSize := 2, cardsPerPack := 2, packCount := 2,
    minDeckSize := 40, tournamentFormat := .swiss }
  seats := [.human 0 "Seat 0", .human 1 "Seat 1"]
  currentPackNumber := 0
  packSizes := [2, 2]
  pickNumber := 1
  seatsPickedThisRound := [false, false]
  connectedSeats := [true, true]
  passDirection := .left
  packsBySeat := [[[card, card]], [[card, card]]]
  currentPack := [some [{ instanceId := "a" }], some [card]]
  currentPackOrigins := [some 0, some 1]
  pools := [[{ instanceId := "b" }], [card]]
  sharedStackLive := false
  fifo := none
  event := ⟨∅, ∅, [], 0⟩
  sharedStack := none
  rngSeed := seed
  addableCards := ⟨.standardBasics, []⟩
  podPolicy := .casual

theorem chaosPod_hides : filterForPlayer (chaosPod 1 "BBB" { instanceId := "x" }) 0 =
      filterForPlayer (chaosPod 2 "CCC" { instanceId := "y" }) 0 ∧
    (filterForPlayer (chaosPod 1 "BBB" { instanceId := "x" }) 0).isSome = true ∧
    chaosPod 1 "BBB" { instanceId := "x" } ≠ chaosPod 2 "CCC" { instanceId := "y" } := by
  have agree : AgreeFor 0 (chaosPod 1 "BBB" { instanceId := "x" })
      (chaosPod 2 "CCC" { instanceId := "y" }) := by
    refine ⟨rfl, nofun, ?_, rfl, rfl, rfl, rfl, rfl, rfl, fun _ => rfl, rfl⟩
    intro openingSeat held
    cases mem_singleton.mp held
    rfl
  exact ⟨(views_hide_cards agree).1, by decide +kernel, by decide +kernel⟩

end Phase.Draft
