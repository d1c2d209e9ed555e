import Phase.Draft.FifoMove

/-! Prompts are brought up to date and rounds opened and closed without leaving the
invariant. -/
namespace Phase.Draft
open Fallible List FifoSeatState

/-- A pick-and-pass draft between two looks at its round: the cards are in order,
and no prompt is about the wrong pack, but one may be missing. -/
structure Underway (packs : List (List DraftPack)) (session : DraftSession)
    (fifo : FifoDraftState) (unopened : Nat) : Prop where
  deal : GoodDeal session.seats.length session.config.packCount packs
  registered : Registered packs session.config.packCount fifo
  sizes : session.packSizes = (packs.headD []).map length
  passes : session.kind.procedure.distribution = .pickAndPass
  stock : Stock packs session fifo unopened
  prompts : ∀ index seat, fifo.seats[index]? = some seat →
    LoosePrompt session.config.clockPolicy.pick fifo index seat

variable {fifo : FifoDraftState} {policy : PickClockPolicy}

/-- The manifest is a matter of two maps. -/
theorem Registered.congr {packs : List (List DraftPack)} {packCount : Nat} {fifo' : FifoDraftState}
    (registered : Registered packs packCount fifo) (samePacks : fifo'.packs = fifo.packs)
    (sameCards : fifo'.cards = fifo.cards) : Registered packs packCount fifo' := by
  obtain ⟨listed, packTotal, cards, cardTotal⟩ := registered
  rw [← samePacks] at listed packTotal
  rw [← sameCards] at cards cardTotal
  exact ⟨listed, packTotal, cards, cardTotal⟩

/-- What a prompt leaves alone. -/
def FifoSeatState.core (seat : FifoSeatState) : List QueuedDraftPack × Nat × Nat :=
  (seat.queue, seat.completedSteps, seat.roundCompletedSteps)

variable {seats' seats : List FifoSeatState}

theorem map_of_core {β : Type} (same : seats'.map core = seats.map core)
    (f : List QueuedDraftPack × Nat × Nat → β) :
    seats'.map (fun seat => f seat.core) = seats.map fun seat => f seat.core := by
  have := congrArg (map f) same
  simpa [map_map, Function.comp_def] using this

theorem mem_of_core (same : seats'.map core = seats.map core)
    {seat : FifoSeatState} (mem : seat ∈ seats') : ∃ old ∈ seats, old.core = seat.core := by
  have : seat.core ∈ seats.map core := same ▸ mem_map_of_mem mem
  exact mem_map.mp this

theorem queue_of_core {a b : FifoSeatState} (same : a.core = b.core) : a.queue = b.queue :=
  congrArg Prod.fst same

section
variable {packs : List (List DraftPack)} {session : DraftSession} {fifo : FifoDraftState}
  {unopened : Nat}

/-- The stock does not depend on prompts. -/
theorem Stock.reprompt (stock : Stock packs session fifo unopened)
    (passes : session.kind.procedure.distribution = .pickAndPass) {seats : List FifoSeatState}
    (same : seats.map core = fifo.seats.map core) :
    Stock packs { session with fifo := some { fifo with seats } } { fifo with seats } unopened where
  conserved := by
    have queues := map_of_core same fun core => (core.1.map fun queued => idBag queued.pack).sum
    refine Eq.trans ?_ stock.conserved
    change _ + (seats.map queueIds).sum + _ + _ = _ + (fifo.seats.map queueIds).sum + _ + _
    rw [show seats.map queueIds = fifo.seats.map queueIds from queues]
  futures := stock.futures
  queuedCards := by
    intro seat mem queued inQueue
    obtain ⟨old, inSeats, core⟩ := mem_of_core same mem
    rw [← queue_of_core core] at inQueue
    exact stock.queuedCards old inSeats queued inQueue
  pooledCards := stock.pooledCards
  queued := by
    intro seat mem queued inQueue
    obtain ⟨old, inSeats, core⟩ := mem_of_core same mem
    rw [← queue_of_core core] at inQueue
    have ok := stock.queued old inSeats queued inQueue
    exact ⟨ok.opener, ok.round, ok.id, ok.size, ok.nonempty, ok.smaller, ok.kept, ok.returned,
      ok.native⟩
  distinct := by
    have ids := map_of_core same fun core =>
      ((core.1.map (·.packId) : List DraftPackId) : Multiset DraftPackId)
    rw [show seats.map queuePackIds = fifo.seats.map queuePackIds from ids]
    exact stock.distinct
  returned := by
    intro id listed
    obtain ⟨old, inSeats, queued, inQueue, found⟩ := stock.returned id listed
    obtain ⟨seat, mem, core⟩ := mem_of_core same.symm inSeats
    exact ⟨seat, mem, queued, queue_of_core core ▸ inQueue, found⟩
  removed := stock.removed
  supplied := by
    have steps := map_of_core same fun core => core.2.2
    have queues := map_of_core same fun core => (core.1.map fun queued => queued.pack.length).sum
    rw [show seats.map (·.roundCompletedSteps) = fifo.seats.map (·.roundCompletedSteps) from steps,
      show seats.map queueSize = fifo.seats.map queueSize from queues]
    exact stock.supplied
  progress := by
    intro index seat pool there pooled
    have at_ := congrArg (fun cores => cores[index]?) same
    simp only [getElem?_map] at at_
    rw [there] at at_
    obtain ⟨old, was, core⟩ := Option.map_eq_some_iff.mp at_.symm
    have progress := stock.progress index old pool was pooled
    unfold ProgressOk at progress ⊢
    rw [passes] at progress ⊢
    rw [← show old.completedSteps = seat.completedSteps from congrArg (·.2.1) core,
      ← show old.roundCompletedSteps = seat.roundCompletedSteps from congrArg (·.2.2) core]
    exact progress

/-- Nor on anything but the cards, the policy and the round the queues belong to. -/
theorem Stock.congr (stock : Stock packs session fifo unopened) {session' : DraftSession}
    {fifo' : FifoDraftState} (futures : session'.packsBySeat = session.packsBySeat)
    (pools : session'.pools = session.pools) (config : session'.config = session.config)
    (kind : session'.kind = session.kind) (seats : fifo'.seats = fifo.seats)
    (removed : fifo'.removed = fifo.removed)
    (returned : fifo'.returnedEffects = fifo.returnedEffects)
    (round : (∀ seat ∈ fifo.seats, seat.queue = []) ∨
      session'.currentPackNumber = session.currentPackNumber)
    (supplied : min session'.currentPackNumber (session.config.packCount - 1) =
      min session.currentPackNumber (session.config.packCount - 1)) :
    Stock packs session' fifo' unopened where
  conserved := by
    rw [heldIds, futures, pools, seats, removed]
    exact stock.conserved
  futures := futures.trans stock.futures
  queuedCards := by
    rw [seats]
    exact stock.queuedCards
  pooledCards := by
    rw [pools]
    exact stock.pooledCards
  queued := by
    rw [seats]
    intro seat mem queued inQueue
    rcases round with empty | same
    · rw [empty seat mem] at inQueue
      cases inQueue
    · have ok := stock.queued seat mem queued inQueue
      exact ⟨ok.opener, ok.round.trans same.symm, ok.id, ok.size, ok.nonempty, ok.smaller,
        by rw [config]; exact ok.kept, by rw [returned]; exact ok.returned,
        by rw [returned]; exact ok.native⟩
  distinct := by
    rw [seats]
    exact stock.distinct
  returned := by
    rw [seats, returned]
    exact stock.returned
  removed := by
    rw [removed, config]
    exact stock.removed
  supplied := by
    rw [seats, config, supplied]
    exact stock.supplied
  progress := by
    rw [seats, pools]
    intro index seat pool there pooled
    have progress := stock.progress index seat pool there pooled
    unfold ProgressOk at progress ⊢
    rw [kind]
    exact progress

end

theorem promptClock_ok {id : DraftPromptId} {steps now : Nat} {clock : Option DraftClock}
    (h : promptClock policy id steps now = .ok clock) : ClockOk policy steps id none now clock := by
  unfold promptClock at h
  unfold ClockOk
  cases duration : pickDuration policy steps with
  | none =>
    rw [duration] at h
    exact (Except.ok.inj h).symm
  | some duration =>
    simp only [duration, running, deadline, map_eq_ok, bind_eq_ok, pure_eq_ok] at h
    obtain ⟨timed, ⟨deadlineMs, bounded, rfl⟩, rfl⟩ := h
    split at bounded
    · next fits =>
      obtain rfl := Except.ok.inj bounded
      exact ⟨_, rfl, rfl, _, rfl, fits, by omega⟩
    · cases bounded

theorem running_ok {target : DraftClockTarget} {now duration : Nat} {clock : DraftClock}
    (h : running target now duration = .ok clock) : ScopeOk clock target none duration now := by
  simp only [running, deadline, bind_eq_ok, pure_eq_ok] at h
  obtain ⟨deadlineMs, bounded, rfl⟩ := h
  split at bounded
  · next fits =>
    obtain rfl := Except.ok.inj bounded
    exact ⟨rfl, _, rfl, fits, by omega⟩
  · cases bounded

/-- A look at a seat gives it the prompt it should have. -/
theorem reconcileSeat_prompted {index : Nat} {seat seat' : FifoSeatState}
    (unpaused : fifo.paused = none) (loose : LoosePrompt policy fifo index seat)
    (h : reconcileSeat policy fifo.sessionId fifo.lastNowMs index seat = .ok seat') :
    Prompted policy fifo index seat' ∧ seat'.core = seat.core := by
  rcases reconcileSeat_ok h with ⟨empty, rfl⟩ | ⟨head, rest, prompt, front, there, _, rfl⟩ |
    ⟨head, rest, clock, front, bound, stale, clocked, rfl⟩
  · have before := prompt_none_of_empty loose empty
    have steps := loose.steps
    rw [before] at steps
    exact ⟨⟨⟨by simp, loose.bound, steps⟩, fun waiting => absurd empty waiting⟩, rfl⟩
  · exact ⟨⟨loose, fun _ => by rw [there]; rfl⟩, rfl⟩
  · have none_ : seat.prompt = none := by
      cases there : seat.prompt with
      | none => rfl
      | some prompt =>
        obtain ⟨_, _, ⟨head', rest', front', same⟩, _⟩ := loose.prompts prompt there
        rw [front, cons.injEq] at front'
        exact absurd (front'.1 ▸ same) (stale prompt there)
    have steps := loose.steps
    rw [none_] at steps
    refine ⟨⟨⟨?_, bound, ?_⟩, fun _ => rfl⟩, rfl⟩
    · intro prompt there
      obtain rfl := Option.some.inj there
      refine ⟨rfl, Nat.succ_pos _, ⟨head, rest, front, rfl⟩, ?_⟩
      rw [unpaused]
      exact promptClock_ok clocked
    · simpa using steps

section
variable {packs : List (List DraftPack)} {session : DraftSession} {fifo : FifoDraftState}
  {unopened : Nat}

/-- A look at all seats. -/
theorem Underway.reconcile (underway : Underway packs session fifo unopened)
    (unpaused : fifo.paused = none) {seats : List FifoSeatState}
    (h : reconcileSeats session.config.clockPolicy.pick fifo.sessionId fifo.lastNowMs 0 fifo.seats =
      .ok seats) :
    Stock packs { session with fifo := some { fifo with seats } } { fifo with seats } unopened ∧
      (∀ index seat, seats[index]? = some seat →
        Prompted session.config.clockPolicy.pick { fifo with seats } index seat) ∧
      seats.map (·.queue) = fifo.seats.map (·.queue) := by
  obtain ⟨length, each⟩ := reconcileSeats_ok h
  have all : ∀ index seat, seats[index]? = some seat → ∃ old, fifo.seats[index]? = some old ∧
      Prompted session.config.clockPolicy.pick fifo index seat ∧ seat.core = old.core := by
    intro index seat there
    have inside : index < fifo.seats.length := length ▸ (List.getElem?_eq_some_iff.mp there).1
    obtain ⟨seat', there', done⟩ := each index _ (getElem?_eq_getElem inside)
    obtain rfl := Option.some.inj (there.symm.trans there')
    rw [Nat.zero_add] at done
    obtain ⟨prompted, core⟩ := reconcileSeat_prompted unpaused
      (underway.prompts index _ (getElem?_eq_getElem inside)) done
    exact ⟨_, getElem?_eq_getElem inside, prompted, core⟩
  have same : seats.map core = fifo.seats.map core := by
    refine ext_getElem (by simpa using length) fun index inside inside' => ?_
    rw [length_map] at inside inside'
    obtain ⟨old, was, _, core⟩ := all index _ (getElem?_eq_getElem inside)
    rw [getElem_map, getElem_map, core]
    exact congrArg _ (Option.some.inj (was.symm.trans (getElem?_eq_getElem inside')))
  refine ⟨underway.stock.reprompt underway.passes same, fun index seat there => ?_,
    map_of_core same Prod.fst⟩
  obtain ⟨_, _, prompted, _⟩ := all index seat there
  exact ⟨⟨prompted.prompts, prompted.bound, prompted.steps⟩, prompted.asked⟩

end

/-- The booster of a seat, as it enters the seat's queue. -/
def openedPack (packs : List (List DraftPack)) (round seat : Nat) : QueuedDraftPack :=
  ⟨coordinate packs.length round seat, seat, round, (dealtPack packs seat round).length,
    dealtPack packs seat round⟩

def openedSeat (packs : List (List DraftPack)) (round index : Nat) (seat : FifoSeatState) :
    FifoSeatState :=
  { seat with
    roundCompletedSteps := 0
    queue := seat.queue ++ [openedPack packs round index] }

section
variable {packs : List (List DraftPack)} {podSize packCount : Nat} {fifo : FifoDraftState}

variable {round : Nat} {seats : List FifoSeatState}

/-- A dealt and registered round opens. -/
theorem openSeats_eq (deal : GoodDeal podSize packCount packs)
    (registered : Registered packs packCount fifo) {index : Nat} (bound : round < packCount)
    (same : seats.length + index = packs.length) :
    openSeats packs.length round fifo.packs index ((packs.drop index).map (·.drop round)) seats =
      .ok ((packs.drop index).map (·.drop (round + 1)),
        seats.mapIdx fun i seat => openedSeat packs round (index + i) seat) := by
  induction seats generalizing index with
  | nil =>
    have done : packs.drop index = [] := drop_eq_nil_of_le (by simp at same; omega)
    rw [done]
    rfl
  | cons seat seats ih =>
    have inside : index < packs.length := by simp at same; omega
    have insideRow : round < packs[index].length :=
      (deal.rounds _ (getElem_mem inside)).symm ▸ bound
    have rest := @ih (index + 1) (by simp at same; omega)
    rw [drop_eq_getElem_cons inside, map_cons, map_cons, drop_eq_getElem_cons insideRow]
    simp only [openSeats, openSeat, registered.listed index inside round bound, rest, bind,
      Except.bind, pure, Except.pure, mapIdx_cons, Nat.add_zero]
    simp only [openedSeat, openedPack, provenance, dealtPack_eq inside insideRow, Nat.add_assoc,
      Nat.add_comm 1]

/-- A round's boosters move from the sealed packs to the queues. -/
theorem sum_futureIds_drop (deal : GoodDeal podSize packCount packs) (bound : round < packCount) :
    ((packs.map (·.drop round)).map futureIds).sum =
      ((packs.map (·.drop (round + 1))).map futureIds).sum +
        ((range packs.length).map fun seat => idBag (dealtPack packs seat round)).sum := by
  have rows := Indexed.map_range_getD (fun row : List DraftPack => idBag (row.getD round [])) packs
    []
  have dealt : ((range packs.length).map fun seat => idBag (dealtPack packs seat round)) =
      packs.map fun row => idBag (row.getD round []) := rows
  rw [dealt, map_map]
  have split : ∀ row ∈ packs, futureIds (row.drop round) =
      idBag (row.getD round []) + futureIds (row.drop (round + 1)) := by
    intro row mem
    have inside : round < row.length := (deal.rounds row mem).symm ▸ bound
    rw [drop_eq_getElem_cons inside, futureIds_cons, getD_eq_getElem _ _ inside]
  clear deal dealt rows
  induction packs with
  | nil => rfl
  | cons row packs ih =>
    have others := ih fun row' later => split row' (mem_cons_of_mem row later)
    simp only [map_cons, sum_cons, Function.comp_apply]
    rw [split row mem_cons_self, others]
    abel

/-- Empty queues hold one booster each once a round is open. -/
theorem map_openedSeats {β : Type} (g : List QueuedDraftPack → β)
    (empty : ∀ seat ∈ seats, seat.queue = []) (same : seats.length = packs.length) (round : Nat) :
    (seats.mapIdx (openedSeat packs round)).map (fun seat => g seat.queue) =
      (range packs.length).map fun index => g [openedPack packs round index] := by
  refine ext_getElem (by simp [same]) fun index inside _ => ?_
  have inside : index < seats.length := by simpa using inside
  simp [openedSeat, empty _ (getElem_mem inside)]

theorem mem_openedSeats (empty : ∀ seat ∈ seats, seat.queue = []) {seat : FifoSeatState}
    (mem : seat ∈ seats.mapIdx (openedSeat packs round)) :
    ∃ index < seats.length, seat.queue = [openedPack packs round index] := by
  obtain ⟨index, inside, rfl⟩ := mem_mapIdx.mp mem
  exact ⟨index, inside, by simp [openedSeat, empty _ (getElem_mem inside)]⟩

theorem RemovedOk.later {policy : DraftSelectionPolicy} {unopened : Nat} {entry : RemovedDraftCard}
    (ok : RemovedOk packs policy unopened entry) : RemovedOk packs policy (unopened + 1) entry := by
  obtain ⟨⟨seat, inside, round, opened, id⟩, card, enabled⟩ := ok
  exact ⟨⟨seat, inside, round, Nat.lt_succ_of_lt opened, id⟩, card, enabled⟩

variable {session : DraftSession}

theorem openedPack_ok {index : Nat} (deal : GoodDeal podSize packCount packs)
    (inside : index < packs.length) (bound : round < packCount)
    (current : session.currentPackNumber = round)
    (unmarked : ∀ id, fifo.returnedEffects.lookup id = none) :
    QueuedOk packs session fifo (openedPack packs round index) where
  opener := inside
  round := current.symm
  id := rfl
  size := rfl
  nonempty := by
    obtain ⟨row, inPacks, inRow⟩ := deal.pack_mem inside bound
    exact (deal.sizes row inPacks _ inRow).1
  smaller := Nat.le_refl _
  kept := fun less => absurd less (Nat.lt_irrefl _)
  returned := fun card _ assignment marked => by
    rw [unmarked] at marked
    cases marked
  native := fun card mem _ => mem

theorem Stock.unmarked {unopened : Nat} (stock : Stock packs session fifo unopened)
    (empty : ∀ seat ∈ fifo.seats, seat.queue = []) (id : String) :
    fifo.returnedEffects.lookup id = none := by
  cases found : fifo.returnedEffects.lookup id with
  | none => rfl
  | some assignment =>
    obtain ⟨seat, inSeats, queued, inQueue, _⟩ := stock.returned id
      (AList.mem_keys.mpr (AList.lookup_isSome.mp (by rw [found]; rfl)))
    rw [empty seat inSeats] at inQueue
    cases inQueue

/-- The session with the boosters of `round` in the queues. -/
def openedFifo (packs : List (List DraftPack)) (fifo : FifoDraftState) (round : Nat) :
    FifoDraftState :=
  { fifo with review := none, seats := fifo.seats.mapIdx (openedSeat packs round) }

def openedSession (packs : List (List DraftPack)) (session : DraftSession) (fifo : FifoDraftState)
    (round : Nat) : DraftSession :=
  { session with
    currentPackNumber := round
    passDirection := PassDirection.forPack round
    status := .drafting
    packsBySeat := packs.map (·.drop (round + 1))
    fifo := some (openedFifo packs fifo round) }

theorem Stock.opened (deal : GoodDeal session.seats.length session.config.packCount packs)
    (passes : session.kind.procedure.distribution = .pickAndPass)
    (stock : Stock packs session fifo round) (bound : round < session.config.packCount)
    (empty : ∀ seat ∈ fifo.seats, seat.queue = []) (same : fifo.seats.length = packs.length) :
    Stock packs (openedSession packs session fifo round) (openedFifo packs fifo round)
      (round + 1) where
  conserved := by
    have queues : ((openedFifo packs fifo round).seats.map queueIds).sum =
        ((range packs.length).map fun seat => idBag (dealtPack packs seat round)).sum := by
      have bags := map_openedSeats
        (fun queue => (queue.map fun queued => idBag queued.pack).sum) empty same round
      refine (congrArg sum bags).trans ?_
      simp [openedPack]
    have before : (fifo.seats.map queueIds).sum = 0 := by
      refine sum_eq_zero fun bag mem => ?_
      obtain ⟨seat, inSeats, rfl⟩ := mem_map.mp mem
      simp [queueIds, empty seat inSeats]
    rw [← stock.conserved]
    unfold heldIds
    rw [queues, before, stock.futures, sum_futureIds_drop deal bound, add_zero]
    rfl
  futures := rfl
  queuedCards := by
    intro seat mem queued inQueue card inPack
    obtain ⟨index, _, queue⟩ := mem_openedSeats empty mem
    rw [queue, mem_singleton] at inQueue
    subst inQueue
    exact mem_deal.mpr ⟨index, round, inPack⟩
  pooledCards := stock.pooledCards
  queued := by
    intro seat mem queued inQueue
    obtain ⟨index, inside, queue⟩ := mem_openedSeats empty mem
    rw [queue, mem_singleton] at inQueue
    subst inQueue
    exact openedPack_ok deal (same ▸ inside) bound rfl (stock.unmarked empty)
  distinct := by
    have ids := map_openedSeats (fun queue =>
      ((queue.map (·.packId) : List DraftPackId) : Multiset DraftPackId)) empty same round
    change (((fifo.seats.mapIdx (openedSeat packs round)).map fun seat =>
      ((seat.queue.map (·.packId) : List DraftPackId) : Multiset DraftPackId)).sum).Nodup
    rw [ids]
    have singles : ∀ seats : List Nat, (seats.map fun index =>
        (([openedPack packs round index].map (·.packId) : List DraftPackId) :
          Multiset DraftPackId)).sum =
        ((seats.map fun index => coordinate packs.length round index : List Nat) :
          Multiset Nat) := by
      intro seats
      induction seats with
      | nil => rfl
      | cons index seats ih =>
        rw [map_cons, sum_cons, ih]
        rfl
    rw [singles]
    exact nodup_range.map fun a b eq => coordinate_injective eq
  returned := by
    intro id listed
    have marked := AList.lookup_isSome.mpr (AList.mem_keys.mp listed)
    change (fifo.returnedEffects.lookup id).isSome = true at marked
    rw [stock.unmarked empty id] at marked
    cases marked
  removed := fun entry mem => (stock.removed entry mem).later
  supplied := by
    have sizes := map_openedSeats (fun queue => (queue.map fun queued => queued.pack.length).sum)
      empty same round
    have rows := Indexed.map_range_getD (fun row : List DraftPack => (row.getD round []).length)
      packs []
    have queues : ((openedFifo packs fifo round).seats.map queueSize).sum = supply packs round := by
      refine (congrArg sum sizes).trans ?_
      unfold supply
      rw [← rows]
      simp [openedPack, dealtPack]
    have steps : ((openedFifo packs fifo round).seats.map (·.roundCompletedSteps)).sum = 0 := by
      refine sum_eq_zero fun count mem => ?_
      obtain ⟨seat, inSeats, rfl⟩ := mem_map.mp mem
      obtain ⟨index, inside, rfl⟩ := mem_mapIdx.mp inSeats
      rfl
    rw [queues, steps, Nat.zero_add]
    refine Nat.le_of_eq (congrArg _ (Nat.min_eq_left ?_).symm)
    exact Nat.le_sub_one_of_lt bound
  progress := by
    intro index seat pool there pooled
    change (fifo.seats.mapIdx (openedSeat packs round))[index]? = some seat at there
    rw [getElem?_mapIdx, Option.map_eq_some_iff] at there
    obtain ⟨old, was, rfl⟩ := there
    have progress := stock.progress index old pool was pooled
    unfold ProgressOk at progress ⊢
    rw [passes] at progress
    rw [show (openedSession packs session fifo round).kind = session.kind from rfl, passes]
    exact ⟨progress.1, progress.2.1, Nat.zero_le _⟩

end

section
variable {packs : List (List DraftPack)} {session : DraftSession} {fifo : FifoDraftState}

theorem Framed.sizes (framed : Framed session fifo) :
    session.config.podSize = session.seats.length ∧ 0 < session.seats.length ∧
      0 < session.config.packCount := by
  have config := framed.config
  simp only [validateFifoConfig, guard_eq_ok, bind_eq_ok] at config
  omega

theorem Framed.lengths (framed : Framed session fifo) :
    fifo.seats.length = session.seats.length ∧ session.pools.length = session.seats.length ∧
      session.packsBySeat.length = session.seats.length := by
  have dims := framed.dims
  simp only [DraftSession.perSeatLengths, mem_cons] at dims
  exact ⟨dims _ (by simp), dims _ (by simp), dims _ (by simp)⟩

theorem Framed.unpaused (framed : Framed session fifo) (status : session.status ≠ .paused) :
    fifo.paused = none := by
  cases there : fifo.paused with
  | none => rfl
  | some paused => exact absurd (framed.paused.mpr (by rw [there]; rfl)) status

variable {seats seats' : List FifoSeatState}

theorem Framed.reseat (framed : Framed session fifo) (same : seats.length = fifo.seats.length) :
    Framed { session with fifo := some { fifo with seats } } { fifo with seats } where
  there := rfl
  flow := framed.flow
  config := framed.config
  kind := framed.kind
  setCode := framed.setCode
  identity := framed.identity
  revision := framed.revision
  time := framed.time
  dims := by
    have dims := framed.dims
    simp only [DraftSession.perSeatLengths] at dims ⊢
    rwa [same]
  modern := framed.modern
  paused := framed.paused

/-- A session whose round is open and whose cards are in order. -/
structure Midway (packs : List (List DraftPack)) (session : DraftSession)
    (fifo : FifoDraftState) : Prop extends Framed session fifo where
  drafting : session.status = .drafting
  round : session.currentPackNumber < session.config.packCount
  direction : session.passDirection = PassDirection.forPack session.currentPackNumber
  unreviewed : fifo.review = none
  underway : Underway packs session fifo (session.currentPackNumber + 1)

theorem Midway.unpaused (midway : Midway packs session fifo) : fifo.paused = none :=
  midway.toFramed.unpaused (by rw [midway.drafting]; decide)

theorem exists_queue_of_map (same : seats'.map (·.queue) = seats.map (·.queue))
    (waiting : ∃ seat ∈ seats, seat.queue ≠ []) : ∃ seat ∈ seats', seat.queue ≠ [] := by
  obtain ⟨seat, mem, some_⟩ := waiting
  have : seat.queue ∈ seats'.map (·.queue) := same ▸ mem_map_of_mem mem
  obtain ⟨seat', mem', eq⟩ := mem_map.mp this
  exact ⟨seat', mem', eq ▸ some_⟩

theorem empty_of_map (same : seats'.map (·.queue) = seats.map (·.queue))
    (empty : ∀ seat ∈ seats, seat.queue = []) : ∀ seat ∈ seats', seat.queue = [] := by
  intro seat mem
  have : seat.queue ∈ seats.map (·.queue) := same ▸ mem_map_of_mem mem
  obtain ⟨old, inSeats, eq⟩ := mem_map.mp this
  rw [← eq, empty old inSeats]

/-- A round that goes on. -/
theorem Midway.continues (midway : Midway packs session fifo)
    (waiting : ∃ seat ∈ fifo.seats, seat.queue ≠ [])
    (h : reconcileSeats session.config.clockPolicy.pick fifo.sessionId fifo.lastNowMs 0 fifo.seats =
      .ok seats) :
    FifoValid packs { session with fifo := some { fifo with seats } } { fifo with seats } := by
  obtain ⟨stock, prompts, queues⟩ := midway.underway.reconcile midway.unpaused h
  have underway := midway.underway
  have status : ({ session with fifo := some { fifo with seats } } : DraftSession).status =
      .drafting := midway.drafting
  have phase : phaseOf { session with fifo := some { fifo with seats } } { fifo with seats } =
      some .drafting := by rw [phaseOf, status]
  refine ⟨midway.toFramed.reseat (reconcileSeats_ok h).1, .inr ⟨by rw [status]; decide,
    underway.deal, underway.registered.congr rfl rfl, underway.sizes, ?_, ?_, prompts⟩⟩
  · rw [PhaseOk, phase]
    exact ⟨underway.passes, midway.round, midway.direction, exists_queue_of_map queues waiting,
      midway.unreviewed⟩
  · rw [phase]
    exact stock

/-- Sealed rounds open into a valid draft. -/
theorem openFifoRound_midway (framed : Framed session fifo) {round : Nat}
    (status : session.status ≠ .paused) (bound : round < session.config.packCount)
    (underway : Underway packs session fifo round) (empty : ∀ seat ∈ fifo.seats, seat.queue = []) :
    openFifoRound session round fifo.lastNowMs =
        reconcilePrompts (openedSession packs session fifo round) fifo.lastNowMs ∧
      Midway packs (openedSession packs session fifo round) (openedFifo packs fifo round) ∧
      ∃ seat ∈ (openedFifo packs fifo round).seats, seat.queue ≠ [] := by
  have deal := underway.deal
  have sizes := framed.sizes
  have lengths := framed.lengths
  have pod : session.config.podSize = packs.length := sizes.1.trans deal.seats.symm
  have same : fifo.seats.length = packs.length := lengths.1.trans deal.seats.symm
  have unpaused := framed.unpaused status
  have opened := openSeats_eq deal underway.registered bound
    (show fifo.seats.length + 0 = packs.length from same)
  simp only [drop_zero, Nat.zero_add] at opened
  refine ⟨?_, ⟨?_, rfl, bound, rfl, rfl, ?_⟩, ?_⟩
  · simp only [openFifoRound, fifoRef_of framed.there, bind, Except.bind, pod,
      underway.stock.futures, opened]
    rfl
  · refine ⟨rfl, framed.flow, framed.config, framed.kind, framed.setCode, framed.identity,
      framed.revision, framed.time, ?_, framed.modern, ?_⟩
    · have dims := framed.dims
      simp only [DraftSession.perSeatLengths, openedSession, openedFifo, length_map,
        length_mapIdx] at dims ⊢
      rw [lengths.2.2] at dims
      rwa [deal.seats]
    · simp [openedSession, openedFifo, unpaused]
  · refine ⟨deal, ?_, underway.sizes, underway.passes,
      Stock.opened deal underway.passes underway.stock bound empty same, ?_⟩
    · exact underway.registered.congr rfl rfl
    · intro index seat there
      change (fifo.seats.mapIdx (openedSeat packs round))[index]? = some seat at there
      rw [getElem?_mapIdx, Option.map_eq_some_iff] at there
      obtain ⟨old, was, rfl⟩ := there
      have loose := underway.prompts index old was
      have none_ := prompt_none_of_empty loose (empty old (mem_of_getElem? was))
      refine ⟨fun prompt found => ?_, loose.bound, loose.steps⟩
      rw [show (openedSeat packs round index old).prompt = old.prompt from rfl, none_] at found
      cases found
  · have inside : 0 < fifo.seats.length := by omega
    refine ⟨openedSeat packs round 0 fifo.seats[0], ?_, by simp [openedSeat]⟩
    exact mem_mapIdx.mpr ⟨0, inside, rfl⟩

theorem Midway.reconciled (midway : Midway packs session fifo)
    (h : reconcileSeats session.config.clockPolicy.pick fifo.sessionId fifo.lastNowMs 0 fifo.seats =
      .ok seats) :
    Underway packs { session with fifo := some { fifo with seats } } { fifo with seats }
        (session.currentPackNumber + 1) ∧
      ((∀ seat ∈ fifo.seats, seat.queue = []) → ∀ seat ∈ seats, seat.queue = []) := by
  obtain ⟨stock, prompts, queues⟩ := midway.underway.reconcile midway.unpaused h
  have underway := midway.underway
  exact ⟨⟨underway.deal, underway.registered.congr rfl rfl, underway.sizes, underway.passes, stock,
    fun index seat there => (prompts index seat there).toLoosePrompt⟩, empty_of_map queues⟩

/-- A seat without a pack is asked nothing. -/
theorem LoosePrompt.quiet {policy : PickClockPolicy} {index : Nat} {seat : FifoSeatState}
    (loose : LoosePrompt policy fifo index seat) (empty : seat.queue = [])
    (fifo' : FifoDraftState) : Prompted policy fifo' index seat := by
  have none_ := prompt_none_of_empty loose empty
  refine ⟨⟨fun prompt found => ?_, loose.bound, loose.steps⟩, fun waiting => absurd empty waiting⟩
  rw [none_] at found
  cases found

/-- The last round ends the draft. -/
theorem Midway.ends (midway : Midway packs session fifo)
    (empty : ∀ seat ∈ fifo.seats, seat.queue = [])
    (last : session.currentPackNumber + 1 = session.config.packCount) :
    FifoValid packs { session with
      currentPackNumber := session.currentPackNumber + 1, status := .deckbuilding } fifo := by
  have underway := midway.underway
  refine ⟨⟨midway.there, midway.flow, midway.config, midway.kind, midway.setCode, midway.identity,
    midway.revision, midway.time, midway.dims, midway.modern, by simp [midway.unpaused]⟩,
    .inr ⟨by simp, underway.deal, underway.registered, underway.sizes, ?_, ?_, ?_⟩⟩
  · refine ⟨last, fun _ => ?_, empty, midway.unreviewed⟩
    rw [← last]
    exact midway.direction
  · have stock := underway.stock
    rw [last] at stock
    exact stock.congr rfl rfl rfl rfl rfl rfl rfl (.inl empty) (by dsimp only; omega)
  · intro index seat there
    exact (underway.prompts index seat there).quiet (empty seat (mem_of_getElem? there)) fifo

/-- Between two rounds there may be a review. -/
theorem Midway.reviews (midway : Midway packs session fifo)
    (empty : ∀ seat ∈ fifo.seats, seat.queue = [])
    (more : session.currentPackNumber + 1 ≠ session.config.packCount)
    (timed : session.config.clockPolicy.reviewDurationMs ≠ 0) {clock : DraftClock}
    (scope : ScopeOk clock (.review (session.currentPackNumber + 1)) none
      session.config.clockPolicy.reviewDurationMs fifo.lastNowMs) :
    FifoValid packs { session with
        status := .review
        fifo := some { fifo with
          review := some ⟨session.currentPackNumber, session.currentPackNumber + 1, clock⟩ } }
      { fifo with
        review := some ⟨session.currentPackNumber, session.currentPackNumber + 1, clock⟩ } := by
  have underway := midway.underway
  have bound := midway.round
  refine ⟨⟨rfl, midway.flow, midway.config, midway.kind, midway.setCode, midway.identity,
    midway.revision, midway.time, midway.dims, midway.modern, by simp [midway.unpaused]⟩,
    .inr ⟨by simp, underway.deal, underway.registered.congr rfl rfl, underway.sizes, ?_, ?_, ?_⟩⟩
  · refine ⟨underway.passes, ?_, midway.direction, empty, timed, clock, rfl, ?_⟩
    · dsimp only
      omega
    · rw [midway.unpaused]
      exact scope
  · exact underway.stock.congr rfl rfl rfl rfl rfl rfl rfl (.inl empty) rfl
  · intro index seat there
    exact (underway.prompts index seat there).quiet (empty seat (mem_of_getElem? there)) _

theorem openFifoRound_valid (framed : Framed session fifo) {round : Nat}
    (status : session.status ≠ .paused) (bound : round < session.config.packCount)
    (underway : Underway packs session fifo round) (empty : ∀ seat ∈ fifo.seats, seat.queue = [])
    {next : DraftSession} (h : openFifoRound session round fifo.lastNowMs = .ok next) :
    ∃ fifo', FifoValid packs next fifo' := by
  obtain ⟨eq, midway, waiting⟩ := openFifoRound_midway framed status bound underway empty
  rw [eq] at h
  obtain ⟨opened, seats, there, reconciled, rfl⟩ := reconcilePrompts_ok h
  obtain rfl := Option.some.inj (midway.there.symm.trans there)
  exact ⟨_, midway.continues waiting reconciled⟩

/-- However a round goes on after a selection, the draft stays valid. -/
theorem finishFifoRound_valid (midway : Midway packs session fifo) {next : DraftSession}
    {deltas : List DraftDelta}
    (h : finishFifoRound session fifo.lastNowMs = .ok (next, deltas)) :
    ∃ fifo', FifoValid packs next fifo' := by
  obtain ⟨_, seats, there, reconciled, branches⟩ := finishFifoRound_ok h
  obtain rfl := Option.some.inj (midway.there.symm.trans there)
  obtain ⟨underway, drained⟩ := midway.reconciled reconciled
  have framed := midway.toFramed.reseat (reconcileSeats_ok reconciled).1
  have midway' : Midway packs { session with fifo := some { fifo with seats } }
      { fifo with seats } :=
    ⟨framed, midway.drafting, midway.round, midway.direction, midway.unreviewed, underway⟩
  rcases branches with ⟨waiting, rfl⟩ | ⟨empty, last, rfl⟩ | ⟨empty, more, _, opened⟩ |
    ⟨empty, more, timed, clock, clocked, rfl⟩
  · exact ⟨_, midway.continues waiting reconciled⟩
  · exact ⟨_, midway'.ends (drained empty) last⟩
  · have bound := midway.round
    exact openFifoRound_valid framed (by rw [midway'.drafting]; decide) (by dsimp only; omega)
      underway (drained empty) opened
  · exact ⟨_, midway'.reviews (drained empty) more timed (running_ok clocked)⟩

end

end Phase.Draft
