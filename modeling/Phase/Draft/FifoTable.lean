import Phase.Draft.BarrierStep
import Phase.Draft.FifoStep
import Phase.Draft.Table

/-! The FIFO flow refines the table: an accepted selection is one table step. -/
namespace Phase.Draft
open List Option Table

/-- The table a pod of `podSize` sits at when seat `i` picks the ids
`choose i pack pool`. -/
def draftRules (podSize packCount : Nat)
    (choose : Nat → DraftPack → List DraftCardInstance → List String) :
    TableRules DraftCardInstance where
  podSize := podSize
  packCount := packCount
  next round seat := (PassDirection.forPack round).nextSeat seat podSize
  next_injective round _ _ ha hb := nextSeat_injective (PassDirection.forPack round) ha hb
  draft seat pack pool := splitNamed pack (choose seat pack pool)

def packQueue (state : FifoSeatState) : List DraftPack := state.queue.map (·.pack)

def fifoTable (session : DraftSession) (fifo : FifoDraftState) : Table DraftCardInstance where
  queues seat := ((fifo.seats[seat]?).map packQueue).getD []
  pools seat := session.pools.getD seat []
  futures seat := session.packsBySeat.getD seat []
  round := session.currentPackNumber

/-- A FIFO session under the default policy: one queue, one pool and one row of
boosters a seat, and no id twice in a pack. -/
structure FifoShape (session : DraftSession) (fifo : FifoDraftState) : Prop where
  there : session.fifo = some fifo
  flow : session.config.flow = .fifoAsync
  pod : session.config.podSize = session.seats.length
  states : fifo.seats.length = session.seats.length
  pools : session.pools.length = session.seats.length
  futures : session.packsBySeat.length = session.seats.length
  policy : session.config.selectionPolicy = {}
  review : session.config.clockPolicy.reviewDurationMs = 0
  named : ∀ state ∈ fifo.seats, ∀ queued ∈ state.queue, (queued.pack.map (·.instanceId)).Nodup
  unopened : ∀ future ∈ session.packsBySeat, ∀ pack ∈ future, (pack.map (·.instanceId)).Nodup

/-- Between two selections the draft runs, or it is over and no pack is left. -/
structure FifoSeated (session : DraftSession) (fifo : FifoDraftState) : Prop
    extends FifoShape session fifo where
  phase : (session.status = .drafting ∧
      session.passDirection = PassDirection.forPack session.currentPackNumber) ∨
    (session.status = .deckbuilding ∧ ∀ state ∈ fifo.seats, state.queue = [])

section
variable {session : DraftSession} {fifo : FifoDraftState} {seat : Nat} {state : FifoSeatState}
  {head : QueuedDraftPack} {ids : List String}

/-- Under the default policy nothing is thrown away. -/
theorem discardRemainder_zero (remainder : DraftPack) :
    (discardRemainder 0 remainder).1 = remainder := by
  unfold discardRemainder
  split
  · next empty => exact (length_eq_zero_iff.mp (Nat.le_zero.mp empty)).symm
  · rfl

theorem takes_of_admitted (admitted : Admitted session fifo seat state head ids [] []) :
    Takes head.pack ids (takeByIds head.pack ids).1 (takeByIds head.pack ids).2 :=
  takeByIds_takes (by simpa using admitted.distinct) fun id mem =>
    (admitted.present id (mem_append_left [] mem)).2

theorem takeByIds_of_admitted (seated : FifoShape session fifo)
    (admitted : Admitted session fifo seat state head ids [] []) :
    takeByIds head.pack ids = splitNamed head.pack ids := by
  obtain ⟨rest, front⟩ := admitted.front
  have member : state ∈ fifo.seats := mem_of_getElem? admitted.seated
  exact (takes_of_admitted admitted).eq_splitNamed
    (seated.named state member head (front ▸ mem_cons_self))

theorem fifoTable_moved {rules : TableRules DraftCardInstance} (seated : FifoShape session fifo)
    (admitted : Admitted session fifo seat state head ids [] [])
    (next : rules.next session.currentPackNumber seat =
      session.passDirection.nextSeat seat session.config.podSize) :
    ∃ fifo', (moved session fifo seat state head ids [] []).fifo = some fifo' ∧
      fifo'.seats.length = fifo.seats.length ∧
      fifoTable (moved session fifo seat state head ids [] []) fifo' =
        draftAt rules (fifoTable session fifo) seat (splitNamed head.pack ids).1
          (splitNamed head.pack ids).2 := by
  have split := takeByIds_of_admitted seated admitted
  have inside : seat < fifo.seats.length := seated.states ▸ admitted.bound
  have here : fifo.seats[seat] = state :=
    some.inj ((getElem?_eq_getElem inside).symm.trans admitted.seated)
  have ownPool : seat < session.pools.length := seated.pools ▸ admitted.bound
  have recipientBound : session.passDirection.nextSeat seat session.config.podSize <
      fifo.seats.length := by
    rw [seated.states, ← seated.pod]
    exact nextSeat_lt _ _ (by rw [seated.pod]; exact Nat.zero_lt_of_lt admitted.bound)
  refine ⟨_, rfl, ?_, ?_⟩
  · split <;> simp
  · refine Table.ext (funext fun k => ?_) (funext fun k => ?_) rfl rfl
    · have threshold : session.config.selectionPolicy.discardThreshold = 0 := by
        rw [seated.policy]
      simp only [fifoTable, moved, draftAt, handed, next, takeByIds, split,
        List.append_nil, threshold, discardRemainder_zero, List.isEmpty_iff]
      by_cases none_ : (splitNamed head.pack ids).1 = []
      · by_cases own : k = seat
        · subst own
          simp [none_, inside, here, packQueue]
        · simp [none_, own, Ne.symm own]
      · rw [if_neg none_]
        by_cases own : k = seat
        · subst own
          by_cases itself : session.passDirection.nextSeat k session.config.podSize = k
          · simp [itself, none_, inside, here, packQueue]
          · simp [itself, Ne.symm itself, inside, here, packQueue]
        · by_cases given : session.passDirection.nextSeat seat session.config.podSize = k
          · subst given
            simp [none_, own, Ne.symm own, recipientBound, packQueue]
          · simp [given, Ne.symm given, own, Ne.symm own]
    · simp only [fifoTable, moved, draftAt, takeByIds, split, Indexed.getD_set]
      by_cases own : k = seat
      · simp [own, ownPool]
      · simp [own, Ne.symm own]

/-- What a selection leaves in the queues still has distinct ids. -/
theorem named_moved (seated : FifoShape session fifo)
    (admitted : Admitted session fifo seat state head ids [] []) {fifo' : FifoDraftState}
    (there : (moved session fifo seat state head ids [] []).fifo = some fifo') :
    ∀ other ∈ fifo'.seats, ∀ queued ∈ other.queue, (queued.pack.map (·.instanceId)).Nodup := by
  have split := takeByIds_of_admitted seated admitted
  have threshold : session.config.selectionPolicy.discardThreshold = 0 := by
    rw [seated.policy]
  have member : state ∈ fifo.seats := mem_of_getElem? admitted.seated
  obtain ⟨rest, front⟩ := admitted.front
  have left := nodup_splitNamed ids (seated.named state member head (front ▸ mem_cons_self))
  have popped : ∀ other ∈ fifo.seats.set seat { state with
      queue := state.queue.tail, completedSteps := state.completedSteps + 1
      roundCompletedSteps := state.roundCompletedSteps + 1, prompt := none },
      ∀ queued ∈ other.queue, (queued.pack.map (·.instanceId)).Nodup := by
    intro other mem queued inside
    rcases mem_or_eq_of_mem_set mem with before | rfl
    · exact seated.named other before queued inside
    · exact seated.named state member queued (mem_of_mem_tail inside)
  simp only [moved, takeByIds, split, append_nil, threshold, discardRemainder_zero,
    some.injEq] at there
  subst there
  split
  · exact popped
  · intro other mem queued inside
    obtain ⟨i, bound, rfl⟩ := mem_iff_getElem.mp mem
    rw [getElem_modify] at inside
    split at inside
    · rcases mem_append.mp inside with before | new
      · exact popped _ (getElem_mem _) queued before
      · obtain rfl : queued = _ := by simpa using new
        exact left
    · exact popped _ (getElem_mem _) queued inside

end

variable {sessionId : String} {now : Nat} {seats' seats : List FifoSeatState}
  {policy : PickClockPolicy} {session next : DraftSession} {fifo : FifoDraftState}
  {deltas : List DraftDelta}

theorem queues_reconciled (h : reconcileSeats policy sessionId now 0 seats = .ok seats') (k : Nat) :
    ((seats'[k]?).map packQueue).getD [] = ((seats[k]?).map packQueue).getD [] := by
  have queues := congrArg (fun q => (q[k]?).map (map (·.pack))) (reconcileSeats_queues h)
  simp only [getElem?_map, Option.map_map] at queues
  exact congrArg (Option.getD · []) queues

theorem drained_iff {rules : TableRules DraftCardInstance}
    (pod : rules.podSize = fifo.seats.length) :
    Drained rules (fifoTable session fifo) ↔ ∀ state ∈ fifo.seats, state.queue = [] := by
  simp only [Drained, fifoTable]
  constructor
  · intro drained state mem
    obtain ⟨i, bound, rfl⟩ := mem_iff_getElem.mp mem
    simpa [packQueue, getElem?_eq_getElem bound] using drained i (pod ▸ bound)
  · intro empty i bound
    have inside : i < fifo.seats.length := pod ▸ bound
    simp [packQueue, getElem?_eq_getElem inside, empty _ (getElem_mem inside)]

/-- Opening a round puts each seat's next booster into its empty queue. -/
theorem fifoTable_opened {podSize round : Nat}
    {packs : AList fun _ : DraftPackId => DraftPackProvenance}
    {futures futures' : List (List DraftPack)} (same : futures.length = seats.length)
    (empty : ∀ state ∈ seats, state.queue = [])
    (h : openSeats podSize round packs 0 futures seats = .ok (futures', seats')) (k : Nat) :
    ((seats'[k]?).map packQueue).getD [] = (futures.getD k []).head?.toList ∧
      futures'.getD k [] = (futures.getD k []).tail := by
  obtain ⟨lengthF, lengthS, each⟩ := openSeats_ok same h
  by_cases inside : k < futures.length
  · have insideS : k < seats.length := same ▸ inside
    obtain ⟨rest, seat', atF, atS, opened⟩ := each k futures[k] seats[k]
      (getElem?_eq_getElem inside) (getElem?_eq_getElem insideS)
    obtain ⟨pack, original, front, _, rfl⟩ := openSeat_ok opened
    have blank := empty seats[k] (getElem_mem insideS)
    constructor
    · simp [atS, packQueue, blank, getElem?_eq_getElem inside, front]
    · simp [atF, getElem?_eq_getElem inside, front]
  · have outF : futures'.length ≤ k := by omega
    have outS : seats'.length ≤ k := by omega
    simp [getElem?_eq_none outF, getElem?_eq_none outS, getElem?_eq_none (Nat.le_of_not_lt inside)]

/-- The shape survives any change of the prompts. -/
theorem FifoShape.reconciled (shape : FifoShape session fifo)
    (h : reconcileSeats policy sessionId now 0 fifo.seats = .ok seats) :
    FifoShape { session with fifo := some { fifo with seats } } { fifo with seats } where
  there := rfl
  flow := shape.flow
  pod := shape.pod
  states := (reconcileSeats_ok h).1.trans shape.states
  pools := shape.pools
  futures := shape.futures
  policy := shape.policy
  review := shape.review
  named := by
    intro state mem queued inside
    have : state.queue ∈ fifo.seats.map (·.queue) :=
      reconcileSeats_queues h ▸ mem_map_of_mem mem
    obtain ⟨before, member, same⟩ := mem_map.mp this
    exact shape.named before member queued (same ▸ inside)
  unopened := shape.unopened

theorem emptied_reconciled (h : reconcileSeats policy sessionId now 0 seats = .ok seats')
    (empty : ∀ state ∈ seats, state.queue = []) : ∀ state ∈ seats', state.queue = [] := by
  intro state mem
  have : state.queue ∈ seats.map (·.queue) := reconcileSeats_queues h ▸ mem_map_of_mem mem
  obtain ⟨before, member, same⟩ := mem_map.mp this
  rw [← same, empty before member]

theorem openFifoRound_opens {round : Nat} (shape : FifoShape session fifo)
    (empty : ∀ state ∈ fifo.seats, state.queue = [])
    (h : openFifoRound session round now = .ok next) :
    ∃ fifo', FifoSeated next fifo' ∧ next.config = session.config ∧
      next.status = .drafting ∧
      fifoTable next fifo' =
        { fifoTable session fifo with
          queues := fun seat => ((fifoTable session fifo).futures seat).head?.toList
          futures := fun seat => ((fifoTable session fifo).futures seat).tail
          round } := by
  obtain ⟨_, futures, opened, seats, there, openedOk, reconciled, rfl⟩ := openFifoRound_ok h
  obtain rfl : fifo = _ := some.inj (shape.there.symm.trans there)
  have same : session.packsBySeat.length = fifo.seats.length :=
    shape.futures.trans shape.states.symm
  have tables := fifoTable_opened same empty openedOk
  obtain ⟨lengthF, lengthS, each⟩ := openSeats_ok same openedOk
  have length := (reconcileSeats_ok reconciled).1
  refine ⟨_, ⟨⟨rfl, shape.flow, shape.pod, length.trans (lengthS.trans shape.states), shape.pools,
    lengthF.trans shape.futures, shape.policy, shape.review, ?_, ?_⟩, .inl ⟨rfl, rfl⟩⟩,
    rfl, rfl, ?_⟩
  · intro state mem queued inside
    have : state.queue ∈ opened.map (·.queue) :=
      reconcileSeats_queues reconciled ▸ mem_map_of_mem mem
    obtain ⟨before, member, sameQueue⟩ := mem_map.mp this
    obtain ⟨i, bound, rfl⟩ := mem_iff_getElem.mp member
    have insideS : i < fifo.seats.length := lengthS ▸ bound
    have insideF : i < session.packsBySeat.length := same ▸ insideS
    obtain ⟨_, fresh, _, atS, one⟩ := each i _ _ (getElem?_eq_getElem insideF)
      (getElem?_eq_getElem insideS)
    obtain ⟨pack, original, front, _, rfl⟩ := openSeat_ok one
    have here := some.inj ((getElem?_eq_getElem bound).symm.trans atS)
    have blank := empty fifo.seats[i] (getElem_mem insideS)
    rw [← sameQueue, here] at inside
    simp only [blank, nil_append, mem_singleton] at inside
    subst inside
    exact shape.unopened _ (getElem_mem insideF) pack (front ▸ mem_cons_self)
  · intro future mem pack inside
    obtain ⟨i, bound, rfl⟩ := mem_iff_getElem.mp mem
    have insideF : i < session.packsBySeat.length := lengthF ▸ bound
    have tail := (tables i).2
    rw [getD_eq_getElem _ _ bound, getD_eq_getElem _ _ insideF] at tail
    rw [tail] at inside
    exact shape.unopened _ (getElem_mem insideF) pack (mem_of_mem_tail inside)
  · exact Table.ext (funext fun k => (queues_reconciled reconciled k).trans (tables k).1) rfl
      (funext fun k => (tables k).2) rfl

theorem finishFifoRound_settles (choose : Nat → DraftPack → List DraftCardInstance → List String)
    (shape : FifoShape session fifo) (drafting : session.status = .drafting)
    (direction : session.passDirection = PassDirection.forPack session.currentPackNumber)
    (h : finishFifoRound session now = .ok (next, deltas)) :
    ∃ fifo', FifoSeated next fifo' ∧ next.config = session.config ∧
      fifoTable next fifo' =
        settle (draftRules session.config.podSize session.config.packCount choose)
          (fifoTable session fifo) := by
  have pod : (draftRules session.config.podSize session.config.packCount choose).podSize =
      fifo.seats.length := shape.pod.trans shape.states.symm
  obtain ⟨_, seats, there, reconciled, outcome⟩ := finishFifoRound_ok h
  obtain rfl : fifo = _ := some.inj (shape.there.symm.trans there)
  have shape' := shape.reconciled reconciled
  have queues := funext (queues_reconciled reconciled)
  rcases outcome with ⟨waiting, rfl⟩ | ⟨empty, last, rfl⟩ | ⟨empty, more, _, opened⟩ |
    ⟨_, _, review, _⟩
  · refine ⟨_, ⟨shape', .inl ⟨drafting, direction⟩⟩, rfl, ?_⟩
    rw [settle_of_undrained]
    · exact Table.ext queues rfl rfl rfl
    · rw [drained_iff pod]
      obtain ⟨state, mem, nonempty⟩ := waiting
      exact fun empty => nonempty (empty state mem)
  · refine ⟨_, ⟨⟨rfl, shape'.flow, shape'.pod, shape'.states, shape'.pools, shape'.futures,
      shape'.policy, shape'.review, shape'.named, shape'.unopened⟩,
      .inr ⟨rfl, emptied_reconciled reconciled empty⟩⟩, rfl, ?_⟩
    rw [settle_of_last ((drained_iff pod).mpr empty) last]
    exact Table.ext queues rfl rfl rfl
  · obtain ⟨fifo', seated, config, _, table⟩ :=
      openFifoRound_opens shape' (emptied_reconciled reconciled empty) opened
    refine ⟨fifo', seated, config, ?_⟩
    rw [table, settle_of_more ((drained_iff pod).mpr empty) more]
    rfl
  · exact absurd shape.review review

/-- An accepted selection of what `choose` says is a step of the table. -/
theorem select_steps {rules : EventRules}
    {source : Option (Except DraftError (List (List DraftPack)))} {seat nowMs : Nat}
    {promptId : DraftPromptId} {pack : DraftPack}
    {choose : Nat → DraftPack → List DraftCardInstance → List String}
    (seated : FifoSeated session fifo) (front : session.headPack seat = some pack)
    (h : applyAt rules source session
      (.select seat promptId (choose seat pack (session.pools.getD seat [])) [] []) nowMs =
        .ok (next, deltas)) :
    ∃ fifo', FifoSeated next fifo' ∧ next.config = session.config ∧
      step (draftRules session.config.podSize session.config.packCount choose) seat
        (fifoTable session fifo) = some (fifoTable next fifo') := by
  obtain ⟨_, candidate, there, _, reduced, committed⟩ := applyAt_ok h
  obtain rfl : fifo = _ := some.inj (seated.there.symm.trans there)
  let staged : DraftSession :=
    { session with fifo := some { fifo with lastNowMs := max nowMs fifo.lastNowMs } }
  let clocked : FifoDraftState := { fifo with lastNowMs := max nowMs fifo.lastNowMs }
  have shape : FifoShape staged clocked := ⟨rfl, seated.flow, seated.pod, seated.states,
    seated.pools, seated.futures, seated.policy, seated.review, seated.named, seated.unopened⟩
  obtain ⟨_, state, head, more, admitted, _, finished⟩ := selectFifo_ok shape.flow reduced
  obtain rfl : clocked = _ := some.inj admitted.there
  have direction : session.passDirection = PassDirection.forPack session.currentPackNumber := by
    rcases seated.phase with ⟨_, direction⟩ | ⟨done, _⟩
    · exact direction
    · have drafting : session.status = .drafting := admitted.drafting
      rw [drafting] at done
      cases done
  obtain ⟨fifo', there', length, table⟩ := @fifoTable_moved staged clocked seat state head _
    (draftRules session.config.podSize session.config.packCount choose) shape admitted
    (congrArg (fun d => PassDirection.nextSeat d seat session.config.podSize) direction.symm)
  have shape' : FifoShape (moved staged clocked seat state head
      (choose seat pack (session.pools.getD seat [])) [] []) fifo' :=
    ⟨there', seated.flow, seated.pod, length.trans seated.states,
      by simpa [moved] using seated.pools, seated.futures, seated.policy, seated.review,
      named_moved shape admitted there', seated.unopened⟩
  obtain ⟨final, seated', config, settled⟩ :=
    finishFifoRound_settles choose shape' admitted.drafting direction finished
  obtain ⟨rest, queue⟩ := admitted.front
  have seatedAt : fifo.seats[seat]? = some state := admitted.seated
  have opened : pack = head.pack := some.inj
    (front.symm.trans (headPack_of_fifo seated.flow seated.there seatedAt queue))
  have stepped : step (draftRules session.config.podSize session.config.packCount choose)
      seat (fifoTable session fifo) = some (fifoTable candidate final) := by
    rw [step_eq_some]
    refine ⟨by rw [seated.pod]; exact admitted.bound, head.pack, rest.map (·.pack), ?_, ?_⟩
    · simp [fifoTable, seatedAt, packQueue, queue]
    · rw [settled, table, opened]
      rfl
  rcases committed with ⟨rfl, rfl⟩ | ⟨final', thereFinal, _, rfl, _⟩
  · exact ⟨final, seated', config, stepped⟩
  · obtain rfl : final = final' := some.inj (seated'.there.symm.trans thereFinal)
    refine ⟨_, ⟨⟨rfl, seated'.flow, seated'.pod, seated'.states, seated'.pools, seated'.futures,
      seated'.policy, seated'.review, seated'.named, seated'.unopened⟩, seated'.phase⟩,
      config, stepped⟩

end Phase.Draft
