import Phase.Draft.FifoApply
import Phase.Draft.Taking
import Phase.Lib.Fallible

/-! What each FIFO operation has done when it succeeds. -/
namespace Phase.Draft
open Fallible List

variable {session next : DraftSession} {fifo fifo' : FifoDraftState}
  {now index podSize round seat : Nat} {policy : PickClockPolicy} {seat' state : FifoSeatState}
  {sessionId : String} {seats' seats : List FifoSeatState}
  {packs : AList fun _ : DraftPackId => DraftPackProvenance} {deltas : List DraftDelta}
  {effects selected picked burned : List String} {role : DraftSelectionRole}
  {requirements : DraftSelectionRequirements} {head : QueuedDraftPack} {timing : SelectionTiming}
  {source : Option (Except DraftError (List (List DraftPack)))}

theorem fifoRef_ok : session.fifoRef = .ok fifo ↔ session.fifo = some fifo := by
  unfold DraftSession.fifoRef
  cases session.fifo <;> simp

theorem fifoRef_of (h : session.fifo = some fifo) : session.fifoRef = .ok fifo := fifoRef_ok.mpr h

theorem increment_ok {value next : Nat} :
    increment value = .ok next ↔ value + 1 ≤ maxDraftJsonInteger ∧ next = value + 1 := by
  unfold increment
  split <;> simp_all [eq_comm]

section
variable {seat : FifoSeatState} (h : reconcileSeat policy sessionId now index seat = .ok seat')
include h

/-- A seat after its prompt has been reconciled: no prompt without a pack, the old
prompt while its pack is in front, a new one otherwise. -/
theorem reconcileSeat_ok : (seat.queue = [] ∧ seat' = { seat with prompt := none }) ∨
    (∃ head rest prompt, seat.queue = head :: rest ∧ seat.prompt = some prompt ∧
      prompt.packId = head.packId ∧ seat' = seat) ∨
    (∃ head rest clock, seat.queue = head :: rest ∧
      seat.generation + 1 ≤ maxDraftJsonInteger ∧
      (∀ prompt, seat.prompt = some prompt → prompt.packId ≠ head.packId) ∧
      promptClock policy ⟨sessionId, index, seat.generation + 1⟩ seat.roundCompletedSteps now =
        .ok clock ∧
      seat' = { seat with
        generation := seat.generation + 1
        prompt := some ⟨⟨sessionId, index, seat.generation + 1⟩, head.packId, clock⟩ }) := by
  unfold reconcileSeat at h
  split at h
  · next empty => exact .inl ⟨empty, (Except.ok.inj h).symm⟩
  · next head rest front =>
    split at h
    · next current =>
      obtain ⟨prompt, there, same⟩ := (Option.any_eq_true _ _).mp current
      exact .inr (.inl ⟨head, rest, prompt, front, there, by simpa using same,
        (Except.ok.inj h).symm⟩)
    · next stale =>
      simp only [bind_eq_ok, increment_ok, pure_eq_ok] at h
      obtain ⟨generation, ⟨bound, rfl⟩, clock, clocked, rfl⟩ := h
      refine .inr (.inr ⟨head, rest, clock, front, bound, ?_, clocked, rfl⟩)
      intro prompt there same
      exact stale (by simp [there, same])

theorem reconcileSeat_queue : seat'.queue = seat.queue := by
  rcases reconcileSeat_ok h with ⟨_, rfl⟩ | ⟨_, _, _, _, _, _, rfl⟩ | ⟨_, _, _, _, _, _, _, rfl⟩ <;>
    rfl

end

theorem reconcileSeats_ok (h : reconcileSeats policy sessionId now index seats = .ok seats') :
    seats'.length = seats.length ∧ ∀ i seat, seats[i]? = some seat → ∃ seat',
      seats'[i]? = some seat' ∧
        reconcileSeat policy sessionId now (index + i) seat = .ok seat' := by
  induction seats generalizing index seats' with
  | nil =>
    obtain rfl := Except.ok.inj h
    simp
  | cons seat seats ih =>
    simp only [reconcileSeats, bind_eq_ok, pure_eq_ok] at h
    obtain ⟨head, first, tail, rest, rfl⟩ := h
    obtain ⟨length, each⟩ := ih rest
    refine ⟨by simp [length], ?_⟩
    intro i found there
    cases i with
    | zero =>
      obtain rfl : seat = found := by simpa using there
      exact ⟨head, by simp, first⟩
    | succ i =>
      obtain ⟨seat', there', done⟩ := each i found (by simpa using there)
      exact ⟨seat', by simpa using there', by rw [← done]; congr 1; omega⟩

theorem reconcileSeats_queues (h : reconcileSeats policy sessionId now index seats = .ok seats') :
    seats'.map (·.queue) = seats.map (·.queue) := by
  obtain ⟨length, each⟩ := reconcileSeats_ok h
  refine ext_getElem? fun i => ?_
  rw [getElem?_map, getElem?_map]
  cases there : seats[i]? with
  | none =>
    have : seats'[i]? = none := by
      rw [getElem?_eq_none_iff] at there ⊢
      omega
    rw [this]
  | some seat =>
    obtain ⟨seat', there', done⟩ := each i seat there
    rw [there']
    exact congrArg some (reconcileSeat_queue done)

theorem reconcilePrompts_ok (h : reconcilePrompts session now = .ok next) :
    ∃ fifo seats, session.fifo = some fifo ∧
      reconcileSeats session.config.clockPolicy.pick fifo.sessionId now 0 fifo.seats =
        .ok seats ∧ next = { session with fifo := some { fifo with seats } } := by
  simp only [reconcilePrompts, bind_eq_ok, fifoRef_ok, pure_eq_ok] at h
  obtain ⟨fifo, there, seats, reconciled, rfl⟩ := h
  exact ⟨fifo, seats, there, reconciled, rfl⟩

theorem openSeat_ok {future rest : List DraftPack} {seat : FifoSeatState}
    (h : openSeat podSize round index packs future seat = .ok (rest, seat')) :
    ∃ pack original, future = pack :: rest ∧
      packs.lookup (coordinate podSize round index) = some original ∧
      seat' = { seat with
        roundCompletedSteps := 0
        queue := seat.queue ++ [⟨coordinate podSize round index, original.openingSeat, round,
          original.originalSize, pack⟩] } := by
  unfold openSeat at h
  split at h
  · cases h
  · next pack rest' =>
    dsimp only at h
    split at h
    · cases h
    · next original found =>
      obtain ⟨rfl, rfl⟩ := Prod.mk.inj (Except.ok.inj h)
      exact ⟨pack, original, rfl, found, rfl⟩

theorem openSeats_ok {futures futures' : List (List DraftPack)}
    (same : futures.length = seats.length)
    (h : openSeats podSize round packs index futures seats = .ok (futures', seats')) :
    futures'.length = futures.length ∧ seats'.length = seats.length ∧
      ∀ i future seat, futures[i]? = some future → seats[i]? = some seat →
        ∃ rest seat', futures'[i]? = some rest ∧ seats'[i]? = some seat' ∧
          openSeat podSize round (index + i) packs future seat = .ok (rest, seat') := by
  induction futures generalizing index seats futures' seats' with
  | nil =>
    obtain ⟨rfl, rfl⟩ := h
    simp
  | cons future futures ih =>
    cases seats with
    | nil => simp at same
    | cons seat seats =>
      simp only [openSeats, bind_eq_ok, pure_eq_ok, Prod.exists, Prod.mk.injEq] at h
      obtain ⟨rest, opened, first, futures'', seats'', others, rfl, rfl⟩ := h
      obtain ⟨lengthF, lengthS, each⟩ := ih (by simpa using same) others
      refine ⟨by simp [lengthF], by simp [lengthS], ?_⟩
      intro i f s atF atS
      cases i with
      | zero =>
        obtain rfl : future = f := by simpa using atF
        obtain rfl : seat = s := by simpa using atS
        exact ⟨rest, opened, by simp, by simp, first⟩
      | succ i =>
        obtain ⟨rest', seat', atF', atS', done⟩ :=
          each i f s (by simpa using atF) (by simpa using atS)
        exact ⟨rest', seat', by simpa using atF', by simpa using atS', by
          rw [← done]; congr 1; omega⟩

theorem openFifoRound_ok (h : openFifoRound session round now = .ok next) :
    ∃ fifo futures opened seats, session.fifo = some fifo ∧
      openSeats session.config.podSize round fifo.packs 0 session.packsBySeat fifo.seats =
        .ok (futures, opened) ∧
      reconcileSeats session.config.clockPolicy.pick fifo.sessionId now 0 opened = .ok seats ∧
      next = { session with
        currentPackNumber := round
        passDirection := PassDirection.forPack round
        status := .drafting
        packsBySeat := futures
        fifo := some { fifo with review := none, seats } } := by
  simp only [openFifoRound, bind_eq_ok, fifoRef_ok, Prod.exists] at h
  obtain ⟨fifo, there, futures, opened, openedOk, reconciled⟩ := h
  obtain ⟨_, seats, same, done, rfl⟩ := reconcilePrompts_ok reconciled
  obtain rfl := Option.some.inj same
  exact ⟨fifo, futures, opened, seats, there, openedOk, done, rfl⟩

/-- The four ways a round goes on after a selection. -/
theorem finishFifoRound_ok (h : finishFifoRound session now = .ok (next, deltas)) :
    ∃ fifo seats, session.fifo = some fifo ∧
      reconcileSeats session.config.clockPolicy.pick fifo.sessionId now 0 fifo.seats =
        .ok seats ∧
      let reconciled : DraftSession := { session with fifo := some { fifo with seats } }
      (((∃ seat ∈ fifo.seats, seat.queue ≠ []) ∧ next = reconciled) ∨
        ((∀ seat ∈ fifo.seats, seat.queue = []) ∧
          session.currentPackNumber + 1 = session.config.packCount ∧
          next = { reconciled with
            currentPackNumber := session.currentPackNumber + 1, status := .deckbuilding }) ∨
        ((∀ seat ∈ fifo.seats, seat.queue = []) ∧
          session.currentPackNumber + 1 ≠ session.config.packCount ∧
          session.config.clockPolicy.reviewDurationMs = 0 ∧
          openFifoRound reconciled (session.currentPackNumber + 1) now = .ok next) ∨
        ((∀ seat ∈ fifo.seats, seat.queue = []) ∧
          session.currentPackNumber + 1 ≠ session.config.packCount ∧
          session.config.clockPolicy.reviewDurationMs ≠ 0 ∧
          ∃ clock, running (.review (session.currentPackNumber + 1)) now
              session.config.clockPolicy.reviewDurationMs = .ok clock ∧
            next = { reconciled with
              status := .review
              fifo := some { fifo with
                seats
                review := some ⟨session.currentPackNumber, session.currentPackNumber + 1,
                  clock⟩ } })) := by
  simp only [finishFifoRound, bind_eq_ok, fifoRef_ok] at h
  obtain ⟨fifo, there, reconciled, done, h⟩ := h
  obtain ⟨_, seats, same, seatsOk, rfl⟩ := reconcilePrompts_ok done
  obtain rfl : fifo = _ := Option.some.inj (there.symm.trans same)
  refine ⟨fifo, seats, there, seatsOk, ?_⟩
  split at h
  · next waiting =>
    refine .inl ⟨?_, (congrArg Prod.fst (pure_eq_ok.mp h)).symm⟩
    simpa using waiting
  · next drained =>
    have empty : ∀ seat ∈ fifo.seats, seat.queue = [] := by simpa using drained
    rw [guard_eq_ok] at h
    obtain ⟨_, h⟩ := h
    split at h
    · next last => exact .inr (.inl ⟨empty, last, (congrArg Prod.fst (pure_eq_ok.mp h)).symm⟩)
    · next more =>
      split at h
      · next immediate =>
        simp only [bind_eq_ok, pure_eq_ok, Prod.mk.injEq] at h
        obtain ⟨opened, openedOk, rfl, _⟩ := h
        exact .inr (.inr (.inl ⟨empty, more, immediate, openedOk⟩))
      · next review =>
        simp only [bind_eq_ok, fifoRef_ok, pure_eq_ok, Prod.mk.injEq, Option.some.injEq] at h
        obtain ⟨clock, clocked, _, rfl, rfl, _⟩ := h
        exact .inr (.inr (.inr ⟨empty, more, review, clock, clocked, rfl⟩))

theorem checkIds_ok {ids out : List String} {head : DraftPack}
    (h : checkIds role effects head selected ids = .ok out) :
    out = selected ++ ids ∧ (selected.Nodup → out.Nodup) ∧
      ∀ id ∈ ids, id ∉ effects ∧ ∃ card ∈ head, card.instanceId = id := by
  induction ids generalizing selected with
  | nil =>
    obtain rfl := Except.ok.inj h
    simp
  | cons id ids ih =>
    simp only [checkIds, ite_error_eq_ok] at h
    obtain ⟨fresh, valid, rest⟩ := h
    obtain ⟨rfl, distinct, present⟩ := ih rest
    simp only [Bool.or_eq_true, decide_eq_true_eq, Bool.not_eq_true', not_or,
      Bool.not_eq_false, any_eq_true] at valid
    refine ⟨by simp, fun before => distinct ?_, ?_⟩
    · rw [nodup_append]
      exact ⟨before, by simp, by grind⟩
    · intro other mem
      rcases mem_cons.mp mem with rfl | later
      · exact valid
      · exact present other later

theorem checkRole_ok {ids out : List String} {head : DraftPack} {expected : Nat}
    (h : checkRole role effects head ids expected selected = .ok out) :
    ids.length = expected ∧ out = selected ++ ids ∧ (selected.Nodup → out.Nodup) ∧
      ∀ id ∈ ids, id ∉ effects ∧ ∃ card ∈ head, card.instanceId = id := by
  simp only [checkRole, ite_error_eq_ok, ne_eq, Decidable.not_not] at h
  exact ⟨h.1, checkIds_ok h.2⟩

theorem checkEffects_ok {pool : List DraftCardInstance} {seen : List String}
    (h : checkEffects pool seen effects = .ok ()) :
    (seen.Nodup → (seen ++ effects).Nodup) ∧
      ∀ id ∈ effects, ∃ card ∈ pool, isEffectCard id card = true := by
  induction effects generalizing seen with
  | nil => simp
  | cons id effects ih =>
    simp only [checkEffects, ite_error_eq_ok, Bool.not_eq_true', Bool.not_eq_false,
      any_eq_true] at h
    obtain ⟨fresh, there, rest⟩ := h
    obtain ⟨distinct, present⟩ := ih rest
    refine ⟨fun before => ?_, ?_⟩
    · have := distinct (by rw [nodup_append]; exact ⟨before, by simp, by grind⟩)
      simpa using this
    · intro other mem
      rcases mem_cons.mp mem with rfl | later
      · exact there
      · exact present other later

theorem selectionRequirements_ok
    (h : selectionRequirements session seat effects = .ok requirements) :
    ∃ head, session.headPack seat = some head ∧
      checkEffects (session.pools.getD seat []) [] effects = .ok () ∧
      requirements.burns =
        min session.config.selectionPolicy.burnsPerPick (head.length - requirements.picks) ∧
      ((effects = [] ∧ requirements.picks = session.requiredPickCount seat) ∨
        (effects ≠ [] ∧
          requirements.picks = session.kind.procedure.cardsPerPick + effects.length ∧
          requirements.picks ≤ head.length)) := by
  unfold selectionRequirements at h
  split at h
  · cases h
  · next head front =>
    rw [bind_eq_ok] at h
    obtain ⟨_, checked, h⟩ := h
    refine ⟨head, front, checked, ?_⟩
    split at h
    · next none_ =>
      simp only [bind_eq_ok, pure_eq_ok, exists_eq_left'] at h
      obtain rfl := h
      exact ⟨rfl, .inl ⟨by simpa using none_, rfl⟩⟩
    · next some_ =>
      simp only [guard_eq_ok, bind_eq_ok, pure_eq_ok, exists_eq_left'] at h
      obtain ⟨enough, rfl⟩ := h
      exact ⟨rfl, .inr ⟨by simpa using some_, rfl, by simpa using enough⟩⟩

/-- Everything an accepted selection has passed before a card moves. -/
structure Admitted (session : DraftSession) (fifo : FifoDraftState) (seat : Nat)
    (state : FifoSeatState) (head : QueuedDraftPack) (picked burned effects : List String) :
    Prop where
  there : session.fifo = some fifo
  drafting : session.status = .drafting
  bound : seat < session.seats.length
  seated : fifo.seats[seat]? = some state
  front : ∃ rest, state.queue = head :: rest
  prompted : ∃ prompt, state.prompt = some prompt ∧ prompt.packId = head.packId
  opened : session.headPack seat = some head.pack
  distinct : (picked ++ burned).Nodup
  present : ∀ id ∈ picked ++ burned, id ∉ effects ∧ ∃ card ∈ head.pack, card.instanceId = id
  effects_distinct : effects.Nodup
  effects_owned : ∀ id ∈ effects, ∃ card ∈ session.pools.getD seat [], isEffectCard id card = true
  picks : (effects = [] ∧ picked.length = session.requiredPickCount seat) ∨
    (effects ≠ [] ∧ picked.length = session.kind.procedure.cardsPerPick + effects.length ∧
      picked.length ≤ head.pack.length)
  burns : burned.length =
    min session.config.selectionPolicy.burnsPerPick (head.pack.length - picked.length)

/-- The session once the cards of an admitted selection have moved. -/
def moved (session : DraftSession) (fifo : FifoDraftState) (seat : Nat) (state : FifoSeatState)
    (head : QueuedDraftPack) (picked burned effects : List String) : DraftSession :=
  let unpicked := (takeByIds head.pack picked).1
  let unburned := (takeByIds unpicked burned).1
  let pool := takeByIds (session.pools.getD seat []) effects
  let remainder := discardRemainder session.config.selectionPolicy.discardThreshold
    (unburned ++ pool.2)
  let seats := fifo.seats.set seat { state with
    queue := state.queue.tail
    completedSteps := state.completedSteps + 1
    roundCompletedSteps := state.roundCompletedSteps + 1
    prompt := none }
  { session with
    pools := session.pools.set seat (pool.1 ++ (takeByIds head.pack picked).2)
    fifo := some { fifo with
      seats := if remainder.1.isEmpty then seats
        else seats.modify (session.passDirection.nextSeat seat session.config.podSize)
          fun next => { next with queue := next.queue ++ [{ head with pack := remainder.1 }] }
      removed := fifo.removed ++ removals .burn head.packId burned ++
        removals .threshold head.packId remainder.2
      returnedEffects := eraseEach (insertEach (eraseEach fifo.returnedEffects (picked ++ burned))
        head.packId effects) remainder.2 } }

theorem moveSelection_ok {discarded : List String} {passed : Bool}
    (h : moveSelection session fifo seat state head picked burned effects =
      .ok (next, discarded, passed)) :
    state.completedSteps + 1 ≤ maxDraftJsonInteger ∧
      next = moved session fifo seat state head picked burned effects := by
  simp only [moveSelection, bind_eq_ok, increment_ok, pure_eq_ok, Prod.mk.injEq] at h
  obtain ⟨_, ⟨bound, rfl⟩, _, ⟨_, rfl⟩, rfl, _⟩ := h
  exact ⟨bound, rfl⟩

theorem headPack_of_fifo {rest : List QueuedDraftPack} (flow : session.config.flow = .fifoAsync)
    (there : session.fifo = some fifo) (seated : fifo.seats[seat]? = some state)
    (front : state.queue = head :: rest) : session.headPack seat = some head.pack := by
  simp [DraftSession.headPack, flow, DraftSession.headMetadata, there, seated, front]

/-- The checks of a selection admit it. -/
theorem admitted_of_checks {promptId : DraftPromptId} {prompt : DraftPrompt} {chosen : List String}
    (flow : session.config.flow = .fifoAsync) (there : session.fifo = some fifo)
    (drafting : session.status = .drafting) (bound : seat < session.seats.length)
    (seated : fifo.seats[seat]? = some state) (front : session.headMetadata seat = some head)
    (prompted : state.prompt = some prompt)
    (checked : checkPrompt fifo seat promptId head prompt timing = .ok ())
    (required : selectionRequirements session seat effects = .ok requirements)
    (picks : checkRole .pick effects head.pack picked requirements.picks [] = .ok selected)
    (burns : checkRole .burn effects head.pack burned requirements.burns selected = .ok chosen) :
    Admitted session fifo seat state head picked burned effects := by
  obtain ⟨rest, queue⟩ : ∃ rest, state.queue = head :: rest := by
    refine head?_eq_some_iff.mp ?_
    simpa [DraftSession.headMetadata, there, seated] using front
  have opened := headPack_of_fifo flow there seated queue
  obtain ⟨head', front', effectsOk, burnCount, pickCount⟩ := selectionRequirements_ok required
  obtain rfl : head' = head.pack := Option.some.inj (front'.symm.trans opened)
  obtain ⟨pickLength, rfl, pickDistinct, pickPresent⟩ := checkRole_ok picks
  obtain ⟨burnLength, rfl, burnDistinct, burnPresent⟩ := checkRole_ok burns
  obtain ⟨effectsDistinct, effectsOwned⟩ := checkEffects_ok effectsOk
  have samePack : prompt.packId = head.packId := by
    simp only [checkPrompt, guard_eq_ok] at checked
    have := checked.1
    simp only [not_or, ne_eq, Decidable.not_not] at this
    exact this.2.1
  refine ⟨there, drafting, bound, seated, ⟨rest, queue⟩, ⟨prompt, prompted, samePack⟩, opened, ?_,
    ?_, ?_, effectsOwned, ?_, ?_⟩
  · simpa using burnDistinct (pickDistinct nodup_nil)
  · intro id mem
    rcases mem_append.mp mem with inPicks | inBurns
    · exact pickPresent id inPicks
    · exact burnPresent id inBurns
  · simpa using effectsDistinct nodup_nil
  · rw [pickLength]
    exact pickCount
  · rw [burnLength, burnCount, pickLength]

theorem selectFifo_ok {promptId : DraftPromptId} (flow : session.config.flow = .fifoAsync)
    (h : selectFifo session seat promptId picked burned effects timing = .ok (next, deltas)) :
    ∃ fifo state head more, Admitted session fifo seat state head picked burned effects ∧
      state.completedSteps + 1 ≤ maxDraftJsonInteger ∧
      finishFifoRound (moved session fifo seat state head picked burned effects)
        fifo.lastNowMs = .ok (next, more) := by
  simp only [selectFifo, guard_eq_ok, bind_eq_ok, fifoRef_ok] at h
  obtain ⟨drafting, bound, fifo, there, h⟩ := h
  split at h
  · next state head seated front =>
    split at h
    · cases h
    · next prompt prompted =>
      simp only [bind_eq_ok, Prod.exists] at h
      obtain ⟨_, checked, requirements, required, selected, picks, _, burns, next', discarded,
        passed, movedOk, _, _, finished, h⟩ := h
      have admitted := admitted_of_checks flow there (by simpa using drafting) (by omega) seated
        front prompted checked required picks burns
      obtain ⟨steps, rfl⟩ := moveSelection_ok movedOk
      simp only [finishFifoPick, bind_eq_ok, fifoRef_ok, Prod.exists, pure_eq_ok,
        Prod.mk.injEq] at finished h
      obtain ⟨_, same, _, more, done, rfl, _⟩ := finished
      obtain ⟨rfl, _⟩ := h
      obtain rfl := Option.some.inj same
      exact ⟨fifo, state, head, more, admitted, steps, done⟩
  · cases h

theorem registerCards_ok {packId : DraftPackId} {pack : DraftPack}
    {cards cards' : AList fun _ : String => DraftCardProvenance}
    (h : registerCards packId pack cards = .ok cards') :
    (∀ card ∈ pack, validDraftId card.instanceId = true ∧ cards.lookup card.instanceId = none) ∧
      (pack.map (·.instanceId)).Nodup ∧
      (∀ card ∈ pack, cards'.lookup card.instanceId = some ⟨packId, card⟩) ∧
      (∀ id, id ∉ pack.map (·.instanceId) → cards'.lookup id = cards.lookup id) ∧
      cards'.entries.length = cards.entries.length + pack.length := by
  induction pack generalizing cards with
  | nil =>
    obtain rfl := Except.ok.inj h
    simp
  | cons card pack ih =>
    simp only [registerCards, ite_error_eq_ok, Bool.or_eq_true, Bool.not_eq_true', not_or,
      Bool.not_eq_false, Option.not_isSome_iff_eq_none] at h
    obtain ⟨⟨valid, fresh⟩, rest⟩ := h
    obtain ⟨others, distinct, found, kept, size⟩ := ih rest
    have apart : ∀ other ∈ pack, other.instanceId ≠ card.instanceId := by
      intro other mem same
      have := (others other mem).2
      rw [same, AList.lookup_insert] at this
      cases this
    refine ⟨?_, ?_, ?_, ?_, ?_⟩
    · intro other mem
      rcases mem_cons.mp mem with rfl | later
      · exact ⟨valid, fresh⟩
      · obtain ⟨valid', fresh'⟩ := others other later
        rw [AList.lookup_insert_ne (apart other later)] at fresh'
        exact ⟨valid', fresh'⟩
    · rw [map_cons, nodup_cons]
      refine ⟨fun mem => ?_, distinct⟩
      obtain ⟨other, later, same⟩ := mem_map.mp mem
      exact apart other later same
    · intro other mem
      rcases mem_cons.mp mem with rfl | later
      · rw [kept other.instanceId, AList.lookup_insert]
        rintro mem'
        obtain ⟨other', later, same⟩ := mem_map.mp mem'
        exact apart other' later same
      · exact found other later
    · intro id absent
      simp only [map_cons, mem_cons, not_or] at absent
      rw [kept id absent.2, AList.lookup_insert_ne absent.1]
    · have unregistered : card.instanceId ∉ cards := AList.lookup_eq_none.mp fresh
      rw [size, AList.entries_insert_of_notMem unregistered]
      simp only [length_cons]
      omega

theorem registerRow_ok {row : List DraftPack}
    (h : registerRow podSize seat round row fifo = .ok fifo') :
    fifo'.seats = fifo.seats ∧ ∀ pack ∈ row, pack ≠ [] ∧ (pack.map (·.instanceId)).Nodup := by
  induction row generalizing round fifo with
  | nil =>
    obtain rfl := Except.ok.inj h
    simp
  | cons pack row ih =>
    simp only [registerRow, ite_error_eq_ok, bind_eq_ok, not_or] at h
    obtain ⟨⟨nonempty, _⟩, cards, registered, rest⟩ := h
    obtain ⟨seats, others⟩ := ih rest
    refine ⟨seats, ?_⟩
    intro other mem
    rcases mem_cons.mp mem with rfl | later
    · exact ⟨by simpa using nonempty, (registerCards_ok registered).2.1⟩
    · exact others other later

theorem registerPacks_ok {rows : List (List DraftPack)}
    (h : registerPacks podSize seat rows fifo = .ok fifo') :
    fifo'.seats = fifo.seats ∧
      ∀ row ∈ rows, ∀ pack ∈ row, pack ≠ [] ∧ (pack.map (·.instanceId)).Nodup := by
  induction rows generalizing seat fifo with
  | nil =>
    obtain rfl := Except.ok.inj h
    simp
  | cons row rows ih =>
    simp only [registerPacks, bind_eq_ok] at h
    obtain ⟨middle, first, rest⟩ := h
    obtain ⟨seats, own⟩ := registerRow_ok first
    obtain ⟨seats', others⟩ := ih rest
    refine ⟨seats'.trans seats, ?_⟩
    intro other mem
    rcases mem_cons.mp mem with rfl | later
    · exact own
    · exact others other later

/-- The session with its packs registered and dealt, none opened yet. -/
def dealtFifo (session : DraftSession) (fifo : FifoDraftState) (packs : List (List DraftPack)) :
    DraftSession :=
  { session with
    packSizes := (packs.headD []).map length
    packsBySeat := packs
    fifo := some fifo }

theorem startFifo_ok (h : startFifo session source now = .ok (next, deltas)) :
    ∃ packs fifo fifo', source = some (.ok packs) ∧ session.status = .lobby ∧
      validateFifoConfig session.config session.seats.length .configuration = .ok () ∧
      packs.length = session.seats.length ∧
      (∀ row ∈ packs, row.length = session.config.packCount) ∧
      session.fifo = some fifo ∧
      registerPacks session.seats.length 0 packs fifo = .ok fifo' ∧
      ((session.kind.procedure.distribution = .allAtOnce ∧
          next = { dealtFifo session fifo' packs with
            pools := packs.map flatten
            packsBySeat := packs.map fun _ => []
            currentPackNumber := session.config.packCount
            status := .deckbuilding }) ∨
        (session.kind.procedure.distribution = .pickAndPass ∧
          openFifoRound (dealtFifo session fifo' packs) 0 now = .ok next)) := by
  simp only [startFifo, guard_eq_ok, bind_eq_ok] at h
  obtain ⟨lobby, _, config, h⟩ := h
  split at h
  · cases h
  · next generated =>
    simp only [bind_eq_ok, guard_eq_ok, fifoRef_ok] at h
    obtain ⟨packs, rfl, dims, fifo, there, fifo', registered, h⟩ := h
    simp only [not_or, ne_eq, Decidable.not_not, any_eq_true, decide_eq_true_eq,
      not_exists, not_and] at dims
    refine ⟨packs, fifo, fifo', rfl, by simpa using lobby, config, dims.1, dims.2, there,
      registered, ?_⟩
    split at h
    · next all => exact .inl ⟨all, (congrArg Prod.fst (pure_eq_ok.mp h)).symm⟩
    · next pass =>
      simp only [bind_eq_ok, pure_eq_ok, Prod.mk.injEq] at h
      obtain ⟨_, opened, rfl, _⟩ := h
      exact .inr ⟨pass, opened⟩
    · cases h

/-- What a committed operation went through. -/
theorem applyAt_ok {rules : EventRules} {action : DraftAction} {nowMs : Nat}
    (h : applyAt rules source session action nowMs = .ok (next, deltas)) :
    ∃ fifo candidate, session.fifo = some fifo ∧ nowMs ≤ maxDraftJsonInteger ∧
      reduceFifo rules source
        { session with fifo := some { fifo with lastNowMs := max nowMs fifo.lastNowMs } }
        (max nowMs fifo.lastNowMs) action = .ok (candidate, deltas) ∧
      ((candidate = session ∧ next = session) ∨
        ∃ fifo', candidate.fifo = some fifo' ∧ fifo'.revision + 1 ≤ maxDraftJsonInteger ∧
          next = { candidate with fifo := some { fifo' with revision := fifo'.revision + 1 } } ∧
          validateFifoSnapshot next = .ok ()) := by
  simp only [applyAt, bind_eq_ok, Prod.exists] at h
  obtain ⟨_, _, now, clamped, staged, stamped, candidate, reduced, done, h⟩ := h
  simp only [clampedNow, guard_eq_ok, bind_eq_ok, fifoRef_ok, pure_eq_ok] at clamped
  obtain ⟨bound, fifo, there, rfl⟩ := clamped
  simp only [stamp, bind_eq_ok, fifoRef_ok, pure_eq_ok] at stamped
  obtain ⟨_, same, rfl⟩ := stamped
  obtain rfl : fifo = _ := Option.some.inj (there.symm.trans same)
  split at h
  · next unchanged =>
    obtain ⟨rfl, rfl⟩ := h
    exact ⟨fifo, candidate, there, by omega, done, .inl ⟨unchanged, rfl⟩⟩
  · simp only [bind_eq_ok, bumpRevision, fifoRef_ok, increment_ok, pure_eq_ok, Prod.mk.injEq] at h
    obtain ⟨committed, ⟨fifo', there', _, ⟨revision, rfl⟩, rfl⟩, _, valid, rfl, rfl⟩ := h
    exact ⟨fifo, candidate, there, by omega, done, .inr ⟨fifo', there', revision, rfl, valid⟩⟩

end Phase.Draft
