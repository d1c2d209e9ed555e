import Phase.Draft.FifoRound

/-! Every operation of the FIFO flow takes valid sessions to valid sessions. -/
namespace Phase.Draft
open Fallible Option

variable {packs : List (List DraftPack)} {session : DraftSession} {fifo : FifoDraftState}

theorem FifoValid.started (valid : FifoValid packs session fifo)
    (status : session.status ≠ .lobby) : Started packs session fifo := by
  rcases valid.state with ⟨lobby, _⟩ | ⟨_, started⟩
  · exact absurd lobby status
  · exact started

theorem FifoValid.midway (valid : FifoValid packs session fifo)
    (drafting : session.status = .drafting) : Midway packs session fifo := by
  have started := valid.started (by rw [drafting]; decide)
  have now : phaseOf session fifo = some .drafting := by rw [phaseOf, drafting]
  have phase := started.phase
  have stock := started.stock
  rw [PhaseOk, now] at phase
  rw [now] at stock
  obtain ⟨passes, round, direction, _, unreviewed⟩ := phase
  exact ⟨valid.toFramed, drafting, round, direction, unreviewed, started.deal, started.registered,
    started.sizes, passes, stock,
    fun index seat there => (started.prompts index seat there).toLoosePrompt⟩

variable {head : QueuedDraftPack} {seat : Nat} {deltas : List DraftDelta} {next : DraftSession}

/-- A seat's prompts after a selection: its own is gone, the others stand. -/
theorem LoosePrompt.passed {policy : PickClockPolicy} {fifo' : FifoDraftState}
    {state : FifoSeatState} {recipient : Nat} {left : DraftPack}
    (loose : ∀ index seat, fifo.seats[index]? = some seat → LoosePrompt policy fifo index seat)
    (there : fifo.seats[seat]? = some state) (prompted : state.prompt.isSome = true)
    (identity : fifo'.sessionId = fifo.sessionId) (paused : fifo'.paused = fifo.paused)
    (time : fifo'.lastNowMs = fifo.lastNowMs) {index : Nat} {after : FifoSeatState}
    (found : (passedSeats fifo.seats seat state head recipient left)[index]? = some after) :
    LoosePrompt policy fifo' index after := by
  obtain ⟨before, was, counters, more, queue, _⟩ := seat_passedSeats there found
  have old := loose index before was
  by_cases own : index = seat
  · subst own
    rw [if_pos rfl] at counters
    obtain ⟨completed, _, none_, generation⟩ := counters
    obtain rfl := some.inj (was.symm.trans there)
    have steps := old.steps
    rw [if_pos prompted] at steps
    refine ⟨fun prompt some_ => ?_, by rw [generation]; exact old.bound, ?_⟩
    · rw [none_] at some_
      cases some_
    · rw [none_, generation, completed]
      exact steps
  · rw [if_neg own] at counters queue
    obtain ⟨completed, thisRound, same, generation⟩ := counters
    refine ⟨fun prompt some_ => ?_, by rw [generation]; exact old.bound, ?_⟩
    · rw [same] at some_
      obtain ⟨id, positive, ⟨head, rest, front, packId⟩, clock⟩ := old.prompts prompt some_
      refine ⟨by rw [identity, generation]; exact id, generation ▸ positive,
        ⟨head, rest ++ more, by rw [queue, front]; rfl, packId⟩, ?_⟩
      rw [thisRound, paused, time]
      exact clock
    · rw [same, generation, completed]
      exact old.steps

/-- An admitted selection keeps the cards in order. -/
theorem Midway.moved (midway : Midway packs session fifo) {state : FifoSeatState}
    {picked burned effects : List String}
    (admitted : Admitted session fifo seat state head picked burned effects) :
    ∃ fifo', Midway packs (Draft.moved session fifo seat state head picked burned effects) fifo' ∧
      fifo'.lastNowMs = fifo.lastNowMs := by
  have underway := midway.underway
  obtain ⟨pod, seated, _⟩ := midway.toFramed.sizes
  obtain ⟨seats, pools, _⟩ := midway.toFramed.lengths
  obtain ⟨unpicked, selected, unburned, burnt, kept, returned, left, discarded, parted, eq⟩ :=
    admitted.parted
  let done := settled session fifo seat state head picked burned effects kept selected left
    discarded
  have sel : Selecting packs session done.2 fifo done.1 seat state head picked burned effects
      unpicked selected unburned burnt kept returned left discarded :=
    ⟨underway.deal, underway.stock, underway.passes, admitted, parted, by
      rw [pod, seats]
      exact nextSeat_lt _ _ seated, pools.trans seats.symm, rfl⟩
  obtain ⟨prompt, prompted, _⟩ := admitted.prompted
  refine ⟨done.1, ?_, rfl⟩
  rw [eq]
  refine ⟨⟨rfl, midway.flow, midway.config, midway.kind, midway.setCode, midway.identity,
    midway.revision, midway.time, ?_, midway.modern, midway.paused⟩, midway.drafting, midway.round,
    midway.direction, midway.unreviewed, underway.deal, underway.registered.congr rfl rfl,
    underway.sizes, underway.passes, sel.stock_after, ?_⟩
  · have dims := midway.dims
    have same : done.1.seats.length = fifo.seats.length := length_passedSeats
    simp only [DraftSession.perSeatLengths, settled, List.length_set] at dims ⊢
    rwa [same]
  · intro index after found
    have identity : done.1.sessionId = fifo.sessionId := rfl
    exact LoosePrompt.passed underway.prompts admitted.seated (by rw [prompted]; rfl) identity rfl
      rfl found

theorem selectFifo_valid (valid : FifoValid packs session fifo) {promptId : DraftPromptId}
    {picked burned effects : List String} {timing : SelectionTiming}
    (h : selectFifo session seat promptId picked burned effects timing = .ok (next, deltas)) :
    ∃ fifo', FifoValid packs next fifo' := by
  obtain ⟨_, state, head, more, admitted, _, finished⟩ := selectFifo_ok valid.flow h
  obtain rfl := some.inj (valid.there.symm.trans admitted.there)
  obtain ⟨fifo', midway, time⟩ := (valid.midway admitted.drafting).moved admitted
  rw [← time] at finished
  exact finishFifoRound_valid midway finished

section
variable {f : DraftClock → Except DraftError DraftClock}

variable {seat seat' : FifoSeatState} {seats seats' : List FifoSeatState}
  {reason : DraftPausedState} {target : DraftClockTarget}

theorem mapPromptClock_ok (h : mapPromptClock f seat = .ok seat') :
    (seat' = seat ∧ ∀ prompt, seat.prompt = some prompt → prompt.clock = none) ∨
      ∃ prompt clock clock', seat.prompt = some prompt ∧ prompt.clock = some clock ∧
        f clock = .ok clock' ∧
        seat' = { seat with prompt := some { prompt with clock := some clock' } } := by
  unfold mapPromptClock at h
  split at h
  · next none_ =>
    refine .inl ⟨(Except.ok.inj h).symm, fun prompt some_ => ?_⟩
    rw [none_] at some_
    cases some_
  · next prompt there =>
    split at h
    · next untimed =>
      refine .inl ⟨(Except.ok.inj h).symm, fun prompt' some_ => ?_⟩
      obtain rfl := some.inj (there.symm.trans some_)
      exact untimed
    · next clock timed =>
      simp only [bind_eq_ok, pure_eq_ok] at h
      obtain ⟨clock', changed, rfl⟩ := h
      exact .inr ⟨prompt, clock, clock', there, timed, changed, rfl⟩

theorem mapSeatClocks_ok (h : mapSeatClocks f seats = .ok seats') :
    seats'.length = seats.length ∧ ∀ (i : Nat) (seat' : FifoSeatState), seats'[i]? = some seat' →
      ∃ seat, seats[i]? = some seat ∧ mapPromptClock f seat = .ok seat' := by
  induction seats generalizing seats' with
  | nil =>
    obtain rfl := Except.ok.inj h
    simp
  | cons seat seats ih =>
    simp only [mapSeatClocks, bind_eq_ok, pure_eq_ok] at h
    obtain ⟨first, done, rest, others, rfl⟩ := h
    obtain ⟨length, each⟩ := ih others
    refine ⟨by simp [length], fun i seat' there => ?_⟩
    cases i with
    | zero =>
      obtain rfl : first = seat' := by simpa using there
      exact ⟨seat, by simp, done⟩
    | succ i =>
      obtain ⟨old, was, done'⟩ := each i seat' (by simpa using there)
      exact ⟨old, by simpa using was, done'⟩

theorem core_mapPromptClock (h : mapPromptClock f seat = .ok seat') : seat'.core = seat.core := by
  rcases mapPromptClock_ok h with ⟨rfl, _⟩ | ⟨_, _, _, _, _, _, rfl⟩ <;> rfl

theorem core_mapSeatClocks (h : mapSeatClocks f seats = .ok seats') :
    seats'.map FifoSeatState.core = seats.map FifoSeatState.core := by
  obtain ⟨length, each⟩ := mapSeatClocks_ok h
  refine List.ext_getElem (by simpa using length) fun i inside inside' => ?_
  rw [List.length_map] at inside inside'
  obtain ⟨old, was, done⟩ := each i _ (List.getElem?_eq_getElem inside)
  rw [List.getElem_map, List.getElem_map, core_mapPromptClock done]
  exact congrArg _ (some.inj (was.symm.trans (List.getElem?_eq_getElem inside')))

/-- A change of clocks that respects their scope keeps every prompt in order. -/
theorem Prompted.reclock {policy : PickClockPolicy} {fifo' : FifoDraftState} {index : Nat}
    (prompted : Prompted policy fifo index seat) (h : mapPromptClock f seat = .ok seat')
    (identity : fifo'.sessionId = fifo.sessionId)
    (keeps : ∀ clock clock' target duration, ScopeOk clock target fifo.paused duration fifo.lastNowMs →
      f clock = .ok clock' → ScopeOk clock' target fifo'.paused duration fifo'.lastNowMs) :
    Prompted policy fifo' index seat' := by
  rcases mapPromptClock_ok h with ⟨rfl, untimed⟩ | ⟨prompt, clock, clock', there, timed, changed, rfl⟩
  · refine ⟨⟨fun prompt there => ?_, prompted.bound, prompted.steps⟩, prompted.asked⟩
    obtain ⟨id, positive, front, clocked⟩ := prompted.prompts prompt there
    refine ⟨by rw [identity]; exact id, positive, front, ?_⟩
    unfold ClockOk at clocked ⊢
    rw [untimed prompt there] at clocked ⊢
    cases duration : pickDuration policy seat'.roundCompletedSteps with
    | none => rfl
    | some duration' =>
      rw [duration] at clocked
      obtain ⟨running, some_, _⟩ := clocked
      cases some_
  · obtain ⟨id, positive, front, clocked⟩ := prompted.prompts prompt there
    have steps := prompted.steps
    rw [there] at steps
    refine ⟨⟨fun prompt' there' => ?_, prompted.bound, steps⟩, fun _ => rfl⟩
    obtain rfl := some.inj there'
    refine ⟨by rw [identity]; exact id, positive, front, ?_⟩
    unfold ClockOk at clocked ⊢
    rw [timed] at clocked
    cases duration : pickDuration policy seat.roundCompletedSteps with
    | none =>
      rw [duration] at clocked
      cases clocked
    | some duration' =>
      rw [duration] at clocked
      obtain ⟨running, some_, scope⟩ := clocked
      obtain rfl := some.inj some_
      exact ⟨clock', rfl, keeps _ _ _ _ scope changed⟩

theorem freeze_scope {now duration : Nat} {clock clock' : DraftClock}
    (scope : ScopeOk clock target none duration now) (h : freeze now clock = .ok clock') :
    ScopeOk clock' target (some reason) duration now := by
  obtain ⟨same, deadlineMs, state, _, bounded⟩ := scope
  unfold freeze at h
  rw [state] at h
  obtain rfl := Except.ok.inj h
  exact ⟨same, deadlineMs - now, rfl, bounded⟩

theorem thaw_scope {now duration : Nat} {clock clock' : DraftClock}
    (scope : ScopeOk clock target (some reason) duration now) (h : thaw now clock = .ok clock') :
    ScopeOk clock' target none duration now := by
  obtain ⟨same, remainingMs, state, bounded⟩ := scope
  unfold thaw at h
  rw [state] at h
  simp only [deadline, bind_eq_ok, pure_eq_ok] at h
  obtain ⟨deadlineMs, timed, rfl⟩ := h
  split at timed
  · next fits =>
    obtain rfl := Except.ok.inj timed
    exact ⟨same, _, rfl, fits, by omega⟩
  · cases timed

theorem mapReviewClock_ok {review review' : Option DraftReviewState}
    (h : mapReviewClock f review = .ok review') :
    (review = none ∧ review' = none) ∨ ∃ old clock, review = some old ∧ f old.clock = .ok clock ∧
      review' = some { old with clock } := by
  cases review with
  | none => exact .inl ⟨rfl, (Except.ok.inj h).symm⟩
  | some old =>
    simp only [mapReviewClock, bind_eq_ok, pure_eq_ok] at h
    obtain ⟨clock, changed, rfl⟩ := h
    exact .inr ⟨old, clock, rfl, changed, rfl⟩

/-- Stopping or starting all clocks at once keeps a live draft valid. -/
theorem FifoValid.reclock (valid : FifoValid packs session fifo) {fifo₁ : FifoDraftState}
    {phase : DraftActivePhase} {status : DraftStatus} {paused : Option DraftPausedState}
    (live : phaseOf session fifo = some phase) (notLobby : session.status ≠ .lobby)
    (notLobby' : status ≠ .lobby) (stops : status = .paused ↔ paused.isSome = true)
    (live' : phaseOf { session with
      status, fifo := some { fifo₁ with paused } } { fifo₁ with paused } = some phase)
    (keeps : ∀ clock clock' target duration, ScopeOk clock target fifo.paused duration fifo.lastNowMs →
      f clock = .ok clock' → ScopeOk clock' target paused duration fifo.lastNowMs)
    (h : forEachClock fifo f = .ok fifo₁) :
    FifoValid packs { session with status, fifo := some { fifo₁ with paused } }
      { fifo₁ with paused } := by
  simp only [forEachClock, bind_eq_ok, pure_eq_ok] at h
  obtain ⟨seats, seatsOk, review, reviewOk, rfl⟩ := h
  have started := valid.started notLobby
  have cores := core_mapSeatClocks seatsOk
  obtain ⟨length, each⟩ := mapSeatClocks_ok seatsOk
  have queues : seats.map (·.queue) = fifo.seats.map (·.queue) := map_of_core cores Prod.fst
  have phaseOk := started.phase
  rw [PhaseOk, live] at phaseOk
  have passes : session.kind.procedure.distribution = .pickAndPass := by
    cases phase with
    | drafting => exact phaseOk.1
    | review => exact phaseOk.1
  refine ⟨⟨rfl, valid.flow, valid.config, valid.kind, valid.setCode, valid.identity, valid.revision,
    valid.time, ?_, valid.modern, stops⟩, .inr ⟨notLobby', started.deal,
    started.registered.congr rfl rfl, started.sizes, ?_, ?_, ?_⟩⟩
  · have dims := valid.dims
    simp only [DraftSession.perSeatLengths] at dims ⊢
    rwa [length]
  · rw [PhaseOk, live']
    cases phase with
    | drafting =>
      obtain ⟨_, round, direction, waiting, unreviewed⟩ := phaseOk
      refine ⟨passes, round, direction, exists_queue_of_map queues waiting, ?_⟩
      rw [unreviewed] at reviewOk
      exact (Except.ok.inj reviewOk).symm
    | review =>
      obtain ⟨_, more, direction, empty, timed, clock, there, scope⟩ := phaseOk
      rw [there] at reviewOk
      rcases mapReviewClock_ok reviewOk with ⟨none_, _⟩ | ⟨old, clock', some_, changed, new⟩
      · cases none_
      · obtain rfl := some.inj some_
        exact ⟨passes, more, direction, empty_of_map queues empty, timed, clock', new,
          keeps _ _ _ _ scope changed⟩
  · have stock := started.stock.reprompt passes cores
    rw [live] at stock
    rw [live']
    exact stock.congr rfl rfl rfl rfl rfl rfl rfl (.inr rfl) rfl
  · intro index seat there
    obtain ⟨old, was, done⟩ := each index seat there
    exact (started.prompts index old was).reclock done rfl keeps

end

theorem phase_of_active {phase : DraftActivePhase} (active : activePhase session.status = some phase) :
    phaseOf session fifo = some phase ∧ session.status ≠ .lobby ∧ session.status ≠ .paused := by
  unfold activePhase at active
  unfold phaseOf
  split at active
  · next drafting =>
    rw [drafting]
    exact ⟨active, by decide, by decide⟩
  · next review =>
    rw [review]
    exact ⟨active, by decide, by decide⟩
  · cases active

theorem control_valid (valid : FifoValid packs session fifo) {action : DraftControl}
    (h : control session action fifo.lastNowMs = .ok (next, deltas)) :
    ∃ fifo', FifoValid packs next fifo' := by
  cases action with
  | pause reason =>
    unfold control at h
    dsimp only at h
    split at h
    · cases h
    · next phase active =>
      simp only [bind_eq_ok, fifoRef_ok, pure_eq_ok, Prod.mk.injEq] at h
      obtain ⟨_, there, frozen, stopped, rfl, _⟩ := h
      obtain rfl := some.inj (valid.there.symm.trans there)
      have live : phaseOf session fifo = some phase ∧ session.status ≠ .lobby ∧
          session.status ≠ .paused := phase_of_active active
      have unpaused := valid.toFramed.unpaused live.2.2
      refine ⟨_, valid.reclock live.1 live.2.1 (by decide) (by simp) rfl ?_ stopped⟩
      intro clock clock' target duration scope changed
      rw [unpaused] at scope
      exact freeze_scope scope changed
  | resume =>
    simp only [control, ite_error_eq_ok, ne_eq, Decidable.not_not, bind_eq_ok, fifoRef_ok] at h
    obtain ⟨status, _, there, h⟩ := h
    obtain rfl := some.inj (valid.there.symm.trans there)
    split at h
    · cases h
    · next paused frozen =>
      simp only [bind_eq_ok, pure_eq_ok, Prod.mk.injEq] at h
      obtain ⟨thawed, started, rfl, _⟩ := h
      have live : phaseOf session fifo = some paused.phase := by
        rw [phaseOf, status, frozen]
        rfl
      refine ⟨_, valid.reclock live (by rw [status]; decide) ?_ ?_ ?_ ?_ started⟩
      · cases paused.phase <;> decide
      · cases paused.phase <;> decide
      · cases paused.phase <;> rfl
      · intro clock clock' target duration scope changed
        rw [frozen] at scope
        exact thaw_scope scope changed

theorem FifoValid.reviewing (valid : FifoValid packs session fifo)
    (status : session.status = .review) :
    Underway packs session fifo (session.currentPackNumber + 1) ∧
      session.currentPackNumber + 1 < session.config.packCount ∧
      (∀ seat ∈ fifo.seats, seat.queue = []) ∧
      ∃ clock deadlineMs, fifo.review =
          some ⟨session.currentPackNumber, session.currentPackNumber + 1, clock⟩ ∧
        clock.state = .running deadlineMs := by
  have started := valid.started (by rw [status]; decide)
  have unpaused := valid.toFramed.unpaused (by rw [status]; decide)
  have now : phaseOf session fifo = some .review := by rw [phaseOf, status]
  have phase := started.phase
  have stock := started.stock
  rw [PhaseOk, now] at phase
  rw [now] at stock
  obtain ⟨passes, more, _, empty, _, clock, there, _, scope⟩ := phase
  rw [unpaused] at scope
  obtain ⟨deadlineMs, state, _⟩ := scope
  exact ⟨⟨started.deal, started.registered, started.sizes, passes, stock,
    fun index seat there => (started.prompts index seat there).toLoosePrompt⟩, more, empty, clock,
    deadlineMs, there, state⟩

theorem expirePrompts_valid {captured : List (DraftPromptId × DraftPackId × Nat)}
    (valid : FifoValid packs session fifo)
    (h : expirePrompts captured session = .ok (next, deltas)) :
    ∃ fifo', FifoValid packs next fifo' := by
  induction captured generalizing session fifo deltas with
  | nil =>
    obtain ⟨rfl, _⟩ := Prod.mk.inj (Except.ok.inj h)
    exact ⟨fifo, valid⟩
  | cons entry captured ih =>
    simp only [expirePrompts, bind_eq_ok, fifoRef_ok] at h
    obtain ⟨_, _, h⟩ := h
    split at h
    · split at h
      · exact ih valid h
      · simp only [bind_eq_ok, Prod.exists, pure_eq_ok, Prod.mk.injEq] at h
        obtain ⟨answered, _, selected, last, _, rest, rfl, _⟩ := h
        obtain ⟨fifo', valid'⟩ := selectFifo_valid valid selected
        exact ih valid' rest
    · exact ih valid h

theorem advance_valid (valid : FifoValid packs session fifo)
    (h : advance session fifo.lastNowMs = .ok (next, deltas)) :
    ∃ fifo', FifoValid packs next fifo' := by
  unfold advance at h
  split at h
  · next status =>
    obtain ⟨underway, more, empty, clock, deadlineMs, there, state⟩ := valid.reviewing status
    simp only [bind_eq_ok, fifoRef_ok, valid.there, some.injEq, exists_eq_left', there, state] at h
    split at h
    · simp only [bind_eq_ok, pure_eq_ok, Prod.mk.injEq] at h
      obtain ⟨_, opened, rfl, _⟩ := h
      exact openFifoRound_valid valid.toFramed (by rw [status]; decide) more underway empty opened
    · obtain ⟨rfl, _⟩ := Prod.mk.inj (Except.ok.inj h)
      exact ⟨fifo, valid⟩
  · simp only [bind_eq_ok, fifoRef_ok] at h
    obtain ⟨_, _, h⟩ := h
    exact expirePrompts_valid valid h
  · obtain ⟨rfl, _⟩ := Prod.mk.inj (Except.ok.inj h)
    exact ⟨fifo, valid⟩

end Phase.Draft
