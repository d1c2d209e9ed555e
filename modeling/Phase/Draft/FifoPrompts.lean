import Phase.Draft.FifoConsistency

/-! A prompt is answered at most once, by its seat before the deadline or by the clock after
it, and every new prompt of a seat has a higher generation. -/
namespace Phase.Draft
open Fallible List Option Nat

/-- The prompts that a list of deltas reports as answered. -/
def answered : List DraftDelta → List DraftPromptId
  | [] => []
  | .selectionAccepted promptId .. :: deltas => promptId :: answered deltas
  | _ :: deltas => answered deltas

theorem answered_append (a b : List DraftDelta) : answered (a ++ b) = answered a ++ answered b := by
  induction a with
  | nil => rfl
  | cons delta a ih => cases delta <;> simp [answered, ih]

/-- Prompts keep their id, or have a generation that the seat has not had yet. -/
def Follows (before after : List FifoSeatState) : Prop :=
  after.length = before.length ∧ ∀ (i : Nat) (s s' : FifoSeatState), before[i]? = some s →
    after[i]? = some s' →
    s.generation ≤ s'.generation ∧ ∀ p', s'.prompt = some p' →
      (∃ p, s.prompt = some p ∧ p.id = p'.id) ∨ s.generation < p'.id.generation

/-- And while no clock is stopped or started: prompts stand as they were, or are new and not yet
due. -/
def Moves (now : Nat) (before after : List FifoSeatState) : Prop :=
  after.length = before.length ∧ ∀ (i : Nat) (s s' : FifoSeatState), before[i]? = some s →
    after[i]? = some s' →
    s.generation ≤ s'.generation ∧ ∀ p', s'.prompt = some p' → s.prompt = some p' ∨
      (s.generation < p'.id.generation ∧ ∀ clock, p'.clock = some clock → ∀ deadlineMs,
        clock.state = .running deadlineMs → now < deadlineMs)

section
variable {now : Nat} {a b c : List FifoSeatState}

theorem exists_seat (length : b.length = a.length) {i : Nat} {s' : FifoSeatState}
    (found : b[i]? = some s') : ∃ s, a[i]? = some s := by
  have inside := (List.getElem?_eq_some_iff.mp found).1
  exact ⟨a[i], getElem?_eq_getElem (length ▸ inside)⟩

theorem Moves.refl (now : Nat) (a : List FifoSeatState) : Moves now a a := by
  refine ⟨rfl, fun i s s' there there' => ?_⟩
  cases there.symm.trans there'
  exact ⟨le_refl _, fun p' prompted => .inl prompted⟩

theorem Moves.trans (first : Moves now a b) (second : Moves now b c) : Moves now a c := by
  refine ⟨second.1.trans first.1, fun i s s'' there there'' => ?_⟩
  obtain ⟨s', there'⟩ := exists_seat second.1 there''
  obtain ⟨grows, kept⟩ := first.2 i s s' there there'
  obtain ⟨grows', kept'⟩ := second.2 i s' s'' there' there''
  refine ⟨grows.trans grows', fun p prompted => ?_⟩
  rcases kept' p prompted with stands | ⟨newer, due⟩
  · exact kept p stands
  · exact .inr ⟨lt_of_le_of_lt grows newer, due⟩

theorem Moves.follows (moves : Moves now a b) : Follows a b := by
  refine ⟨moves.1, fun i s s' there there' => ?_⟩
  obtain ⟨grows, kept⟩ := moves.2 i s s' there there'
  refine ⟨grows, fun p prompted => ?_⟩
  rcases kept p prompted with stands | ⟨newer, -⟩
  · exact .inl ⟨p, stands, rfl⟩
  · exact .inr newer

theorem Follows.refl (a : List FifoSeatState) : Follows a a := (Moves.refl 0 a).follows

theorem Follows.trans (first : Follows a b) (second : Follows b c) : Follows a c := by
  refine ⟨second.1.trans first.1, fun i s s'' there there'' => ?_⟩
  obtain ⟨s', there'⟩ := exists_seat second.1 there''
  obtain ⟨grows, kept⟩ := first.2 i s s' there there'
  obtain ⟨grows', kept'⟩ := second.2 i s' s'' there' there''
  refine ⟨grows.trans grows', fun p prompted => ?_⟩
  rcases kept' p prompted with ⟨q, stands, same⟩ | newer
  · rw [← same]
    exact kept q stands
  · exact .inr (lt_of_le_of_lt grows newer)

end

/-- The seat is past this prompt. -/
def Spent (id : DraftPromptId) (seats : List FifoSeatState) : Prop :=
  ∃ s, seats[id.seat]? = some s ∧ id.generation ≤ s.generation ∧
    ∀ p, s.prompt = some p → id.generation < p.id.generation

theorem Spent.follows {id : DraftPromptId} {a b : List FifoSeatState} (spent : Spent id a)
    (follows : Follows a b) : Spent id b := by
  obtain ⟨s, there, reached, past⟩ := spent
  obtain ⟨s', there'⟩ := exists_seat follows.1.symm there
  obtain ⟨grows, kept⟩ := follows.2 id.seat s s' there there'
  refine ⟨s', there', reached.trans grows, fun p' prompted => ?_⟩
  rcases kept p' prompted with ⟨p, stands, same⟩ | newer
  · rw [← same]
    exact past p stands
  · exact lt_of_le_of_lt reached newer

/-- A policy that gives every clock some time. -/
def GivesTime (policy : PickClockPolicy) : Prop :=
  ∀ steps duration, pickDuration policy steps = some duration → 0 < duration

theorem seatStepMs_pos (steps : Nat) : 0 < seatStepMs.getD (min steps 13) 0 := by
  have all : ∀ i ≤ 13, 0 < seatStepMs.getD i 0 := by decide
  exact all _ (min_le_right _ _)

variable {session : DraftSession} {fifo : FifoDraftState} {timing : SelectionTiming}

theorem Framed.givesTime (framed : Framed session fifo) :
    GivesTime session.config.clockPolicy.pick := by
  have config := framed.config
  simp only [validateFifoConfig, guard_eq_ok, bind_eq_ok] at config
  obtain ⟨-, -, _, -, -, -, _, -, _, checked, -⟩ := config
  intro steps duration timed
  cases policy : session.config.clockPolicy.pick with
  | off =>
    rw [policy] at timed
    cases timed
  | fixed durationMs =>
    rw [policy] at timed
    cases timed
    simp only [DraftClockPolicy.validate, policy, ite_error_eq_ok] at checked
    have bounds := checked.1
    simp only [Bool.or_eq_true, decide_eq_true_eq, not_or] at bounds
    omega
  | seatStep =>
    rw [policy] at timed
    cases timed
    exact seatStepMs_pos steps

section
variable {policy : PickClockPolicy} {sessionId : String} {now : Nat}

theorem promptClock_due (gives : GivesTime policy) {id : DraftPromptId} {steps : Nat}
    {clock : Option DraftClock} (ok : promptClock policy id steps now = .ok clock)
    {running_ : DraftClock} (isClock : clock = some running_) {deadlineMs : Nat}
    (runs : running_.state = .running deadlineMs) : now < deadlineMs := by
  unfold promptClock at ok
  split at ok
  · cases ok
    cases isClock
  · next duration timed =>
    have time := gives steps duration timed
    rw [map_eq_ok] at ok
    obtain ⟨made, ok, rfl⟩ := ok
    cases isClock
    simp only [running, deadline, bind_eq_ok, pure_eq_ok] at ok
    obtain ⟨_, fits, rfl⟩ := ok
    split at fits
    · cases fits
      cases runs
      omega
    · cases fits

theorem reconcileSeats_moves (gives : GivesTime policy) {index : Nat}
    {seats seats' : List FifoSeatState}
    (ok : reconcileSeats policy sessionId now index seats = .ok seats') :
    Moves now seats seats' := by
  obtain ⟨length, each⟩ := reconcileSeats_ok ok
  refine ⟨length, fun i s s' there there' => ?_⟩
  obtain ⟨found, isFound, done⟩ := each i s there
  cases there'.symm.trans isFound
  rcases reconcileSeat_ok done with ⟨-, rfl⟩ | ⟨-, -, -, -, -, -, rfl⟩ |
    ⟨head, rest, clock, -, -, -, clocked, rfl⟩
  · exact ⟨le_refl _, nofun⟩
  · exact ⟨le_refl _, fun p' prompted => .inl prompted⟩
  · refine ⟨le_succ _, fun p' prompted => .inr ?_⟩
    cases prompted
    exact ⟨lt_succ_self _, fun made isClock deadlineMs runs =>
      promptClock_due gives clocked isClock runs⟩

variable {session next : DraftSession} {fifo : FifoDraftState}

theorem openFifoRound_moves {session next : DraftSession} {fifo : FifoDraftState} {round : Nat}
    (gives : GivesTime session.config.clockPolicy.pick) (there : session.fifo = some fifo)
    (lengths : session.packsBySeat.length = fifo.seats.length)
    (ok : openFifoRound session round now = .ok next) :
    ∃ fifo', next.fifo = some fifo' ∧ fifo'.lastNowMs = fifo.lastNowMs ∧
      Moves now fifo.seats fifo'.seats := by
  obtain ⟨held, futures, opened, seats, isHeld, openedOk, reconciled, rfl⟩ := openFifoRound_ok ok
  cases there.symm.trans isHeld
  refine ⟨_, rfl, rfl, Moves.trans ?_ (reconcileSeats_moves gives reconciled)⟩
  obtain ⟨-, length, each⟩ := openSeats_ok lengths openedOk
  refine ⟨length, fun i s s' seated seated' => ?_⟩
  obtain ⟨future, isFuture⟩ : ∃ future, session.packsBySeat[i]? = some future := by
    have inside := (List.getElem?_eq_some_iff.mp seated).1
    exact ⟨_, getElem?_eq_getElem (lengths ▸ inside)⟩
  obtain ⟨rest, found, -, isFound, done⟩ := each i future s isFuture seated
  cases seated'.symm.trans isFound
  obtain ⟨pack, original, -, -, rfl⟩ := openSeat_ok done
  exact ⟨le_refl _, fun p' prompted => .inl prompted⟩

variable {deltas : List DraftDelta}

theorem finishFifoRound_moves (gives : GivesTime session.config.clockPolicy.pick)
    (there : session.fifo = some fifo) (lengths : session.packsBySeat.length = fifo.seats.length)
    (ok : finishFifoRound session now = .ok (next, deltas)) :
    ∃ fifo', next.fifo = some fifo' ∧ fifo'.lastNowMs = fifo.lastNowMs ∧
      Moves now fifo.seats fifo'.seats := by
  obtain ⟨held, seats, isHeld, reconciled, branches⟩ := finishFifoRound_ok ok
  cases there.symm.trans isHeld
  have moves := reconcileSeats_moves gives reconciled
  rcases branches with ⟨-, rfl⟩ | ⟨-, -, rfl⟩ | ⟨-, -, -, opened⟩ | ⟨-, -, -, clock, -, rfl⟩
  · exact ⟨_, rfl, rfl, moves⟩
  · exact ⟨_, rfl, rfl, moves⟩
  · have same : session.packsBySeat.length = seats.length :=
      lengths.trans (reconcileSeats_ok reconciled).1.symm
    obtain ⟨fifo', isFifo, time, opens⟩ := @openFifoRound_moves now
      { session with fifo := some { fifo with seats } } next { fifo with seats } _ gives rfl same
      opened
    exact ⟨fifo', isFifo, time, moves.trans opens⟩
  · exact ⟨_, rfl, rfl, moves⟩

theorem answered_finishFifoRound (ok : finishFifoRound session now = .ok (next, deltas)) :
    answered deltas = [] := by
  simp only [finishFifoRound, bind_eq_ok] at ok
  obtain ⟨_, -, _, -, ok⟩ := ok
  split at ok
  · cases ok
    rfl
  · rw [guard_eq_ok] at ok
    obtain ⟨-, ok⟩ := ok
    split at ok
    · cases ok
      rfl
    · split at ok
      · rw [bind_eq_ok] at ok
        obtain ⟨_, -, ok⟩ := ok
        cases ok
        rfl
      · simp only [bind_eq_ok] at ok
        obtain ⟨_, -, _, -, ok⟩ := ok
        cases ok
        rfl

end

variable {promptId : DraftPromptId} {seat : Nat}

/-- What the check of a prompt has made sure of. -/
theorem checkPrompt_ok {head : QueuedDraftPack} {prompt : DraftPrompt}
    (ok : checkPrompt fifo seat promptId head prompt timing = .ok ()) :
    prompt.id = promptId ∧ promptId.seat = seat ∧
      match timing with
      | .human => ∀ clock, prompt.clock = some clock → ∃ deadlineMs,
          clock.state = .running deadlineMs ∧ fifo.lastNowMs < deadlineMs
      | .expiry _ deadlineMs => ∃ clock, prompt.clock = some clock ∧
          clock.state = .running deadlineMs ∧ deadlineMs ≤ fifo.lastNowMs := by
  simp only [checkPrompt, guard_eq_ok] at ok
  obtain ⟨current, ok⟩ := ok
  simp only [not_or, ne_eq, Decidable.not_not] at current
  refine ⟨current.1, current.2.2.1, ?_⟩
  cases isClock : prompt.clock with
  | none =>
    cases timing with
    | human => simp
    | expiry packId deadlineMs => simp [isClock] at ok
  | some clock =>
    cases state : clock.state with
    | frozen remainingMs =>
      simp only [isClock, map_some, state] at ok
      cases ok
    | running held =>
      simp only [isClock, map_some, state, pure_bind] at ok
      cases timing with
      | human =>
        simp only [any_some, ite_throw_eq_ok, decide_eq_true_eq, not_le] at ok
        intro running_ same
        cases same
        exact ⟨held, state, ok.1⟩
      | expiry packId deadlineMs =>
        simp only [ite_throw_eq_ok, not_or, ne_eq, Decidable.not_not, not_lt, some.injEq] at ok
        obtain ⟨⟨-, rfl, passed⟩, -⟩ := ok
        exact ⟨clock, rfl, state, passed⟩

theorem answered_cardPicked (seat : Nat) (ids : List String) :
    answered (ids.map fun id => DraftDelta.cardPicked seat id) = [] := by
  induction ids with
  | nil => rfl
  | cons id ids ih => exact ih

variable {next : DraftSession} {deltas : List DraftDelta}

/-- An accepted selection answers the prompt that stands at its seat, and no other. -/
theorem selectFifo_prompt {picked burned effects : List String}
    (ok : selectFifo session seat promptId picked burned effects timing = .ok (next, deltas)) :
    session.status = .drafting ∧ answered deltas = [promptId] ∧
      ∃ fifo state head prompt, session.fifo = some fifo ∧ fifo.seats[seat]? = some state ∧
        state.prompt = some prompt ∧
        checkPrompt fifo seat promptId head prompt timing = .ok () := by
  simp only [selectFifo, guard_eq_ok, bind_eq_ok, fifoRef_ok] at ok
  obtain ⟨drafting, -, fifo, there, ok⟩ := ok
  split at ok
  · next state head seated front =>
    split at ok
    · cases ok
    · next prompt prompted =>
      simp only [bind_eq_ok, Prod.exists] at ok
      obtain ⟨_, checked, _, -, _, -, _, -, _, _, passed, -, _, more, finished, ok⟩ := ok
      refine ⟨by simpa using drafting, ?_, fifo, state, head, prompt, there, seated, prompted,
        checked⟩
      simp only [finishFifoPick, bind_eq_ok, Prod.exists, pure_eq_ok, Prod.mk.injEq] at finished
      obtain ⟨_, -, _, round, closes, rfl, rfl⟩ := finished
      cases ok
      rw [answered_append, answered_append, answered_append, answered_cardPicked,
        answered_finishFifoRound closes]
      cases passed <;> rfl
  · cases ok

section
variable {session : DraftSession} {fifo : FifoDraftState} {seat : Nat} {state : FifoSeatState}
  {head : QueuedDraftPack} {picked burned effects : List String}

/-- The selecting seat loses its prompt; nothing else about prompts changes. -/
theorem moved_seats (seated : fifo.seats[seat]? = some state) :
    ∃ fifo', (moved session fifo seat state head picked burned effects).fifo = some fifo' ∧
      fifo'.lastNowMs = fifo.lastNowMs ∧ fifo'.seats.length = fifo.seats.length ∧
      ∀ i s', fifo'.seats[i]? = some s' → ∃ s, fifo.seats[i]? = some s ∧
        s'.generation = s.generation ∧ s'.prompt = if i = seat then none else s.prompt := by
  have selecting (i : Nat) (s' : FifoSeatState) (held : (fifo.seats.set seat { state with
      queue := state.queue.tail
      completedSteps := state.completedSteps + 1
      roundCompletedSteps := state.roundCompletedSteps + 1
      prompt := none })[i]? = some s') : ∃ s, fifo.seats[i]? = some s ∧
        s'.generation = s.generation ∧ s'.prompt = if i = seat then none else s.prompt := by
    rw [getElem?_set] at held
    split at held
    · next own =>
      subst own
      split at held
      · cases held
        exact ⟨state, seated, rfl, (if_pos rfl).symm⟩
      · cases held
    · next other => exact ⟨s', held, rfl, (if_neg (Ne.symm other)).symm⟩
  refine ⟨_, rfl, rfl, by split <;> simp, fun i s' found => ?_⟩
  split at found
  · exact selecting i s' found
  · rw [getElem?_modify] at found
    obtain ⟨old, isOld, rfl⟩ := map_eq_some_iff.mp found
    obtain ⟨s, there, generation, prompt⟩ := selecting i old isOld
    refine ⟨s, there, ?_, ?_⟩
    · rw [← generation]
      split <;> rfl
    · rw [← prompt]
      split <;> rfl

end

/-- Where a selection leaves the prompts. -/
theorem selectFifo_moves {packs : List (List DraftPack)} {picked burned effects : List String}
    (valid : FifoValid packs session fifo)
    (ok : selectFifo session seat promptId picked burned effects timing = .ok (next, deltas)) :
    ∃ fifo', next.fifo = some fifo' ∧ fifo'.lastNowMs = fifo.lastNowMs ∧
      Moves fifo.lastNowMs fifo.seats fifo'.seats ∧ Spent promptId fifo'.seats := by
  obtain ⟨drafting, -, held, state, _, prompt, isHeld, seated, prompted, checked⟩ :=
    selectFifo_prompt ok
  cases valid.there.symm.trans isHeld
  obtain ⟨isPrompt, isSeat, -⟩ := checkPrompt_ok checked
  obtain ⟨held, state', head, more, admitted, -, finished⟩ := selectFifo_ok valid.flow ok
  cases valid.there.symm.trans admitted.there
  cases seated.symm.trans admitted.seated
  obtain ⟨middle, isMiddle, time, length, each⟩ := @moved_seats session fifo seat state head picked
    burned effects seated
  have gives : GivesTime (moved session fifo seat state head picked burned
      effects).config.clockPolicy.pick := valid.toFramed.givesTime
  obtain ⟨seats, -, futures⟩ := valid.toFramed.lengths
  have lengths : (moved session fifo seat state head picked burned effects).packsBySeat.length =
      middle.seats.length := futures.trans (seats.symm.trans length.symm)
  obtain ⟨fifo', isFifo, time', moves⟩ := finishFifoRound_moves gives isMiddle lengths finished
  have first : Moves fifo.lastNowMs fifo.seats middle.seats := by
    refine ⟨length, fun i s s' there there' => ?_⟩
    obtain ⟨old, was, generation, prompt⟩ := each i s' there'
    cases there.symm.trans was
    refine ⟨le_of_eq generation.symm, fun p' stands => .inl ?_⟩
    rw [prompt] at stands
    split at stands
    · cases stands
    · exact stands
  have spent : Spent promptId middle.seats := by
    obtain ⟨s', there'⟩ := exists_seat length.symm seated
    obtain ⟨old, was, generation, prompt'⟩ := each seat s' there'
    cases seated.symm.trans was
    have promptOk := ((valid.midway drafting).underway.prompts seat state seated).prompts prompt
      prompted
    have same : promptId.generation = state.generation := by rw [← isPrompt, promptOk.1]
    refine ⟨s', isSeat ▸ there', le_of_eq (same.trans generation.symm), fun p stands => ?_⟩
    rw [prompt', if_pos rfl] at stands
    cases stands
  exact ⟨fifo', isFifo, time'.trans time, first.trans moves, spent.follows moves.follows⟩

theorem capturedPrompt_eq {now : Nat} {s : FifoSeatState} {entry : DraftPromptId × DraftPackId × Nat} :
    capturedPrompt now s = some entry ↔ ∃ p clock, s.prompt = some p ∧ p.clock = some clock ∧
      clock.state = .running entry.2.2 ∧ entry.2.2 ≤ now ∧ entry.1 = p.id ∧
      entry.2.1 = p.packId := by
  obtain ⟨id, packId, deadlineMs⟩ := entry
  simp only [capturedPrompt, bind_eq_bind, bind_eq_some_iff]
  constructor
  · rintro ⟨p, isPrompt, clock, isClock, due⟩
    split at due
    · next held state =>
      split at due
      · next passed =>
        cases due
        exact ⟨p, clock, isPrompt, isClock, state, passed, rfl, rfl⟩
      · cases due
    · cases due
  · rintro ⟨p, clock, isPrompt, isClock, state, passed, rfl, rfl⟩
    refine ⟨p, isPrompt, clock, isClock, ?_⟩
    rw [state]
    exact if_pos passed

section
variable {packs : List (List DraftPack)} {session : DraftSession} {fifo : FifoDraftState}

variable {i : Nat} {p : DraftPrompt} {s : FifoSeatState}

section
variable (valid : FifoValid packs session fifo) {clock : DraftClock} {deadlineMs : Nat}
  (there : fifo.seats[i]? = some s) (isPrompt : s.prompt = some p) (isClock : p.clock = some clock)
  (runs : clock.state = .running deadlineMs)
include valid there isPrompt isClock runs

/-- Prompts that run are found in a draft that runs, and about a pack that can be picked from. -/
theorem FifoValid.running_prompt :
    session.status = .drafting ∧ p.id = ⟨fifo.sessionId, i, s.generation⟩ ∧
      ∃ head rest, s.queue = head :: rest ∧ head.pack ≠ [] := by
  rcases valid.state with ⟨lobby, checked⟩ | ⟨notLobby, started⟩
  · have blank := (blank_of_lobby checked).seats s (mem_of_getElem? there)
    rw [blank] at isPrompt
    cases isPrompt
  · have prompted := started.prompts i s there
    obtain ⟨id, -, ⟨head, rest, front, -⟩, clocked⟩ := prompted.prompts p isPrompt
    have nonempty : head.pack ≠ [] := by
      have queued := started.stock.queued s (mem_of_getElem? there) head (by simp [front])
      exact length_pos_iff.mp queued.nonempty
    refine ⟨?_, id, head, rest, front, nonempty⟩
    have unpaused : fifo.paused = none := by
      cases paused : fifo.paused with
      | none => rfl
      | some reason =>
        rw [ClockOk, paused, isClock] at clocked
        split at clocked
        · cases clocked
        · obtain ⟨_, same, -, _, frozen, -⟩ := clocked
          cases same
          rw [runs] at frozen
          cases frozen
    by_contra notDrafting
    have notPhase : phaseOf session fifo ≠ some .drafting := by
      rw [phaseOf]
      split
      · next drafting => exact absurd drafting notDrafting
      · simp
      · simp [unpaused]
      · simp
    have empty := queue_empty_of_not_drafting started.phase notPhase s (mem_of_getElem? there)
    rw [front] at empty
    cases empty

/-- The fallback exists whenever a running prompt has to be answered. -/
theorem FifoValid.auto_some :
    ∃ picked burned, legalAutoSelection session i = some (p.id, picked, burned) := by
  obtain ⟨drafting, -, head, rest, front, nonempty⟩ :=
    valid.running_prompt there isPrompt isClock runs
  have opened := headPack_of_fifo valid.flow valid.there there front
  have picks : session.requiredPickCount i ≠ 0 := by
    have perPick := cardsPerPick_pos session.kind
    have size := length_pos_iff.mpr nonempty
    simp only [DraftSession.requiredPickCount, opened, map_some, getD_some]
    omega
  have required : selectionRequirements session i [] = .ok {
      picks := session.requiredPickCount i
      burns := min session.config.selectionPolicy.burnsPerPick
        (head.pack.length - session.requiredPickCount i) } := by
    simp only [selectionRequirements, opened, checkEffects]
    rfl
  simp [legalAutoSelection, valid.flow, drafting, valid.there, there, isPrompt, required, opened,
    Except.toOption, picks]

end

theorem legalAutoSelection_id {id : DraftPromptId} {picked burned : List String}
    (held : session.fifo = some fifo) (there : fifo.seats[i]? = some s)
    (isPrompt : s.prompt = some p)
    (auto : legalAutoSelection session i = some (id, picked, burned)) : id = p.id := by
  simp only [legalAutoSelection, held, bind_eq_bind, bind_eq_some_iff] at auto
  obtain ⟨_, -, _, same, _, same', _, same'', _, -, _, -, _, -, done⟩ := auto
  cases same
  cases there.symm.trans same'
  cases isPrompt.symm.trans same''
  cases done
  rfl

/-- Answering every prompt that was due leaves none that is due. -/
theorem expirePrompts_spec {captured : List (DraftPromptId × DraftPackId × Nat)}
    (valid : FifoValid packs session fifo)
    (due : ∀ (i : Nat) s entry, fifo.seats[i]? = some s →
      capturedPrompt fifo.lastNowMs s = some entry → entry ∈ captured)
    {next : DraftSession} {deltas : List DraftDelta}
    (ok : expirePrompts captured session = .ok (next, deltas)) :
    ∃ fifo', next.fifo = some fifo' ∧ fifo'.lastNowMs = fifo.lastNowMs ∧
      Moves fifo.lastNowMs fifo.seats fifo'.seats ∧
      (∀ id ∈ answered deltas, Spent id fifo'.seats) ∧
      (answered deltas).Sublist (captured.map (·.1)) ∧
      (answered deltas ≠ [] → session.status = .drafting) ∧
      ∀ (i : Nat) s, fifo'.seats[i]? = some s → capturedPrompt fifo.lastNowMs s = none := by
  induction captured generalizing session fifo deltas with
  | nil =>
    cases ok
    refine ⟨fifo, valid.there, rfl, .refl _ _, nofun, .slnil, nofun, fun i s there => ?_⟩
    cases due_ : capturedPrompt fifo.lastNowMs s with
    | none => rfl
    | some entry => exact nomatch due i s entry there due_
  | cons entry captured ih =>
    obtain ⟨promptId, packId, deadlineMs⟩ := entry
    simp only [expirePrompts, bind_eq_ok, fifoRef_ok] at ok
    obtain ⟨held, isHeld, ok⟩ := ok
    cases valid.there.symm.trans isHeld
    split at ok
    · next current =>
      obtain ⟨s, there, stands⟩ := (any_eq_true _ _).mp current
      simp only [stillCurrent, Option.any_eq_true, Bool.and_eq_true, decide_eq_true_eq] at stands
      obtain ⟨p, isPrompt, ⟨isId, isPack⟩, clock, isClock, runs⟩ := stands
      split at ok
      · next none_ =>
        obtain ⟨picked, burned, auto⟩ := valid.auto_some there isPrompt isClock runs
        rw [none_] at auto
        cases auto
      · next id picked burned auto =>
        have sameId : id = promptId :=
          (legalAutoSelection_id valid.there there isPrompt auto).trans isId
        subst sameId
        simp only [bind_eq_ok, Prod.exists, pure_eq_ok, Prod.mk.injEq] at ok
        obtain ⟨middle, first, selected, last, rest, expired, rfl, rfl⟩ := ok
        obtain ⟨drafting, answers, -⟩ := selectFifo_prompt selected
        obtain ⟨fifo₁, isFifo₁, time, moves, spent⟩ := selectFifo_moves valid selected
        obtain ⟨_, valid₁⟩ := selectFifo_valid valid selected
        cases valid₁.there.symm.trans isFifo₁
        have due₁ : ∀ (i : Nat) s entry, fifo₁.seats[i]? = some s →
            capturedPrompt fifo₁.lastNowMs s = some entry → entry ∈ captured := by
          intro i s' entry there' isDue
          rw [time] at isDue
          obtain ⟨p', clock', isPrompt', isClock', runs', passed, isId', isPack'⟩ :=
            capturedPrompt_eq.mp isDue
          obtain ⟨old, was⟩ := exists_seat moves.1 there'
          have stood : old.prompt = some p' := by
            refine ((moves.2 i old s' was there').2 p' isPrompt').resolve_right ?_
            rintro ⟨-, later⟩
            exact absurd (later clock' isClock' _ runs') (not_lt.mpr passed)
          have before : capturedPrompt fifo.lastNowMs old = some entry :=
            capturedPrompt_eq.mpr ⟨p', clock', stood, isClock', runs', passed, isId', isPack'⟩
          refine (mem_cons.mp (due i old entry was before)).resolve_left ?_
          rintro rfl
          -- The answered prompt cannot still stand: its seat is past it.
          obtain ⟨s'', there'', -, past⟩ := spent
          have place := (valid₁.running_prompt there' isPrompt' isClock' runs').2.1
          have isSeat : id.seat = i := by rw [show id = p'.id from isId', place]
          rw [isSeat] at there''
          cases there'.symm.trans there''
          have less := past p' isPrompt'
          rw [← show id = p'.id from isId'] at less
          exact absurd less (lt_irrefl _)
        obtain ⟨fifo', isFifo', time', moves', spent', sub, -, quiet⟩ := ih valid₁ due₁ expired
        rw [time] at moves' quiet
        refine ⟨fifo', isFifo', time'.trans time, moves.trans moves', fun used mem => ?_, ?_,
          fun _ => drafting, quiet⟩
        · rw [answered_append, answers] at mem
          rcases mem_cons.mp mem with rfl | later
          · exact spent.follows moves'.follows
          · exact spent' used later
        · rw [answered_append, answers]
          exact sub.cons_cons _
    · next stale =>
      have due' : ∀ (i : Nat) s entry, fifo.seats[i]? = some s →
          capturedPrompt fifo.lastNowMs s = some entry → entry ∈ captured := by
        intro i s entry there isDue
        refine (mem_cons.mp (due i s entry there isDue)).resolve_left ?_
        rintro rfl
        obtain ⟨p, clock, isPrompt, isClock, runs, -, isId, isPack⟩ := capturedPrompt_eq.mp isDue
        have place := (valid.running_prompt there isPrompt isClock runs).2.1
        have isSeat : promptId.seat = i := by rw [show promptId = p.id from isId, place]
        refine stale ?_
        rw [isSeat, there]
        simp [stillCurrent, isPrompt, isClock, runs, ← isId, ← isPack]
      obtain ⟨fifo', isFifo', time', moves, spent, sub, drafting, quiet⟩ := ih valid due' ok
      exact ⟨fifo', isFifo', time', moves, spent, sub.cons _, drafting, quiet⟩

end

/-- The seat shows this prompt. -/
def Shown (id : DraftPromptId) (seats : List FifoSeatState) : Prop :=
  ∃ s p, seats[id.seat]? = some s ∧ s.prompt = some p ∧ p.id = id

theorem Spent.not_shown {id : DraftPromptId} {seats : List FifoSeatState} (spent : Spent id seats) :
    ¬Shown id seats := by
  rintro ⟨s, p, there, isPrompt, rfl⟩
  obtain ⟨s', there', -, past⟩ := spent
  cases there.symm.trans there'
  exact lt_irrefl _ (past p isPrompt)

/-- What an operation has answered was shown before, is past after, and is listed once. -/
structure Answers (session : DraftSession) (before after : List FifoSeatState)
    (deltas : List DraftDelta) : Prop where
  follows : Follows before after
  shown : ∀ id ∈ answered deltas, Shown id before
  spent : ∀ id ∈ answered deltas, Spent id after
  once : (answered deltas).Nodup
  live : answered deltas ≠ [] → session.status = .drafting

theorem Answers.quiet {before after : List FifoSeatState} (follows : Follows before after)
    (none_ : answered deltas = []) : Answers session before after deltas :=
  ⟨follows, by simp [none_], by simp [none_], by simp [none_], fun some_ => absurd none_ some_⟩

section
variable {packs : List (List DraftPack)} {session next : DraftSession} {fifo : FifoDraftState}
  {deltas : List DraftDelta}

theorem select_answers (valid : FifoValid packs session fifo) {seat : Nat}
    {promptId : DraftPromptId} {picked burned effects : List String} {timing : SelectionTiming}
    (ok : selectFifo session seat promptId picked burned effects timing = .ok (next, deltas)) :
    ∃ fifo', next.fifo = some fifo' ∧ Answers session fifo.seats fifo'.seats deltas := by
  obtain ⟨drafting, answers, held, state, _, prompt, isHeld, seated, prompted, checked⟩ :=
    selectFifo_prompt ok
  cases valid.there.symm.trans isHeld
  obtain ⟨isPrompt, isSeat, -⟩ := checkPrompt_ok checked
  obtain ⟨fifo', isFifo, -, moves, spent⟩ := selectFifo_moves valid ok
  refine ⟨fifo', isFifo, moves.follows, ?_, ?_, by simp [answers], fun _ => drafting⟩
  · intro id mem
    rw [answers, mem_singleton] at mem
    subst mem
    exact ⟨state, prompt, isSeat ▸ seated, prompted, isPrompt⟩
  · intro id mem
    rw [answers, mem_singleton] at mem
    subst mem
    exact spent

theorem control_follows (held : session.fifo = some fifo) {action : DraftControl} {now : Nat}
    (ok : control session action now = .ok (next, deltas)) :
    ∃ fifo', next.fifo = some fifo' ∧ Follows fifo.seats fifo'.seats ∧ answered deltas = [] := by
  have reclocked {f : DraftClock → Except DraftError DraftClock} {fifo₁ : FifoDraftState}
      (ok : forEachClock fifo f = .ok fifo₁) : Follows fifo.seats fifo₁.seats := by
    simp only [forEachClock, bind_eq_ok, pure_eq_ok] at ok
    obtain ⟨seats, seatsOk, review, -, rfl⟩ := ok
    obtain ⟨length, each⟩ := mapSeatClocks_ok seatsOk
    refine ⟨length, fun i s s' there there' => ?_⟩
    obtain ⟨old, was, done⟩ := each i s' there'
    cases there.symm.trans was
    rcases mapPromptClock_ok done with ⟨rfl, -⟩ | ⟨p, clock, clock', isPrompt, -, -, rfl⟩
    · exact ⟨le_refl _, fun p' isPrompt => .inl ⟨p', isPrompt, rfl⟩⟩
    · refine ⟨le_refl _, fun p' isPrompt' => .inl ⟨p, isPrompt, ?_⟩⟩
      cases isPrompt'
      rfl
  cases action with
  | pause reason =>
    unfold control at ok
    dsimp only at ok
    split at ok
    · cases ok
    · simp only [bind_eq_ok, fifoRef_ok, pure_eq_ok, Prod.mk.injEq] at ok
      obtain ⟨_, isHeld, fifo₁, stopped, rfl, rfl⟩ := ok
      cases held.symm.trans isHeld
      have follows := reclocked stopped
      exact ⟨_, rfl, follows, rfl⟩
  | resume =>
    simp only [control, ite_error_eq_ok, bind_eq_ok, fifoRef_ok] at ok
    obtain ⟨-, _, isHeld, ok⟩ := ok
    cases held.symm.trans isHeld
    split at ok
    · cases ok
    · simp only [bind_eq_ok, pure_eq_ok, Prod.mk.injEq] at ok
      obtain ⟨fifo₁, started, rfl, rfl⟩ := ok
      have follows := reclocked started
      exact ⟨_, rfl, follows, rfl⟩

/-- The prompts that are due are at seats of their own. -/
theorem captured_nodup (valid : FifoValid packs session fifo) :
    ((fifo.seats.filterMap (capturedPrompt fifo.lastNowMs)).map (·.1)).Nodup := by
  rw [Nodup, pairwise_map, pairwise_filterMap, pairwise_iff_getElem]
  intro i j insideI insideJ less entry isEntry entry' isEntry' same
  obtain ⟨p, clock, isPrompt, isClock, runs, -, isId, -⟩ := capturedPrompt_eq.mp isEntry
  obtain ⟨p', clock', isPrompt', isClock', runs', -, isId', -⟩ := capturedPrompt_eq.mp isEntry'
  have place := (valid.running_prompt (getElem?_eq_getElem insideI) isPrompt isClock runs).2.1
  have place' :=
    (valid.running_prompt (getElem?_eq_getElem insideJ) isPrompt' isClock' runs').2.1
  have seats := congrArg DraftPromptId.seat same
  rw [isId, isId', place, place'] at seats
  exact Nat.ne_of_lt less seats

/-- Expiry answers only what was due, and leaves nothing that is due. -/
theorem advance_answers (valid : FifoValid packs session fifo)
    (ok : advance session fifo.lastNowMs = .ok (next, deltas)) :
    ∃ fifo', next.fifo = some fifo' ∧ Answers session fifo.seats fifo'.seats deltas ∧
      (∀ id ∈ answered deltas, ∃ s p clock deadlineMs, fifo.seats[id.seat]? = some s ∧
        s.prompt = some p ∧ p.id = id ∧ p.clock = some clock ∧
        clock.state = .running deadlineMs ∧ deadlineMs ≤ fifo.lastNowMs) ∧
      (session.status = .drafting →
        ∀ (i : Nat) s, fifo'.seats[i]? = some s → capturedPrompt fifo.lastNowMs s = none) := by
  unfold advance at ok
  split at ok
  · next review =>
    have notDrafting : session.status ≠ .drafting := by rw [review]; decide
    obtain ⟨-, -, -, clock, deadlineMs, there, state⟩ := valid.reviewing review
    obtain ⟨seats, -, futures⟩ := valid.toFramed.lengths
    simp only [bind_eq_ok, fifoRef_ok, valid.there, some.injEq, exists_eq_left', there, state] at ok
    split at ok
    · simp only [bind_eq_ok, pure_eq_ok, Prod.mk.injEq] at ok
      obtain ⟨_, opened, rfl, rfl⟩ := ok
      obtain ⟨fifo', isFifo, -, moves⟩ := openFifoRound_moves valid.toFramed.givesTime valid.there
        (futures.trans seats.symm) opened
      exact ⟨fifo', isFifo, .quiet moves.follows rfl, nofun, fun drafting =>
        absurd drafting notDrafting⟩
    · cases ok
      exact ⟨fifo, valid.there, .quiet (.refl _) rfl, nofun, fun drafting =>
        absurd drafting notDrafting⟩
  · next drafting =>
    simp only [bind_eq_ok, fifoRef_ok] at ok
    obtain ⟨_, isHeld, ok⟩ := ok
    cases valid.there.symm.trans isHeld
    obtain ⟨fifo', isFifo, -, moves, spent, sub, -, quiet⟩ := expirePrompts_spec valid
      (fun i s entry there isDue =>
        mem_filterMap.mpr ⟨s, mem_of_getElem? there, isDue⟩) ok
    have wasDue : ∀ id ∈ answered deltas, ∃ s p clock deadlineMs,
        fifo.seats[id.seat]? = some s ∧ s.prompt = some p ∧ p.id = id ∧ p.clock = some clock ∧
          clock.state = .running deadlineMs ∧ deadlineMs ≤ fifo.lastNowMs := by
      intro id mem
      obtain ⟨entry, isEntry, rfl⟩ := mem_map.mp (sub.subset mem)
      obtain ⟨s, memS, captured⟩ := mem_filterMap.mp isEntry
      obtain ⟨p, clock, isPrompt, isClock, runs, passed, isId, -⟩ := capturedPrompt_eq.mp captured
      obtain ⟨i, there⟩ := mem_iff_getElem?.mp memS
      have place := (valid.running_prompt there isPrompt isClock runs).2.1
      have isSeat : entry.1.seat = i := by rw [isId, place]
      exact ⟨s, p, clock, entry.2.2, isSeat ▸ there, isPrompt, isId.symm, isClock, runs, passed⟩
    refine ⟨fifo', isFifo, ⟨moves.follows, fun id mem => ?_, spent,
      (captured_nodup valid).sublist sub, fun _ => drafting⟩, wasDue, fun _ => quiet⟩
    obtain ⟨s, p, -, -, there, isPrompt, isId, -⟩ := wasDue id mem
    exact ⟨s, p, there, isPrompt, isId⟩
  · next notReview notDrafting =>
    cases ok
    exact ⟨fifo, valid.there, .quiet (.refl _) rfl, nofun, fun drafting =>
      absurd drafting notDrafting⟩

variable {source : Option (Except DraftError (List (List DraftPack)))} {action : DraftAction}

theorem startFifo_follows (valid : FifoValid packs session fifo)
    (ok : startFifo session source fifo.lastNowMs = .ok (next, deltas)) :
    ∃ fifo', next.fifo = some fifo' ∧ Follows fifo.seats fifo'.seats ∧ answered deltas = [] := by
  have unanswered : answered deltas = [] := by
    simp only [startFifo, guard_eq_ok, bind_eq_ok] at ok
    obtain ⟨-, _, -, ok⟩ := ok
    split at ok
    · cases ok
    · simp only [bind_eq_ok, guard_eq_ok] at ok
      obtain ⟨_, -, -, _, -, _, -, ok⟩ := ok
      split at ok
      · cases ok
        rfl
      · simp only [bind_eq_ok] at ok
        obtain ⟨_, -, ok⟩ := ok
        cases ok
        rfl
      · cases ok
  obtain ⟨packs', _, fifo₁, -, -, -, rows, -, isHeld, registered, dealt⟩ := startFifo_ok ok
  cases valid.there.symm.trans isHeld
  have seats := (registerPacks_ok registered).1
  rcases dealt with ⟨-, rfl⟩ | ⟨-, opened⟩
  · exact ⟨_, rfl, by rw [← seats]; exact .refl _, unanswered⟩
  · have lengths : (dealtFifo session fifo₁ packs').packsBySeat.length = fifo₁.seats.length := by
      rw [seats]
      exact rows.trans valid.toFramed.lengths.1.symm
    obtain ⟨fifo', isFifo, -, moves⟩ := @openFifoRound_moves _
      (dealtFifo session fifo₁ packs') next fifo₁ _ valid.toFramed.givesTime rfl lengths opened
    rw [seats] at moves
    exact ⟨fifo', isFifo, moves.follows, unanswered⟩

variable {rules : EventRules}

/-- The actions of the event leave the prompts alone. -/
theorem event_answers {now : Nat} (held : session.fifo = some fifo) (event : match action with
      | .startDraft | .select .. | .control _ | .advanceClock => False
      | _ => True) (ok : reduceFifo rules source session now action = .ok (next, deltas)) :
    next.fifo = some fifo ∧ answered deltas = [] := by
  cases action with
  | startDraft | select | control | advanceClock => cases event
  | pick | pickWithDraftEffect | sharedStackDecision => cases ok
  | submitDeck seat mainDeck commanders =>
    simp only [reduceFifo, applySubmitDeck, ite_error_eq_ok] at ok
    obtain ⟨-, -, ok⟩ := ok
    split at ok <;> cases ok
    · exact ⟨held, rfl⟩
    · exact ⟨held, rfl⟩
  | generatePairings =>
    simp only [reduceFifo, applyGeneratePairings, ite_error_eq_ok] at ok
    obtain ⟨-, -, -, ok⟩ := ok
    cases ok
    exact ⟨held, rfl⟩
  | reportMatchResult matchId winnerSeat =>
    simp only [reduceFifo, applyReportMatchResult, ite_error_eq_ok] at ok
    obtain ⟨-, ok⟩ := ok
    split at ok <;> cases ok
    · exact ⟨held, rfl⟩
    · exact ⟨held, rfl⟩
  | advanceRound =>
    simp only [reduceFifo, applyAdvanceRound, ite_error_eq_ok] at ok
    cases ok.2
    exact ⟨held, rfl⟩
  | replaceSeatWithBot seat name =>
    simp only [reduceFifo, applyReplaceSeatWithBot, ite_error_eq_ok] at ok
    cases ok.2
    exact ⟨held, rfl⟩
  | setSeatConnected seat connected =>
    simp only [reduceFifo, applySetSeatConnected] at ok
    split at ok <;> cases ok
    exact ⟨held, rfl⟩

theorem reduceFifo_answers (valid : FifoValid packs session fifo)
    (ok : reduceFifo rules source session fifo.lastNowMs action = .ok (next, deltas)) :
    ∃ fifo', next.fifo = some fifo' ∧ Answers session fifo.seats fifo'.seats deltas := by
  cases action with
  | startDraft =>
    obtain ⟨fifo', isFifo, follows, none_⟩ := startFifo_follows valid ok
    exact ⟨fifo', isFifo, .quiet follows none_⟩
  | select seat promptId picked burned effects => exact select_answers valid ok
  | control action =>
    obtain ⟨fifo', isFifo, follows, none_⟩ := control_follows valid.there ok
    exact ⟨fifo', isFifo, .quiet follows none_⟩
  | advanceClock =>
    obtain ⟨fifo', isFifo, answers, -⟩ := advance_answers valid ok
    exact ⟨fifo', isFifo, answers⟩
  | _ =>
    obtain ⟨isFifo, none_⟩ := event_answers valid.there (by trivial) ok
    exact ⟨fifo, isFifo, .quiet (.refl _) none_⟩

section
variable {nowMs : Nat} (valid : FifoValid packs session fifo)
  (ok : applyAt rules source session action nowMs = .ok (next, deltas))
include valid ok

/-- What an accepted operation did on the session stamped with the clamped time. -/
theorem applyAt_reduced :
    ∃ staged stamped candidate fifo' fifo'', FifoValid packs staged stamped ∧
      stamped.seats = fifo.seats ∧ staged.status = session.status ∧
      clampedNow session nowMs = .ok stamped.lastNowMs ∧
      reduceFifo rules source staged stamped.lastNowMs action = .ok (candidate, deltas) ∧
      candidate.fifo = some fifo' ∧ next.fifo = some fifo'' ∧ fifo''.seats = fifo'.seats := by
  obtain ⟨_, candidate, isHeld, bounded, reduced, result⟩ := applyAt_ok ok
  cases valid.there.symm.trans isHeld
  have time : max nowMs fifo.lastNowMs ≤ maxDraftJsonInteger := Nat.max_le.mpr ⟨bounded, valid.time⟩
  have staged := valid.restamp valid.revision time (le_max_right _ _)
  have clamped : clampedNow session nowMs = .ok (max nowMs fifo.lastNowMs) := by
    simp only [clampedNow, guard_eq_ok, bind_eq_ok, fifoRef_ok, pure_eq_ok, valid.there,
      some.injEq, exists_eq_left', and_true]
    omega
  rcases result with ⟨rfl, rfl⟩ | ⟨fifo', isFifo, -, rfl, -⟩
  · exact ⟨_, _, _, fifo, fifo, staged, rfl, rfl, clamped, reduced, valid.there, valid.there, rfl⟩
  · exact ⟨_, _, _, fifo', _, staged, rfl, rfl, clamped, reduced, isFifo, rfl, rfl⟩

theorem applyAt_answers :
    ∃ fifo', next.fifo = some fifo' ∧ Answers session fifo.seats fifo'.seats deltas := by
  obtain ⟨staged, stamped, candidate, fifo₁, fifo₂, valid₁, seats, status, -, reduced, isFifo₁,
    isFifo₂, same⟩ := applyAt_reduced valid ok
  obtain ⟨_, isFifo, answers⟩ := reduceFifo_answers valid₁ reduced
  cases isFifo₁.symm.trans isFifo
  rw [seats, ← same] at answers
  exact ⟨fifo₂, isFifo₂, answers.follows, answers.shown, answers.spent, answers.once, fun some_ =>
    status ▸ answers.live some_⟩

end

end

/-- Cards with valid ids of their own, none of them known before and all of them after. -/
structure Entered (before after : AList fun _ : String => DraftCardProvenance)
    (cards : List DraftCardInstance) : Prop where
  valid : ∀ card ∈ cards, validDraftId card.instanceId = true
  fresh : ∀ card ∈ cards, before.lookup card.instanceId = none
  distinct : (cards.map (·.instanceId)).Nodup
  known : ∀ card ∈ cards, after.lookup card.instanceId ≠ none
  kept : ∀ id, id ∉ cards.map (·.instanceId) → after.lookup id = before.lookup id

theorem Entered.append {a b c : AList fun _ : String => DraftCardProvenance}
    {xs ys : List DraftCardInstance} (first : Entered a b xs) (second : Entered b c ys) :
    Entered a c (xs ++ ys) := by
  have apart : ∀ card ∈ ys, card.instanceId ∉ xs.map (·.instanceId) := by
    intro card mem mem'
    obtain ⟨other, there, same⟩ := mem_map.mp mem'
    exact first.known other there (same ▸ second.fresh card mem)
  have others : ∀ card ∈ xs, card.instanceId ∉ ys.map (·.instanceId) := by
    intro card mem mem'
    obtain ⟨other, there, same⟩ := mem_map.mp mem'
    exact apart other there (same ▸ mem_map_of_mem mem)
  refine ⟨fun card mem => ?_, fun card mem => ?_, ?_, fun card mem => ?_, fun id absent => ?_⟩
  · rcases mem_append.mp mem with mem | mem
    · exact first.valid card mem
    · exact second.valid card mem
  · rcases mem_append.mp mem with mem | mem
    · exact first.fresh card mem
    · rw [← first.kept _ (apart card mem)]
      exact second.fresh card mem
  · rw [map_append, nodup_append]
    refine ⟨first.distinct, second.distinct, ?_⟩
    rintro id mem _ mem' rfl
    obtain ⟨card, there, rfl⟩ := mem_map.mp mem'
    exact apart card there mem
  · rcases mem_append.mp mem with mem | mem
    · rw [second.kept _ (others card mem)]
      exact first.known card mem
    · exact second.known card mem
  · rw [map_append, mem_append, not_or] at absent
    rw [second.kept id absent.2, first.kept id absent.1]

variable {fifo' : FifoDraftState}

theorem registerRow_entered {podSize round : Nat} {row : List DraftPack}
    (ok : registerRow podSize seat round row fifo = .ok fifo') :
    (∀ pack ∈ row, 0 < pack.length ∧ pack.length ≤ 255) ∧
      Entered fifo.cards fifo'.cards row.flatten := by
  induction row generalizing round fifo with
  | nil =>
    cases ok
    exact ⟨nofun, nofun, nofun, .nil, nofun, fun _ _ => rfl⟩
  | cons pack row ih =>
    simp only [registerRow, ite_error_eq_ok, bind_eq_ok, not_or] at ok
    obtain ⟨⟨nonempty, small⟩, cards, registered, rest⟩ := ok
    obtain ⟨sizes, entered⟩ := ih rest
    obtain ⟨checked, distinct, found, kept, -⟩ := registerCards_ok registered
    have own : Entered fifo.cards cards pack :=
      ⟨fun card mem => (checked card mem).1, fun card mem => (checked card mem).2, distinct,
        fun card mem => by rw [found card mem]; simp, kept⟩
    refine ⟨fun other mem => ?_, own.append entered⟩
    rcases mem_cons.mp mem with rfl | later
    · omega
    · exact sizes other later

theorem registerPacks_entered {podSize : Nat} {rows : List (List DraftPack)}
    (ok : registerPacks podSize seat rows fifo = .ok fifo') :
    (∀ row ∈ rows, ∀ pack ∈ row, 0 < pack.length ∧ pack.length ≤ 255) ∧
      Entered fifo.cards fifo'.cards rows.flatten.flatten := by
  induction rows generalizing seat fifo with
  | nil =>
    cases ok
    exact ⟨nofun, nofun, nofun, .nil, nofun, fun _ _ => rfl⟩
  | cons row rows ih =>
    simp only [registerPacks, bind_eq_ok] at ok
    obtain ⟨middle, first, rest⟩ := ok
    obtain ⟨own, entered⟩ := registerRow_entered first
    obtain ⟨sizes, entered'⟩ := ih rest
    refine ⟨fun other mem => ?_, ?_⟩
    · rcases mem_cons.mp mem with rfl | later
      · exact own
      · exact sizes other later
    · rw [flatten_cons, flatten_append]
      exact entered.append entered'

/-- A draft is only started on a good deal. -/
theorem reduceFifo_source {rules : EventRules}
    {source : Option (Except DraftError (List (List DraftPack)))} {now : Nat} {action : DraftAction}
    (ok : reduceFifo rules source session now action = .ok (next, deltas)) :
    ∃ source', GoodSource session.seats.length session.config.packCount source' ∧
      reduceFifo rules source' session now action = .ok (next, deltas) := by
  have unasked : GoodSource session.seats.length session.config.packCount none := nofun
  cases action with
  | startDraft =>
    obtain ⟨packs, _, _, rfl, -, -, rows, columns, -, registered, -⟩ := startFifo_ok ok
    obtain ⟨sizes, entered⟩ := registerPacks_entered registered
    refine ⟨_, ?_, ok⟩
    rintro _ ⟨⟩
    exact ⟨packs, rfl, rows, columns, sizes, entered.valid, entered.distinct⟩
  | _ => exact ⟨none, unasked, ok⟩

section
variable {rules : EventRules} {start session reached : DraftSession}
  {used more : List DraftPromptId}

variable {source : Option (Except DraftError (List (List DraftPack)))} {deltas : List DraftDelta}
  {fifo : FifoDraftState}

theorem applyAt_keeps_sound {action : DraftAction} {nowMs : Nat} {next : DraftSession}
    (sound : FifoSound session)
    (ok : applyAt rules source session action nowMs = .ok (next, deltas)) : FifoSound next := by
  have again := ok
  simp only [applyAt, bind_eq_ok, Prod.exists] at again
  obtain ⟨_, checked, now, clamped, staged, stamped, candidate, _, reduced, done⟩ := again
  obtain ⟨source', good, reduced'⟩ := reduceFifo_source reduced
  have same : staged.seats = session.seats ∧ staged.config = session.config := by
    simp only [stamp, bind_eq_ok, pure_eq_ok] at stamped
    obtain ⟨_, -, rfl⟩ := stamped
    exact ⟨rfl, rfl⟩
  rw [same.1, same.2] at good
  have accepted : applyAt rules source' session action nowMs = .ok (next, deltas) := by
    simp only [applyAt, bind_eq_ok, Prod.exists]
    exact ⟨_, checked, now, clamped, staged, stamped, candidate, _, reduced', done⟩
  exact applyAt_sound sound good accepted

/-- Any operations at any observed times, with the prompts they answered, the last first. -/
inductive PromptRun (rules : EventRules) (start : DraftSession) :
    List DraftPromptId → DraftSession → Prop
  | start : PromptRun rules start [] start
  | accepted {used : List DraftPromptId} {session next : DraftSession} {deltas : List DraftDelta}
      {source : Option (Except DraftError (List (List DraftPack)))} {action : DraftAction}
      {nowMs : Nat} (run : PromptRun rules start used session)
      (ok : applyAt rules source session action nowMs = .ok (next, deltas)) :
      PromptRun rules start (answered deltas ++ used) next
  | refused {used : List DraftPromptId} {session : DraftSession} {error : DraftError}
      {source : Option (Except DraftError (List (List DraftPack)))} {action : DraftAction}
      {nowMs : Nat} (run : PromptRun rules start used session)
      (failed : applyAt rules source session action nowMs = .error error) :
      PromptRun rules start used session

theorem PromptRun.sound (run : PromptRun rules start used reached) (sound : FifoSound start) :
    FifoSound reached := by
  induction run with
  | start => exact sound
  | accepted _ ok ih => exact applyAt_keeps_sound ih ok
  | refused _ _ ih => exact ih

theorem PromptRun.trans (run : PromptRun rules start used session)
    (rest : PromptRun rules session more reached) :
    PromptRun rules start (more ++ used) reached := by
  induction rest with
  | start => exact run
  | accepted _ ok ih =>
    rw [append_assoc]
    exact ih.accepted ok
  | refused _ failed ih => exact ih.refused failed

/-- Everything answered so far is past, and was answered once. -/
theorem PromptRun.spent (run : PromptRun rules start used reached) (sound : FifoSound start)
    (held : reached.fifo = some fifo) : used.Nodup ∧ ∀ id ∈ used, Spent id fifo.seats := by
  induction run generalizing fifo with
  | start => exact ⟨.nil, nofun⟩
  | accepted run ok ih =>
    obtain ⟨packs, before, valid⟩ := run.sound sound
    obtain ⟨once, past⟩ := ih valid.there
    obtain ⟨_, isFifo, answers⟩ := applyAt_answers valid ok
    cases held.symm.trans isFifo
    refine ⟨nodup_append.mpr ⟨answers.once, once, ?_⟩, fun id mem => ?_⟩
    · rintro id mem _ mem' rfl
      exact (past id mem').not_shown (answers.shown id mem)
    · rcases mem_append.mp mem with mem | mem
      · exact answers.spent id mem
      · exact (past id mem).follows answers.follows
  | refused _ _ ih => exact ih held

theorem PromptRun.follows (run : PromptRun rules start used reached) (sound : FifoSound start)
    {fifo' : FifoDraftState} (held : start.fifo = some fifo) (held' : reached.fifo = some fifo') :
    Follows fifo.seats fifo'.seats := by
  induction run generalizing fifo' with
  | start =>
    cases held.symm.trans held'
    exact .refl _
  | accepted run ok ih =>
    obtain ⟨packs, before, valid⟩ := run.sound sound
    obtain ⟨_, isFifo, answers⟩ := applyAt_answers valid ok
    cases held'.symm.trans isFifo
    exact (ih valid.there).trans answers.follows
  | refused _ _ ih => exact ih held'

/-- The id of a prompt carries the generation its seat is at. -/
theorem FifoValid.prompt_generation {packs : List (List DraftPack)}
    (valid : FifoValid packs session fifo) {i : Nat} {s : FifoSeatState} {p : DraftPrompt}
    (there : fifo.seats[i]? = some s) (isPrompt : s.prompt = some p) :
    p.id.generation = s.generation := by
  rcases valid.state with ⟨-, checked⟩ | ⟨-, started⟩
  · have blank := (blank_of_lobby checked).seats s (mem_of_getElem? there)
    rw [blank] at isPrompt
    cases isPrompt
  · rw [((started.prompts i s there).prompts p isPrompt).1]

/-- What an accepted operation at the clamped time `now` may answer. -/
def OnTime (session next : DraftSession) (now : Nat) (deltas : List DraftDelta) :
    DraftAction → Prop
  | .select seat promptId .. =>
    session.status = .drafting ∧ answered deltas = [promptId] ∧
    ∃ fifo s p, session.fifo = some fifo ∧ fifo.seats[seat]? = some s ∧ s.prompt = some p ∧
      p.id = promptId ∧ ∀ clock, p.clock = some clock → ∃ deadlineMs,
        clock.state = .running deadlineMs ∧ now < deadlineMs
  | .advanceClock =>
    (session.status ≠ .drafting → answered deltas = []) ∧
    (∀ id ∈ answered deltas, ∃ fifo s p clock deadlineMs, session.fifo = some fifo ∧
      fifo.seats[id.seat]? = some s ∧ s.prompt = some p ∧ p.id = id ∧ p.clock = some clock ∧
      clock.state = .running deadlineMs ∧ deadlineMs ≤ now) ∧
    (session.status = .drafting → ∀ fifo s p clock deadlineMs, next.fifo = some fifo →
      s ∈ fifo.seats → s.prompt = some p → p.clock = some clock →
      clock.state = .running deadlineMs → now < deadlineMs)
  | _ => answered deltas = []

theorem applyAt_onTime {action : DraftAction} {nowMs now : Nat} {next : DraftSession}
    (sound : FifoSound session)
    (ok : applyAt rules source session action nowMs = .ok (next, deltas))
    (clamped : clampedNow session nowMs = .ok now) : OnTime session next now deltas action := by
  obtain ⟨packs, fifo, valid⟩ := sound
  obtain ⟨staged, stamped, candidate, fifo₁, fifo₂, valid₁, seats, status, clamped', reduced,
    isFifo₁, isFifo₂, same⟩ := applyAt_reduced valid ok
  cases clamped.symm.trans clamped'
  cases action with
  | select seat promptId picked burned effects =>
    obtain ⟨drafting, answers, _, state, _, prompt, isHeld, seated, prompted, checked⟩ :=
      selectFifo_prompt reduced
    cases valid₁.there.symm.trans isHeld
    obtain ⟨isPrompt, -, early⟩ := checkPrompt_ok checked
    exact ⟨status ▸ drafting, answers, fifo, state, prompt, valid.there, seats ▸ seated, prompted,
      isPrompt, early⟩
  | advanceClock =>
    obtain ⟨_, isFifo, answers, due, quiet⟩ := advance_answers valid₁ reduced
    cases isFifo₁.symm.trans isFifo
    refine ⟨fun other => ?_, fun id mem => ?_, fun drafting => ?_⟩
    · by_contra some_
      exact other (status ▸ answers.live some_)
    · obtain ⟨s, p, clock, deadlineMs, there, isPrompt, isId, isClock, runs, passed⟩ := due id mem
      exact ⟨fifo, s, p, clock, deadlineMs, valid.there, seats ▸ there, isPrompt, isId, isClock,
        runs, passed⟩
    · intro held s p clock deadlineMs isHeld mem isPrompt isClock runs
      cases isFifo₂.symm.trans isHeld
      rw [same] at mem
      obtain ⟨i, there⟩ := mem_iff_getElem?.mp mem
      have clear := quiet (status ▸ drafting) i s there
      by_contra passed
      have captured : capturedPrompt stamped.lastNowMs s = some (p.id, p.packId, deadlineMs) :=
        capturedPrompt_eq.mpr ⟨p, clock, isPrompt, isClock, runs, not_lt.mp passed, rfl, rfl⟩
      rw [clear] at captured
      cases captured
  | startDraft =>
    obtain ⟨_, -, -, none_⟩ := startFifo_follows valid₁ reduced
    exact none_
  | control action =>
    obtain ⟨_, -, -, none_⟩ := control_follows valid₁.there reduced
    exact none_
  | _ => exact (event_answers valid₁.there (by trivial) reduced).2

/-- Over a whole draft no prompt is answered twice, the prompts of a seat count upwards, and
an operation answers prompts only in time: a seat before the deadline, the clock from it on. -/
theorem fifo_prompts_answered_once {config : DraftConfig} {seats : List DraftSeat}
    {sessionId : String} {lobby : DraftSession}
    (created : newFifo config seats sessionId = .ok lobby)
    (run : PromptRun rules lobby used session) (rest : PromptRun rules session more reached) :
    (more ++ used).Nodup ∧
    (∀ fifo fifo' (i : Nat) s s' p p', session.fifo = some fifo → reached.fifo = some fifo' →
      fifo.seats[i]? = some s → fifo'.seats[i]? = some s' → s.prompt = some p →
      s'.prompt = some p' → p'.id = p.id ∨ p.id.generation < p'.id.generation) ∧
    ∀ source action nowMs now next deltas,
      applyAt rules source reached action nowMs = .ok (next, deltas) →
      clampedNow reached nowMs = .ok now → OnTime reached next now deltas action := by
  have start := newFifo_sound created
  have sound := run.sound start
  have sound' := rest.sound sound
  refine ⟨?_, ?_, fun source action nowMs now next deltas ok clamped =>
    applyAt_onTime sound' ok clamped⟩
  · obtain ⟨_, _, valid⟩ := sound'
    exact ((run.trans rest).spent start valid.there).1
  · intro fifo fifo' i s s' p p' held held' there there' isPrompt isPrompt'
    obtain ⟨-, kept⟩ := (rest.follows sound held held').2 i s s' there there'
    obtain ⟨_, _, valid⟩ := sound
    cases held.symm.trans valid.there
    rcases kept p' isPrompt' with ⟨_, same, isId⟩ | newer
    · cases isPrompt.symm.trans same
      exact .inl isId.symm
    · rw [valid.prompt_generation there isPrompt]
      exact .inr newer

end

def timedLobby : DraftSession :=
  lobbySession { fifoConfig with clockPolicy := { pick := .fixed 10000 } } twoSeats "draft"

/-- Both seats have a booster; seat 0 takes its card in time. -/
def timedPick : DraftSession :=
  afterApply noEvent none (afterApply noEvent (some (.ok unevenPacks)) timedLobby .startDraft 100)
    (.select 0 ⟨"draft", 0, 1⟩ ["a"] [] []) 50

/-- The clock answers for the seat that is late, and then waits for its next prompt. -/
theorem late_seat_is_answered_once : ∃ late : DraftSession,
    late = afterApply noEvent none timedPick .advanceClock 20000 ∧
    PromptRun noEvent timedLobby ([⟨"draft", 1, 1⟩] ++ [⟨"draft", 0, 1⟩]) late ∧
    ([⟨"draft", 1, 1⟩] ++ [⟨"draft", 0, 1⟩] : List DraftPromptId).Nodup ∧
    ∀ source nowMs now next deltas,
      applyAt noEvent source late .advanceClock nowMs = .ok (next, deltas) →
      clampedNow late nowMs = .ok now → OnTime late next now deltas .advanceClock := by
  have created : newFifo timedLobby.config twoSeats "draft" = .ok timedLobby := by decide +kernel
  obtain ⟨started, isStarted⟩ : ∃ started, started =
      afterApply noEvent (some (.ok unevenPacks)) timedLobby .startDraft 100 := ⟨_, rfl⟩
  have run : PromptRun noEvent timedLobby [⟨"draft", 0, 1⟩] timedPick := by
    have first : applyAt noEvent (some (.ok unevenPacks)) timedLobby .startDraft 100 =
        .ok (started, [.draftStarted]) := by
      subst isStarted
      decide +kernel
    have second : applyAt noEvent none started (.select 0 ⟨"draft", 0, 1⟩ ["a"] [] []) 50 =
        .ok (timedPick, [.cardPicked 0 "a", .packPassed,
          .selectionAccepted ⟨"draft", 0, 1⟩ 0 ["a"] [] [] []]) := by
      subst isStarted
      decide +kernel
    exact (PromptRun.start.accepted first).accepted second
  have expired : applyAt noEvent none timedPick .advanceClock 20000 =
      .ok (afterApply noEvent none timedPick .advanceClock 20000,
        [.cardPicked 1 "c", .selectionAccepted ⟨"draft", 1, 1⟩ 1 ["c"] [] [] []]) := by
    decide +kernel
  have rest := PromptRun.start.accepted expired
  obtain ⟨once, -, onTime⟩ := fifo_prompts_answered_once created run rest
  exact ⟨_, rfl, run.accepted expired, once, fun source nowMs now next deltas =>
    onTime source .advanceClock nowMs now next deltas⟩

end Phase.Draft
