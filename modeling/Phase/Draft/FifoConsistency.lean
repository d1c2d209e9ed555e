import Phase.Draft.Confluence
import Phase.Draft.FifoErrors

/-! The FIFO flow never produces a session that its own check refuses, over every run
and every observed time. -/
namespace Phase.Draft
open Fallible List

variable {context : AdmissionContext} {config : DraftConfig}

theorem admitPodSize_ok {kind : DraftKind} {source : DraftSource} {format : TournamentFormat}
    {podSize : Nat} (h : kind.admitPodSize source format podSize context = .ok ())
    (other : AdmissionContext) : kind.admitPodSize source format podSize other = .ok () := by
  unfold DraftKind.admitPodSize at h ⊢
  dsimp only at h ⊢
  split at h
  · next allowed => rw [if_pos allowed]
  · cases context <;> dsimp only at h
    · split at h <;> cases h
    · cases h

theorem admitAllAtOnce_ok {kind : DraftKind} {code : Option String}
    (h : kind.admitAllAtOnce config code context = .ok ()) (other : AdmissionContext) :
    kind.admitAllAtOnce config code other = .ok () := by
  simp only [DraftKind.admitAllAtOnce, ite_error_eq_ok] at h ⊢
  exact h

theorem validateFifoConfig_any {seatCount : Nat}
    (h : validateFifoConfig config seatCount context = .ok ()) (other : AdmissionContext) :
    validateFifoConfig config seatCount other = .ok () := by
  simp only [validateFifoConfig, guard_eq_ok, bind_eq_ok] at h ⊢
  obtain ⟨small, pod, _, size, dims, code, _, layout, _, clocks, distribution⟩ := h
  refine ⟨small, pod, (), admitPodSize_ok size other, dims, code, (), layout, (), clocks, ?_⟩
  split at distribution
  · rfl
  · simp only [bind_eq_ok] at distribution ⊢
    obtain ⟨_, admitted, policy⟩ := distribution
    exact ⟨(), admitAllAtOnce_ok admitted other, policy⟩
  · cases distribution

variable {packs : List (List DraftPack)} {session : DraftSession} {fifo : FifoDraftState}

theorem ScopeOk.later {clock : DraftClock} {target : DraftClockTarget}
    {paused : Option DraftPausedState} {duration now now' : Nat}
    (scope : ScopeOk clock target paused duration now) (le : now ≤ now') :
    ScopeOk clock target paused duration now' := by
  obtain ⟨same, state⟩ := scope
  refine ⟨same, ?_⟩
  cases paused with
  | none =>
    obtain ⟨deadlineMs, running, bounded, remaining⟩ := state
    exact ⟨deadlineMs, running, bounded, by omega⟩
  | some reason => exact state

theorem Prompted.later {policy : PickClockPolicy} {index : Nat} {seat : FifoSeatState}
    {fifo' : FifoDraftState} (prompted : Prompted policy fifo index seat)
    (identity : fifo'.sessionId = fifo.sessionId) (paused : fifo'.paused = fifo.paused)
    (le : fifo.lastNowMs ≤ fifo'.lastNowMs) : Prompted policy fifo' index seat := by
  refine ⟨⟨fun prompt there => ?_, prompted.bound, prompted.steps⟩, prompted.asked⟩
  obtain ⟨id, positive, front, clocked⟩ := prompted.prompts prompt there
  refine ⟨by rw [identity]; exact id, positive, front, ?_⟩
  unfold ClockOk at clocked ⊢
  cases duration : pickDuration policy seat.roundCompletedSteps with
  | none =>
    rw [duration] at clocked
    exact clocked
  | some duration' =>
    rw [duration] at clocked
    obtain ⟨running, same, scope⟩ := clocked
    exact ⟨running, same, by rw [paused]; exact scope.later le⟩

/-- Time may pass and revisions may be counted. -/
theorem FifoValid.restamp (valid : FifoValid packs session fifo) {revision now : Nat}
    (counted : revision ≤ maxDraftJsonInteger) (bounded : now ≤ maxDraftJsonInteger)
    (later : fifo.lastNowMs ≤ now) :
    FifoValid packs { session with fifo := some { fifo with revision, lastNowMs := now } }
      { fifo with revision, lastNowMs := now } := by
  refine ⟨⟨rfl, valid.flow, valid.config, valid.kind, valid.setCode, valid.identity, counted,
    bounded, valid.dims, valid.modern, valid.paused⟩, ?_⟩
  rcases valid.state with ⟨lobby, blank⟩ | ⟨running, started⟩
  · exact .inl ⟨lobby, blank⟩
  · have phase := started.phase
    have same : phaseOf { session with fifo := some { fifo with revision, lastNowMs := now } }
        { fifo with revision, lastNowMs := now } = phaseOf session fifo := rfl
    refine .inr ⟨running, started.deal, started.registered.congr rfl rfl, started.sizes, ?_,
      started.stock.congr rfl rfl rfl rfl rfl rfl rfl (.inr rfl) rfl, ?_⟩
    · unfold PhaseOk at phase ⊢
      rw [same]
      split at phase
      · exact phase
      · obtain ⟨passes, more, direction, empty, timed, clock, there, scope⟩ := phase
        exact ⟨passes, more, direction, empty, timed, clock, there, scope.later later⟩
      · exact phase
    · intro index seat there
      exact (started.prompts index seat there).later rfl rfl later

/-- After the draft the event may go on as it likes. -/
theorem FifoValid.afterDraft (valid : FifoValid packs session fifo) {status : DraftStatus}
    (over_ : phaseOf session fifo = none) (notLobby : session.status ≠ .lobby)
    (later : status ∈ [.deckbuilding, .pairing, .matchInProgress, .roundComplete, .complete])
    (event : EventRecord) : FifoValid packs { session with event, status } fifo := by
  have started := valid.started notLobby
  have notPaused : session.status ≠ .paused := by
    intro stopped
    obtain ⟨paused, there⟩ := Option.isSome_iff_exists.mp (valid.paused.mp stopped)
    rw [phaseOf, stopped, there] at over_
    cases over_
  have unpaused := valid.toFramed.unpaused notPaused
  have still : phaseOf { session with event, status } fifo = none ∧ status ≠ .lobby ∧
      status ≠ .paused := by
    simp only [mem_cons, not_mem_nil, or_false] at later
    rcases later with rfl | rfl | rfl | rfl | rfl <;> exact ⟨rfl, by decide, by decide⟩
  have phase := started.phase
  have stock := started.stock
  unfold PhaseOk at phase
  rw [over_] at phase stock
  refine ⟨⟨valid.there, valid.flow, valid.config, valid.kind, valid.setCode, valid.identity,
    valid.revision, valid.time, valid.dims, valid.modern, by simp [still.2.2, unpaused]⟩,
    .inr ⟨still.2.1, started.deal, started.registered, started.sizes, ?_, ?_, started.prompts⟩⟩
  · unfold PhaseOk
    rw [still.1]
    exact phase
  · rw [still.1]
    exact stock.congr rfl rfl rfl rfl rfl rfl rfl (.inr rfl) rfl

theorem phaseOf_eq_none {status : DraftStatus} (h : session.status = status)
    (later : status ∈ [.deckbuilding, .pairing, .matchInProgress, .roundComplete, .complete]) :
    phaseOf session fifo = none ∧ session.status ≠ .lobby := by
  rw [phaseOf, h]
  simp only [mem_cons, not_mem_nil, or_false] at later
  rcases later with rfl | rfl | rfl | rfl | rfl <;> exact ⟨rfl, by decide⟩

variable {seats : List DraftSeat}

/-- Seats may change hands and connect or drop at any time. -/
theorem FifoValid.reseated (valid : FifoValid packs session fifo) {connectedSeats : List Bool}
    (same : seats.length = session.seats.length)
    (connected : connectedSeats.length = session.connectedSeats.length) :
    FifoValid packs { session with seats, connectedSeats } fifo := by
  refine ⟨⟨valid.there, valid.flow, by rw [same]; exact valid.config, valid.kind,
    valid.setCode, valid.identity, valid.revision, valid.time, ?_, valid.modern, valid.paused⟩, ?_⟩
  · have dims := valid.dims
    simp only [DraftSession.perSeatLengths] at dims ⊢
    rwa [same, connected]
  · rcases valid.state with ⟨lobby, blank⟩ | ⟨running, started⟩
    · exact .inl ⟨lobby, blank⟩
    · exact .inr ⟨running, by rw [same]; exact started.deal, started.registered,
        started.sizes, started.phase,
        started.stock.congr rfl rfl rfl rfl rfl rfl rfl (.inr rfl) rfl, started.prompts⟩

section
variable {rules : EventRules} {next : DraftSession} {deltas : List DraftDelta}

variable {seat : Nat}

section
variable (valid : FifoValid packs session fifo)
include valid

theorem applySubmitDeck_valid {mainDeck commanders : List String}
    (h : applySubmitDeck rules session seat mainDeck commanders = .ok (next, deltas)) :
    FifoValid packs next fifo := by
  simp only [applySubmitDeck, ite_error_eq_ok, ne_eq, Decidable.not_not] at h
  obtain ⟨status, _, h⟩ := h
  obtain ⟨over_, notLobby⟩ := @phaseOf_eq_none session fifo _ status (by simp)
  split at h
  · cases h
  · next event _ =>
    obtain ⟨rfl, _⟩ := Prod.mk.inj (Except.ok.inj h)
    have same : FifoValid packs { session with event, status := .deckbuilding } fifo :=
      valid.afterDraft over_ notLobby (by simp) event
    rwa [← status] at same
  · next event _ =>
    obtain ⟨rfl, _⟩ := Prod.mk.inj (Except.ok.inj h)
    refine valid.afterDraft over_ notLobby ?_ event
    cases session.kind.procedure.postDraftPlay <;> simp

theorem applyGeneratePairings_valid (h : applyGeneratePairings rules session = .ok (next, deltas)) :
    FifoValid packs next fifo := by
  simp only [applyGeneratePairings, ite_error_eq_ok, Except.ok.injEq, Prod.mk.injEq] at h
  obtain ⟨status, _, _, rfl, _⟩ := h
  have before : session.status = .deckbuilding ∨ session.status = .pairing ∨
      session.status = .roundComplete := by
    by_contra none_
    simp only [not_or] at none_
    exact status none_
  rcases before with status | status | status
  all_goals
    obtain ⟨over_, notLobby⟩ := @phaseOf_eq_none session fifo _ status (by simp)
    exact valid.afterDraft over_ notLobby (by simp) _

theorem applyReportMatchResult_valid {matchId : String} {winnerSeat : Option Nat}
    (h : applyReportMatchResult rules session matchId winnerSeat = .ok (next, deltas)) :
    FifoValid packs next fifo := by
  simp only [applyReportMatchResult, ite_error_eq_ok] at h
  obtain ⟨status, h⟩ := h
  have before : session.status ∈
      [.deckbuilding, .pairing, .matchInProgress, .roundComplete, .complete] := by
    by_contra none_
    simp only [mem_cons, not_or] at none_
    exact status ⟨none_.2.2.1, none_.2.2.2.1⟩
  obtain ⟨over_, notLobby⟩ := @phaseOf_eq_none session fifo _ rfl before
  split at h
  · cases h
  · next event _ =>
    obtain ⟨rfl, _⟩ := Prod.mk.inj (Except.ok.inj h)
    exact valid.afterDraft over_ notLobby before event
  · next event finished _ =>
    obtain ⟨rfl, _⟩ := Prod.mk.inj (Except.ok.inj h)
    refine valid.afterDraft over_ notLobby ?_ event
    split <;> simp

theorem applyAdvanceRound_valid (h : applyAdvanceRound session = .ok (next, deltas)) :
    FifoValid packs next fifo := by
  simp only [applyAdvanceRound, ite_error_eq_ok, ne_eq, Decidable.not_not, Except.ok.injEq,
    Prod.mk.injEq] at h
  obtain ⟨status, rfl, _⟩ := h
  obtain ⟨over_, notLobby⟩ := @phaseOf_eq_none session fifo _ status (by simp)
  exact valid.afterDraft over_ notLobby (by simp) session.event

theorem applyReplaceSeatWithBot_valid {name : Option String}
    (h : applyReplaceSeatWithBot session seat name = .ok (next, deltas)) :
    FifoValid packs next fifo := by
  simp only [applyReplaceSeatWithBot, ite_error_eq_ok, Except.ok.injEq, Prod.mk.injEq] at h
  obtain ⟨_, rfl, _⟩ := h
  exact valid.reseated (length_set ..) rfl

theorem applySetSeatConnected_valid {connected : Bool}
    (h : applySetSeatConnected session seat connected = .ok (next, deltas)) :
    FifoValid packs next fifo := by
  have dims := valid.dims
  simp only [DraftSession.perSeatLengths, mem_cons] at dims
  have full : session.connectedSeats.length = session.seats.length := dims _ (by simp)
  unfold applySetSeatConnected at h
  split at h
  · cases h
  · cases h
  · obtain ⟨rfl, _⟩ := Prod.mk.inj (Except.ok.inj h)
    refine valid.reseated rfl ?_
    rw [length_set, ensureLen_of_length _ full]

end

end

/-- A pack source that, when it is asked, deals what the configuration asks for. -/
def GoodSource (seatCount packCount : Nat)
    (source : Option (Except DraftError (List (List DraftPack)))) : Prop :=
  ∀ generated, source = some generated →
    ∃ packs, generated = .ok packs ∧ GoodDeal seatCount packCount packs

/-- The invariant without the deal it is about. -/
def FifoSound (session : DraftSession) : Prop :=
  ∃ packs fifo, FifoValid packs session fifo

theorem FifoValid.redeal (valid : FifoValid packs session fifo) (lobby : session.status = .lobby)
    (packs' : List (List DraftPack)) : FifoValid packs' session fifo := by
  rcases valid.state with blank | ⟨running, _⟩
  · exact ⟨valid.toFramed, .inl blank⟩
  · exact absurd lobby running

section
variable {rules : EventRules} {source : Option (Except DraftError (List (List DraftPack)))}

section
variable (valid : FifoValid packs session fifo)
  (good : GoodSource session.seats.length session.config.packCount source)
include valid good

theorem startFifo_trusts : Trusts (startFifo session source fifo.lastNowMs) := by
  refine avoids_guard id fun status => ?_
  have lobby : session.status = .lobby := by simpa using status
  refine (avoids_of_ok (validateFifoConfig_any valid.config _)).bind fun _ _ => ?_
  split
  · exact avoids_error id
  · next generated =>
    obtain ⟨packs', rfl, deal⟩ := good generated rfl
    refine (avoids_ok _).bind fun _ same => ?_
    obtain rfl := Except.ok.inj same
    have dims : ¬(packs'.length ≠ session.seats.length ∨
        packs'.any (fun row => row.length ≠ session.config.packCount) = true) := by
      simp only [not_or, ne_eq, Decidable.not_not, any_eq_true, decide_eq_true_eq, not_exists,
        not_and]
      exact ⟨deal.seats, deal.rounds⟩
    rw [if_neg dims, fifoRef_of valid.there]
    refine (avoids_ok _).bind fun _ same => ?_
    obtain rfl := Except.ok.inj same
    have valid' := valid.redeal lobby packs'
    have blank : Blank session fifo := by
      rcases valid.state with ⟨_, checked⟩ | ⟨running, _⟩
      · exact blank_of_lobby checked
      · exact absurd lobby running
    obtain ⟨fifo', registered, _⟩ := registerPacks_registered deal blank.packs blank.cards
    rw [registered]
    refine (avoids_ok _).bind fun _ same => ?_
    obtain rfl := Except.ok.inj same
    obtain ⟨dealt, time⟩ := valid'.dealt lobby deal registered
    split
    · exact avoids_ok _
    · next passes =>
      obtain ⟨underway, empty⟩ := dealt.opens passes
      have opens := openFifoRound_trusts dealt.toFramed (by rw [dealt.lobby]; decide)
        dealt.toFramed.sizes.2.2 underway empty
      rw [time] at opens
      exact opens.bind fun _ _ => avoids_ok _
    · exact avoids_error id

theorem reduceFifo_trusts (action : DraftAction) :
    Trusts (reduceFifo rules source session fifo.lastNowMs action) := by
  cases action with
  | startDraft => exact startFifo_trusts valid good
  | select seat promptId picked burned effects => exact selectFifo_trusts valid _ _ _ _ _ _
  | control action => exact control_trusts valid action
  | advanceClock => exact advance_trusts valid
  | pick | pickWithDraftEffect | sharedStackDecision => exact avoids_error id
  | submitDeck seat mainDeck commanders =>
    refine avoids_ite (fun _ => avoids_error id) fun _ =>
      avoids_ite (fun _ => avoids_error id) fun _ => ?_
    split
    · exact avoids_error id
    · exact avoids_ok _
    · exact avoids_ok _
  | generatePairings =>
    exact avoids_ite (fun _ => avoids_error id) fun _ => avoids_ite (fun _ => avoids_error id)
      fun _ => avoids_ite (fun _ => avoids_error id) fun _ => avoids_ok _
  | reportMatchResult matchId winnerSeat =>
    refine avoids_ite (fun _ => avoids_error id) fun _ => ?_
    split
    · exact avoids_error id
    · exact avoids_ok _
    · exact avoids_ok _
  | advanceRound => exact avoids_ite (fun _ => avoids_error id) fun _ => avoids_ok _
  | replaceSeatWithBot seat name => exact avoids_ite (fun _ => avoids_error id) fun _ => avoids_ok _
  | setSeatConnected seat connected =>
    change Trusts (applySetSeatConnected session seat connected)
    unfold applySetSeatConnected
    split
    · exact avoids_error id
    · exact avoids_error id
    · exact avoids_ok _

end

variable {deltas : List DraftDelta} {action : DraftAction}

section
variable (valid : FifoValid packs session fifo)
  (good : GoodSource session.seats.length session.config.packCount source)
include valid good

/-- Whatever a valid session is asked to do, what comes out is valid. -/
theorem reduceFifo_sound {next : DraftSession}
    (h : reduceFifo rules source session fifo.lastNowMs action = .ok (next, deltas)) :
    FifoSound next := by
  cases action with
  | startDraft =>
    obtain ⟨packs', _, _, rfl, lobby, _⟩ := startFifo_ok h
    obtain ⟨_, same, deal⟩ := good _ rfl
    obtain rfl := Except.ok.inj same
    exact ⟨packs', startFifo_valid (valid.redeal lobby packs') deal h⟩
  | select seat promptId picked burned effects => exact ⟨packs, selectFifo_valid valid h⟩
  | control action => exact ⟨packs, control_valid valid h⟩
  | advanceClock => exact ⟨packs, advance_valid valid h⟩
  | pick | pickWithDraftEffect | sharedStackDecision => cases h
  | submitDeck seat mainDeck commanders => exact ⟨packs, fifo, applySubmitDeck_valid valid h⟩
  | generatePairings => exact ⟨packs, fifo, applyGeneratePairings_valid valid h⟩
  | reportMatchResult matchId winnerSeat =>
    exact ⟨packs, fifo, applyReportMatchResult_valid valid h⟩
  | advanceRound => exact ⟨packs, fifo, applyAdvanceRound_valid valid h⟩
  | replaceSeatWithBot seat name => exact ⟨packs, fifo, applyReplaceSeatWithBot_valid valid h⟩
  | setSeatConnected seat connected => exact ⟨packs, fifo, applySetSeatConnected_valid valid h⟩

/-- The candidate of an operation passes the check that decides whether it is kept. -/
theorem FifoValid.commits {nowMs now : Nat} {staged candidate committed : DraftSession}
    (clamped : clampedNow session nowMs = .ok now) (stamped : stamp session now = .ok staged)
    (reduced : reduceFifo rules source staged now action = .ok (candidate, deltas))
    (bumped : bumpRevision candidate = .ok committed) :
    FifoSound committed ∧ validateFifoSnapshot committed = .ok () := by
  simp only [clampedNow, guard_eq_ok, bind_eq_ok, fifoRef_ok, pure_eq_ok, valid.there,
    Option.some.injEq, exists_eq_left'] at clamped
  obtain ⟨bounded, rfl⟩ := clamped
  simp only [stamp, bind_eq_ok, fifoRef_ok, pure_eq_ok, valid.there, Option.some.injEq,
    exists_eq_left'] at stamped
  subst stamped
  have time : max nowMs fifo.lastNowMs ≤ maxDraftJsonInteger :=
    Nat.max_le.mpr ⟨by omega, valid.time⟩
  have stagedValid := valid.restamp valid.revision time (Nat.le_max_right _ _)
  obtain ⟨packs', fifo', valid'⟩ := reduceFifo_sound stagedValid good reduced
  simp only [bumpRevision, bind_eq_ok, fifoRef_ok, increment_ok, pure_eq_ok, valid'.there,
    Option.some.injEq, exists_eq_left'] at bumped
  obtain ⟨_, ⟨counted, rfl⟩, rfl⟩ := bumped
  have done := valid'.restamp counted valid'.time (Nat.le_refl _)
  exact ⟨⟨packs', _, done⟩, validateFifoSnapshot_of done⟩

end

section
variable (sound : FifoSound session)
  (good : GoodSource session.seats.length session.config.packCount source)
include sound good

theorem applyAt_trusts (action : DraftAction) (nowMs : Nat) :
    Trusts (applyAt rules source session action nowMs) := by
  obtain ⟨packs, fifo, valid⟩ := sound
  refine (avoids_of_ok (validateFifoSnapshot_of valid)).bind fun _ _ => ?_
  refine Avoids.bind ?_ fun now clamped => ?_
  · refine avoids_guard id fun _ => ?_
    rw [fifoRef_of valid.there]
    exact (avoids_ok _).bind fun _ _ => avoids_ok _
  refine Avoids.bind ?_ fun staged stamped => ?_
  · unfold stamp
    rw [fifoRef_of valid.there]
    exact (avoids_ok _).bind fun _ _ => avoids_ok _
  have stagedValid : ∃ fifo', FifoValid packs staged fifo' ∧ fifo'.lastNowMs = now ∧
      staged.seats = session.seats ∧ staged.config = session.config := by
    simp only [clampedNow, guard_eq_ok, bind_eq_ok, fifoRef_ok, pure_eq_ok, valid.there,
      Option.some.injEq, exists_eq_left'] at clamped
    obtain ⟨bounded, rfl⟩ := clamped
    simp only [stamp, bind_eq_ok, fifoRef_ok, pure_eq_ok, valid.there, Option.some.injEq,
      exists_eq_left'] at stamped
    subst stamped
    exact ⟨_, valid.restamp valid.revision (Nat.max_le.mpr ⟨by omega, valid.time⟩)
      (Nat.le_max_right _ _), rfl, rfl, rfl⟩
  obtain ⟨fifo', valid', rfl, seats, config⟩ := stagedValid
  have good' : GoodSource staged.seats.length staged.config.packCount source := by
    rwa [seats, config]
  refine (reduceFifo_trusts valid' good' action).bind fun applied reduced => ?_
  obtain ⟨candidate, deltas⟩ := applied
  refine avoids_ite (fun _ => avoids_ok _) fun _ => ?_
  refine Avoids.bind ?_ fun committed bumped => ?_
  · obtain ⟨_, fifo'', candidateValid⟩ := reduceFifo_sound valid' good' reduced
    unfold bumpRevision
    rw [fifoRef_of candidateValid.there]
    exact (avoids_ok _).bind fun _ _ => (increment_trusts _).bind fun _ _ => avoids_ok _
  · obtain ⟨_, checked⟩ := valid.commits good clamped stamped reduced bumped
    exact (avoids_of_ok checked).bind fun _ _ => avoids_ok _

theorem applyAt_sound {nowMs : Nat} {next : DraftSession}
    (h : applyAt rules source session action nowMs = .ok (next, deltas)) : FifoSound next := by
  obtain ⟨packs, fifo, valid⟩ := sound
  simp only [applyAt, bind_eq_ok, Prod.exists] at h
  obtain ⟨_, _, now, clamped, staged, stamped, candidate, _, reduced, h⟩ := h
  split at h
  · obtain ⟨rfl, _⟩ := Prod.mk.inj (pure_eq_ok.mp h)
    exact ⟨packs, fifo, valid⟩
  · simp only [bind_eq_ok, pure_eq_ok, Prod.mk.injEq] at h
    obtain ⟨committed, bumped, _, _, rfl, _⟩ := h
    exact (valid.commits good clamped stamped reduced bumped).1

end

end

/-- The session after an operation: the committed candidate, or what was there. -/
def afterApply (rules : EventRules) (source : Option (Except DraftError (List (List DraftPack))))
    (session : DraftSession) (action : DraftAction) (nowMs : Nat) : DraftSession :=
  match applyAt rules source session action nowMs with
  | .ok (next, _) => next
  | .error _ => session

/-- Any operations at any observed times, accepted or refused. -/
inductive FifoRun (rules : EventRules) (start : DraftSession) : DraftSession → Prop
  | start : FifoRun rules start start
  | step {session : DraftSession} {source : Option (Except DraftError (List (List DraftPack)))}
      (action : DraftAction) (nowMs : Nat) (run : FifoRun rules start session)
      (good : GoodSource session.seats.length session.config.packCount source) :
      FifoRun rules start (afterApply rules source session action nowMs)

theorem FifoRun.sound {rules : EventRules} {start reached : DraftSession}
    (run : FifoRun rules start reached) (sound : FifoSound start) : FifoSound reached := by
  induction run with
  | start => exact sound
  | @step session source action nowMs _ good ih =>
    unfold afterApply
    split
    · next done => exact applyAt_sound ih good done
    · exact ih

theorem newFifo_sound {sessionId : String} {lobby : DraftSession}
    (created : newFifo config seats sessionId = .ok lobby) : FifoSound lobby := by
  obtain ⟨flow, admitted, identity, rfl, checked⟩ := newFifo_ok created
  simp only [validateFifoSnapshot, bind_eq_ok, fifoRef_ok] at checked
  obtain ⟨_, _, _, _, fifo, there, _, counters, _, dims, _, modern, _, _, _, _, blank⟩ := checked
  obtain rfl := Option.some.inj there
  refine ⟨[], _, ⟨rfl, flow, validateFifoConfig_any admitted _, rfl, rfl, identity, Nat.zero_le _,
    Nat.zero_le _, ?_, refuseIf_eq_ok.mp modern, by simp [lobbySession, DraftSession.new]⟩,
    .inl ⟨rfl, ?_⟩⟩
  · intro length mem
    have := any_eq_false.mp (refuseIf_eq_ok.mp dims) length mem
    simpa using this
  · exact blank

/-- Every session a FIFO draft reaches passes its own check, and no operation on it
is refused because the session, or what the operation makes of it, fails that check. -/
theorem fifo_sessions_stay_valid {rules : EventRules} {config : DraftConfig}
    {seats : List DraftSeat} {sessionId : String} {lobby reached : DraftSession}
    (created : newFifo config seats sessionId = .ok lobby) (run : FifoRun rules lobby reached) :
    validateFifoSnapshot reached = .ok () ∧
      ∀ source action nowMs, GoodSource reached.seats.length reached.config.packCount source →
        (∀ reason, applyAt rules source reached action nowMs ≠ .error (.invalidSnapshot reason)) ∧
        ∀ now staged candidate committed deltas, clampedNow reached nowMs = .ok now →
          stamp reached now = .ok staged →
          reduceFifo rules source staged now action = .ok (candidate, deltas) →
          bumpRevision candidate = .ok committed → validateFifoSnapshot committed = .ok () := by
  have sound := run.sound (newFifo_sound created)
  obtain ⟨packs, fifo, valid⟩ := sound
  refine ⟨validateFifoSnapshot_of valid, fun source action nowMs good => ⟨?_, ?_⟩⟩
  · intro reason failed
    exact applyAt_trusts ⟨packs, fifo, valid⟩ good action nowMs _ failed trivial
  · intro now staged candidate committed deltas clamped stamped reduced bumped
    exact (valid.commits good clamped stamped reduced bumped).2

theorem unevenPacks_good : GoodDeal 2 1 unevenPacks :=
  ⟨rfl, by decide, by decide, by decide +kernel, by decide +kernel⟩

/-- A draft that is started and then paused. -/
theorem paused_draft_is_valid : ∃ stopped : DraftSession,
    stopped = afterApply noEvent none
      (afterApply noEvent (some (.ok unevenPacks)) fifoLobby .startDraft 0)
      (.control (.pause .pausedByHost)) 5 ∧
    stopped.status = .paused ∧ validateFifoSnapshot stopped = .ok () := by
  have created : newFifo fifoConfig twoSeats "draft" = .ok fifoLobby := by decide +kernel
  have good : GoodSource fifoLobby.seats.length fifoLobby.config.packCount
      (some (.ok unevenPacks)) := fun generated same =>
    ⟨unevenPacks, (Option.some.inj same).symm, unevenPacks_good⟩
  have started : FifoRun noEvent fifoLobby
      (afterApply noEvent (some (.ok unevenPacks)) fifoLobby .startDraft 0) :=
    FifoRun.start.step .startDraft 0 good
  have none_ : ∀ seatCount packCount, GoodSource seatCount packCount none :=
    fun _ _ _ same => nomatch same
  have run := started.step (.control (.pause .pausedByHost)) 5 (none_ _ _)
  exact ⟨_, rfl, by decide +kernel, (fifo_sessions_stay_valid created run).1⟩

end Phase.Draft
