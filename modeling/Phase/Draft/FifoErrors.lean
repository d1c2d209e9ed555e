import Phase.Draft.FifoPreserve
import Phase.Draft.FifoStart

/-! A valid FIFO session is never reported as corrupt: no operation on it fails with
an `invalidSnapshot` error. -/
namespace Phase.Draft
open Fallible

def DraftError.isInvalidSnapshot : DraftError → Prop
  | .invalidSnapshot _ => True
  | _ => False

/-- A computation that never calls the session corrupt. -/
abbrev Trusts {α : Type} (x : Except DraftError α) : Prop :=
  Avoids DraftError.isInvalidSnapshot x

theorem increment_trusts (value : Nat) : Trusts (increment value) :=
  avoids_ite (fun _ => avoids_ok _) fun _ => avoids_error id

theorem deadline_trusts (now remaining : Nat) : Trusts (deadline now remaining) :=
  avoids_ite (fun _ => avoids_ok _) fun _ => avoids_error id

theorem running_trusts (target : DraftClockTarget) (now duration : Nat) :
    Trusts (running target now duration) :=
  (deadline_trusts now duration).bind fun _ _ => avoids_ok _

theorem promptClock_trusts (policy : PickClockPolicy) (id : DraftPromptId) (steps now : Nat) :
    Trusts (promptClock policy id steps now) := by
  unfold promptClock
  split
  · exact avoids_ok _
  · exact (running_trusts _ _ _).map _

theorem reconcileSeat_trusts (policy : PickClockPolicy) (sessionId : String) (now index : Nat)
    (seat : FifoSeatState) : Trusts (reconcileSeat policy sessionId now index seat) := by
  unfold reconcileSeat
  split
  · exact avoids_ok _
  · refine avoids_ite (fun _ => avoids_ok _) fun _ => ?_
    exact (increment_trusts _).bind fun _ _ => (promptClock_trusts _ _ _ _).bind fun _ _ =>
      avoids_ok _

theorem reconcileSeats_trusts (policy : PickClockPolicy) (sessionId : String) (now index : Nat)
    (seats : List FifoSeatState) : Trusts (reconcileSeats policy sessionId now index seats) := by
  induction seats generalizing index with
  | nil => exact avoids_ok _
  | cons seat seats ih =>
    exact (reconcileSeat_trusts _ _ _ _ _).bind fun _ _ => (ih _).bind fun _ _ => avoids_ok _

variable {packs : List (List DraftPack)} {session : DraftSession} {fifo : FifoDraftState}

theorem reconcilePrompts_trusts (there : session.fifo = some fifo) (now : Nat) :
    Trusts (reconcilePrompts session now) := by
  unfold reconcilePrompts
  rw [fifoRef_of there]
  exact (avoids_ok _).bind fun _ _ => (reconcileSeats_trusts _ _ _ _ _).bind fun _ _ => avoids_ok _

theorem openFifoRound_trusts (framed : Framed session fifo) {round : Nat}
    (status : session.status ≠ .paused) (bound : round < session.config.packCount)
    (underway : Underway packs session fifo round) (empty : ∀ seat ∈ fifo.seats, seat.queue = []) :
    Trusts (openFifoRound session round fifo.lastNowMs) := by
  obtain ⟨eq, midway, _⟩ := openFifoRound_midway framed status bound underway empty
  rw [eq]
  exact reconcilePrompts_trusts midway.there _

theorem finishFifoRound_trusts (midway : Midway packs session fifo) :
    Trusts (finishFifoRound session fifo.lastNowMs) := by
  unfold finishFifoRound
  rw [fifoRef_of midway.there]
  refine (avoids_ok _).bind fun waiting same => ?_
  obtain rfl := Except.ok.inj same
  refine (reconcilePrompts_trusts midway.there _).bind fun next reconciled => ?_
  obtain ⟨_, seats, there, seatsOk, rfl⟩ := reconcilePrompts_ok reconciled
  obtain rfl := Option.some.inj (midway.there.symm.trans there)
  obtain ⟨underway, drained⟩ := midway.reconciled seatsOk
  have framed := midway.toFramed.reseat (reconcileSeats_ok seatsOk).1
  refine avoids_ite (fun _ => avoids_ok _) fun idle => ?_
  have empty : ∀ seat ∈ fifo.seats, seat.queue = [] := by simpa using idle
  refine avoids_guard id fun _ => avoids_ite (fun _ => avoids_ok _) fun more => ?_
  have bound : session.currentPackNumber + 1 < session.config.packCount := by
    have := midway.round
    dsimp only at more
    omega
  refine avoids_ite (fun _ => ?_) fun _ => ?_
  · exact (openFifoRound_trusts framed (by rw [midway.drafting]; decide) bound underway
      (drained empty)).bind fun _ _ => avoids_ok _
  · refine (running_trusts _ _ _).bind fun _ _ => ?_
    exact (avoids_ok _).bind fun _ _ => avoids_ok _

theorem checkIds_trusts (role : DraftSelectionRole) (effects : List String) (head : DraftPack)
    (selected ids : List String) : Trusts (checkIds role effects head selected ids) := by
  induction ids generalizing selected with
  | nil => exact avoids_ok _
  | cons card ids ih =>
    exact avoids_ite (fun _ => avoids_error id) fun _ =>
      avoids_ite (fun _ => avoids_error id) fun _ => ih _

theorem checkRole_trusts (role : DraftSelectionRole) (effects : List String) (head : DraftPack)
    (ids : List String) (expected : Nat) (selected : List String) :
    Trusts (checkRole role effects head ids expected selected) :=
  avoids_ite (fun _ => avoids_error id) fun _ => checkIds_trusts _ _ _ _ _

theorem checkEffects_trusts (pool : List DraftCardInstance) (seen effects : List String) :
    Trusts (checkEffects pool seen effects) := by
  induction effects generalizing seen with
  | nil => exact avoids_ok _
  | cons card effects ih =>
    exact avoids_ite (fun _ => avoids_error id) fun _ =>
      avoids_ite (fun _ => avoids_error id) fun _ => ih _

theorem selectionRequirements_trusts (session : DraftSession) (seat : Nat) (effects : List String) :
    Trusts (selectionRequirements session seat effects) := by
  unfold selectionRequirements
  split
  · exact avoids_error id
  · refine (checkEffects_trusts _ _ _).bind fun _ _ => ?_
    refine avoids_ite (fun _ => avoids_ok _) fun _ => ?_
    exact avoids_guard id fun _ => avoids_ok _

theorem checkPrompt_trusts (fifo : FifoDraftState) (seat : Nat) (promptId : DraftPromptId)
    (head : QueuedDraftPack) (prompt : DraftPrompt) (timing : SelectionTiming) :
    Trusts (checkPrompt fifo seat promptId head prompt timing) := by
  refine avoids_guard id fun _ => ?_
  split
  case h_2 => exact avoids_error id
  all_goals
    refine (avoids_ok _).bind fun _ _ => ?_
    cases timing with
    | human => exact avoids_ite (fun _ => avoids_error id) fun _ => avoids_ok _
    | expiry packId deadlineMs => exact avoids_ite (fun _ => avoids_error id) fun _ => avoids_ok _

theorem moveSelection_trusts (session : DraftSession) (fifo : FifoDraftState) (seat : Nat)
    (state : FifoSeatState) (head : QueuedDraftPack) (picked burned effects : List String) :
    Trusts (moveSelection session fifo seat state head picked burned effects) :=
  (increment_trusts _).bind fun _ _ => (increment_trusts _).bind fun _ _ => avoids_ok _

theorem selectFifo_trusts (valid : FifoValid packs session fifo) (seat : Nat)
    (promptId : DraftPromptId) (picked burned effects : List String) (timing : SelectionTiming) :
    Trusts (selectFifo session seat promptId picked burned effects timing) := by
  refine avoids_guard id fun status => avoids_guard id fun bound => ?_
  have drafting : session.status = .drafting := by simpa using status
  rw [fifoRef_of valid.there]
  refine (avoids_ok _).bind fun _ same => ?_
  obtain rfl := Except.ok.inj same
  split
  · next state head seated front =>
    split
    · exact avoids_error id
    · next prompt prompted =>
      refine (checkPrompt_trusts _ _ _ _ _ _).bind fun _ checked => ?_
      refine (selectionRequirements_trusts _ _ _).bind fun _ required => ?_
      refine (checkRole_trusts _ _ _ _ _ _).bind fun _ picks => ?_
      refine (checkRole_trusts _ _ _ _ _ _).bind fun _ burns => ?_
      refine (moveSelection_trusts _ _ _ _ _ _ _ _).bind fun ⟨after, discarded, passed⟩ done => ?_
      have admitted := admitted_of_checks valid.flow valid.there drafting (by omega) seated front
        prompted checked required picks burns
      obtain ⟨_, rfl⟩ := moveSelection_ok done
      obtain ⟨fifo', midway, _⟩ := (valid.midway drafting).moved admitted
      refine Avoids.bind ?_ fun _ _ => avoids_ok _
      unfold finishFifoPick
      rw [fifoRef_of midway.there]
      refine (avoids_ok _).bind fun _ same => ?_
      obtain rfl := Except.ok.inj same
      exact (finishFifoRound_trusts midway).bind fun _ _ => avoids_ok _
  · exact avoids_error id

section
variable {f : DraftClock → Except DraftError DraftClock}

theorem mapSeatClocks_trusts {seats : List FifoSeatState} (each : ∀ seat ∈ seats, ∀ prompt clock,
      seat.prompt = some prompt → prompt.clock = some clock → Trusts (f clock)) :
    Trusts (mapSeatClocks f seats) := by
  induction seats with
  | nil => exact avoids_ok _
  | cons seat seats ih =>
    refine Avoids.bind ?_ fun _ _ => Avoids.bind ?_ fun _ _ => avoids_ok _
    · unfold mapPromptClock
      split
      · exact avoids_ok _
      · next prompt there =>
        split
        · exact avoids_ok _
        · next clock timed =>
          exact (each seat List.mem_cons_self prompt clock there timed).bind fun _ _ =>
            avoids_ok _
    · exact ih fun other later => each other (List.mem_cons_of_mem seat later)

theorem mapReviewClock_trusts {review : Option DraftReviewState}
    (each : ∀ old, review = some old → Trusts (f old.clock)) : Trusts (mapReviewClock f review) := by
  cases review with
  | none => exact avoids_ok _
  | some old => exact (each old rfl).bind fun _ _ => avoids_ok _

/-- Every clock of a live draft has a scope. -/
theorem forEachClock_trusts (started : Started packs session fifo) {phase : DraftActivePhase}
    (live : phaseOf session fifo = some phase) (each : ∀ clock target duration,
      ScopeOk clock target fifo.paused duration fifo.lastNowMs → Trusts (f clock)) :
    Trusts (forEachClock fifo f) := by
  refine Avoids.bind (mapSeatClocks_trusts ?_) fun _ _ =>
    Avoids.bind (mapReviewClock_trusts ?_) fun _ _ => avoids_ok _
  · intro seat mem prompt clock there timed
    obtain ⟨index, at_⟩ := List.mem_iff_getElem?.mp mem
    obtain ⟨_, _, _, clocked⟩ := (started.prompts index seat at_).prompts prompt there
    unfold ClockOk at clocked
    rw [timed] at clocked
    split at clocked
    · cases clocked
    · obtain ⟨_, same, scope⟩ := clocked
      obtain rfl := Option.some.inj same
      exact each _ _ _ scope
  · intro old there
    have phaseOk := started.phase
    rw [PhaseOk, live] at phaseOk
    cases phase with
    | drafting =>
      rw [phaseOk.2.2.2.2] at there
      cases there
    | review =>
      obtain ⟨_, _, _, _, _, clock, there', scope⟩ := phaseOk
      obtain rfl := Option.some.inj (there'.symm.trans there)
      exact each _ _ _ scope

end

theorem freeze_trusts {now duration : Nat} {clock : DraftClock} {target : DraftClockTarget}
    (scope : ScopeOk clock target none duration now) : Trusts (freeze now clock) := by
  obtain ⟨_, deadlineMs, state, _⟩ := scope
  unfold freeze
  rw [state]
  exact avoids_ok _

theorem thaw_trusts {now duration : Nat} {clock : DraftClock} {target : DraftClockTarget}
    {reason : DraftPausedState} (scope : ScopeOk clock target (some reason) duration now) :
    Trusts (thaw now clock) := by
  obtain ⟨_, remainingMs, state, _⟩ := scope
  unfold thaw
  rw [state]
  exact (deadline_trusts _ _).bind fun _ _ => avoids_ok _

theorem control_trusts (valid : FifoValid packs session fifo) (action : DraftControl) :
    Trusts (control session action fifo.lastNowMs) := by
  unfold control
  cases action with
  | pause reason =>
    dsimp only
    split
    · exact avoids_error id
    · next phase active =>
      have live : phaseOf session fifo = some phase ∧ session.status ≠ .lobby ∧
          session.status ≠ .paused := phase_of_active active
      rw [fifoRef_of valid.there]
      refine (avoids_ok _).bind fun _ same => ?_
      obtain rfl := Except.ok.inj same
      refine (forEachClock_trusts (valid.started live.2.1) live.1 ?_).bind fun _ _ => avoids_ok _
      intro clock target duration scope
      rw [valid.toFramed.unpaused live.2.2] at scope
      exact freeze_trusts scope
  | resume =>
    refine avoids_ite (fun _ => avoids_error id) fun status => ?_
    have stopped : session.status = .paused := by simpa using status
    obtain ⟨paused, frozen⟩ := Option.isSome_iff_exists.mp (valid.paused.mp stopped)
    rw [fifoRef_of valid.there]
    refine (avoids_ok _).bind fun _ same => ?_
    obtain rfl := Except.ok.inj same
    have live : phaseOf session fifo = some paused.phase := by
      rw [phaseOf, stopped, frozen]
      rfl
    rw [frozen]
    refine (forEachClock_trusts (valid.started (by rw [stopped]; decide)) live ?_).bind
      fun _ _ => avoids_ok _
    intro clock target duration scope
    rw [frozen] at scope
    exact thaw_trusts scope

theorem expirePrompts_trusts {captured : List (DraftPromptId × DraftPackId × Nat)}
    (valid : FifoValid packs session fifo) : Trusts (expirePrompts captured session) := by
  induction captured generalizing session fifo with
  | nil => exact avoids_ok _
  | cons entry captured ih =>
    unfold expirePrompts
    rw [fifoRef_of valid.there]
    refine (avoids_ok _).bind fun _ _ => avoids_ite (fun _ => ?_) fun _ => ih valid
    split
    · exact ih valid
    · refine (selectFifo_trusts valid _ _ _ _ _ _).bind fun ⟨next, deltas⟩ selected => ?_
      obtain ⟨fifo', valid'⟩ := selectFifo_valid valid selected
      exact (ih valid').bind fun _ _ => avoids_ok _

theorem advance_trusts (valid : FifoValid packs session fifo) :
    Trusts (advance session fifo.lastNowMs) := by
  unfold advance
  split
  · next status =>
    obtain ⟨underway, more, empty, clock, deadlineMs, there, state⟩ := valid.reviewing status
    rw [fifoRef_of valid.there]
    refine (avoids_ok _).bind fun _ same => ?_
    obtain rfl := Except.ok.inj same
    rw [there]
    dsimp only
    rw [state]
    refine avoids_ite (fun _ => ?_) fun _ => avoids_ok _
    exact (openFifoRound_trusts valid.toFramed (by rw [status]; decide) more underway empty).bind
      fun _ _ => avoids_ok _
  · rw [fifoRef_of valid.there]
    exact (avoids_ok _).bind fun _ _ => expirePrompts_trusts valid
  · exact avoids_ok _

end Phase.Draft
