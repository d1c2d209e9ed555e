import Phase.Contest.Calls

/-! What every call keeps, whatever was called before and however the stamps run. -/
namespace Phase.Contest
open ContestState ContestPhase

theorem ContestPhase.canTransitionTo_of_running {phase : ContestPhase}
    (running : phase.running = true) :
    phase.canTransitionTo .resolving = true ∧ phase.canTransitionTo .cancelled = true := by
  cases phase <;> simp_all [ContestPhase.running, ContestPhase.canTransitionTo]

structure Sound (c : ContestState) : Prop where
  result : c.result.isSome = !c.phase.running
  paused : c.pausedSinceMs.isSome = true ↔ ∃ i, (c.contestants i).connection ≠ .connected
  going : c.phase = .preparing ∨ c.phase = .active → c.goAtMs.isSome = true

/-- One call never turns the clock back, and moves the phase along an edge at most. -/
structure Follows (c d : ContestState) : Prop where
  clock : c.clockMs ≤ d.clockMs
  phase : d.phase = c.phase ∨ c.phase.canTransitionTo d.phase = true

namespace ContestState

theorem resume_eq {c : ContestState} {pausedSince : Nat}
    (paused : c.pausedSinceMs = some pausedSince) (now : Nat) :
    c.resume now =
      { c with
        pausedSinceMs := none
        goAtMs := if c.phase = .preparing ∨ c.phase = .active then
          c.goAtMs.map (· + (now - pausedSince)) else c.goAtMs
        contestants := fun i => if c.phase = .active then
          { c.contestants i with
            lastActivityMs := (c.contestants i).lastActivityMs + (now - pausedSince) }
          else c.contestants i } := by
  cases phase : c.phase <;> simp [resume, paused, phase]

theorem attach_connection (c : ContestState) (i j : Fin 2) :
    ((c.attach i).contestants j).connection =
      if j = i then .connected else (c.contestants j).connection := by
  by_cases same : j = i
  · subst same
    simp [attach, modify]
  · simp [attach, modify, same]

theorem detach_connection (c : ContestState) (i j : Fin 2) :
    ((c.detach i).contestants j).connection =
      if j = i then .disconnected c.clockMs else (c.contestants j).connection := by
  by_cases same : j = i
  · subst same
    simp [detach, modify]
  · simp [detach, modify, same]

theorem countClick_connection (c : ContestState) (i : Fin 2) (seq : Nat) (j : Fin 2) :
    ((c.countClick i seq).contestants j).connection = (c.contestants j).connection := by
  by_cases same : j = i
  · subst same
    simp [countClick, modify]
  · simp [countClick, modify, Function.update_of_ne same]

/-- Either the absences are over and the clock runs again, or the seat alone is back. -/
theorem rejoin_cases {c : ContestState} {pausedSince : Nat}
    (paused : c.pausedSinceMs = some pausedSince) (i : Fin 2) :
    ((∀ j, ((c.attach i).contestants j).connection = .connected) ∧
      c.rejoin i =
        { c with
          pausedSinceMs := none
          goAtMs := if c.phase = .preparing ∨ c.phase = .active then
            c.goAtMs.map (· + (c.clockMs - pausedSince)) else c.goAtMs
          contestants := fun j => if c.phase = .active then
            { (c.attach i).contestants j with
              lastActivityMs :=
                ((c.attach i).contestants j).lastActivityMs + (c.clockMs - pausedSince) }
            else (c.attach i).contestants j }) ∨
    (∃ j, ((c.attach i).contestants j).connection ≠ .connected) ∧ c.rejoin i = c.attach i := by
  unfold rejoin
  split
  · next all =>
    have still : (c.attach i).pausedSinceMs = some pausedSince := paused
    exact .inl ⟨all, resume_eq still c.clockMs⟩
  · next some => exact .inr ⟨not_forall.mp some, rfl⟩

end ContestState

namespace Sound

variable {c : ContestState}

theorem new (id : Nat) (kind : ContestKind) (controller opponent : PlayerId)
    (config : ContestConfig) : Sound (.new id kind controller opponent config) where
  result := rfl
  paused := by
    simp only [ContestState.new]
    constructor
    · simp
    · rintro ⟨i, away⟩
      split at away <;> simp at away
  going := by simp [ContestState.new]

section
variable (h : Sound c)
include h

theorem observe (nowMs : Nat) : Sound (c.observe nowMs) :=
  ⟨h.result, h.paused, h.going⟩

theorem ready (now : Nat) : Sound (c.ready now) := by
  rcases c.ready_cases now with same | ⟨go, preparing, goAt, -, paused, live⟩
  · rwa [same]
  · have open' := h.result
    rw [preparing] at open'
    rw [live]
    exact ⟨open', h.paused, fun _ => by simp [goLive, goAt]⟩

theorem conclude (result : ContestResult) : Sound (c.conclude result) where
  result := by cases result <;> rfl
  paused := h.paused
  going := by cases result <;> simp [ContestState.conclude]

theorem advance (nowMs : Nat) : Sound (c.advance nowMs) := by
  rcases c.advance_cases nowMs with same | ⟨-, ⟨-, same⟩ | ⟨result, -, same⟩⟩
  · exact same ▸ h.observe nowMs
  · exact same ▸ (h.observe nowMs).ready _
  · exact same ▸ ((h.observe nowMs).ready _).conclude result

theorem countClick (i : Fin 2) (seq : Nat) : Sound (c.countClick i seq) where
  result := h.result
  paused := by
    simp only [countClick_connection]
    exact h.paused
  going := h.going

theorem detach (i : Fin 2) : Sound (c.detach i) where
  result := h.result
  paused := by
    refine ⟨fun _ => ⟨i, ?_⟩, fun _ => rfl⟩
    simp [detach_connection]
  going := h.going

theorem pausedSince {i : Fin 2} (away : (c.contestants i).connection ≠ .connected) :
    ∃ since, c.pausedSinceMs = some since :=
  Option.isSome_iff_exists.mp (h.paused.mpr ⟨i, away⟩)

theorem rejoin {i : Fin 2} (away : (c.contestants i).connection ≠ .connected) :
    Sound (c.rejoin i) := by
  obtain ⟨since, paused⟩ := h.pausedSince away
  rcases rejoin_cases paused i with ⟨all, same⟩ | ⟨others, same⟩
  · rw [same]
    refine ⟨h.result, ?_, fun phase => ?_⟩
    · constructor
      · simp
      · rintro ⟨j, gone⟩
        refine absurd (all j) ?_
        split at gone <;> exact gone
    · have going := h.going phase
      rw [if_pos phase]
      simpa using going
  · rw [same]
    refine ⟨h.result, ⟨fun _ => others, fun _ => ?_⟩, h.going⟩
    exact h.paused.mpr ⟨i, away⟩

theorem start (nowMs : Nat) : Sound (c.start nowMs).1 := by
  by_cases pending : c.phase = .pending
  · have undecided := h.result
    rw [pending] at undecided
    have paused := h.paused
    simp only [ContestState.start, pending, ne_eq, not_true_eq_false, if_false,
      ContestState.transition, ContestState.observe, canTransitionTo, if_true]
    refine ⟨undecided, ?_, by simp⟩
    rw [← paused]
    cases c.pausedSinceMs <;> simp
  · simpa [ContestState.start, pending] using h

theorem cancel (reason : ContestCancelReason) (nowMs : Nat) : Sound (c.cancel reason nowMs) := by
  unfold ContestState.cancel ContestState.transition
  by_cases legal : (c.observe nowMs).phase.canTransitionTo .cancelled = true
  · simp only [legal, if_true]
    exact ⟨rfl, h.paused, by simp⟩
  · simp only [legal]
    exact h.observe nowMs

theorem complete : Sound c.complete.1 := by
  unfold ContestState.complete ContestState.transition
  by_cases resolving : c.phase = .resolving
  · have decided := h.result
    rw [resolving] at decided
    simp only [resolving, canTransitionTo, if_true]
    exact ⟨decided, h.paused, by simp⟩
  · have illegal : c.phase.canTransitionTo .completed = false := by
      cases phase : c.phase <;> simp_all [canTransitionTo]
    simpa [illegal] using h

theorem setConnected (player : PlayerId) (connected : Bool) (nowMs : Nat) :
    Sound (c.setConnected player connected nowMs).1 := by
  cases seat : c.indexOf player with
  | none =>
    rw [setConnected_stranger seat]
    exact h
  | some i =>
    cases edge : c.isEdge i connected with
    | false =>
      rw [setConnected_repeat seat edge]
      exact h
    | true =>
      rw [setConnected_edge seat edge]
      have advanced := h.advance nowMs
      split
      · cases connected with
        | false => exact advanced.detach i
        | true =>
          obtain ⟨since, away⟩ := isEdge_true.mp edge
          refine advanced.rejoin (i := i) ?_
          rw [advance_connection, away]
          simp
      · exact advanced

theorem click (player : PlayerId) (seq nowMs : Nat) : Sound (c.click player seq nowMs).1 := by
  rcases c.click_cases player seq nowMs with ⟨-, same⟩ | ⟨i, -, -, same⟩
  · exact same ▸ h.advance nowMs
  · exact same ▸ (h.advance nowMs).countClick i seq

theorem call (call : Call) : Sound (c.call call).1 := by
  cases call with
  | start nowMs => exact h.start nowMs
  | advance nowMs => exact h.advance nowMs
  | click player seq nowMs => exact h.click player seq nowMs
  | setConnected player connected nowMs => exact h.setConnected player connected nowMs
  | cancel reason nowMs => exact h.cancel reason nowMs
  | complete => exact h.complete

theorem after (calls : List Call) : Sound (c.after calls) := by
  induction calls generalizing c with
  | nil => exact h
  | cons call calls ih => exact ih (h.call call)

end

end Sound

namespace Follows

variable {c d : ContestState}

theorem refl (c : ContestState) : Follows c c := ⟨Nat.le_refl _, .inl rfl⟩

theorem observe (c : ContestState) (nowMs : Nat) : Follows c (c.observe nowMs) :=
  ⟨Nat.le_max_left _ _, .inl rfl⟩

/-- Two moves through a running phase make one edge. -/
theorem trans {e : ContestState} (first : Follows c d)
    (second : d.clockMs ≤ e.clockMs ∧ e.phase = d.phase) : Follows c e :=
  ⟨Nat.le_trans first.clock second.1, by rw [second.2]; exact first.phase⟩

theorem ready (c : ContestState) (now : Nat) : Follows c (c.ready now) := by
  rcases c.ready_cases now with same | ⟨go, preparing, -, -, -, live⟩
  · rw [same]
    exact refl c
  · rw [live]
    exact ⟨Nat.le_refl _, .inr (by rw [preparing]; rfl)⟩

theorem advance (c : ContestState) (nowMs : Nat) : Follows c (c.advance nowMs) := by
  rcases c.advance_cases nowMs with same | ⟨running, ⟨-, same⟩ | ⟨result, -, same⟩⟩
  · exact same ▸ observe c nowMs
  · rw [same]
    exact ⟨Nat.le_trans (Nat.le_max_left _ _) (ready (c.observe nowMs) _).clock,
      (ready (c.observe nowMs) _).phase⟩
  · have ends := canTransitionTo_of_running running
    refine ⟨?_, .inr ?_⟩
    · rw [c.advance_clockMs]
      exact Nat.le_max_left _ _
    · rw [same]
      cases result with
      | outcome outcome => exact ends.1
      | cancelled reason => exact ends.2

theorem rejoin (c : ContestState) (i : Fin 2) :
    (c.rejoin i).clockMs = c.clockMs ∧ (c.rejoin i).phase = c.phase := by
  unfold ContestState.rejoin
  split
  · cases paused : (c.attach i).pausedSinceMs with
    | none =>
      simp only [resume, paused]
      exact ⟨rfl, rfl⟩
    | some since =>
      rw [resume_eq paused]
      exact ⟨rfl, rfl⟩
  · exact ⟨rfl, rfl⟩

theorem call (c : ContestState) (call : Call) : Follows c (c.call call).1 := by
  cases call with
  | start nowMs =>
    by_cases pending : c.phase = .pending
    · simp only [ContestState.call, ContestState.start, pending, ne_eq, not_true_eq_false, if_false,
        ContestState.transition, ContestState.observe, canTransitionTo, if_true]
      exact ⟨Nat.le_max_left _ _, .inr (by rw [pending]; rfl)⟩
    · simp [ContestState.call, ContestState.start, pending, refl]
  | advance nowMs => exact advance c nowMs
  | click player seq nowMs =>
    rcases c.click_cases player seq nowMs with ⟨-, same⟩ | ⟨i, -, -, same⟩
    · exact (advance c nowMs).trans ⟨by rw [← same]; rfl, by rw [← same]; rfl⟩
    · refine (advance c nowMs).trans ⟨?_, ?_⟩
      · show _ ≤ (c.click player seq nowMs).1.clockMs
        rw [same]
        exact Nat.le_refl _
      · show (c.click player seq nowMs).1.phase = _
        rw [same]
        rfl
  | setConnected player connected nowMs =>
    show Follows c (c.setConnected player connected nowMs).1
    cases seat : c.indexOf player with
    | none => rw [ContestState.setConnected_stranger seat]; exact refl c
    | some i =>
      cases edge : c.isEdge i connected with
      | false => rw [ContestState.setConnected_repeat seat edge]; exact refl c
      | true =>
        rw [ContestState.setConnected_edge seat edge]
        split
        · cases connected with
          | false => exact (advance c nowMs).trans ⟨Nat.le_refl _, rfl⟩
          | true =>
            have kept := rejoin (c.advance nowMs) i
            exact (advance c nowMs).trans ⟨Nat.le_of_eq kept.1.symm, kept.2⟩
        · exact advance c nowMs
  | cancel reason nowMs =>
    show Follows c (c.cancel reason nowMs)
    unfold ContestState.cancel ContestState.transition
    cases legal : (c.observe nowMs).phase.canTransitionTo .cancelled with
    | true => exact ⟨Nat.le_max_left _ _, .inr legal⟩
    | false => exact observe c nowMs
  | complete =>
    show Follows c c.complete.1
    unfold ContestState.complete ContestState.transition
    cases legal : c.phase.canTransitionTo .completed with
    | true => exact ⟨Nat.le_refl _, .inr legal⟩
    | false => exact refl c

end Follows

namespace ContestState

variable {c : ContestState}

theorem answerClick_inactive (inactive : c.phase ≠ .active) (player : PlayerId) (seq : Nat) :
    c.answerClick player seq ≠ .counted := by
  unfold answerClick
  split
  · simp
  · simp [inactive]

theorem click_decided (decided : c.phase.running = false) (player : PlayerId) (seq nowMs : Nat) :
    (c.click player seq nowMs).1 = c.observe nowMs := by
  have inactive : (c.advance nowMs).phase ≠ .active := by
    rw [advance_of_decided decided]
    intro active
    rw [show c.phase = .active from active] at decided
    cases decided
  rcases c.click_cases player seq nowMs with ⟨-, same⟩ | ⟨i, -, counted, -⟩
  · rw [same, advance_of_decided decided]
  · exact absurd counted (answerClick_inactive inactive player seq)

theorem setConnected_decided (decided : c.phase.running = false) (player : PlayerId)
    (connected : Bool) (nowMs : Nat) :
    (c.setConnected player connected nowMs).1 = c ∨
      (c.setConnected player connected nowMs).1 = c.observe nowMs := by
  cases seat : c.indexOf player with
  | none => exact .inl (by rw [setConnected_stranger seat])
  | some i =>
    cases edge : c.isEdge i connected with
    | false => exact .inl (by rw [setConnected_repeat seat edge])
    | true =>
      rw [setConnected_edge seat edge, advance_of_decided decided]
      simp [observe, decided]

/-- A result stands, unless a contest that is being resolved is cancelled. -/
theorem result_stands (decided : c.phase.running = false) (call : Call) :
    (c.call call).1.result = c.result ∨
      ∃ reason nowMs, call = .cancel reason nowMs ∧ c.phase = .resolving := by
  cases call with
  | start nowMs =>
    have begun : c.phase ≠ .pending := by
      intro pending
      rw [pending] at decided
      cases decided
    simp [call, start, begun]
  | advance nowMs => exact .inl (by simp [call, advance_of_decided decided, observe])
  | click player seq nowMs =>
    exact .inl (by simp [call, click_decided decided, observe])
  | setConnected player connected nowMs =>
    rcases setConnected_decided decided player connected nowMs with same | same <;>
      simp [call, same, observe]
  | cancel reason nowMs =>
    by_cases resolving : c.phase = .resolving
    · exact .inr ⟨reason, nowMs, rfl, resolving⟩
    · refine .inl ?_
      have ended : (c.observe nowMs).phase.canTransitionTo .cancelled = false := by
        show c.phase.canTransitionTo .cancelled = false
        cases phase : c.phase <;> simp_all [running, canTransitionTo]
      simp only [call, cancel, transition, ended, Bool.false_eq_true, if_false]
      rfl
  | complete =>
    refine .inl ?_
    simp only [call, complete, transition]
    split
    · next moved =>
      split at moved
      · cases moved
        rfl
      · cases moved
    · rfl

end ContestState

/-- The results that the calls of `complete` returned. -/
def returned (exchanges : List (Call × Reply)) : List ContestResult :=
  exchanges.filterMap fun
    | (_, .completed result) => result
    | _ => none

namespace ContestState

variable {c : ContestState}

theorem terminal_call (ended : c.phase.isTerminal = true) (call : Call) :
    (c.call call).1.phase = c.phase := by
  rcases (Follows.call c call).phase with same | edge
  · exact same
  · cases phase : c.phase <;> simp_all [isTerminal, canTransitionTo]

theorem complete_some {result : ContestResult} (returns : c.complete.2 = some result) :
    c.phase = .resolving ∧ c.complete.1.phase = .completed := by
  unfold complete transition at returns ⊢
  cases phase : c.phase <;> simp_all [canTransitionTo]

theorem returned_terminal (ended : c.phase.isTerminal = true) (calls : List Call) :
    returned (c.exchanges calls) = [] := by
  induction calls generalizing c with
  | nil => rfl
  | cons call calls ih =>
    have rest := ih (c := (c.call call).1) (by rw [terminal_call ended, ended])
    cases call with
    | complete =>
      have silent : c.complete.2 = none := by
        cases answer : c.complete.2 with
        | none => rfl
        | some result =>
          rw [(complete_some answer).1] at ended
          cases ended
      simpa [returned, exchanges, call, silent] using rest
    | start nowMs | advance nowMs | click player seq nowMs
    | setConnected player connected nowMs | cancel reason nowMs => exact rest

theorem returned_once (c : ContestState) (calls : List Call) :
    (returned (c.exchanges calls)).length ≤ 1 := by
  induction calls generalizing c with
  | nil => exact Nat.zero_le _
  | cons call calls ih =>
    cases call with
    | complete =>
      cases answer : c.complete.2 with
      | none =>
        simpa [returned, exchanges, call, answer] using ih c.complete.1
      | some result =>
        have rest := returned_terminal (c := c.complete.1)
          (by rw [(complete_some answer).2]; rfl) calls
        simp only [returned] at rest
        simp [returned, exchanges, call, answer, rest]
    | start nowMs | advance nowMs | click player seq nowMs
    | setConnected player connected nowMs | cancel reason nowMs => exact ih _

end ContestState

/-- The sequence numbers of the counted clicks of `player`. -/
def countedSeqs (player : PlayerId) (exchanges : List (Call × Reply)) : List Nat :=
  exchanges.filterMap fun
    | (.click clicker seq _, .clicked .counted) => if clicker = player then some seq else none
    | _ => none

namespace ContestState

variable {player : PlayerId} {c d : ContestState}

theorem indexOf_player {i : Fin 2} (seat : c.indexOf player = some i) :
    (c.contestants i).player = player := by
  unfold indexOf at seat
  split at seat
  · cases seat
    assumption
  · split at seat
    · cases seat
      assumption
    · cases seat

/-- What a call keeps of every contestant: the player, and the last sequence number unless
the call is a click of theirs that counts. -/
structure KeepsSeats (c d : ContestState) : Prop where
  player : ∀ i, (d.contestants i).player = (c.contestants i).player
  lastSeq : ∀ i, (d.contestants i).lastSeq = (c.contestants i).lastSeq

theorem keepsSeats_advance (c : ContestState) (nowMs : Nat) : KeepsSeats c (c.advance nowMs) :=
  ⟨c.advance_player nowMs, c.advance_lastSeq nowMs⟩

theorem KeepsSeats.modify (h : KeepsSeats c d) (i : Fin 2) (change : Contestant → Contestant)
    (keeps : ∀ contestant, (change contestant).player = contestant.player ∧
      (change contestant).lastSeq = contestant.lastSeq) : KeepsSeats c (d.modify i change) where
  player := by
    intro j
    rw [← h.player j]
    by_cases same : j = i
    · subst same
      simp [ContestState.modify, (keeps _).1]
    · simp [ContestState.modify, same]
  lastSeq := by
    intro j
    rw [← h.lastSeq j]
    by_cases same : j = i
    · subst same
      simp [ContestState.modify, (keeps _).2]
    · simp [ContestState.modify, same]

theorem KeepsSeats.resume {c d : ContestState} (h : KeepsSeats c d) (now : Nat) :
    KeepsSeats c (d.resume now) := by
  cases paused : d.pausedSinceMs with
  | none =>
    simp only [ContestState.resume, paused]
    exact h
  | some since =>
    rw [resume_eq paused]
    constructor <;> intro i
    · rw [← h.player i]
      split <;> rfl
    · rw [← h.lastSeq i]
      split <;> rfl

theorem keepsSeats_setConnected (c : ContestState) (player : PlayerId) (connected : Bool)
    (nowMs : Nat) : KeepsSeats c (c.setConnected player connected nowMs).1 := by
  have refl : KeepsSeats c c := ⟨fun _ => rfl, fun _ => rfl⟩
  cases seat : c.indexOf player with
  | none => rw [setConnected_stranger seat]; exact refl
  | some i =>
    cases edge : c.isEdge i connected with
    | false => rw [setConnected_repeat seat edge]; exact refl
    | true =>
      rw [setConnected_edge seat edge]
      have advanced := keepsSeats_advance c nowMs
      split
      · cases connected with
        | false =>
          have moved := advanced.modify i (fun contestant => { contestant with
              connection := .disconnected (c.advance nowMs).clockMs })
            fun _ => ⟨rfl, rfl⟩
          exact ⟨moved.player, moved.lastSeq⟩
        | true =>
          have moved := advanced.modify i
            (fun contestant => { contestant with connection := .connected })
            fun _ => ⟨rfl, rfl⟩
          simp only [if_true, rejoin]
          split
          · exact moved.resume _
          · exact moved
      · exact advanced

theorem start_contestants (c : ContestState) (nowMs : Nat) :
    (c.start nowMs).1.contestants = c.contestants := by
  unfold start
  split
  · rfl
  · simp only [transition]
    split
    · rfl
    · next moved =>
      split at moved
      · cases moved
        rfl
      · cases moved

theorem cancel_contestants (c : ContestState) (reason : ContestCancelReason) (nowMs : Nat) :
    (c.cancel reason nowMs).contestants = c.contestants := by
  simp only [cancel, transition]
  split
  · next moved =>
    split at moved
    · cases moved
      rfl
    · cases moved
  · rfl

theorem complete_contestants (c : ContestState) : c.complete.1.contestants = c.contestants := by
  simp only [complete, transition]
  split
  · next moved =>
    split at moved
    · cases moved
      rfl
    · cases moved
  · rfl

theorem KeepsSeats.indexOf (h : KeepsSeats c d) (player : PlayerId) :
    d.indexOf player = c.indexOf player := by
  simp only [ContestState.indexOf, h.player]

/-- The counted clicks of `player`, from `c` on, are newer than the last one before. -/
structure Increases (c : ContestState) (player : PlayerId) (seqs : List Nat) : Prop where
  sorted : seqs.Pairwise (· < ·)
  newer : ∀ i, c.indexOf player = some i → ∀ last, (c.contestants i).lastSeq = some last →
    ∀ seq ∈ seqs, last < seq

theorem Increases.back {seqs : List Nat} (h : Increases d player seqs) (kept : KeepsSeats c d) :
    Increases c player seqs where
  sorted := h.sorted
  newer := by
    intro i seat last seen
    exact h.newer i (kept.indexOf player ▸ seat) last ((kept.lastSeq i).trans seen)

theorem Increases.click {c : ContestState} {player clicker : PlayerId} {i : Fin 2}
    {seq nowMs : Nat} {seqs : List Nat} (seat : c.indexOf clicker = some i)
    (counted : (c.advance nowMs).answerClick clicker seq = .counted)
    (h : Increases ((c.advance nowMs).countClick i seq) player seqs) :
    Increases c player (if clicker = player then seq :: seqs else seqs) := by
  have kept := keepsSeats_advance c nowMs
  have players : ∀ j, (((c.advance nowMs).countClick i seq).contestants j).player =
      (c.contestants j).player := by
    intro j
    rw [← kept.player j]
    by_cases same : j = i
    · subst same
      simp [countClick, modify]
    · simp [countClick, modify, same]
  have index : ((c.advance nowMs).countClick i seq).indexOf player = c.indexOf player := by
    simp only [indexOf, players]
  have older := ((counted_iff _ ((kept.indexOf clicker).trans seat) seq).mp counted).2.1
  by_cases own : clicker = player
  · subst own
    have later : ∀ s ∈ seqs, seq < s :=
      h.newer i (index.trans seat) seq (by simp [countClick, modify])
    rw [if_pos rfl]
    refine ⟨List.pairwise_cons.mpr ⟨later, h.sorted⟩, ?_⟩
    intro j at_ last seen s inside
    have same : i = j := Option.some.inj (seat.symm.trans at_)
    subst same
    have before := older last ((kept.lastSeq i).trans seen)
    rcases List.mem_cons.mp inside with rfl | rest
    · exact before
    · exact Nat.lt_trans before (later s rest)
  · rw [if_neg own]
    refine ⟨h.sorted, ?_⟩
    intro j at_ last seen
    have apart : j ≠ i := by
      rintro rfl
      exact own ((indexOf_player seat).symm.trans (indexOf_player at_))
    refine h.newer j (index.trans at_) last ?_
    rw [← seen, ← kept.lastSeq j]
    simp [countClick, modify, apart]

theorem increases (c : ContestState) (player : PlayerId) (calls : List Call) :
    Increases c player (countedSeqs player (c.exchanges calls)) := by
  induction calls generalizing c with
  | nil => exact ⟨List.Pairwise.nil, by simp [exchanges, countedSeqs]⟩
  | cons call calls ih =>
    have rest := ih (c.call call).1
    cases call with
    | start nowMs =>
      exact rest.back ⟨fun i => by rw [call, start_contestants],
        fun i => by rw [call, start_contestants]⟩
    | advance nowMs => exact rest.back (keepsSeats_advance c nowMs)
    | click clicker seq nowMs =>
      rcases c.click_cases clicker seq nowMs with
        ⟨rejected, same⟩ | ⟨i, seat, counted, same⟩
      · have silent : countedSeqs player (c.exchanges (.click clicker seq nowMs :: calls)) =
            countedSeqs player ((c.call (.click clicker seq nowMs)).1.exchanges calls) := by
          simp only [countedSeqs, exchanges, List.filterMap_cons, call, click_disposition]
          cases answer : (c.advance nowMs).answerClick clicker seq with
          | counted => exact absurd answer rejected
          | rejected reason => rfl
        rw [silent]
        refine rest.back ?_
        simp only [call, same]
        exact keepsSeats_advance c nowMs
      · have first : countedSeqs player (c.exchanges (.click clicker seq nowMs :: calls)) =
            if clicker = player then
              seq :: countedSeqs player ((c.call (.click clicker seq nowMs)).1.exchanges calls)
            else countedSeqs player ((c.call (.click clicker seq nowMs)).1.exchanges calls) := by
          simp only [countedSeqs, exchanges, List.filterMap_cons, call, click_disposition, counted]
          split <;> simp_all
        rw [first]
        refine Increases.click seat counted ?_
        simpa only [call, same] using rest
    | setConnected clicker connected nowMs =>
      exact rest.back (keepsSeats_setConnected c clicker connected nowMs)
    | cancel reason nowMs =>
      exact rest.back ⟨fun i => by rw [call, cancel_contestants],
        fun i => by rw [call, cancel_contestants]⟩
    | complete =>
      exact rest.back ⟨fun i => by rw [call, complete_contestants],
        fun i => by rw [call, complete_contestants]⟩

end ContestState

end Phase.Contest
