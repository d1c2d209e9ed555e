import Phase.Contest.Verdict

/-! The calls of a contest, and what each of them can do. -/
namespace Phase.Contest

inductive Call where
  | start (nowMs : Nat)
  | advance (nowMs : Nat)
  | click (player : PlayerId) (seq nowMs : Nat)
  | setConnected (player : PlayerId) (connected : Bool) (nowMs : Nat)
  | cancel (reason : ContestCancelReason) (nowMs : Nat)
  | complete
  deriving DecidableEq

inductive Reply where
  | done
  | changed (changed : Bool)
  | clicked (disposition : ClickDisposition)
  | completed (result : Option ContestResult)
  deriving DecidableEq

namespace ContestState

def call (c : ContestState) : Call → ContestState × Reply
  | .start nowMs => ((c.start nowMs).1, .changed (c.start nowMs).2)
  | .advance nowMs => (c.advance nowMs, .done)
  | .click player seq nowMs => ((c.click player seq nowMs).1, .clicked (c.click player seq nowMs).2)
  | .setConnected player connected nowMs =>
    ((c.setConnected player connected nowMs).1, .changed (c.setConnected player connected nowMs).2)
  | .cancel reason nowMs => (c.cancel reason nowMs, .done)
  | .complete => (c.complete.1, .completed c.complete.2)

def after (c : ContestState) (calls : List Call) : ContestState :=
  calls.foldl (fun c call => (c.call call).1) c

def exchanges (c : ContestState) : List Call → List (Call × Reply)
  | [] => []
  | call :: calls => (call, (c.call call).2) :: exchanges (c.call call).1 calls

section
variable (c : ContestState)
include c

@[simp] theorem after_nil : c.after [] = c := rfl

@[simp] theorem after_cons (call : Call) (calls : List Call) :
    c.after (call :: calls) = (c.call call).1.after calls := rfl

theorem after_append (calls later : List Call) :
    c.after (calls ++ later) = (c.after calls).after later := List.foldl_append

theorem ready_cases (now : Nat) :
    c.ready now = c ∨ ∃ go, c.phase = .preparing ∧ c.goAtMs = some go ∧ go ≤ now ∧
      c.pausedSinceMs = none ∧ c.ready now = c.goLive go := by
  unfold ready
  split
  · exact .inl rfl
  · next moving =>
    rcases c.reachGo_cases now with same | ⟨go, preparing, goAt, due, live⟩
    · exact .inl same
    · refine .inr ⟨go, preparing, goAt, due, ?_, live⟩
      simpa using fun paused => moving (.inr paused)

theorem ready_clockMs (now : Nat) : (c.ready now).clockMs = c.clockMs := by
  rcases c.ready_cases now with same | ⟨go, -, -, -, -, live⟩
  · rw [same]
  · rw [live]
    rfl

theorem ready_player (now : Nat) (i : Fin 2) :
    ((c.ready now).contestants i).player = (c.contestants i).player := by
  rcases c.ready_cases now with same | ⟨go, -, -, -, -, live⟩
  · rw [same]
  · rw [live]
    rfl

theorem ready_connection (now : Nat) (i : Fin 2) :
    ((c.ready now).contestants i).connection = (c.contestants i).connection := by
  rcases c.ready_cases now with same | ⟨go, -, -, -, -, live⟩
  · rw [same]
  · rw [live]
    rfl

theorem ready_lastSeq (now : Nat) (i : Fin 2) :
    ((c.ready now).contestants i).lastSeq = (c.contestants i).lastSeq := by
  rcases c.ready_cases now with same | ⟨go, -, -, -, -, live⟩
  · rw [same]
  · rw [live]
    rfl

theorem ready_config (now : Nat) : (c.ready now).config = c.config := by
  rcases c.ready_cases now with same | ⟨go, -, -, -, -, live⟩
  · rw [same]
  · rw [live]
    rfl

end

section
variable (c : ContestState) (nowMs : Nat)
include c nowMs

/-- An advance leaves the contestants as they are but for the instant of GO. -/
theorem advance_cases :
    c.advance nowMs = c.observe nowMs ∨
    c.phase.running = true ∧
      ((c.observe nowMs).verdict (max c.clockMs nowMs) = none ∧
        c.advance nowMs = (c.observe nowMs).ready (max c.clockMs nowMs) ∨
      ∃ result, (c.observe nowMs).verdict (max c.clockMs nowMs) = some result ∧
        c.advance nowMs = ((c.observe nowMs).ready (max c.clockMs nowMs)).conclude result) := by
  cases running : c.phase.running with
  | false => exact .inl (advance_of_decided running nowMs)
  | true =>
    refine .inr ⟨rfl, ?_⟩
    rw [advance_eq running]
    cases (c.observe nowMs).verdict (max c.clockMs nowMs) with
    | none => exact .inl ⟨rfl, rfl⟩
    | some result => exact .inr ⟨result, rfl, rfl⟩

theorem advance_clockMs : (c.advance nowMs).clockMs = max c.clockMs nowMs := by
  rcases c.advance_cases nowMs with same | ⟨-, ⟨-, same⟩ | ⟨result, -, same⟩⟩
  · rw [same]
    rfl
  · rw [same, ready_clockMs]
    rfl
  · rw [same]
    exact ready_clockMs _ _

theorem advance_config : (c.advance nowMs).config = c.config := by
  rcases c.advance_cases nowMs with same | ⟨-, ⟨-, same⟩ | ⟨result, -, same⟩⟩
  · rw [same]
    rfl
  · rw [same, ready_config]
    rfl
  · rw [same]
    exact ready_config _ _

theorem advance_player (i : Fin 2) :
    ((c.advance nowMs).contestants i).player = (c.contestants i).player := by
  rcases c.advance_cases nowMs with same | ⟨-, ⟨-, same⟩ | ⟨result, -, same⟩⟩
  · rw [same]
    rfl
  · rw [same, ready_player]
    rfl
  · rw [same]
    exact ready_player _ _ i

theorem advance_connection (i : Fin 2) :
    ((c.advance nowMs).contestants i).connection = (c.contestants i).connection := by
  rcases c.advance_cases nowMs with same | ⟨-, ⟨-, same⟩ | ⟨result, -, same⟩⟩
  · rw [same]
    rfl
  · rw [same, ready_connection]
    rfl
  · rw [same]
    exact ready_connection _ _ i

theorem advance_lastSeq (i : Fin 2) :
    ((c.advance nowMs).contestants i).lastSeq = (c.contestants i).lastSeq := by
  rcases c.advance_cases nowMs with same | ⟨-, ⟨-, same⟩ | ⟨result, -, same⟩⟩
  · rw [same]
    rfl
  · rw [same, ready_lastSeq]
    rfl
  · rw [same]
    exact ready_lastSeq _ _ i

theorem advance_indexOf (player : PlayerId) :
    (c.advance nowMs).indexOf player = c.indexOf player := by
  simp only [indexOf, advance_player]

end

/-- What a counted click writes. -/
def countClick (c : ContestState) (i : Fin 2) (seq : Nat) : ContestState :=
  c.modify i fun contestant => { contestant with
    lastSeq := some seq
    clicks := min (contestant.clicks + 1) (2 ^ 32 - 1)
    lastActivityMs := if c.pausedSinceMs.isSome then contestant.lastActivityMs else c.clockMs }

/-- What the contest, brought to the click's stamp, answers to it. -/
def answerClick (c : ContestState) (player : PlayerId) (seq : Nat) : ClickDisposition :=
  match c.indexOf player with
  | none => .rejected .notParticipant
  | some i =>
    if c.phase ≠ .active then .rejected .notActive
    else if (c.contestants i).lastSeq.any fun last => seq ≤ last then .rejected .staleSequence
    else if !c.pausedSinceMs.isSome &&
        c.deadlineMs i + c.config.settleWindowMs < c.clockMs then .rejected .lapsed
    else .counted

theorem click_disposition (c : ContestState) (player : PlayerId) (seq nowMs : Nat) :
    (c.click player seq nowMs).2 = (c.advance nowMs).answerClick player seq := by
  simp only [click, answerClick]
  cases (c.advance nowMs).indexOf player with
  | none => rfl
  | some i =>
    simp only
    split
    · rfl
    · split
      · rfl
      · split <;> rfl

theorem click_cases (c : ContestState) (player : PlayerId) (seq nowMs : Nat) :
    ((c.advance nowMs).answerClick player seq ≠ .counted ∧
      (c.click player seq nowMs).1 = c.advance nowMs) ∨
    ∃ i, c.indexOf player = some i ∧ (c.advance nowMs).answerClick player seq = .counted ∧
      (c.click player seq nowMs).1 = (c.advance nowMs).countClick i seq := by
  rw [← advance_indexOf c nowMs]
  simp only [click, answerClick]
  cases (c.advance nowMs).indexOf player with
  | none => exact .inl ⟨by simp, rfl⟩
  | some i =>
    simp only
    split
    · exact .inl ⟨by simp, rfl⟩
    · split
      · exact .inl ⟨by simp, rfl⟩
      · split
        · exact .inl ⟨by simp, rfl⟩
        · exact .inr ⟨i, rfl, rfl, rfl⟩

variable {i : Fin 2} {player : PlayerId} {c : ContestState}

theorem counted_iff (c : ContestState) (seat : c.indexOf player = some i) (seq : Nat) :
    c.answerClick player seq = .counted ↔ c.phase = .active ∧
      (∀ last, (c.contestants i).lastSeq = some last → last < seq) ∧
      (c.pausedSinceMs = none → c.clockMs ≤ c.deadlineMs i + c.config.settleWindowMs) := by
  simp only [answerClick, seat]
  cases (c.contestants i).lastSeq <;> cases c.pausedSinceMs <;>
    simp only [Option.any, Option.isSome] <;> grind

def detach (c : ContestState) (i : Fin 2) : ContestState :=
  { c.modify i fun contestant => { contestant with connection := .disconnected c.clockMs } with
    pausedSinceMs := some (c.pausedSinceMs.getD c.clockMs) }

def attach (c : ContestState) (i : Fin 2) : ContestState :=
  c.modify i fun contestant => { contestant with connection := .connected }

/-- The seat returns, and with the last one the clock runs again. -/
def rejoin (c : ContestState) (i : Fin 2) : ContestState :=
  if ∀ j, ((c.attach i).contestants j).connection = .connected then
    (c.attach i).resume c.clockMs
  else c.attach i

theorem setConnected_stranger (stranger : c.indexOf player = none) (connected : Bool)
    (nowMs : Nat) : c.setConnected player connected nowMs = (c, false) := by
  simp [setConnected, stranger]

theorem setConnected_repeat (seat : c.indexOf player = some i) {connected : Bool}
    (repeated : c.isEdge i connected = false) (nowMs : Nat) :
    c.setConnected player connected nowMs = (c, false) := by
  simp [setConnected, seat, repeated]

theorem isEdge_false : c.isEdge i false = true ↔ (c.contestants i).connection = .connected := by
  unfold isEdge
  split <;> simp_all

theorem isEdge_true :
    c.isEdge i true = true ↔ ∃ sinceMs, (c.contestants i).connection = .disconnected sinceMs := by
  unfold isEdge
  split <;> simp_all

theorem not_decided_iff {phase : ContestPhase} :
    ¬(phase.isTerminal = true ∨ phase = .resolving) ↔ phase.running = true := by
  cases phase <;> simp [ContestPhase.isTerminal, ContestPhase.running]

theorem setConnected_edge (seat : c.indexOf player = some i) {connected : Bool}
    (edge : c.isEdge i connected = true) (nowMs : Nat) :
    c.setConnected player connected nowMs =
      if (c.advance nowMs).phase.running then
        (if connected then (c.advance nowMs).rejoin i else (c.advance nowMs).detach i, true)
      else (c.advance nowMs, false) := by
  simp only [setConnected, seat, edge]
  cases running : (c.advance nowMs).phase.running with
  | false =>
    have decided : (c.advance nowMs).phase.isTerminal = true ∨
        (c.advance nowMs).phase = .resolving := by
      by_contra undecided
      rw [not_decided_iff.mp undecided] at running
      cases running
    simp [decided]
  | true =>
    have undecided := not_decided_iff.mpr running
    have kept := advance_connection c nowMs i
    cases connected with
    | false =>
      rw [isEdge_false.mp edge] at kept
      simp [undecided, kept]
      rfl
    | true =>
      obtain ⟨sinceMs, away⟩ := isEdge_true.mp edge
      rw [away] at kept
      simp only [undecided, kept, rejoin, attach, Bool.not_true, Bool.false_eq_true, if_false,
        if_true]
      exact (apply_ite (fun d => (d, true)) _ _ _).symm

end ContestState
end Phase.Contest
