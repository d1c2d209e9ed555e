import Phase.Contest.State

/-! What one advance of the clock decides, apart from what it writes. -/
namespace Phase.Contest
open ContestPhase

/-- The contest is not decided. -/
def ContestPhase.running : ContestPhase → Bool
  | .pending | .preparing | .active => true
  | _ => false

namespace ContestState

/-- Records a result. -/
def conclude (c : ContestState) (result : ContestResult) : ContestState :=
  { c with
    phase := match result with
      | .outcome _ => .resolving
      | .cancelled _ => .cancelled
    result := some result }

/-- What the active stretch decides at `now`: inactivity up to the cap, then the cap. -/
def activeVerdict (c : ContestState) (now : Nat) : Option ContestResult :=
  match c.lapse (min now c.timeLimitMs) with
  | some outcome => some (.outcome outcome)
  | none => if c.timeLimitMs < now then some (.cancelled .timeLimit) else none

/-- The undecided contest at `now`. -/
def ready (c : ContestState) (now : Nat) : ContestState :=
  if (c.forfeit now).isSome ∨ c.pausedSinceMs.isSome then c else c.reachGo now

def verdict (c : ContestState) (now : Nat) : Option ContestResult :=
  match c.forfeit now with
  | some result => some result
  | none =>
    if c.pausedSinceMs.isSome then none
    else if (c.reachGo now).phase = .active then (c.reachGo now).activeVerdict now
    else none

variable {c : ContestState} {now : Nat}

theorem resolve_eq (running : c.phase.running = true) (outcome : ContestOutcome) :
    c.resolve outcome = c.conclude (.outcome outcome) := by
  unfold resolve transition
  cases phase : c.phase <;> simp_all [ContestPhase.running, ContestPhase.canTransitionTo, conclude]

theorem cancel_eq (running : c.phase.running = true) (reason : ContestCancelReason)
    (seen : now ≤ c.clockMs) : c.cancel reason now = c.conclude (.cancelled reason) := by
  unfold cancel transition observe
  cases phase : c.phase <;> simp_all [ContestPhase.running, ContestPhase.canTransitionTo, conclude]

theorem settleInactivity_eq (c : ContestState) (now : Nat) :
    c.settleInactivity now = (c.lapse now).elim c c.resolve := by
  simp only [settleInactivity, lapse]
  generalize decide (c.deadlineMs 0 < now) = lapsed0
  generalize decide (c.deadlineMs 1 < now) = lapsed1
  split
  · rfl
  · split
    · rfl
    · cases lapsed0 <;> cases lapsed1
      · rfl
      · rfl
      · rfl
      · simp only
        split
        · rfl
        · split <;> rfl

theorem settleForfeits_eq (running : c.phase.running = true) (seen : now ≤ c.clockMs) :
    c.settleForfeits now = (c.forfeit now).elim (c, false) fun r => (c.conclude r, true) := by
  simp only [settleForfeits, forfeit]
  split
  · rfl
  · split
    · rw [cancel_eq running _ seen]
      rfl
    · rw [resolve_eq running]
      rfl

theorem settleActive_eq (active : c.phase = .active) (seen : now ≤ c.clockMs) :
    c.settleActive now = (c.activeVerdict now).elim c c.conclude := by
  have running : c.phase.running = true := by simp [active, running]
  simp only [settleActive, active, if_true, settleInactivity_eq, activeVerdict]
  cases lapse : c.lapse (min now c.timeLimitMs) with
  | some outcome => simp [resolve_eq running, conclude]
  | none =>
    simp only [Option.elim_none, active, if_true, settleTimeLimit]
    by_cases capped : c.timeLimitMs < now
    · simp [capped, cancel_eq running _ seen]
    · simp [capped]

theorem settleActive_inactive (inactive : c.phase ≠ .active) (now : Nat) :
    c.settleActive now = c := by
  simp [settleActive, inactive]

/-- GO: every contestant counts as active at that instant. -/
def goLive (c : ContestState) (go : Nat) : ContestState :=
  { c with
    phase := .active
    contestants := fun i => { c.contestants i with lastActivityMs := go } }

theorem reachGo_of_due {go : Nat} (preparing : c.phase = .preparing) (goAt : c.goAtMs = some go)
    (due : go ≤ now) : c.reachGo now = c.goLive go := by
  have reached : c.goAtMs.filter (fun go => go ≤ now) = some go := by
    simp [goAt, Option.filter, due]
  simp only [reachGo, preparing, if_true, reached, activate, transition, canTransitionTo, goLive]

theorem reachGo_of_not_due (early : c.phase = .preparing → ∀ go, c.goAtMs = some go → now < go) :
    c.reachGo now = c := by
  unfold reachGo
  split
  · next preparing =>
    cases goAt : c.goAtMs with
    | none => rfl
    | some go =>
      have := early preparing go goAt
      have missed : Option.filter (fun go => go ≤ now) (some go) = none := by
        simpa [Option.filter] using this
      simp [missed]
  · rfl

theorem reachGo_cases (c : ContestState) (now : Nat) :
    c.reachGo now = c ∨ ∃ go, c.phase = .preparing ∧ c.goAtMs = some go ∧ go ≤ now ∧
      c.reachGo now = c.goLive go := by
  by_cases due : c.phase = .preparing ∧ ∃ go, c.goAtMs = some go ∧ go ≤ now
  · obtain ⟨preparing, go, goAt, le⟩ := due
    exact .inr ⟨go, preparing, goAt, le, reachGo_of_due preparing goAt le⟩
  · refine .inl (reachGo_of_not_due fun preparing go goAt => ?_)
    by_contra late
    exact due ⟨preparing, go, goAt, Nat.le_of_not_lt late⟩

theorem reachGo_clockMs (c : ContestState) (now : Nat) : (c.reachGo now).clockMs = c.clockMs := by
  rcases c.reachGo_cases now with same | ⟨go, -, -, -, live⟩
  · rw [same]
  · rw [live]
    rfl

/-- The undecided contest at the stamp, then what the stamp decides. -/
theorem advance_eq (running : c.phase.running = true) (nowMs : Nat) :
    c.advance nowMs =
      ((c.observe nowMs).verdict (max c.clockMs nowMs)).elim
        ((c.observe nowMs).ready (max c.clockMs nowMs))
        ((c.observe nowMs).ready (max c.clockMs nowMs)).conclude := by
  have undecided : ¬((c.observe nowMs).phase.isTerminal = true ∨
      (c.observe nowMs).phase = .resolving) := by
    show ¬(c.phase.isTerminal = true ∨ c.phase = .resolving)
    cases phase : c.phase <;> simp_all [ContestPhase.running, ContestPhase.isTerminal]
  have stillRunning : (c.observe nowMs).phase.running = true := running
  have seen : (c.observe nowMs).clockMs = max c.clockMs nowMs := rfl
  simp only [advance]
  rw [if_neg undecided, seen, settleForfeits_eq stillRunning (Nat.le_of_eq seen.symm)]
  simp only [verdict, ready]
  generalize c.observe nowMs = c at *
  generalize max _ nowMs = now at *
  cases forfeited : c.forfeit now with
  | some result => simp
  | none =>
    by_cases paused : c.pausedSinceMs.isSome = true
    · simp [paused]
    · have reached : now ≤ (c.reachGo now).clockMs := by rw [reachGo_clockMs, seen]
      by_cases active : (c.reachGo now).phase = .active
      · simp [paused, active, settleActive_eq active reached]
      · simp [paused, active, settleActive_inactive active]

theorem advance_of_decided (decided : c.phase.running = false) (nowMs : Nat) :
    c.advance nowMs = c.observe nowMs := by
  have ended : (c.observe nowMs).phase.isTerminal = true ∨
      (c.observe nowMs).phase = .resolving := by
    show c.phase.isTerminal = true ∨ c.phase = .resolving
    cases phase : c.phase <;> simp_all [running, isTerminal]
  simp only [advance, if_pos ended]

end ContestState
end Phase.Contest
