import Phase.Contest.Lifecycle

/-! When inactivity decides, and how a decision that was open can close again: a player is
out, the other has not lapsed, and later the other lapses too but may still recover. What an advance
decides at one stamp, compared with what it decides at a later one. -/
namespace Phase.Contest

section
theorem rival_zero : (1 - 0 : Fin 2) = 1 := rfl

theorem rival_one : (1 - 1 : Fin 2) = 0 := rfl

namespace ContestState

/-- The instant at which the inactivity clocks stand: the beginning of a pause. -/
def instant (c : ContestState) (now : Nat) : Nat := c.pausedSinceMs.getD now

/-- Player `i` is out at `now`, and the other's deadline is too late for a tie. -/
structure Beaten (c : ContestState) (i : Fin 2) (now : Nat) : Prop where
  active : c.phase = .active
  apart : c.deadlineMs i + c.config.settleWindowMs < c.deadlineMs (1 - i)
  capped : c.deadlineMs i + c.config.settleWindowMs < c.timeLimitMs
  overdue : c.deadlineMs i + c.config.settleWindowMs < c.instant now

/-- The other player of a beaten one has lapsed as well, and may still recover: a decision
that was open is open no more. -/
structure Recovering (c : ContestState) (i : Fin 2) (now : Nat) : Prop where
  apart : c.deadlineMs i + c.config.settleWindowMs < c.deadlineMs (1 - i)
  lapsed : c.deadlineMs (1 - i) < now
  window : now ≤ c.deadlineMs (1 - i) + c.config.settleWindowMs

/-- At `now` the contest ends by the time cap, or by the grace of an absent seat, although
the play had stopped while a player recovered whose rival was out already. -/
def Reopened (c : ContestState) (now : Nat) : Prop :=
  c.phase = .active ∧ ∃ i, match c.pausedSinceMs with
    | none => c.timeLimitMs < now ∧ c.Recovering i c.timeLimitMs
    | some since => (∃ j, (c.contestants j).expired c.config.reconnectGraceMs now = true) ∧
        c.Recovering i since

variable {c : ContestState}

theorem lapse_beaten {i : Fin 2} {now : Nat}
    (apart : c.deadlineMs i + c.config.settleWindowMs < c.deadlineMs (1 - i))
    (overdue : c.deadlineMs i + c.config.settleWindowMs < now)
    (settled : ¬(c.deadlineMs (1 - i) < now ∧
      now ≤ c.deadlineMs (1 - i) + c.config.settleWindowMs)) :
    c.lapse now = some (c.loses i .inactivity) := by
  have lapsed : c.deadlineMs i < now := by omega
  have far : ¬absDiff (c.deadlineMs i) (c.deadlineMs (1 - i)) ≤ c.config.settleWindowMs := by
    simp only [absDiff]
    omega
  have first : c.deadlineMs i < c.deadlineMs (1 - i) := by omega
  have seat : i = 0 ∨ i = 1 := by omega
  by_cases late : c.deadlineMs (1 - i) < now
  · have out : c.deadlineMs (1 - i) + c.config.settleWindowMs < now := by omega
    rcases seat with rfl | rfl
    · rw [rival_zero] at *
      simp [lapse, lapsed, late, overdue, out, far, first]
    · rw [rival_one] at *
      have far' : ¬absDiff (c.deadlineMs 0) (c.deadlineMs 1) ≤ c.config.settleWindowMs := by
        simp only [absDiff] at far ⊢
        omega
      have second : ¬c.deadlineMs 0 < c.deadlineMs 1 := by omega
      simp [lapse, lapsed, late, overdue, out, far', second]
  · rcases seat with rfl | rfl
    · rw [rival_zero] at *
      simp [lapse, lapsed, late, overdue]
    · rw [rival_one] at *
      simp [lapse, lapsed, late, overdue]

theorem lapse_recovering {i : Fin 2} {now : Nat} (h : c.Recovering i now) : c.lapse now = none := by
  obtain ⟨apart, lapsed, window⟩ := h
  have out : ¬c.deadlineMs (1 - i) + c.config.settleWindowMs < now := by omega
  match i with
  | 0 =>
    rw [rival_zero] at *
    simp [lapse, lapsed, out]
  | 1 =>
    rw [rival_one] at *
    simp [lapse, lapsed, out]

/-- Inactivity decides over two players who are out, or over one while the other is in time. -/
theorem lapse_cases {now : Nat} {outcome : ContestOutcome} (h : c.lapse now = some outcome) :
    (∀ i, c.deadlineMs i + c.config.settleWindowMs < now) ∨
    ∃ i, c.deadlineMs i + c.config.settleWindowMs < now ∧ now ≤ c.deadlineMs (1 - i) ∧
      outcome = c.loses i .inactivity := by
  simp only [lapse] at h
  by_cases first : c.deadlineMs 0 < now
  · by_cases second : c.deadlineMs 1 < now
    · left
      intro i
      obtain rfl | rfl : i = 0 ∨ i = 1 := by omega
      · grind
      · grind
    · right
      refine ⟨0, ?_, by simpa using second, ?_⟩ <;> grind
  · by_cases second : c.deadlineMs 1 < now
    · right
      refine ⟨1, ?_, by simpa using first, ?_⟩ <;> grind
    · simp [first, second] at h

theorem lapse_stays {now later : Nat} (le : now ≤ later)
    (out : ∀ i, c.deadlineMs i + c.config.settleWindowMs < now) :
    c.lapse later = c.lapse now := by
  have first := out 0
  have second := out 1
  have lapsed0 : c.deadlineMs 0 < now := by omega
  have lapsed1 : c.deadlineMs 1 < now := by omega
  have first' : c.deadlineMs 0 + c.config.settleWindowMs < later := by omega
  have second' : c.deadlineMs 1 + c.config.settleWindowMs < later := by omega
  have lapsed0' : c.deadlineMs 0 < later := by omega
  have lapsed1' : c.deadlineMs 1 < later := by omega
  simp [lapse, first, second, lapsed0, lapsed1, first', second', lapsed0', lapsed1']

end ContestState

end

namespace ContestState

variable {c : ContestState}

theorem expired_stays {contestant : Contestant} {grace now later : Nat} (le : now ≤ later)
    (h : contestant.expired grace now = true) : contestant.expired grace later = true := by
  cases connection : contestant.connection with
  | connected => simp [Contestant.expired, connection] at h
  | disconnected since =>
    simp only [Contestant.expired, connection, decide_eq_true_eq] at h ⊢
    omega

theorem disconnected_of_expired {contestant : Contestant} {grace now : Nat}
    (h : contestant.expired grace now = true) : contestant.disconnected = true := by
  unfold Contestant.expired at h
  unfold Contestant.disconnected
  cases connection : contestant.connection <;> simp_all

theorem forfeit_isSome {now : Nat} : (c.forfeit now).isSome = true ↔
    ∃ i, (c.contestants i).expired c.config.reconnectGraceMs now = true := by
  cases e0 : (c.contestants 0).expired c.config.reconnectGraceMs now <;>
    cases e1 : (c.contestants 1).expired c.config.reconnectGraceMs now <;>
    simp [forfeit, e0, e1] <;> split <;> rfl

variable {result : ContestResult}

/-- Once a grace is over, what that decides is the same at every later stamp. -/
theorem forfeit_stays {now later : Nat} (le : now ≤ later) (h : c.forfeit now = some result) :
    c.forfeit later = some result := by
  have mono (i : Fin 2) := @expired_stays (c.contestants i) c.config.reconnectGraceMs _ _ le
  have gone (i : Fin 2) :=
    @disconnected_of_expired (c.contestants i) c.config.reconnectGraceMs later
  cases e0 : (c.contestants 0).expired c.config.reconnectGraceMs now <;>
    cases e1 : (c.contestants 1).expired c.config.reconnectGraceMs now <;>
    cases l0 : (c.contestants 0).expired c.config.reconnectGraceMs later <;>
    cases l1 : (c.contestants 1).expired c.config.reconnectGraceMs later <;>
    simp_all [forfeit]

theorem forfeit_present (sound : Sound c) (unpaused : c.pausedSinceMs = none) (now : Nat) :
    c.forfeit now = none := by
  have present (i : Fin 2) : (c.contestants i).connection = .connected := by
    by_contra away
    have := sound.paused.mpr ⟨i, away⟩
    simp [unpaused] at this
  have waits (i : Fin 2) : (c.contestants i).expired c.config.reconnectGraceMs now = false := by
    simp [Contestant.expired, present]
  simp [forfeit, waits]

theorem verdict_paused {since : Nat} (paused : c.pausedSinceMs = some since) (now : Nat) :
    c.verdict now = c.forfeit now := by
  unfold verdict
  cases c.forfeit now <;> simp [paused]

theorem ready_paused {since : Nat} (paused : c.pausedSinceMs = some since) (now : Nat) :
    c.ready now = c := by
  simp [ready, paused]

theorem verdict_unpaused (sound : Sound c) (unpaused : c.pausedSinceMs = none) (now : Nat) :
    c.verdict now =
      if (c.reachGo now).phase = .active then (c.reachGo now).activeVerdict now else none := by
  simp [verdict, forfeit_present sound unpaused, unpaused]

theorem ready_unpaused (sound : Sound c) (unpaused : c.pausedSinceMs = none) (now : Nat) :
    c.ready now = c.reachGo now := by
  simp [ready, forfeit_present sound unpaused, unpaused]

theorem reachGo_active (active : c.phase = .active) (now : Nat) : c.reachGo now = c :=
  reachGo_of_not_due fun preparing => by simp [active] at preparing

theorem verdict_active (sound : Sound c) (unpaused : c.pausedSinceMs = none)
    (active : c.phase = .active) (now : Nat) : c.verdict now = c.activeVerdict now := by
  rw [verdict_unpaused sound unpaused, reachGo_active active, if_pos active]

/-- A contest past GO stays as it was at GO until something decides it. -/
theorem reachGo_stays {now later : Nat} (le : now ≤ later)
    (active : (c.reachGo now).phase = .active) : c.reachGo later = c.reachGo now := by
  rcases c.reachGo_cases now with same | ⟨go, preparing, goAt, due, live⟩
  · rw [same] at active ⊢
    exact reachGo_active active later
  · rw [live]
    exact reachGo_of_due preparing goAt (Nat.le_trans due le)

theorem activeVerdict_none {now : Nat} : c.activeVerdict now = none ↔
    c.lapse (min now c.timeLimitMs) = none ∧ now ≤ c.timeLimitMs := by
  unfold activeVerdict
  cases c.lapse (min now c.timeLimitMs) with
  | some outcome => simp
  | none => simp

/-- Whatever is decided stays decided alike, but for the loss of a player whose rival was
still in time. -/
theorem activeVerdict_opens {now : Nat} (h : c.activeVerdict now = some result) :
    (∀ later, now ≤ later → c.activeVerdict later = some result) ∨
    ∃ i, result = .outcome (c.loses i .inactivity) ∧
      c.deadlineMs i + c.config.settleWindowMs < min now c.timeLimitMs ∧
      min now c.timeLimitMs ≤ c.deadlineMs (1 - i) := by
  unfold activeVerdict at h ⊢
  cases lapse : c.lapse (min now c.timeLimitMs) with
  | none =>
    left
    intro later le
    simp only [lapse] at h
    split at h
    · next capped =>
      have same : min later c.timeLimitMs = min now c.timeLimitMs := by omega
      rw [same, lapse]
      simpa only [show c.timeLimitMs < later by omega, if_true] using h
    · cases h
  | some outcome =>
    simp only [lapse, Option.some.injEq] at h
    subst h
    rcases lapse_cases lapse with out | ⟨i, overdue, inTime, same⟩
    · left
      intro later le
      rw [lapse_stays (by omega) out, lapse]
    · exact .inr ⟨i, by rw [same], overdue, inTime⟩

theorem goLive_deadlineMs (go : Nat) (i : Fin 2) :
    (c.goLive go).deadlineMs i = go + c.config.inactivityTimeoutMs := rfl

/-- What is decided at one stamp is decided at every later one, but for the loss of a beaten
player. -/
theorem verdict_opens (sound : Sound c) {now : Nat} (h : c.verdict now = some result) :
    (∀ later, now ≤ later → c.verdict later = some result) ∨
    ∃ i, result = .outcome (c.loses i .inactivity) ∧ c.pausedSinceMs = none ∧
      c.Beaten i now := by
  cases paused : c.pausedSinceMs with
  | some since =>
    left
    intro later le
    rw [verdict_paused paused] at h ⊢
    exact forfeit_stays le h
  | none =>
    rw [verdict_unpaused sound paused] at h
    split at h
    · next active =>
      rcases activeVerdict_opens h with stays | ⟨i, same, overdue, inTime⟩
      · left
        intro later le
        rw [verdict_unpaused sound paused, reachGo_stays le active, if_pos active]
        exact stays later le
      · right
        rcases c.reachGo_cases now with still | ⟨go, -, -, -, live⟩
        · rw [still] at active same overdue inTime
          have reached : c.instant now = now := by simp [instant, paused]
          exact ⟨i, same, rfl, active, by omega, by omega, by omega⟩
        · -- right after GO both deadlines are the same
          rw [live, goLive_deadlineMs] at overdue inTime
          omega
    · cases h

theorem observe_reachGo (c : ContestState) (stamp now : Nat) :
    (c.observe stamp).reachGo now = (c.reachGo now).observe stamp := by
  by_cases due : c.phase = .preparing ∧ ∃ go, c.goAtMs = some go ∧ go ≤ now
  · obtain ⟨preparing, go, goAt, le⟩ := due
    rw [reachGo_of_due preparing goAt le, reachGo_of_due (c := c.observe stamp) preparing goAt le]
    rfl
  · have early (preparing : c.phase = .preparing) (go : Nat) (goAt : c.goAtMs = some go) :
        now < go := by
      by_contra late
      exact due ⟨preparing, go, goAt, Nat.le_of_not_lt late⟩
    rw [reachGo_of_not_due early, reachGo_of_not_due (c := c.observe stamp) early]

theorem observe_verdict (c : ContestState) (stamp now : Nat) :
    (c.observe stamp).verdict now = c.verdict now := by
  simp only [verdict, observe_reachGo]
  rfl

theorem observe_observe {now later : Nat} (le : now ≤ later) :
    (c.observe now).observe later = c.observe later := by
  simp only [observe]
  congr 1
  omega

/-- A tick that decides nothing leaves no trace in what follows. -/
theorem advance_advance (sound : Sound c) (running : c.phase.running = true) {now later : Nat}
    (undecided : c.verdict (max c.clockMs now) = none) (le : now ≤ later) :
    (c.advance now).advance later = c.advance later := by
  have first : c.advance now = (c.observe now).ready (max c.clockMs now) := by
    rw [advance_eq running, observe_verdict, undecided]
    rfl
  cases paused : c.pausedSinceMs with
  | some since =>
    rw [first, ready_paused (c := c.observe now) paused, advance_eq running,
      advance_eq (c := c.observe now) running, observe_observe le]
    have clock : max (c.observe now).clockMs later = max c.clockMs later := by
      simp only [observe]
      omega
    rw [clock]
  | none =>
    rw [first, ready_unpaused (sound.observe now) paused]
    have clock : max (c.observe now).clockMs later = max c.clockMs later := by
      simp only [observe]
      omega
    rcases (c.observe now).reachGo_cases (max c.clockMs now) with
      same | ⟨go, preparing, goAt, due, live⟩
    · rw [same, advance_eq running, advance_eq (c := c.observe now) running,
        observe_observe le, clock]
    · have soundLater := sound.observe later
      have reached : (c.observe later).reachGo (max c.clockMs later) =
          (c.observe later).goLive go :=
        reachGo_of_due preparing goAt (by omega)
      have soundLive : Sound ((c.observe later).goLive go) := by
        have kept := (sound.observe later).ready (max c.clockMs later)
        rwa [ready_unpaused soundLater paused, reached] at kept
      have here : ((c.observe now).goLive go).observe later = (c.observe later).goLive go := by
        rw [← observe_observe (c := c) le]
        rfl
      have clock' : max ((c.observe now).goLive go).clockMs later = max c.clockMs later := clock
      rw [live, advance_eq (c := (c.observe now).goLive go) rfl, advance_eq running, here,
        clock', verdict_active soundLive paused rfl, verdict_unpaused soundLater paused,
        ready_unpaused soundLive paused, ready_unpaused soundLater paused, reached]
      rfl

end ContestState

end Phase.Contest
