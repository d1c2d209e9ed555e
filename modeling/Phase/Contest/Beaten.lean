import Phase.Contest.Ticks

/-! What the calls do to a player who is out while the contest is still open. -/
namespace Phase.Contest
open Option ContestState

namespace ContestState

variable {c : ContestState}

/-- The clock stood still at an instant that had decided nothing. -/
structure Held (c : ContestState) : Prop where
  past : ∀ since, c.pausedSinceMs = some since → since ≤ c.clockMs
  undecided : c.phase = .active → ∀ since, c.pausedSinceMs = some since →
    c.activeVerdict since = none

theorem activeVerdict_congr {c d : ContestState} (config : d.config = c.config)
    (goAt : d.goAtMs = c.goAtMs) (player : ∀ i, (d.contestants i).player = (c.contestants i).player)
    (activity : ∀ i, (d.contestants i).lastActivityMs = (c.contestants i).lastActivityMs)
    (now : Nat) : d.activeVerdict now = c.activeVerdict now := by
  have deadline (i : Fin 2) : d.deadlineMs i = c.deadlineMs i := by
    simp only [deadlineMs, config, activity]
  have limit : d.timeLimitMs = c.timeLimitMs := by simp only [timeLimitMs, config, goAt]
  have loses (i : Fin 2) (reason : ContestLossReason) : d.loses i reason = c.loses i reason := by
    simp only [loses, player]
  have lapse (now : Nat) : d.lapse now = c.lapse now := by
    simp only [lapse, deadline, config, loses]
  simp only [activeVerdict, lapse, limit]

/-- A contestant rewritten but for the player and the last activity. -/
theorem modify_keeps (i : Fin 2) (change : Contestant → Contestant)
    (keeps : ∀ contestant, (change contestant).player = contestant.player ∧
      (change contestant).lastActivityMs = contestant.lastActivityMs) (j : Fin 2) :
    ((c.modify i change).contestants j).player = (c.contestants j).player ∧
      ((c.modify i change).contestants j).lastActivityMs = (c.contestants j).lastActivityMs := by
  by_cases same : j = i
  · subst same
    simp [modify, keeps]
  · simp [modify, same]

theorem detach_keeps (i j : Fin 2) :
    ((c.detach i).contestants j).player = (c.contestants j).player ∧
      ((c.detach i).contestants j).lastActivityMs = (c.contestants j).lastActivityMs :=
  modify_keeps i (fun contestant => { contestant with connection := .disconnected c.clockMs })
    (fun _ => ⟨rfl, rfl⟩) j

theorem attach_keeps (i j : Fin 2) :
    ((c.attach i).contestants j).player = (c.contestants j).player ∧
      ((c.attach i).contestants j).lastActivityMs = (c.contestants j).lastActivityMs :=
  modify_keeps i (fun contestant => { contestant with connection := .connected })
    (fun _ => ⟨rfl, rfl⟩) j

variable {since now : Nat} {i k : Fin 2}

/-- A click during a pause is counted, but is no activity. -/
theorem countClick_keeps (paused : c.pausedSinceMs = some since) (i : Fin 2) (seq : Nat)
    (j : Fin 2) :
    ((c.countClick i seq).contestants j).player = (c.contestants j).player ∧
      ((c.countClick i seq).contestants j).lastActivityMs = (c.contestants j).lastActivityMs :=
  modify_keeps i (fun contestant => { contestant with
    lastSeq := some seq
    clicks := min (contestant.clicks + 1) (2 ^ 32 - 1)
    lastActivityMs := if c.pausedSinceMs.isSome then contestant.lastActivityMs else c.clockMs })
    (fun _ => ⟨rfl, by simp [paused]⟩) j

theorem advance_running (still : (c.advance now).phase.running = true) :
    c.phase.running = true ∧ c.verdict (max c.clockMs now) = none ∧
      c.advance now = (c.observe now).ready (max c.clockMs now) := by
  rcases c.advance_cases now with same | ⟨running, ⟨none, same⟩ | ⟨result, -, same⟩⟩
  · have before : c.phase.running = true := by
      rw [same] at still
      exact still
    rw [advance_eq before] at same ⊢
    cases verdict : (c.observe now).verdict (max c.clockMs now) with
    | none =>
      rw [observe_verdict] at verdict
      exact ⟨before, verdict, rfl⟩
    | some result =>
      rw [advance_eq before, verdict] at still
      cases result <;> cases still
  · rw [observe_verdict] at none
    exact ⟨running, none, same⟩
  · rw [same] at still
    cases result <;> cases still

/-- Nothing is decided yet at the instant to which the contest was brought. -/
theorem advance_undecided (sound : Sound c) (still : (c.advance now).phase.running = true)
    (active : (c.advance now).phase = .active) (unpaused : (c.advance now).pausedSinceMs = none) :
    (c.advance now).activeVerdict (c.advance now).clockMs = none := by
  obtain ⟨running, verdict, same⟩ := advance_running still
  rw [c.advance_clockMs]
  have before : c.pausedSinceMs = none := by
    rw [same] at unpaused
    rcases (c.observe now).ready_cases (max c.clockMs now) with kept | ⟨go, -, -, -, none, -⟩
    · rw [kept] at unpaused
      exact unpaused
    · exact none
  have reached : c.advance now = (c.observe now).reachGo (max c.clockMs now) := by
    rw [same, ready_unpaused (sound.observe now) before]
  rw [← observe_verdict c now, verdict_unpaused (sound.observe now) before, ← reached,
    if_pos active] at verdict
  exact verdict

namespace Held

theorem new (id : Nat) (kind : ContestKind) (controller opponent : PlayerId)
    (config : ContestConfig) : (new id kind controller opponent config).Held :=
  ⟨nofun, nofun⟩

section
variable (h : c.Held)
include h

theorem observe (now : Nat) : (c.observe now).Held where
  past := fun since paused => Nat.le_trans (h.past since paused) (Nat.le_max_left _ _)
  undecided := h.undecided

theorem ready (now : Nat) : (c.ready now).Held := by
  rcases c.ready_cases now with same | ⟨go, -, -, -, unpaused, live⟩
  · rwa [same]
  · rw [live]
    refine ⟨h.past, fun _ since paused => ?_⟩
    rw [show (c.goLive go).pausedSinceMs = none from unpaused] at paused
    cases paused

theorem advance (now : Nat) : (c.advance now).Held := by
  rcases c.advance_cases now with same | ⟨-, ⟨-, same⟩ | ⟨result, -, same⟩⟩
  · exact same ▸ h.observe now
  · exact same ▸ (h.observe now).ready _
  · rw [same]
    exact ⟨((h.observe now).ready _).past, by cases result <;> nofun⟩

theorem countClick (i : Fin 2) (seq : Nat) : (c.countClick i seq).Held where
  past := h.past
  undecided := by
    intro active since paused
    have still : c.pausedSinceMs = some since := paused
    rw [activeVerdict_congr (d := c.countClick i seq) (c := c) rfl rfl
      (fun j => (countClick_keeps still i seq j).1)
      fun j => (countClick_keeps still i seq j).2]
    exact h.undecided active since paused

theorem detach (i : Fin 2)
    (undecided : c.phase = .active → c.pausedSinceMs = none → c.activeVerdict c.clockMs = none) :
    (c.detach i).Held where
  past := by
    intro since paused
    show since ≤ c.clockMs
    cases before : c.pausedSinceMs with
    | none =>
      simp only [ContestState.detach, before, getD_none, some.injEq] at paused
      omega
    | some earlier =>
      simp only [ContestState.detach, before, getD_some, some.injEq] at paused
      exact paused ▸ h.past earlier before
  undecided := by
    intro active since paused
    rw [activeVerdict_congr (d := c.detach i) (c := c) rfl rfl (fun j => (detach_keeps i j).1)
      fun j => (detach_keeps i j).2]
    cases before : c.pausedSinceMs with
    | none =>
      simp only [ContestState.detach, before, getD_none, some.injEq] at paused
      exact paused ▸ undecided active before
    | some earlier =>
      simp only [ContestState.detach, before, getD_some, some.injEq] at paused
      exact paused ▸ h.undecided active earlier before

theorem attach (i : Fin 2) : (c.attach i).Held where
  past := h.past
  undecided := by
    intro active since paused
    rw [activeVerdict_congr (d := c.attach i) (c := c) rfl rfl (fun j => (attach_keeps i j).1)
      fun j => (attach_keeps i j).2]
    exact h.undecided active since paused

theorem rejoin {since : Nat} (paused : c.pausedSinceMs = some since) (i : Fin 2) :
    (c.rejoin i).Held := by
  rcases rejoin_cases paused i with ⟨-, same⟩ | ⟨-, same⟩
  · rw [same]
    exact ⟨nofun, fun _ => nofun⟩
  · exact same ▸ h.attach i

theorem start (now : Nat) : (c.start now).1.Held := by
  by_cases pending : c.phase = .pending
  · simp only [ContestState.start, pending, ne_eq, not_true_eq_false, if_false, transition,
      ContestState.observe, ContestPhase.canTransitionTo, if_true]
    refine ⟨fun since paused => ?_, fun live => by cases live⟩
    split at paused
    · exact Nat.le_of_eq (some.inj paused).symm
    · cases paused
  · simpa [ContestState.start, pending] using h

theorem click (player : PlayerId) (seq now : Nat) : (c.click player seq now).1.Held := by
  rcases c.click_cases player seq now with ⟨-, same⟩ | ⟨i, -, -, same⟩
  · exact same ▸ h.advance now
  · exact same ▸ (h.advance now).countClick i seq

theorem setConnected (sound : Sound c) (player : PlayerId) (connected : Bool) (now : Nat) :
    (c.setConnected player connected now).1.Held := by
  cases seat : c.indexOf player with
  | none => rw [setConnected_stranger seat]; exact h
  | some i =>
    cases edge : c.isEdge i connected with
    | false => rw [setConnected_repeat seat edge]; exact h
    | true =>
      rw [setConnected_edge seat edge]
      split
      · next still =>
        cases connected with
        | false => exact (h.advance now).detach i (advance_undecided sound still)
        | true =>
          obtain ⟨sinceMs, away⟩ := isEdge_true.mp edge
          obtain ⟨since, paused⟩ := (sound.advance now).pausedSince (i := i)
            (by rw [advance_connection, away]; simp)
          exact (h.advance now).rejoin paused i
      · exact h.advance now

end

end Held

theorem Beaten.mono {later : Nat} (h : c.Beaten i now) (le : now ≤ later) : c.Beaten i later where
  active := h.active
  apart := h.apart
  capped := h.capped
  overdue := by
    have overdue := h.overdue
    unfold instant at overdue ⊢
    cases paused : c.pausedSinceMs with
    | none =>
      simp only [paused, getD_none] at overdue ⊢
      omega
    | some since => simpa only [paused, getD_some] using overdue

/-- When play stands still with a player beaten, the other is recovering. -/
theorem Held.recovering (h : c.Held) (beaten : c.Beaten i now)
    (paused : c.pausedSinceMs = some since) : c.Recovering i since := by
  have overdue := beaten.overdue
  simp only [instant, paused, getD_some] at overdue
  obtain ⟨none, within⟩ := activeVerdict_none.mp (h.undecided beaten.active since paused)
  rw [Nat.min_eq_left within] at none
  by_contra settled
  have decided := lapse_beaten beaten.apart overdue fun both =>
    settled ⟨beaten.apart, both.1, both.2⟩
  rw [none] at decided
  cases decided

/-- A beaten player has lost by now, or the other is recovering. -/
theorem verdict_beaten (sound : Sound c) (h : c.Held) (beaten : c.Beaten i now)
    (steady : ¬c.Reopened now) :
    c.verdict now = none ∨ c.verdict now = some (.outcome (c.loses i .inactivity)) := by
  cases paused : c.pausedSinceMs with
  | some since =>
    left
    rw [verdict_paused paused]
    by_contra decided
    refine steady ⟨beaten.active, i, ?_⟩
    simp only [paused]
    exact ⟨forfeit_isSome.mp (isSome_iff_ne_none.mpr decided), h.recovering beaten paused⟩
  | none =>
    have overdue := beaten.overdue
    have capped := beaten.capped
    simp only [instant, paused, getD_none] at overdue
    rw [verdict_active sound paused beaten.active]
    by_cases recovers : c.Recovering i (min now c.timeLimitMs)
    · left
      rw [activeVerdict_none]
      refine ⟨lapse_recovering recovers, ?_⟩
      by_contra late
      have atCap : min now c.timeLimitMs = c.timeLimitMs := by omega
      refine steady ⟨beaten.active, i, ?_⟩
      simp only [paused]
      exact ⟨by omega, atCap ▸ recovers⟩
    · have decided := lapse_beaten beaten.apart (show _ < min now c.timeLimitMs by omega)
        fun both => recovers ⟨beaten.apart, both.1, both.2⟩
      simp [activeVerdict, decided]

/-- Being beaten depends on the clocks only. -/
theorem beaten_congr {d : ContestState} (phase : d.phase = c.phase) (config : d.config = c.config)
    (goAt : d.goAtMs = c.goAtMs)
    (activity : ∀ i, (d.contestants i).lastActivityMs = (c.contestants i).lastActivityMs)
    (instant : d.instant now = c.instant now) (i : Fin 2) : d.Beaten i now ↔ c.Beaten i now := by
  have deadline (j : Fin 2) : d.deadlineMs j = c.deadlineMs j := by
    simp only [deadlineMs, config, activity]
  have limit : d.timeLimitMs = c.timeLimitMs := by simp only [timeLimitMs, config, goAt]
  constructor <;> rintro ⟨active, apart, capped, overdue⟩
  · rw [deadline, deadline, config] at apart
    rw [deadline, config] at capped overdue
    exact ⟨phase ▸ active, apart, limit ▸ capped, instant ▸ overdue⟩
  · refine ⟨phase.trans active, ?_, ?_, ?_⟩
    · rwa [deadline, deadline, config]
    · rwa [deadline, config, limit]
    · rwa [deadline, config, instant]

theorem beaten_detach : (c.detach k).Beaten i c.clockMs ↔ c.Beaten i c.clockMs :=
  beaten_congr (d := c.detach k) (c := c) rfl rfl rfl (fun j => (detach_keeps k j).2)
    (by simp [instant, detach]) i

theorem beaten_attach : (c.attach k).Beaten i now ↔ c.Beaten i now :=
  beaten_congr (d := c.attach k) (c := c) rfl rfl rfl (fun j => (attach_keeps k j).2) rfl i

/-- The outage shifts the clocks and changes nothing about who is out. -/
theorem beaten_rejoin (sound : Sound c) (h : c.Held) (paused : c.pausedSinceMs = some since) :
    (c.rejoin k).Beaten i c.clockMs ↔ c.Beaten i c.clockMs := by
  have past := h.past since paused
  rcases rejoin_cases paused k with ⟨-, same⟩ | ⟨-, same⟩
  · by_cases active : c.phase = .active
    · have phase : (c.rejoin k).phase = .active := by rw [same]; exact active
      have config : (c.rejoin k).config = c.config := by rw [same]
      have deadline (j : Fin 2) :
          (c.rejoin k).deadlineMs j = c.deadlineMs j + (c.clockMs - since) := by
        rw [same]
        simp only [deadlineMs, active, if_true, (attach_keeps k j).2]
        omega
      have limit : (c.rejoin k).timeLimitMs = c.timeLimitMs + (c.clockMs - since) := by
        obtain ⟨go, goAt⟩ := isSome_iff_exists.mp (sound.going (.inr active))
        rw [same]
        simp only [timeLimitMs, active, or_true, if_true, goAt, map_some, getD_some]
        omega
      have instant : (c.rejoin k).instant c.clockMs = c.clockMs := by rw [same]; rfl
      have before : c.instant c.clockMs = since := by simp [ContestState.instant, paused]
      constructor <;> rintro ⟨-, apart, capped, overdue⟩
      · rw [deadline, deadline, config] at apart
        rw [deadline, config] at capped
        rw [deadline, config] at overdue
        exact ⟨active, by omega, by omega, by omega⟩
      · refine ⟨phase, ?_, ?_, ?_⟩
        · rw [deadline, deadline, config]
          omega
        · rw [deadline, config]
          omega
        · rw [deadline, config]
          omega
    · have phase : (c.rejoin k).phase = c.phase := by rw [same]
      exact ⟨fun beaten => absurd (phase ▸ beaten.active) active,
        fun beaten => absurd beaten.active active⟩
  · rw [same]
    exact beaten_attach

end ContestState
end Phase.Contest
