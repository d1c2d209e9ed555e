import Phase.Contest.TickRun

/-! A run that is not steady has a tick that changes its result. -/
namespace Phase.Contest
open ContestState

/-- The result is a loss by inactivity. -/
def ContestResult.ByInactivity (result : ContestResult) : Prop :=
  ∃ winner loser, result = .outcome (.decided winner loser .inactivity)

namespace ContestState

variable {c : ContestState}

theorem forfeit_not_inactivity {now : Nat} {result : ContestResult}
    (h : c.forfeit now = some result) : ¬result.ByInactivity := by
  rintro ⟨winner, loser, rfl⟩
  simp only [forfeit] at h
  split at h
  · cases h
  · split at h <;> cases h

/-- A contest that ends at a moment open only again ends otherwise than by inactivity. -/
theorem Reopened.certain (sound : Sound c) {now : Nat} (h : c.Reopened now) :
    ∃ result, ¬result.ByInactivity ∧ c.Certain result now := by
  obtain ⟨active, i, moment⟩ := h
  cases paused : c.pausedSinceMs with
  | none =>
    simp only [paused] at moment
    obtain ⟨capped, recovering⟩ := moment
    refine ⟨.cancelled .timeLimit, nofun, fun later le => ?_⟩
    have atCap : min later c.timeLimitMs = c.timeLimitMs := by omega
    have overdue : c.timeLimitMs < later := by omega
    rw [verdict_active sound paused active]
    simp [activeVerdict, atCap, lapse_recovering recovering, overdue]
  | some since =>
    simp only [paused] at moment
    obtain ⟨result, forfeited⟩ := Option.isSome_iff_exists.mp (forfeit_isSome.mpr moment.1)
    refine ⟨result, forfeit_not_inactivity forfeited, fun later le => ?_⟩
    rw [verdict_paused paused]
    exact forfeit_stays le forfeited

variable {lo : Nat}

theorem after_decided (decided : c.phase.running = false) {calls : List Call}
    (ordered : Ordered lo calls) : (c.after calls).result = c.result := by
  induction calls generalizing c lo with
  | nil => rfl
  | cons call calls ih =>
    obtain ⟨stamp, input, -, rest⟩ := ordered
    have next := call_decided decided input
    exact (ih next.1 rest).trans next.2

theorem Certain.run {result : ContestResult} {lo now : Nat} {calls : List Call}
    (h : c.Certain result lo) (running : c.phase.running = true) (past : c.clockMs ≤ lo)
    (ordered : Ordered lo (calls ++ [.advance now])) :
    (c.after (calls ++ [.advance now])).result = some result := by
  induction calls generalizing c lo with
  | nil =>
    obtain ⟨stamp, input, le, -⟩ := ordered
    cases input
    exact (decided_advance running (h _ (by omega))).2
  | cons call calls ih =>
    obtain ⟨stamp, input, le, rest⟩ := ordered
    rcases h.call running input le (Nat.le_trans past le) with ⟨decided, same⟩ | ⟨still, certain⟩
    · exact (after_decided decided rest).trans same
    · exact ih certain still (call_clockMs input (Nat.le_trans past le)) rest

/-- Nothing reopens in a contest that runs on with both deadlines well before the cap. -/
theorem not_reopened (unpaused : c.pausedSinceMs = none)
    (capped : ∀ i, c.deadlineMs i + c.config.settleWindowMs < c.timeLimitMs) (now : Nat) :
    ¬c.Reopened now := by
  rintro ⟨-, i, moment⟩
  simp only [unpaused] at moment
  have window := moment.2.window
  have := capped (1 - i)
  omega

theorem not_reopened_of_decided (decided : c.phase.running = false) (now : Nat) :
    ¬c.Reopened now := by
  rintro ⟨active, -⟩
  rw [active] at decided
  cases decided

/-- A run that is not steady does not end by inactivity. -/
theorem result_of_unsteady {now : Nat} {calls : List Call} (sound : Sound c) (past : c.clockMs ≤ lo)
    (ordered : Ordered lo (calls ++ [.advance now]))
    (unsteady : ¬c.Steady (calls ++ [.advance now])) :
    ∃ result, ¬result.ByInactivity ∧ (c.after (calls ++ [.advance now])).result = some result := by
  induction calls generalizing c lo with
  | nil =>
    obtain ⟨stamp, input, le, -⟩ := ordered
    cases input
    have reopened : c.Reopened now := by
      by_contra steady
      exact unsteady ⟨fun stamp input => by cases input; exact steady, trivial⟩
    obtain ⟨result, other, certain⟩ := reopened.certain sound
    have running : c.phase.running = true := by
      cases running : c.phase.running with
      | true => rfl
      | false => exact absurd reopened (not_reopened_of_decided running now)
    exact ⟨result, other, @Certain.run _ _ _ now [] certain running (Nat.le_trans past le)
      ⟨now, rfl, Nat.le_refl _, trivial⟩⟩
  | cons call calls ih =>
    obtain ⟨stamp, input, le, rest⟩ := ordered
    have past' := Nat.le_trans past le
    by_cases reopened : c.Reopened stamp
    · obtain ⟨result, other, certain⟩ := reopened.certain sound
      have running : c.phase.running = true := by
        cases running : c.phase.running with
        | true => rfl
        | false => exact absurd reopened (not_reopened_of_decided running stamp)
      exact ⟨result, other, @Certain.run _ _ _ now (call :: calls) certain running past'
        ⟨stamp, input, Nat.le_refl _, rest⟩⟩
    · refine ih (sound.call call) (call_clockMs input past') rest fun steady => unsteady ⟨?_, steady⟩
      intro own same
      rw [input] at same
      cases same
      exact reopened

/-- Whoever is beaten by now can still be declared the loser now. -/
def Open (c : ContestState) (now : Nat) : Prop :=
  ∀ i, c.Beaten i now → c.pausedSinceMs = none ∧
    c.verdict now = some (.outcome (c.loses i .inactivity))

/-- Some stamp of the interval decides by inactivity. -/
def Decides (c : ContestState) (lo hi : Nat) : Prop :=
  ∃ now, lo ≤ now ∧ now ≤ hi ∧ ∃ i, c.verdict now = some (.outcome (c.loses i .inactivity))

theorem verdict_in_time (sound : Sound c) {i : Fin 2} {now : Nat} (beaten : c.Beaten i now)
    (unpaused : c.pausedSinceMs = none) (inTime : now ≤ c.deadlineMs (1 - i)) :
    c.verdict now = some (.outcome (c.loses i .inactivity)) := by
  have overdue := beaten.overdue
  have capped := beaten.capped
  simp only [instant, unpaused, Option.getD_none] at overdue
  have decided := lapse_beaten beaten.apart (show _ < min now c.timeLimitMs by omega)
    fun both => by omega
  rw [verdict_active sound unpaused beaten.active]
  simp [activeVerdict, decided]

variable {hi : Nat}

theorem Open.decides (h : c.Open lo) (sound : Sound c) (le : lo ≤ hi) {i : Fin 2}
    (beaten : c.Beaten i hi) : c.Decides lo hi := by
  cases paused : c.pausedSinceMs with
  | some since =>
    have before : c.Beaten i lo := by
      have overdue := beaten.overdue
      exact ⟨beaten.active, beaten.apart, beaten.capped, by simpa [instant, paused] using overdue⟩
    rw [(h i before).1] at paused
    cases paused
  | none =>
    have overdue := beaten.overdue
    have apart := beaten.apart
    simp only [instant, paused, Option.getD_none] at overdue
    by_cases early : c.deadlineMs i + c.config.settleWindowMs < lo
    · have before : c.Beaten i lo :=
        ⟨beaten.active, beaten.apart, beaten.capped, by simpa [instant, paused] using early⟩
      exact ⟨lo, Nat.le_refl _, le, i, (h i before).2⟩
    · -- the last stamp at which the other is still in time
      have there : c.Beaten i (min hi (c.deadlineMs (1 - i))) := by
        refine ⟨beaten.active, beaten.apart, beaten.capped, ?_⟩
        simp only [instant, paused, Option.getD_none]
        omega
      exact ⟨min hi (c.deadlineMs (1 - i)), by omega, Nat.min_le_left _ _, i,
        verdict_in_time sound there paused (Nat.min_le_right _ _)⟩

theorem Reopened.decides (h : c.Reopened hi) (sound : Sound c) (held : c.Held) (open' : c.Open lo)
    (le : lo ≤ hi) : c.Decides lo hi := by
  obtain ⟨active, i, moment⟩ := h
  cases paused : c.pausedSinceMs with
  | none =>
    simp only [paused] at moment
    obtain ⟨capped, apart, lapsed, window⟩ := moment
    refine open'.decides sound le (i := i) ⟨active, apart, by omega, ?_⟩
    simp only [instant, paused, Option.getD_none]
    omega
  | some since =>
    simp only [paused] at moment
    obtain ⟨-, apart, lapsed, window⟩ := moment
    have within := (activeVerdict_none.mp (held.undecided active since paused)).2
    refine open'.decides sound le (i := i) ⟨active, apart, by omega, ?_⟩
    simp only [instant, paused, Option.getD_some]
    omega

theorem Open.advance {lo : Nat} (h : c.Open lo) (sound : Sound c) (le : lo ≤ hi)
    (past : c.clockMs ≤ hi) (closed : ¬c.Decides lo hi) (i : Fin 2) :
    ¬(c.advance hi).Beaten i hi := by
  intro beaten
  have still : (c.advance hi).phase.running = true := by
    rw [beaten.active]
    rfl
  obtain ⟨running, -, same⟩ := advance_running still
  rw [Nat.max_eq_right past] at same
  rcases (c.observe hi).ready_cases hi with kept | ⟨go, -, -, -, -, live⟩
  · rw [same, kept] at beaten
    refine closed (h.decides sound le (i := i) ?_)
    exact (beaten_congr (d := c.observe hi) (c := c) rfl rfl rfl (fun _ => rfl) rfl i).mp beaten
  · have apart := beaten.apart
    rw [same, live, goLive_deadlineMs, goLive_deadlineMs] at apart
    omega

/-- Only the rival's own click can leave a player beaten, and then a tick decides at once. -/
theorem Open.call {lo : Nat} (h : c.Open lo) (sound : Sound c) (held : c.Held) {call : Call}
    (input : call.input = some hi) (le : lo ≤ hi) (past : c.clockMs ≤ hi)
    (closed : ¬c.Decides lo hi) : (c.call call).1.Open hi := by
  intro i beaten
  have clock : (c.advance hi).clockMs = hi := by rw [advance_clockMs, Nat.max_eq_right past]
  have unbeaten := h.advance sound le past closed i
  have soundNow := sound.advance hi
  have soundNext := sound.call call
  rcases c.call_effect input with same | ⟨rfl, pending⟩ | effect
  · rw [same] at beaten
    exact absurd (h.decides sound le beaten) closed
  · have active := beaten.active
    simp [ContestState.call, start, pending, transition, observe,
      ContestPhase.canTransitionTo] at active
  · have heldNow := held.advance hi
    generalize (c.call call).1 = d at *
    generalize c.advance hi = a at *
    subst clock
    cases effect with
    | none => exact absurd beaten unbeaten
    | detach k running => exact absurd (beaten_detach.mp beaten) unbeaten
    | @rejoin k running away =>
      obtain ⟨since, paused⟩ := soundNow.pausedSince away
      exact absurd ((beaten_rejoin soundNow heldNow paused).mp beaten) unbeaten
    | @click player k seq seat counted =>
      cases paused : a.pausedSinceMs with
      | some since =>
        exact absurd ((beaten_congr (d := a.countClick k seq) (c := a) rfl rfl rfl
          (fun j => (countClick_keeps paused k seq j).2) rfl i).mp beaten) unbeaten
      | none =>
        have overdue := beaten.overdue
        have still : (a.countClick k seq).pausedSinceMs = none := paused
        simp only [instant, still, Option.getD_none] at overdue
        have clicked : (a.countClick k seq).deadlineMs k =
            a.clockMs + a.config.inactivityTimeoutMs := by
          simp [deadlineMs, countClick, modify, paused]
        have apartSeats : k ≠ i := by
          rintro rfl
          omega
        have rivals : ∀ i k : Fin 2, k ≠ i → 1 - i = k := by decide
        refine ⟨still, verdict_in_time soundNext beaten still ?_⟩
        rw [rivals i k apartSeats]
        omega

/-- A run that is not steady ends by inactivity with one more tick. -/
theorem tick_of_unsteady {calls : List Call} (sound : Sound c) (held : c.Held)
    (past : c.clockMs ≤ lo) (ordered : Ordered lo calls) (open' : c.Open lo)
    (unsteady : ¬c.Steady calls) :
    ∃ ticked, Ticked lo calls ticked ∧
      ∃ result, result.ByInactivity ∧ (c.after ticked).result = some result := by
  induction calls generalizing c lo with
  | nil => exact absurd trivial unsteady
  | cons call calls ih =>
    obtain ⟨stamp, input, le, rest⟩ := ordered
    by_cases decisive : c.phase.running = true ∧ c.Decides lo stamp
    · obtain ⟨running, now, after, before, i, decides⟩ := decisive
      have decided := decided_advance running (show c.verdict (max c.clockMs now) = _ by
          rw [Nat.max_eq_right (Nat.le_trans past after)]; exact decides)
      have later : Ordered now (call :: calls) := ⟨stamp, input, before, rest⟩
      refine ⟨.advance now :: call :: calls, .tick after later.ticked,
        .outcome (c.loses i .inactivity), ⟨_, _, rfl⟩, ?_⟩
      exact (after_decided decided.1 later).trans decided.2
    · have calm : ¬c.Reopened stamp := by
        intro reopened
        have running : c.phase.running = true := by
          rw [reopened.1]
          rfl
        exact decisive ⟨running, reopened.decides sound held open' le⟩
      have past' := Nat.le_trans past le
      have next : (c.call call).1.Open stamp := by
        cases running : c.phase.running with
        | true =>
          exact open'.call sound held input le past' fun there => decisive ⟨running, there⟩
        | false =>
          intro i beaten
          have ended := (call_decided running input).1
          rw [beaten.active] at ended
          cases ended
      have unsteady' : ¬(c.call call).1.Steady calls := by
        intro steady
        refine unsteady ⟨fun own same => ?_, steady⟩
        rw [input] at same
        cases same
        exact calm
      obtain ⟨ticked, between, result⟩ :=
        ih (sound.call call) (held.call sound input) (call_clockMs input past') rest next unsteady'
      exact ⟨call :: ticked, .input input le between, result⟩

end ContestState

theorem steady_of_ticks {new : ContestState} {inputs : List Call} {now : Nat}
    (sound : Sound new) (held : new.Held) (begins : new.clockMs = 0)
    (pending : new.phase = .pending) (ordered : Ordered 0 (inputs ++ [.advance now]))
    (same : ∀ ticked, Ticked 0 (inputs ++ [.advance now]) ticked →
      (new.after ticked).result = (new.after (inputs ++ [.advance now])).result) :
    new.Steady (inputs ++ [.advance now]) := by
  by_contra unsteady
  have nobody : new.Open 0 := by
    intro i beaten
    have active := beaten.active
    rw [pending] at active
    cases active
  have past : new.clockMs ≤ 0 := Nat.le_of_eq begins
  obtain ⟨result, other, ends⟩ := result_of_unsteady sound past ordered unsteady
  obtain ⟨ticked, between, lost, inactive, ticks⟩ :=
    tick_of_unsteady sound held past ordered nobody unsteady
  have equal := same ticked between
  rw [ticks, ends] at equal
  cases equal
  exact other inactive

/-- A second to click, and a tenth of a second for a tie. -/
def brisk : ContestConfig where
  countdownMs := 1000
  inactivityTimeoutMs := 1000
  reconnectGraceMs := 5000
  settleWindowMs := 100
  maxActiveMs := 60000

end Phase.Contest
