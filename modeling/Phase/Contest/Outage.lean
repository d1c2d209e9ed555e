import Phase.Contest.Lifecycle

/-! Two runs of a contest, one a fixed time behind the other: an outage that ends within the
grace period is such a delay. -/
namespace Phase.Contest
open ContestState ContestPhase List Option

def ContestantConnection.delay (e : Nat) : ContestantConnection → ContestantConnection
  | .connected => .connected
  | .disconnected sinceMs => .disconnected (sinceMs + e)

/-- The call stamped `e` earlier. -/
def Call.earlier (e : Nat) : Call → Call
  | .start nowMs => .start (nowMs - e)
  | .advance nowMs => .advance (nowMs - e)
  | .click player seq nowMs => .click player seq (nowMs - e)
  | .setConnected player connected nowMs => .setConnected player connected (nowMs - e)
  | .cancel reason nowMs => .cancel reason (nowMs - e)
  | .complete => .complete

/-- Every running clock of `a` is `e` ahead of that of `b`. -/
structure Timed (e : Nat) (b a : ContestState) : Prop where
  clock : a.clockMs = b.clockMs + e
  goAt : b.phase = .preparing ∨ b.phase = .active → a.goAtMs = b.goAtMs.map (· + e)
  paused : a.pausedSinceMs = b.pausedSinceMs.map (· + e)
  connection : ∀ i, (a.contestants i).connection = (b.contestants i).connection.delay e
  activity : b.phase = .active → ∀ i,
    (a.contestants i).lastActivityMs = (b.contestants i).lastActivityMs + e

/-- `a` is what `b` is, only later; once decided, no time matters any more. -/
structure Delayed (e : Nat) (b a : ContestState) : Prop where
  phase : a.phase = b.phase
  result : a.result = b.result
  config : a.config = b.config
  player : ∀ i, (a.contestants i).player = (b.contestants i).player
  clicks : ∀ i, (a.contestants i).clicks = (b.contestants i).clicks
  lastSeq : ∀ i, (a.contestants i).lastSeq = (b.contestants i).lastSeq
  timed : b.phase.running = true → Timed e b a

theorem ContestantConnection.delay_connected {e : Nat} {connection : ContestantConnection} :
    connection.delay e = .connected ↔ connection = .connected := by
  cases connection <;> simp [delay]

namespace Delayed

variable {e : Nat} {b a : ContestState}

section
variable (h : Delayed e b a)
include h

theorem loses (i : Fin 2) (reason : ContestLossReason) : a.loses i reason = b.loses i reason := by
  simp only [ContestState.loses, h.player]

theorem indexOf (player : PlayerId) : a.indexOf player = b.indexOf player := by
  simp only [ContestState.indexOf, h.player]

theorem deadline (active : b.phase = .active) (i : Fin 2) :
    a.deadlineMs i = b.deadlineMs i + e := by
  have timed := h.timed (by simp [active, running])
  simp only [deadlineMs, h.config, timed.activity active]
  omega

theorem lapse (active : b.phase = .active) (now : Nat) : a.lapse (now + e) = b.lapse now := by
  have apart : absDiff (b.deadlineMs 0 + e) (b.deadlineMs 1 + e) =
      absDiff (b.deadlineMs 0) (b.deadlineMs 1) := by
    simp only [absDiff]
    omega
  have out (i : Fin 2) : b.deadlineMs i + e + b.config.settleWindowMs =
      b.deadlineMs i + b.config.settleWindowMs + e := by omega
  simp only [ContestState.lapse, h.deadline active, h.config, h.loses, apart, out,
    Nat.add_lt_add_iff_right]

theorem forfeit (running : b.phase.running = true) (now : Nat) :
    a.forfeit (now + e) = b.forfeit now := by
  have timed := h.timed running
  have expired (i : Fin 2) : (a.contestants i).expired a.config.reconnectGraceMs (now + e) =
      (b.contestants i).expired b.config.reconnectGraceMs now := by
    simp only [Contestant.expired, timed.connection, h.config]
    cases (b.contestants i).connection with
    | connected => rfl
    | disconnected since =>
      simp only [ContestantConnection.delay, decide_eq_decide]
      omega
  have away (i : Fin 2) : (a.contestants i).disconnected = (b.contestants i).disconnected := by
    simp only [Contestant.disconnected, timed.connection]
    cases (b.contestants i).connection <;> rfl
  simp only [ContestState.forfeit, expired, away, h.loses]

theorem timeLimit (sound : Sound b) (active : b.phase = .active) :
    a.timeLimitMs = b.timeLimitMs + e := by
  have timed := h.timed (by simp [active, running])
  obtain ⟨go, goAt⟩ := isSome_iff_exists.mp (sound.going (.inr active))
  simp only [timeLimitMs, timed.goAt (.inr active), goAt, h.config, map_some, getD_some]
  omega

theorem activeVerdict (sound : Sound b) (active : b.phase = .active) (now : Nat) :
    a.activeVerdict (now + e) = b.activeVerdict now := by
  have upTo : min (now + e) (b.timeLimitMs + e) = min now b.timeLimitMs + e := by omega
  simp only [ContestState.activeVerdict, h.timeLimit sound active, upTo, h.lapse active,
    Nat.add_lt_add_iff_right]

theorem goLive (preparing : b.phase = .preparing) (go : Nat) :
    Delayed e (b.goLive go) (a.goLive (go + e)) where
  phase := rfl
  result := h.result
  config := h.config
  player := h.player
  clicks := h.clicks
  lastSeq := h.lastSeq
  timed := fun _ =>
    let timed := h.timed (by simp [preparing, running])
    ⟨timed.clock, fun _ => timed.goAt (.inl preparing), timed.paused, timed.connection,
      fun _ _ => rfl⟩

theorem reachGo (running : b.phase.running = true) (now : Nat) :
    Delayed e (b.reachGo now) (a.reachGo (now + e)) := by
  by_cases due : b.phase = .preparing ∧ ∃ go, b.goAtMs = some go ∧ go ≤ now
  · obtain ⟨preparing, go, at_, le⟩ := due
    have goAt := (h.timed running).goAt (.inl preparing)
    rw [reachGo_of_due preparing at_ le,
      reachGo_of_due (h.phase.trans preparing) (by rw [goAt, at_]; rfl) (Nat.add_le_add_right le e)]
    exact h.goLive preparing go
  · rw [reachGo_of_not_due, reachGo_of_not_due]
    · exact h
    · intro preparing go there
      have before := h.phase ▸ preparing
      rw [(h.timed running).goAt (.inl before), map_eq_some_iff] at there
      obtain ⟨go', here, rfl⟩ := there
      by_contra late
      exact due ⟨before, go', here, by omega⟩
    · intro preparing go here
      by_contra late
      exact due ⟨preparing, go, here, by omega⟩

theorem pausedSome (running : b.phase.running = true) :
    a.pausedSinceMs.isSome = b.pausedSinceMs.isSome := by
  rw [(h.timed running).paused, isSome_map]

theorem ready (running : b.phase.running = true) (now : Nat) :
    Delayed e (b.ready now) (a.ready (now + e)) := by
  simp only [ContestState.ready, h.forfeit running, h.pausedSome running]
  split
  · exact h
  · exact h.reachGo running now

theorem verdict (sound : Sound b) (running : b.phase.running = true) (now : Nat) :
    a.verdict (now + e) = b.verdict now := by
  have reached := h.reachGo running now
  simp only [ContestState.verdict, h.forfeit running, h.pausedSome running, reached.phase]
  split
  · rfl
  · split
    · rfl
    · split
      · next active =>
        refine reached.activeVerdict ?_ active now
        rcases b.reachGo_cases now with same | ⟨go, -, goAt, -, live⟩
        · rwa [same]
        · rw [live]
          refine ⟨?_, sound.paused, fun _ => by simp [ContestState.goLive, goAt]⟩
          have undecided := sound.result
          rw [running] at undecided
          exact undecided
      · rfl

theorem observe (nowMs : Nat) : Delayed e (b.observe (nowMs - e)) (a.observe nowMs) where
  phase := h.phase
  result := h.result
  config := h.config
  player := h.player
  clicks := h.clicks
  lastSeq := h.lastSeq
  timed := fun running =>
    let timed := h.timed running
    ⟨by simp only [ContestState.observe, timed.clock]; omega, timed.goAt, timed.paused,
      timed.connection, timed.activity⟩

theorem conclude (result : ContestResult) : Delayed e (b.conclude result) (a.conclude result) where
  phase := rfl
  result := rfl
  config := h.config
  player := h.player
  clicks := h.clicks
  lastSeq := h.lastSeq
  timed := by cases result <;> simp [ContestState.conclude, running]

theorem advance (sound : Sound b) (nowMs : Nat) :
    Delayed e (b.advance (nowMs - e)) (a.advance nowMs) := by
  cases running : b.phase.running with
  | false =>
    rw [advance_of_decided running, advance_of_decided (by rw [h.phase, running])]
    exact h.observe nowMs
  | true =>
    have now : max a.clockMs nowMs = max b.clockMs (nowMs - e) + e := by
      rw [(h.timed running).clock]
      omega
    have seen := h.observe nowMs
    rw [advance_eq running, advance_eq (by rw [h.phase, running]), now,
      seen.verdict (sound.observe _) running]
    cases (b.observe (nowMs - e)).verdict (max b.clockMs (nowMs - e)) with
    | none => exact seen.ready running _
    | some result => exact (seen.ready running _).conclude result

theorem answerClick (player : PlayerId) (seq : Nat) :
    a.answerClick player seq = b.answerClick player seq := by
  simp only [ContestState.answerClick, h.indexOf, h.phase]
  cases b.indexOf player with
  | none => rfl
  | some i =>
    by_cases active : b.phase = .active
    · have running : b.phase.running = true := by simp [active, running]
      have clock := (h.timed running).clock
      have late : decide (a.deadlineMs i + a.config.settleWindowMs < a.clockMs) =
          decide (b.deadlineMs i + b.config.settleWindowMs < b.clockMs) := by
        rw [h.deadline active, h.config, decide_eq_decide]
        omega
      simp only [h.lastSeq, h.pausedSome running, late]
    · simp [active]

/-- Rewriting the same contestant alike keeps the delay. -/
theorem modify (i : Fin 2) (f g : Contestant → Contestant)
    (player : ∀ contestant, (f contestant).player = contestant.player ∧
      (g contestant).player = contestant.player)
    (clicks : (g (a.contestants i)).clicks = (f (b.contestants i)).clicks)
    (lastSeq : (g (a.contestants i)).lastSeq = (f (b.contestants i)).lastSeq)
    (timed : b.phase.running = true →
      (g (a.contestants i)).connection = (f (b.contestants i)).connection.delay e ∧
      (b.phase = .active → (g (a.contestants i)).lastActivityMs =
        (f (b.contestants i)).lastActivityMs + e)) :
    Delayed e (b.modify i f) (a.modify i g) where
  phase := h.phase
  result := h.result
  config := h.config
  player := by
    intro j
    by_cases same : j = i
    · subst same
      simp [ContestState.modify, (player _).1, (player _).2, h.player]
    · simp [ContestState.modify, same, h.player]
  clicks := by
    intro j
    by_cases same : j = i
    · subst same
      simpa [ContestState.modify] using clicks
    · simp [ContestState.modify, same, h.clicks]
  lastSeq := by
    intro j
    by_cases same : j = i
    · subst same
      simpa [ContestState.modify] using lastSeq
    · simp [ContestState.modify, same, h.lastSeq]
  timed := by
    intro running
    have before := h.timed running
    refine ⟨before.clock, before.goAt, before.paused, ?_, ?_⟩
    · intro j
      by_cases same : j = i
      · subst same
        simpa [ContestState.modify] using (timed running).1
      · simp [ContestState.modify, same, before.connection]
    · intro active j
      by_cases same : j = i
      · subst same
        simpa [ContestState.modify] using (timed running).2 active
      · simpa [ContestState.modify, same] using before.activity active j

theorem countClick (running : b.phase.running = true) (i : Fin 2) (seq : Nat) :
    Delayed e (b.countClick i seq) (a.countClick i seq) := by
  have timed := h.timed running
  refine h.modify i _ _ (fun _ => ⟨rfl, rfl⟩) (by simp only [h.clicks]) rfl fun _ =>
    ⟨timed.connection i, fun active => ?_⟩
  simp only [h.pausedSome running]
  split
  · exact timed.activity active i
  · exact timed.clock

theorem detach (running : b.phase.running = true) (i : Fin 2) :
    Delayed e (b.detach i) (a.detach i) := by
  have timed := h.timed running
  have moved := h.modify i
    (fun contestant => { contestant with connection := .disconnected b.clockMs })
    (fun contestant => { contestant with connection := .disconnected a.clockMs })
    (fun _ => ⟨rfl, rfl⟩) (h.clicks i) (h.lastSeq i) fun _ =>
      ⟨by simp [ContestantConnection.delay, timed.clock], fun active => timed.activity active i⟩
  refine ⟨moved.phase, moved.result, moved.config, moved.player, moved.clicks, moved.lastSeq,
    fun _ => ?_⟩
  have after := moved.timed running
  refine ⟨after.clock, after.goAt, ?_, after.connection, after.activity⟩
  simp only [ContestState.detach, timed.paused, timed.clock]
  cases b.pausedSinceMs <;> rfl

theorem attach (i : Fin 2) : Delayed e (b.attach i) (a.attach i) :=
  h.modify i _ _ (fun _ => ⟨rfl, rfl⟩) (h.clicks i) (h.lastSeq i) fun running =>
    ⟨rfl, fun active => (h.timed running).activity active i⟩

theorem resume (running : b.phase.running = true) :
    Delayed e (b.resume b.clockMs) (a.resume a.clockMs) := by
  have timed := h.timed running
  cases paused : b.pausedSinceMs with
  | none =>
    have still : a.pausedSinceMs = none := by rw [timed.paused, paused]; rfl
    simpa only [ContestState.resume, paused, still] using h
  | some since =>
    have still : a.pausedSinceMs = some (since + e) := by rw [timed.paused, paused]; rfl
    have elapsed : a.clockMs - (since + e) = b.clockMs - since := by
      rw [timed.clock]
      omega
    rw [resume_eq paused, resume_eq still]
    refine ⟨h.phase, h.result, h.config, fun i => ?_, fun i => ?_, fun i => ?_, fun _ => ?_⟩
    · simp only [h.phase]
      split <;> exact h.player i
    · simp only [h.phase]
      split <;> exact h.clicks i
    · simp only [h.phase]
      split <;> exact h.lastSeq i
    · refine ⟨timed.clock, fun moving => ?_, rfl, fun i => ?_, fun active i => ?_⟩
      · simp only [h.phase, timed.goAt moving, moving, if_true]
        cases b.goAtMs with
        | none => rfl
        | some go =>
          simp only [map_some, some.injEq]
          omega
      · simp only [h.phase]
        split <;> exact timed.connection i
      · have := timed.activity active i
        simp only at active
        simp only [h.phase, active, if_true]
        omega

theorem rejoin (running : b.phase.running = true) (i : Fin 2) :
    Delayed e (b.rejoin i) (a.rejoin i) := by
  have back := h.attach i
  have connected : (∀ j, ((a.attach i).contestants j).connection = .connected) ↔
      ∀ j, ((b.attach i).contestants j).connection = .connected := by
    refine forall_congr' fun j => ?_
    rw [(back.timed running).connection j, ContestantConnection.delay_connected]
  unfold ContestState.rejoin
  by_cases all : ∀ j, ((b.attach i).contestants j).connection = .connected
  · rw [if_pos all, if_pos (connected.mpr all)]
    exact back.resume running
  · rw [if_neg all, if_neg fun there => all (connected.mp there)]
    exact back

theorem start (nowMs : Nat) :
    Delayed e (b.start (nowMs - e)).1 (a.start nowMs).1 ∧
      (a.start nowMs).2 = (b.start (nowMs - e)).2 := by
  by_cases pending : b.phase = .pending
  · have also : a.phase = .pending := h.phase.trans pending
    have timed := h.timed (by simp [pending, running])
    simp only [ContestState.start, pending, also, ne_eq, not_true_eq_false, if_false,
      ContestState.transition, ContestState.observe, canTransitionTo, if_true]
    have now : max a.clockMs nowMs = max b.clockMs (nowMs - e) + e := by
      rw [timed.clock]
      omega
    refine ⟨⟨rfl, h.result, h.config, h.player, h.clicks, h.lastSeq, fun _ => ?_⟩, trivial⟩
    refine ⟨now, fun _ => ?_, ?_, timed.connection, fun live => by cases live⟩
    · simp only [map_some, some.injEq, h.config]
      omega
    · simp only [timed.paused, now]
      cases b.pausedSinceMs <;> rfl
  · have also : a.phase ≠ .pending := h.phase ▸ pending
    simp only [ContestState.start, pending, also, ne_eq, not_false_eq_true, if_true]
    exact ⟨h, trivial⟩

theorem cancel (reason : ContestCancelReason) (nowMs : Nat) :
    Delayed e (b.cancel reason (nowMs - e)) (a.cancel reason nowMs) := by
  simp only [ContestState.cancel, ContestState.transition]
  rw [show (a.observe nowMs).phase = (b.observe (nowMs - e)).phase from h.phase]
  cases (b.observe (nowMs - e)).phase.canTransitionTo .cancelled with
  | true => exact ⟨rfl, rfl, h.config, h.player, h.clicks, h.lastSeq, fun runs => by cases runs⟩
  | false => exact h.observe nowMs

theorem complete : Delayed e b.complete.1 a.complete.1 ∧ a.complete.2 = b.complete.2 := by
  simp only [ContestState.complete, ContestState.transition, h.phase]
  by_cases legal : b.phase.canTransitionTo .completed = true
  · simp only [legal, if_true]
    refine ⟨⟨rfl, h.result, h.config, h.player, h.clicks, h.lastSeq, fun runs => ?_⟩, h.result⟩
    cases runs
  · simp only [legal]
    exact ⟨h, rfl⟩

theorem click (sound : Sound b) (player : PlayerId) (seq nowMs : Nat) :
    Delayed e (b.click player seq (nowMs - e)).1 (a.click player seq nowMs).1 ∧
      (a.click player seq nowMs).2 = (b.click player seq (nowMs - e)).2 := by
  have advanced := h.advance sound nowMs
  have answer := advanced.answerClick player seq
  refine ⟨?_, by rw [click_disposition, click_disposition, answer]⟩
  rcases b.click_cases player seq (nowMs - e) with ⟨rejected, same⟩ | ⟨i, seat, counted, same⟩
  · rcases a.click_cases player seq nowMs with ⟨-, also⟩ | ⟨-, -, counted, -⟩
    · rw [same, also]
      exact advanced
    · exact absurd (answer ▸ counted) rejected
  · rcases a.click_cases player seq nowMs with ⟨rejected, -⟩ | ⟨j, there, -, also⟩
    · exact absurd (answer.trans counted) rejected
    · have index : j = i := some.inj (there.symm.trans ((h.indexOf player).trans seat))
      subst index
      have active := ((counted_iff _ ((advance_indexOf ..).trans seat) seq).mp counted).1
      rw [same, also]
      exact advanced.countClick (by simp [active, running]) j seq

theorem setConnected (sound : Sound b) (player : PlayerId) (connected : Bool) (nowMs : Nat) :
    Delayed e (b.setConnected player connected (nowMs - e)).1
        (a.setConnected player connected nowMs).1 ∧
      (a.setConnected player connected nowMs).2 =
        (b.setConnected player connected (nowMs - e)).2 := by
  cases running : b.phase.running with
  | false =>
    -- whatever the connections are, nothing changes any more
    have settled {c : ContestState} (decided : c.phase.running = false) (stamp : Nat) :
        (c.setConnected player connected stamp).2 = false := by
      cases seat : c.indexOf player with
      | none => rw [setConnected_stranger seat]
      | some i =>
        cases edge : c.isEdge i connected with
        | false => rw [setConnected_repeat seat edge]
        | true =>
          rw [setConnected_edge seat edge, advance_of_decided decided]
          simp [ContestState.observe, decided]
    have decided : a.phase.running = false := by rw [h.phase, running]
    refine ⟨?_, by rw [settled running, settled decided]⟩
    have observed := h.observe nowMs
    have quiet (phase : b.phase.running = true) : False := by
      rw [running] at phase
      cases phase
    rcases setConnected_decided running player connected (nowMs - e) with
      first | first <;>
    rcases setConnected_decided decided player connected nowMs with
      second | second <;> rw [first, second]
    · exact h
    · exact ⟨h.phase, h.result, h.config, h.player, h.clicks, h.lastSeq,
        fun phase => (quiet phase).elim⟩
    · exact ⟨h.phase, h.result, h.config, h.player, h.clicks, h.lastSeq,
        fun phase => (quiet phase).elim⟩
    · exact observed
  | true =>
    cases seat : b.indexOf player with
    | none =>
      rw [setConnected_stranger seat, setConnected_stranger ((h.indexOf player).trans seat)]
      exact ⟨h, rfl⟩
    | some i =>
      have also := (h.indexOf player).trans seat
      have edges : a.isEdge i connected = b.isEdge i connected := by
        simp only [isEdge, (h.timed running).connection]
        cases (b.contestants i).connection <;> cases connected <;> rfl
      cases edge : b.isEdge i connected with
      | false =>
        rw [setConnected_repeat seat edge, setConnected_repeat also (edges.trans edge)]
        exact ⟨h, rfl⟩
      | true =>
        have advanced := h.advance sound nowMs
        rw [setConnected_edge seat edge, setConnected_edge also (edges.trans edge), advanced.phase]
        cases still : (b.advance (nowMs - e)).phase.running with
        | false => exact ⟨advanced, rfl⟩
        | true =>
          cases connected with
          | false => exact ⟨advanced.detach still i, rfl⟩
          | true => exact ⟨advanced.rejoin still i, rfl⟩

theorem call (sound : Sound b) (call : Call) :
    Delayed e (b.call (call.earlier e)).1 (a.call call).1 ∧
      (a.call call).2 = (b.call (call.earlier e)).2 := by
  cases call with
  | start nowMs =>
    have both := h.start nowMs
    exact ⟨both.1, congrArg Reply.changed both.2⟩
  | advance nowMs => exact ⟨h.advance sound nowMs, rfl⟩
  | click player seq nowMs =>
    have both := h.click sound player seq nowMs
    exact ⟨both.1, congrArg Reply.clicked both.2⟩
  | setConnected player connected nowMs =>
    have both := h.setConnected sound player connected nowMs
    exact ⟨both.1, congrArg Reply.changed both.2⟩
  | cancel reason nowMs => exact ⟨h.cancel reason nowMs, rfl⟩
  | complete =>
    have both := h.complete
    exact ⟨both.1, congrArg Reply.completed both.2⟩

theorem run (sound : Sound b) (calls : List Call) :
    Delayed e (b.after (calls.map (·.earlier e))) (a.after calls) ∧
      (a.exchanges calls).map (·.2) = (b.exchanges (calls.map (·.earlier e))).map (·.2) := by
  induction calls generalizing b a with
  | nil => exact ⟨h, rfl⟩
  | cons call calls ih =>
    have first := h.call sound call
    have rest := ih first.1 (sound.call _)
    refine ⟨rest.1, ?_⟩
    simp only [exchanges, map_cons, first.2, rest.2]

end

end Delayed

/-- `a` is `b` with some seats away since the instant of `b`. -/
structure Out (b a : ContestState) : Prop where
  phase : a.phase = b.phase
  result : a.result = b.result
  config : a.config = b.config
  goAt : a.goAtMs = b.goAtMs
  paused : a.pausedSinceMs = some b.clockMs
  seat : ∀ i, a.contestants i =
    { b.contestants i with connection := (a.contestants i).connection }
  since : ∀ i, (a.contestants i).connection = .connected ∨
    (a.contestants i).connection = .disconnected b.clockMs
  away : ∃ i, (a.contestants i).connection ≠ .connected
  clock : b.clockMs ≤ a.clockMs
  grace : a.clockMs ≤ b.clockMs + b.config.reconnectGraceMs

namespace Out

variable {b a : ContestState}

section
variable (h : Out b a)
include h

theorem player (i : Fin 2) : (a.contestants i).player = (b.contestants i).player := by rw [h.seat i]

theorem indexOf (player : PlayerId) : a.indexOf player = b.indexOf player := by
  simp only [ContestState.indexOf, h.player]

/-- Nothing happens while a seat is away and its grace lasts. -/
theorem advance (running : b.phase.running = true) {nowMs : Nat}
    (grace : nowMs ≤ b.clockMs + b.config.reconnectGraceMs) :
    a.advance nowMs = a.observe nowMs := by
  have within : max a.clockMs nowMs ≤ b.clockMs + b.config.reconnectGraceMs :=
    Nat.max_le.mpr ⟨h.grace, grace⟩
  have waits (i : Fin 2) : ((a.observe nowMs).contestants i).expired
      (a.observe nowMs).config.reconnectGraceMs (max a.clockMs nowMs) = false := by
    show (a.contestants i).expired a.config.reconnectGraceMs _ = false
    rw [h.config]
    rcases h.since i with here | gone
    · simp [Contestant.expired, here]
    · simpa [Contestant.expired, gone] using within
  have forfeit : (a.observe nowMs).forfeit (max a.clockMs nowMs) = none := by
    simp [forfeit, waits]
  have paused : (a.observe nowMs).pausedSinceMs = some b.clockMs := h.paused
  rw [advance_eq (by rw [h.phase, running])]
  simp [verdict, ready, forfeit, paused]

theorem observe {nowMs : Nat} (grace : nowMs ≤ b.clockMs + b.config.reconnectGraceMs) :
    Out b (a.observe nowMs) :=
  ⟨h.phase, h.result, h.config, h.goAt, h.paused, h.seat, h.since, h.away,
    Nat.le_trans h.clock (Nat.le_max_left _ _), Nat.max_le.mpr ⟨h.grace, grace⟩⟩

theorem seat_modify (i : Fin 2) (connection : ContestantConnection) (j : Fin 2) :
    (a.modify i fun contestant => { contestant with connection }).contestants j =
      { b.contestants j with connection :=
        ((a.modify i fun contestant => { contestant with connection }).contestants j).connection } := by
  by_cases same : j = i
  · subst same
    simp only [ContestState.modify, Function.update_self]
    rw [h.seat j]
  · simpa [ContestState.modify, same] using h.seat j

theorem detach (still : a.clockMs = b.clockMs) (i : Fin 2) : Out b (a.detach i) where
  phase := h.phase
  result := h.result
  config := h.config
  goAt := h.goAt
  paused := by simp [ContestState.detach, h.paused]
  seat := h.seat_modify i (.disconnected a.clockMs)
  since := by
    intro j
    rw [detach_connection]
    split
    · exact .inr (by rw [still])
    · exact h.since j
  away := ⟨i, by simp [detach_connection]⟩
  clock := h.clock
  grace := h.grace

theorem attach {i : Fin 2} (others : ∃ j, ((a.attach i).contestants j).connection ≠ .connected) :
    Out b (a.attach i) where
  phase := h.phase
  result := h.result
  config := h.config
  goAt := h.goAt
  paused := h.paused
  seat := h.seat_modify i .connected
  since := by
    intro j
    rw [attach_connection]
    split
    · exact .inl rfl
    · exact h.since j
  away := others
  clock := h.clock
  grace := h.grace

end

/-- The first seat to leave. -/
theorem leave (present : ∀ i, (b.contestants i).connection = .connected)
    (unpaused : b.pausedSinceMs = none) (i : Fin 2) : Out b (b.detach i) where
  phase := rfl
  result := rfl
  config := rfl
  goAt := rfl
  paused := by simp [ContestState.detach, unpaused]
  seat := by
    intro j
    by_cases same : j = i
    · subst same
      simp [ContestState.detach, ContestState.modify]
    · simp [ContestState.detach, ContestState.modify, same]
  since := by
    intro j
    rw [detach_connection]
    split
    · exact .inr rfl
    · exact .inl (present j)
  away := ⟨i, by simp [detach_connection]⟩
  clock := Nat.le_refl _
  grace := Nat.le_add_right _ _

/-- With the last seat back, the contest is the one they left, only later. -/
theorem rejoin (h : Out b a) (present : ∀ i, (b.contestants i).connection = .connected)
    (unpaused : b.pausedSinceMs = none) (i : Fin 2) :
    Out b (a.rejoin i) ∧ a.rejoin i = a.attach i ∨
      Delayed (a.clockMs - b.clockMs) b (a.rejoin i) ∧
        ∀ j, ((a.rejoin i).contestants j).connection = .connected := by
  rcases rejoin_cases h.paused i with ⟨all, same⟩ | ⟨others, same⟩
  · right
    have kept (j : Fin 2) : (a.attach i).contestants j =
        { b.contestants j with connection := .connected } := by
      refine (h.seat_modify i .connected j).trans ?_
      exact congrArg (fun connection => { b.contestants j with connection }) (all j)
    have clock := h.clock
    rw [same]
    refine ⟨⟨h.phase, h.result, h.config, ?_, ?_, ?_, fun _ => ⟨?_, ?_, ?_, ?_, ?_⟩⟩, ?_⟩
    · intro j
      simp only [kept]
      split <;> rfl
    · intro j
      simp only [kept]
      split <;> rfl
    · intro j
      simp only [kept]
      split <;> rfl
    · simp only
      omega
    · intro moving
      simp only [h.phase, moving, if_true, h.goAt]
    · simp [unpaused]
    · intro j
      simp only [kept]
      split <;> simp [present j, ContestantConnection.delay]
    · intro active j
      simp only [kept, h.phase, active, if_true]
    · intro j
      simp only [kept]
      split <;> rfl
  · exact .inl ⟨same ▸ h.attach others, same⟩

end Out

/-- Reports about several seats, all with one stamp. -/
def report (players : List PlayerId) (connected : Bool) (nowMs : Nat) : List Call :=
  players.map fun player => .setConnected player connected nowMs

namespace Out

variable {b a : ContestState}

variable {nowMs : Nat}

section
variable (h : Out b a) (running : b.phase.running = true) (still : a.clockMs = b.clockMs)
  (past : nowMs ≤ b.clockMs)
include h running still past

theorem leave_one (player : PlayerId) :
    Out b (a.setConnected player false nowMs).1 ∧
      (a.setConnected player false nowMs).1.clockMs = b.clockMs ∧
      ∀ i, ((a.setConnected player false nowMs).1.contestants i).connection ≠ .connected →
        (a.contestants i).connection ≠ .connected ∨ b.indexOf player = some i := by
  cases seat : a.indexOf player with
  | none =>
    rw [setConnected_stranger seat]
    exact ⟨h, still, fun i away => .inl away⟩
  | some i =>
    cases edge : a.isEdge i false with
    | false =>
      rw [setConnected_repeat seat edge]
      exact ⟨h, still, fun i away => .inl away⟩
    | true =>
      have within : nowMs ≤ b.clockMs + b.config.reconnectGraceMs := by omega
      have observed := h.observe within
      have clock : (a.observe nowMs).clockMs = b.clockMs := by
        simp only [ContestState.observe]
        omega
      rw [setConnected_edge seat edge, h.advance running within, observed.phase, running]
      simp only [if_true, Bool.false_eq_true, if_false]
      refine ⟨observed.detach clock i, clock, fun j away => ?_⟩
      by_cases same : j = i
      · subst same
        exact .inr ((h.indexOf player).symm.trans seat)
      · rw [detach_connection, if_neg same] at away
        exact .inl away

theorem leave_run (players : List PlayerId) :
    Out b (a.after (report players false nowMs)) ∧
      (a.after (report players false nowMs)).clockMs = b.clockMs ∧
      ∀ i, ((a.after (report players false nowMs)).contestants i).connection ≠ .connected →
        (a.contestants i).connection ≠ .connected ∨
          ∃ player ∈ players, b.indexOf player = some i := by
  induction players generalizing a with
  | nil => exact ⟨h, still, fun i away => .inl away⟩
  | cons player players ih =>
    obtain ⟨out, clock, who⟩ := h.leave_one running still past player
    obtain ⟨rest, end', others⟩ := ih out clock
    refine ⟨rest, end', fun i away => ?_⟩
    rcases others i away with before | ⟨later, inside, seat⟩
    · rcases who i before with old | seat
      · exact .inl old
      · exact .inr ⟨player, mem_cons_self, seat⟩
    · exact .inr ⟨later, mem_cons_of_mem _ inside, seat⟩

end

/-- The contest once the reports of `players` came in: all seats are back, or those of
`players` at least, and nobody is away but the seats that were `gone`. -/
def Returned (b : ContestState) (gone : Fin 2 → Prop) (now : Nat) (players : List PlayerId)
    (a : ContestState) : Prop :=
  (Out b a ∧ max a.clockMs now = now ∧
    (∀ i, (a.contestants i).connection ≠ .connected → gone i) ∧
    ∀ player ∈ players, ∀ i, b.indexOf player = some i →
      (a.contestants i).connection = .connected) ∨
  Delayed (now - b.clockMs) b a ∧ ∀ i, (a.contestants i).connection = .connected

section
variable {gone : Fin 2 → Prop} {now : Nat} {players : List PlayerId}
  (h : Returned b gone now players a) (running : b.phase.running = true)
  (present : ∀ i, (b.contestants i).connection = .connected) (unpaused : b.pausedSinceMs = none)
  (stamp : max b.clockMs nowMs = now) (grace : now ≤ b.clockMs + b.config.reconnectGraceMs)
include h running present unpaused stamp grace

theorem return_one (player : PlayerId) :
    Returned b gone now (players ++ [player]) (a.setConnected player true nowMs).1 := by
  rcases h with ⟨out, clock, few, back⟩ | ⟨delayed, here⟩
  · cases seat : a.indexOf player with
    | none =>
      rw [setConnected_stranger seat]
      refine .inl ⟨out, clock, few, fun p inside i at_ => ?_⟩
      rcases mem_append.mp inside with old | new
      · exact back p old i at_
      · rw [mem_singleton.mp new, ← out.indexOf, seat] at at_
        cases at_
    | some i =>
      have index : b.indexOf player = some i := (out.indexOf player).symm.trans seat
      cases edge : a.isEdge i true with
      | false =>
        rw [setConnected_repeat seat edge]
        refine .inl ⟨out, clock, few, fun p inside j at_ => ?_⟩
        rcases mem_append.mp inside with old | new
        · exact back p old j at_
        · rw [mem_singleton.mp new, index] at at_
          cases at_
          cases connection : (a.contestants i).connection with
          | connected => rfl
          | disconnected since =>
            have gone := isEdge_true.mpr ⟨since, connection⟩
            rw [edge] at gone
            cases gone
      | true =>
        have within : nowMs ≤ b.clockMs + b.config.reconnectGraceMs := by omega
        have observed := out.observe within
        have reached : (a.observe nowMs).clockMs = now := by
          have := out.clock
          simp only [ContestState.observe]
          omega
        rw [setConnected_edge seat edge, out.advance running within, observed.phase, running]
        simp only [if_true]
        rcases observed.rejoin present unpaused i with ⟨still, same⟩ | ⟨delayed, here⟩
        · refine .inl ⟨still, ?_, fun j away => ?_, fun p inside j at_ => ?_⟩
          · rw [same]
            show max (a.observe nowMs).clockMs now = now
            rw [reached, Nat.max_self]
          · rw [same, attach_connection] at away
            split at away
            · exact absurd rfl away
            · exact few j away
          · rw [same, attach_connection]
            split
            · rfl
            · next apart =>
              rcases mem_append.mp inside with old | new
              · exact back p old j at_
              · rw [mem_singleton.mp new, index] at at_
                exact absurd (some.inj at_).symm apart
        · rw [reached] at delayed
          exact .inr ⟨delayed, here⟩
  · have same : (a.setConnected player true nowMs).1 = a := by
      cases seat : a.indexOf player with
      | none => rw [setConnected_stranger seat]
      | some i =>
        have edge : a.isEdge i true = false := by
          simp [isEdge, here i]
        rw [setConnected_repeat seat edge]
    rw [same]
    exact .inr ⟨delayed, here⟩

theorem return_run (more : List PlayerId) :
    Returned b gone now (players ++ more) (a.after (report more true nowMs)) := by
  induction more generalizing players a with
  | nil => simpa [report] using h
  | cons player more ih =>
    have first := return_one h running present unpaused stamp grace player
    simpa [report, call] using ih first

end

end Out

namespace Delayed

variable {e : Nat} {b a : ContestState}

/-- A decided contest takes no report. -/
theorem report_decided (decided : b.phase.running = false) (h : Delayed e b a)
    (players : List PlayerId) (connected : Bool) (nowMs : Nat) :
    Delayed e b (a.after (report players connected nowMs)) := by
  induction players generalizing a with
  | nil => exact h
  | cons player players ih =>
    refine ih ?_
    have ended : a.phase.running = false := by rw [h.phase, decided]
    have quiet (running : b.phase.running = true) : Timed e b (a.observe nowMs) := by
      rw [decided] at running
      cases running
    show Delayed e b (a.setConnected player connected nowMs).1
    rcases setConnected_decided ended player connected nowMs with same | same
    · rwa [same]
    · rw [same]
      exact ⟨h.phase, h.result, h.config, h.player, h.clicks, h.lastSeq, quiet⟩

end Delayed

/-- The contest after an outage is the contest at its beginning, only later. -/
theorem delayed_of_outage {c : ContestState} (sound : Sound c)
    (present : ∀ i, (c.contestants i).connection = .connected) {left back : List PlayerId}
    (leaves : ∃ player ∈ left, c.indexOf player ≠ none)
    (returns : ∀ player ∈ left, player ∈ back) {p q : Nat}
    (grace : max (max c.clockMs p) q ≤ max c.clockMs p + c.config.reconnectGraceMs) :
    Delayed (max (max c.clockMs p) q - max c.clockMs p) (c.advance p)
      (c.after (report left false p ++ report back true q)) := by
  induction left with
  | nil => simp at leaves
  | cons player left ih =>
    cases seat : c.indexOf player with
    | none =>
      have same : c.after (report (player :: left) false p ++ report back true q) =
          c.after (report left false p ++ report back true q) := by
        simp [report, call, setConnected_stranger seat]
      rw [same]
      refine ih ?_ fun other inside => returns other (mem_cons_of_mem _ inside)
      obtain ⟨other, inside, there⟩ := leaves
      rcases mem_cons.mp inside with rfl | rest
      · exact absurd seat there
      · exact ⟨other, rest, there⟩
    | some i =>
      have edge : c.isEdge i false = true := isEdge_false.mpr (present i)
      have clock : (c.advance p).clockMs = max c.clockMs p := c.advance_clockMs p
      have here (j : Fin 2) : ((c.advance p).contestants j).connection = .connected := by
        rw [advance_connection, present j]
      rw [after_append]
      have first : c.after (report (player :: left) false p) =
          (if (c.advance p).phase.running then (c.advance p).detach i
            else c.advance p).after (report left false p) := by
        simp only [report, map_cons, after_cons, call]
        rw [setConnected_edge seat edge]
        split <;> rfl
      rw [first]
      cases running : (c.advance p).phase.running with
      | false =>
        refine Delayed.report_decided running ?_ back true q
        refine Delayed.report_decided running ?_ left false p
        refine ⟨rfl, rfl, rfl, fun _ => rfl, fun _ => rfl, fun _ => rfl, fun still => ?_⟩
        rw [running] at still
        cases still
      | true =>
        have still : (c.advance p).pausedSinceMs = none := by
          have advanced := sound.advance p
          cases paused : (c.advance p).pausedSinceMs with
          | none => rfl
          | some since =>
            obtain ⟨j, away⟩ := advanced.paused.mp (by simp [paused])
            exact absurd (here j) away
        have past : p ≤ (c.advance p).clockMs := by
          rw [clock]
          exact Nat.le_max_right _ _
        obtain ⟨out, instant, who⟩ :=
          (Out.leave here still i).leave_run running rfl past left
        have gone : Out.Returned (c.advance p)
            (fun j => ∃ other ∈ player :: left, (c.advance p).indexOf other = some j)
            (max (max c.clockMs p) q) []
            (((c.advance p).detach i).after (report left false p)) := by
          refine .inl ⟨out, by omega, fun j away => ?_, by simp⟩
          rcases who j away with first | ⟨other, inside, at_⟩
          · refine ⟨player, mem_cons_self, ?_⟩
            rw [detach_connection] at first
            split at first
            · next same =>
              rw [same, advance_indexOf, seat]
            · exact absurd (here j) first
          · exact ⟨other, mem_cons_of_mem _ inside, at_⟩
        have stamp : max (c.advance p).clockMs q = max (max c.clockMs p) q := by rw [clock]
        have returned := Out.return_run gone running here still stamp
          (by rw [clock, c.advance_config]; exact grace) back
        rcases returned with ⟨away, -, few, all⟩ | ⟨delayed, -⟩
        · obtain ⟨j, absent⟩ := away.away
          obtain ⟨other, inside, at_⟩ := few j absent
          exact absurd (all other (returns other inside) j at_) absent
        · rw [clock] at delayed
          exact delayed

/-- Seats that leave at `p` and are all back at `q`, within the grace period, change nothing
but the time: whatever is called afterwards is answered as in the contest that only came to
`p`, with every stamp smaller by the outage. A stamp behind the clock counts as the clock. -/
def OutageNeutral (c : ContestState) : Prop :=
  ∀ (left back : List PlayerId) (p q : Nat) (later : List Call),
    (∀ i, (c.contestants i).connection = .connected) →
    (∃ player ∈ left, c.indexOf player ≠ none) → (∀ player ∈ left, player ∈ back) →
    max (max c.clockMs p) q ≤ max c.clockMs p + c.config.reconnectGraceMs →
    let outage := max (max c.clockMs p) q - max c.clockMs p
    let returned := c.after (report left false p ++ report back true q)
    (returned.exchanges later).map (·.2) =
        ((c.advance p).exchanges (later.map (·.earlier outage))).map (·.2) ∧
      Delayed outage ((c.advance p).after (later.map (·.earlier outage))) (returned.after later)

theorem outageNeutral_of_sound {c : ContestState} (sound : Sound c) : OutageNeutral c := by
  intro left back p q later present leaves returns grace
  have delayed := delayed_of_outage sound present leaves returns grace
  have both := delayed.run (sound.advance p) later
  exact ⟨both.2, both.1⟩

/-- Two players who last clicked 600 ms after GO. -/
def twoClickers : ContestState :=
  (new 1 .staring 0 1
    { countdownMs := 1000, inactivityTimeoutMs := 1000, reconnectGraceMs := 5000,
      settleWindowMs := 0, maxActiveMs := 60000 }).after
    [.start 0, .click 0 1 1600, .click 1 1 1600]

end Phase.Contest
