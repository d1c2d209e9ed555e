import Phase.Contest.Beaten

/-! Extra ticks between the inputs of a contest: when they leave its result as it is. -/
namespace Phase.Contest
open ContestState Nat

/-- The stamp of an input of the host. -/
def Call.input : Call → Option Nat
  | .start nowMs | .advance nowMs | .click _ _ nowMs | .setConnected _ _ nowMs => some nowMs
  | .cancel _ _ | .complete => none

/-- `ticked` is `calls`, stamped in order from `lo` on, with extra ticks before some of them. -/
inductive Ticked : Nat → List Call → List Call → Prop where
  | done (lo : Nat) : Ticked lo [] []
  | input {lo stamp : Nat} {call : Call} {calls ticked : List Call} :
      call.input = some stamp → lo ≤ stamp → Ticked stamp calls ticked →
      Ticked lo (call :: calls) (call :: ticked)
  | tick {lo stamp : Nat} {call : Call} {calls ticked : List Call} :
      lo ≤ stamp → Ticked stamp (call :: calls) ticked →
      Ticked lo (call :: calls) (.advance stamp :: ticked)

/-- Inputs with stamps in order, from `lo` on. -/
def Ordered : Nat → List Call → Prop
  | _, [] => True
  | lo, call :: calls => ∃ stamp, call.input = some stamp ∧ lo ≤ stamp ∧ Ordered stamp calls

variable {lo : Nat}

theorem Ordered.ticked {calls : List Call} (h : Ordered lo calls) : Ticked lo calls calls := by
  induction calls generalizing lo with
  | nil => exact .done lo
  | cons call calls ih =>
    obtain ⟨stamp, input, le, rest⟩ := h
    exact .input input le (ih rest)

theorem Ticked.ordered {calls ticked : List Call} (h : Ticked lo calls ticked) :
    Ordered lo calls := by
  induction h with
  | done lo => trivial
  | input input le _ ih => exact ⟨_, input, le, ih⟩
  | tick le _ ih =>
    obtain ⟨stamp, input, later, rest⟩ := ih
    exact ⟨stamp, input, le_trans le later, rest⟩

def lastStamp (lo : Nat) (calls : List Call) : Nat :=
  calls.foldl (fun lo call => call.input.getD lo) lo

namespace ContestState

variable {c : ContestState}

/-- No call of the run ends the contest at a moment that was open only again. -/
def Steady (c : ContestState) : List Call → Prop
  | [] => True
  | call :: calls =>
    (∀ stamp, call.input = some stamp → ¬c.Reopened stamp) ∧ (c.call call).1.Steady calls

/-- What a call does to the contest brought to its stamp. -/
inductive Effect (a : ContestState) : ContestState → Prop where
  | none : Effect a a
  | click {player : PlayerId} {i : Fin 2} {seq : Nat} :
      a.indexOf player = some i → a.answerClick player seq = .counted →
      Effect a (a.countClick i seq)
  | detach (i : Fin 2) : a.phase.running = true → Effect a (a.detach i)
  | rejoin {i : Fin 2} : a.phase.running = true → (a.contestants i).connection ≠ .connected →
      Effect a (a.rejoin i)

variable {stamp now lo : Nat} {result : ContestResult}

theorem call_effect (c : ContestState) {call : Call} (input : call.input = some stamp) :
    (c.call call).1 = c ∨ (call = .start stamp ∧ c.phase = .pending) ∨
      Effect (c.advance stamp) (c.call call).1 := by
  cases call with
  | start nowMs =>
    cases input
    by_cases pending : c.phase = .pending
    · exact .inr (.inl ⟨rfl, pending⟩)
    · exact .inl (by simp [call, start, pending])
  | advance nowMs =>
    cases input
    exact .inr (.inr .none)
  | click player seq nowMs =>
    cases input
    refine .inr (.inr ?_)
    rcases c.click_cases player seq stamp with ⟨-, same⟩ | ⟨i, seat, counted, same⟩
    · exact same ▸ .none
    · exact same ▸ .click ((c.advance_indexOf stamp player).trans seat) counted
  | setConnected player connected nowMs =>
    cases input
    show (c.setConnected player connected stamp).1 = c ∨ _ ∨
      Effect _ (c.setConnected player connected stamp).1
    cases seat : c.indexOf player with
    | none => exact .inl (by rw [setConnected_stranger seat])
    | some i =>
      cases edge : c.isEdge i connected with
      | false => exact .inl (by rw [setConnected_repeat seat edge])
      | true =>
        refine .inr (.inr ?_)
        rw [setConnected_edge seat edge]
        split
        · next running =>
          cases connected with
          | false => exact .detach i running
          | true =>
            obtain ⟨sinceMs, away⟩ := isEdge_true.mp edge
            exact .rejoin running (by rw [advance_connection, away]; simp)
        · exact .none
  | cancel reason nowMs => cases input
  | complete => cases input

theorem rejoin_clockMs (c : ContestState) (i : Fin 2) : (c.rejoin i).clockMs = c.clockMs :=
  (Follows.rejoin c i).1

namespace Effect

variable {a d : ContestState}

theorem clockMs (h : Effect a d) : d.clockMs = a.clockMs := by
  cases h with
  | none => rfl
  | click seat counted => rfl
  | detach i running => rfl
  | rejoin running away => exact a.rejoin_clockMs _

theorem phase (h : Effect a d) : d.phase = a.phase := by
  cases h with
  | none => rfl
  | click seat counted => rfl
  | detach i running => rfl
  | rejoin running away => exact (Follows.rejoin a _).2

theorem player (h : Effect a d) (sound : Sound a) (j : Fin 2) :
    (d.contestants j).player = (a.contestants j).player := by
  cases h with
  | none => rfl
  | @click player i seq seat counted =>
    simp only [countClick, modify]
    by_cases same : j = i
    · subst same
      simp
    · simp [same]
  | detach i running => exact (detach_keeps i j).1
  | @rejoin i running away =>
    obtain ⟨since, paused⟩ := sound.pausedSince away
    rcases rejoin_cases paused i with ⟨-, same⟩ | ⟨-, same⟩
    · rw [same]
      split <;> exact (attach_keeps i j).1
    · rw [same]
      exact (attach_keeps i j).1

theorem of_decided (h : Effect a d) (decided : a.phase.running = false) : d = a := by
  cases h with
  | none => rfl
  | click seat counted =>
    have active := ((counted_iff a seat _).mp counted).1
    rw [active] at decided
    cases decided
  | detach i running => rw [running] at decided; cases decided
  | rejoin running away => rw [running] at decided; cases decided

/-- A click in time is no click of a player who is out, and the rival's click takes the rival's
deadline further away. -/
theorem beaten_click {player : PlayerId} {i k : Fin 2} {seq : Nat}
    (seat : a.indexOf player = some k) (counted : a.answerClick player seq = .counted)
    (beaten : a.Beaten i a.clockMs) : (a.countClick k seq).Beaten i a.clockMs := by
  have inTime := ((counted_iff a seat seq).mp counted).2.2
  cases paused : a.pausedSinceMs with
  | some since =>
    exact (beaten_congr (d := a.countClick k seq) (c := a) rfl rfl rfl
      (fun j => (countClick_keeps paused k seq j).2) rfl i).mpr beaten
  | none =>
    obtain ⟨active, apart, capped, overdue⟩ := beaten
    simp only [instant, paused, Option.getD_none] at overdue
    have reached := inTime paused
    have apartSeats : k ≠ i := by
      rintro rfl
      omega
    have rivals : ∀ i k : Fin 2, k ≠ i → 1 - i = k := by decide
    have rival := rivals i k apartSeats
    have own : (a.countClick k seq).deadlineMs i = a.deadlineMs i := by
      simp [deadlineMs, countClick, modify, apartSeats.symm]
    have other : (a.countClick k seq).deadlineMs k = a.clockMs + a.config.inactivityTimeoutMs := by
      simp [deadlineMs, countClick, modify, paused]
    have config : (a.countClick k seq).config = a.config := rfl
    refine ⟨active, ?_, ?_, ?_⟩
    · rw [rival, config]
      omega
    · rw [own]
      exact capped
    · rw [own]
      show _ < (a.pausedSinceMs).getD a.clockMs
      rw [paused]
      exact overdue

theorem beaten (h : Effect a d) (sound : Sound a) (held : a.Held) {i : Fin 2}
    (beaten : a.Beaten i a.clockMs) : d.Beaten i a.clockMs := by
  cases h with
  | none => exact beaten
  | click seat counted => exact beaten_click seat counted beaten
  | detach k running => exact beaten_detach.mpr beaten
  | @rejoin k running away =>
    obtain ⟨since, paused⟩ := sound.pausedSince away
    exact (beaten_rejoin sound held paused).mpr beaten

end Effect

theorem decided_advance (running : c.phase.running = true)
    (decides : c.verdict (max c.clockMs now) = some result) :
    (c.advance now).phase.running = false ∧ (c.advance now).result = some result := by
  rw [advance_eq running, observe_verdict, decides]
  exact ⟨by cases result <;> rfl, rfl⟩

theorem Held.call (h : c.Held) (sound : Sound c) {call : Call} {stamp : Nat}
    (input : call.input = some stamp) : (c.call call).1.Held := by
  cases call with
  | start nowMs => exact h.start nowMs
  | advance nowMs => exact h.advance nowMs
  | click player seq nowMs => exact h.click player seq nowMs
  | setConnected player connected nowMs => exact h.setConnected sound player connected nowMs
  | cancel reason nowMs => cases input
  | complete => cases input

theorem start_clockMs (c : ContestState) (now : Nat) : (c.start now).1.clockMs ≤ max c.clockMs now := by
  by_cases pending : c.phase = .pending
  · simp [start, pending, transition, observe, ContestPhase.canTransitionTo]
  · simp [start, pending]

theorem call_clockMs {call : Call} (input : call.input = some stamp) (past : c.clockMs ≤ stamp) :
    (c.call call).1.clockMs ≤ stamp := by
  rcases c.call_effect input with same | ⟨rfl, -⟩ | effect
  · rwa [same]
  · have := c.start_clockMs stamp
    simp only [call]
    omega
  · rw [effect.clockMs, advance_clockMs]
    omega

/-- A decided contest takes no input any more. -/
theorem call_decided (decided : c.phase.running = false) {call : Call}
    (input : call.input = some stamp) :
    (c.call call).1.phase.running = false ∧ (c.call call).1.result = c.result := by
  rcases c.call_effect input with same | ⟨rfl, pending⟩ | effect
  · rw [same]
    exact ⟨decided, rfl⟩
  · rw [pending] at decided
    cases decided
  · rw [advance_of_decided decided] at effect
    rw [effect.of_decided decided]
    exact ⟨decided, rfl⟩

/-- Whenever it is ticked from `now` on, the contest ends with `result`. -/
def Certain (c : ContestState) (result : ContestResult) (now : Nat) : Prop :=
  ∀ later, now ≤ later → c.verdict later = some result

/-- The contest ends with `result`, unless it ends at a moment that was open only again. -/
def Doomed (c : ContestState) (result : ContestResult) (now : Nat) : Prop :=
  c.Certain result now ∨
    ∃ i, result = .outcome (c.loses i .inactivity) ∧ c.Beaten i now

theorem doomed_of_verdict (sound : Sound c) (h : c.verdict now = some result) :
    c.Doomed result now := by
  rcases verdict_opens sound h with stays | ⟨i, same, -, beaten⟩
  · exact .inl stays
  · exact .inr ⟨i, same, beaten⟩

theorem Doomed.mono {later : Nat} (h : c.Doomed result now) (le : now ≤ later) :
    c.Doomed result later := by
  rcases h with always | ⟨i, same, beaten⟩
  · exact .inl fun after after_le => always after (le_trans le after_le)
  · exact .inr ⟨i, same, beaten.mono le⟩

theorem verdict_pending (pending : c.phase = .pending) (now : Nat) :
    c.verdict now = c.forfeit now := by
  have still : c.reachGo now = c := reachGo_of_not_due fun preparing => by
    simp [pending] at preparing
  simp only [verdict, still, pending]
  cases c.forfeit now <;> simp

/-- A start does not lift the verdict over a seat whose grace is over. -/
theorem certain_start (pending : c.phase = .pending) (h : c.Certain result now) (stamp : Nat) :
    (c.start stamp).1.phase.running = true ∧ (c.start stamp).1.Certain result now := by
  refine ⟨by simp [start, pending, transition, observe, ContestPhase.canTransitionTo,
    ContestPhase.running], fun later le => ?_⟩
  have forfeited := h later le
  rw [verdict_pending pending] at forfeited
  have same : (c.start stamp).1.forfeit later = c.forfeit later := by
    have config : (c.start stamp).1.config = c.config := by
      simp [start, pending, transition, observe, ContestPhase.canTransitionTo]
    simp only [forfeit, loses, start_contestants, config]
  simp only [verdict, same, forfeited]

theorem Certain.call {result : ContestResult} {lo stamp : Nat} (h : c.Certain result lo)
    (running : c.phase.running = true) {call : Call} (input : call.input = some stamp)
    (le : lo ≤ stamp) (past : c.clockMs ≤ stamp) :
    ((c.call call).1.phase.running = false ∧ (c.call call).1.result = some result) ∨
    (c.call call).1.phase.running = true ∧ (c.call call).1.Certain result stamp := by
  have later : c.Certain result stamp := fun now after => h now (le_trans le after)
  rcases c.call_effect input with same | ⟨rfl, pending⟩ | effect
  · rw [same]
    exact .inr ⟨running, later⟩
  · exact .inr (certain_start pending later stamp)
  · have decided := decided_advance running
      (show c.verdict (max c.clockMs stamp) = some result from h _ (by omega))
    rw [effect.of_decided decided.1]
    exact .inl decided

/-- The other recovers: the contest goes on, with the same player beaten. -/
theorem Beaten.call {i : Fin 2} {stamp : Nat} (h : c.Beaten i stamp) (sound : Sound c)
    (held : c.Held) (running : c.phase.running = true) {a : ContestState}
    (past : c.clockMs ≤ stamp) (undecided : c.verdict stamp = none)
    (effect : Effect (c.advance stamp) a) :
    a.phase.running = true ∧ a.loses i = c.loses i ∧ a.Beaten i stamp := by
  have now : max c.clockMs stamp = stamp := max_eq_right past
  have here : c.advance stamp = c.observe stamp := by
    rw [advance_eq running, observe_verdict, now, undecided]
    cases paused : c.pausedSinceMs with
    | some since => exact ready_paused (c := c.observe stamp) paused stamp
    | none =>
      exact (ready_unpaused (sound.observe stamp) paused stamp).trans
        (reachGo_active (c := c.observe stamp) h.active stamp)
  have still : (c.observe stamp).Beaten i stamp :=
    (beaten_congr (d := c.observe stamp) (c := c) rfl rfl rfl (fun _ => rfl) rfl i).mpr h
  have clock : (c.observe stamp).clockMs = stamp := now
  rw [here] at effect
  have soundNow := sound.observe stamp
  have after := effect.beaten soundNow (held.observe stamp) (i := i) (by rw [clock]; exact still)
  refine ⟨by rw [effect.phase]; exact running, ?_, clock ▸ after⟩
  funext reason
  simp only [loses, effect.player soundNow]
  rfl

theorem Doomed.call {result : ContestResult} {lo stamp : Nat} (h : c.Doomed result lo)
    (sound : Sound c) (held : c.Held) (running : c.phase.running = true) {call : Call}
    (input : call.input = some stamp) (le : lo ≤ stamp) (past : c.clockMs ≤ stamp)
    (steady : ¬c.Reopened stamp) :
    ((c.call call).1.phase.running = false ∧ (c.call call).1.result = some result) ∨
    (c.call call).1.phase.running = true ∧ (c.call call).1.Doomed result stamp := by
  rcases h with always | ⟨i, rfl, beaten⟩
  · rcases always.call running input le past with ended | ⟨still, certain⟩
    · exact .inl ended
    · exact .inr ⟨still, .inl certain⟩
  · have later := beaten.mono le
    rcases c.call_effect input with same | ⟨rfl, pending⟩ | effect
    · rw [same]
      exact .inr ⟨running, .inr ⟨i, rfl, later⟩⟩
    · have active := beaten.active
      rw [pending] at active
      cases active
    · rcases verdict_beaten sound held later steady with open' | lost
      · obtain ⟨still, same, after⟩ := later.call sound held running past open' effect
        exact .inr ⟨still, .inr ⟨i, by rw [same], after⟩⟩
      · have decided := decided_advance running
          (show c.verdict (max c.clockMs stamp) = _ by rw [max_eq_right past]; exact lost)
        rw [effect.of_decided decided.1]
        exact .inl decided

/-- `d` is `c` with ticks that decided nothing. -/
structure Ahead (lo : Nat) (c d : ContestState) : Prop where
  advance : ∀ now, lo ≤ now → d.advance now = c.advance now
  start : ∀ now, lo ≤ now → c.phase = .pending → (d.start now).1 = (c.start now).1
  pending : d.phase = .pending ↔ c.phase = .pending
  indexOf : ∀ player, d.indexOf player = c.indexOf player
  isEdge : ∀ i connected, d.isEdge i connected = c.isEdge i connected
  result : d.result = c.result

theorem Ahead.refl (lo : Nat) (c : ContestState) : Ahead lo c c :=
  ⟨fun _ _ => rfl, fun _ _ _ => rfl, Iff.rfl, fun _ => rfl, fun _ _ => rfl, rfl⟩

variable {d : ContestState}

theorem Ahead.mono {later : Nat} {c : ContestState} (h : Ahead lo c d) (le : lo ≤ later) :
    Ahead later c d :=
  ⟨fun now past => h.advance now (le_trans le past),
    fun now past => h.start now (le_trans le past), h.pending, h.indexOf, h.isEdge, h.result⟩

theorem ready_pending : (c.ready now).phase = .pending ↔ c.phase = .pending := by
  rcases c.ready_cases now with same | ⟨go, preparing, -, -, -, live⟩
  · rw [same]
  · rw [live]
    simp [goLive, preparing]

theorem ready_of_pending (pending : c.phase = .pending) (now : Nat) : c.ready now = c := by
  rcases c.ready_cases now with same | ⟨go, preparing, -, -, -, -⟩
  · exact same
  · rw [pending] at preparing
    cases preparing

theorem ready_result (c : ContestState) (now : Nat) : (c.ready now).result = c.result := by
  rcases c.ready_cases now with same | ⟨go, -, -, -, -, live⟩
  · rw [same]
  · rw [live]
    rfl

theorem ahead_advance (sound : Sound c) (running : c.phase.running = true)
    (undecided : c.verdict (max c.clockMs now) = none) : Ahead now c (c.advance now) := by
  have same : c.advance now = (c.observe now).ready (max c.clockMs now) := by
    rw [advance_eq running, observe_verdict, undecided]
    rfl
  refine ⟨fun later le => advance_advance sound running undecided le, fun later le pending => ?_,
    ?_, fun player => c.advance_indexOf now player, fun i connected => ?_, ?_⟩
  · rw [same, ready_of_pending (c := c.observe now) pending]
    have also : (c.observe now).phase = .pending := pending
    simp only [start, pending, also, ne_eq, not_true_eq_false, if_false, observe_observe le]
  · rw [same, ready_pending]
    rfl
  · simp only [isEdge, advance_connection]
  · rw [same, ready_result]
    rfl

/-- The same call brings them together, or is idle for both. -/
theorem Ahead.call {lo stamp : Nat} {d : ContestState} (h : Ahead lo c d) {call : Call}
    (input : call.input = some stamp) (le : lo ≤ stamp) :
    (d.call call).1 = (c.call call).1 ∨ (c.call call).1 = c ∧ (d.call call).1 = d := by
  cases call with
  | start nowMs =>
    cases input
    by_cases pending : c.phase = .pending
    · exact .inl (h.start stamp le pending)
    · have also : d.phase ≠ .pending := fun there => pending (h.pending.mp there)
      refine .inr ⟨?_, ?_⟩
      · simp [ContestState.call, ContestState.start, pending]
      · simp [ContestState.call, ContestState.start, also]
  | advance nowMs =>
    cases input
    exact .inl (h.advance stamp le)
  | click player seq nowMs =>
    cases input
    refine .inl ?_
    simp only [ContestState.call, ContestState.click, h.advance stamp le]
  | setConnected player connected nowMs =>
    cases input
    simp only [ContestState.call]
    cases seat : c.indexOf player with
    | none =>
      rw [setConnected_stranger seat, setConnected_stranger ((h.indexOf player).trans seat)]
      exact .inr ⟨rfl, rfl⟩
    | some i =>
      have also := (h.indexOf player).trans seat
      cases edge : c.isEdge i connected with
      | false =>
        rw [setConnected_repeat seat edge,
          setConnected_repeat also ((h.isEdge i connected).trans edge)]
        exact .inr ⟨rfl, rfl⟩
      | true =>
        rw [setConnected_edge seat edge,
          setConnected_edge also ((h.isEdge i connected).trans edge), h.advance stamp le]
        exact .inl rfl
  | cancel reason nowMs => cases input
  | complete => cases input

/-- How the ticked run `d` stands to the run `c` without the ticks. -/
inductive Agree (lo : Nat) (c d : ContestState) : Prop where
  | ahead : c.phase.running = true → d.phase.running = true → Ahead lo c d → Agree lo c d
  | doomed {result : ContestResult} : c.phase.running = true → d.phase.running = false →
      d.result = some result → c.Doomed result lo → Agree lo c d
  | settled : c.phase.running = false → d.phase.running = false → d.result = c.result →
      Agree lo c d

theorem Agree.of_same (lo : Nat) (c : ContestState) : Agree lo c c := by
  cases running : c.phase.running with
  | true => exact .ahead running running (.refl lo c)
  | false => exact .settled running running rfl

theorem Agree.tick {lo stamp : Nat} {d : ContestState} (h : Agree lo c d) (sound : Sound c)
    (le : lo ≤ stamp) (past : c.clockMs ≤ stamp) : Agree stamp c (d.advance stamp) := by
  cases h with
  | ahead running also ahead =>
    rw [ahead.advance stamp le]
    have now : max c.clockMs stamp = stamp := max_eq_right past
    cases verdict : c.verdict stamp with
    | none =>
      refine .ahead running ?_ (ahead_advance sound running (by rw [now]; exact verdict))
      have same : c.advance stamp = (c.observe stamp).ready stamp := by
        rw [advance_eq running, observe_verdict, now, verdict]
        rfl
      rw [same]
      rcases (c.observe stamp).ready_cases stamp with kept | ⟨go, -, -, -, -, live⟩
      · rw [kept]
        exact running
      · rw [live]
        rfl
    | some result =>
      have decided := decided_advance running (now ▸ verdict)
      exact .doomed running decided.1 decided.2 (doomed_of_verdict sound verdict)
  | doomed running decided result doomed =>
    rw [advance_of_decided decided]
    exact .doomed running decided result (doomed.mono le)
  | settled decided also result =>
    rw [advance_of_decided also]
    exact .settled decided also result

theorem Agree.call {lo stamp : Nat} {d : ContestState} (h : Agree lo c d) (sound : Sound c)
    (held : c.Held) {call : Call} (input : call.input = some stamp) (le : lo ≤ stamp)
    (past : c.clockMs ≤ stamp) (steady : ¬c.Reopened stamp) :
    Agree stamp (c.call call).1 (d.call call).1 := by
  cases h with
  | ahead running also ahead =>
    rcases ahead.call input le with same | ⟨first, second⟩
    · rw [same]
      exact .of_same stamp _
    · rw [first, second]
      exact .ahead running also (ahead.mono le)
  | doomed running decided result doomed =>
    have after := call_decided decided input
    rcases doomed.call sound held running input le past steady with
      ⟨ended, same⟩ | ⟨still, doomed⟩
    · exact .settled ended after.1 (by rw [after.2, result, same])
    · exact .doomed still after.1 (after.2.trans result) doomed
  | settled decided also result =>
    have first := call_decided decided input
    have second := call_decided also input
    exact .settled first.1 second.1 (by rw [first.2, second.2, result])

theorem Agree.run {lo : Nat} {calls ticked : List Call} (h : Ticked lo calls ticked) :
    ∀ {c d : ContestState}, Agree lo c d → Sound c → c.Held → c.clockMs ≤ lo →
      c.Steady calls → Agree (lastStamp lo calls) (c.after calls) (d.after ticked) := by
  induction h with
  | done lo => exact fun agree _ _ _ _ => agree
  | @input lo stamp call calls ticked input le _ ih =>
    intro c d agree sound held past steady
    have past' : c.clockMs ≤ stamp := le_trans past le
    have next := agree.call sound held input le past' (steady.1 stamp input)
    have rest := ih next (sound.call call) (held.call sound input) (call_clockMs input past')
      steady.2
    simpa [lastStamp, input] using rest
  | @tick lo stamp call calls ticked le rest ih =>
    intro c d agree sound held past steady
    have later := ih (agree.tick sound le (le_trans past le)) sound held (le_trans past le) steady
    have same : lastStamp stamp (call :: calls) = lastStamp lo (call :: calls) := by
      obtain ⟨own, input, -, -⟩ := rest.ordered
      simp [lastStamp, input]
    rw [same] at later
    exact later

/-- Every clock of the contest has run out by `now`. -/
structure Late (c : ContestState) (now : Nat) : Prop where
  cap : c.timeLimitMs < now
  grace : ∀ i since, (c.contestants i).connection = .disconnected since →
    since + c.config.reconnectGraceMs < now

theorem Late.expired (h : c.Late now) (sound : Sound c) {since : Nat}
    (paused : c.pausedSinceMs = some since) : (c.forfeit now).isSome = true := by
  obtain ⟨i, away⟩ := sound.paused.mp (by simp [paused])
  cases connection : (c.contestants i).connection with
  | connected => exact absurd connection away
  | disconnected gone =>
    refine forfeit_isSome.mpr ⟨i, ?_⟩
    simpa [Contestant.expired, connection] using h.grace i gone connection

theorem Late.activeVerdict (h : c.Late now) : c.activeVerdict now ≠ none := fun undecided =>
  lt_irrefl _ (lt_of_lt_of_le h.cap (activeVerdict_none.mp undecided).2)

/-- After a late advance nothing is left to happen. -/
theorem not_doomed_of_late (sound : Sound c) (past : c.clockMs ≤ now) (late : c.Late now)
    (still : (c.advance now).phase.running = true) (result : ContestResult) :
    ¬(c.advance now).Doomed result now := by
  have stamp : max c.clockMs now = now := max_eq_right past
  obtain ⟨running, undecided, same⟩ := advance_running still
  rw [stamp] at undecided same
  have advanced : max (c.advance now).clockMs now = now := by
    rw [advance_clockMs, stamp, max_self]
  rintro (always | ⟨i, -, beaten⟩)
  · have again := advance_advance sound running (by rw [stamp]; exact undecided) (le_refl now)
    have decided := decided_advance still (by rw [advanced]; exact always now (le_refl _))
    rw [again, still] at decided
    exact absurd decided.1 (by simp)
  · cases paused : c.pausedSinceMs with
    | some since =>
      rw [verdict_paused paused] at undecided
      have some := late.expired sound paused
      rw [undecided] at some
      cases some
    | none =>
      rw [ready_unpaused (sound.observe now) paused] at same
      rcases (c.observe now).reachGo_cases now with kept | ⟨go, -, -, -, live⟩
      · have active : c.phase = .active := by
          have := beaten.active
          rw [same, kept] at this
          exact this
        rw [verdict_active sound paused active] at undecided
        exact late.activeVerdict undecided
      · have apart := beaten.apart
        rw [same, live, goLive_deadlineMs, goLive_deadlineMs] at apart
        omega

end ContestState

theorem after_clockMs {c : ContestState} {now : Nat} {inputs : List Call}
    (ordered : Ordered lo (inputs ++ [.advance now])) (past : c.clockMs ≤ lo) :
    (c.after inputs).clockMs ≤ now := by
  induction inputs generalizing c lo with
  | nil =>
    obtain ⟨stamp, input, le, -⟩ := ordered
    cases input
    exact le_trans past le
  | cons call inputs ih =>
    obtain ⟨stamp, input, le, rest⟩ := ordered
    exact ih rest (call_clockMs input (le_trans past le))

/-- Extra ticks leave the result of a steady run as it is. -/
theorem ticks_of_steady {new : ContestState} (sound : Sound new) (held : new.Held)
    (begins : new.clockMs = 0) {inputs ticked : List Call} {now : Nat}
    (between : Ticked 0 (inputs ++ [.advance now]) ticked)
    (late : (new.after inputs).Late now) (steady : new.Steady (inputs ++ [.advance now])) :
    (new.after ticked).result = (new.after (inputs ++ [.advance now])).result := by
  have agree := Agree.run between (.of_same 0 new) sound held (le_of_eq begins) steady
  have stamp : lastStamp 0 (inputs ++ [.advance now]) = now := by simp [lastStamp, Call.input]
  rw [stamp] at agree
  cases agree with
  | ahead running also ahead => exact ahead.result
  | settled decided also result => exact result
  | doomed running decided result doomed =>
    rw [after_append] at running doomed
    have clock := after_clockMs between.ordered (le_of_eq begins)
    exact absurd doomed (not_doomed_of_late (sound.after inputs) clock late running _)

end Phase.Contest
