import Phase.Tournament.Manager

/-! What a call can do to a tournament, said once. -/
namespace Phase.Tournament
open TournamentMeta TournamentManager

def TournamentCall.report (authority : ReportAuthority) (code : String) (pairingId : Nat)
    (outcome : PodOutcome) : TournamentCall :=
  match authority with
  | .seatedPlayer => .reportResult code pairingId outcome
  | .system => .reportResultSystem code pairingId outcome

/-- The changes of a tournament, each with the checks that admitted it. -/
inductive Change (compareTiebreaks : CompareTiebreaks) (code : String) (event : TournamentMeta)
    (call : TournamentCall) (env : BrokerEnv) (event' : TournamentMeta) : Prop
  | joined {playerKey displayName : String}
      (isCall : call = .joinTournament code playerKey displayName)
      (registering : event.status = .registration) (unknown : event.player playerKey = none)
      (after : event' = { event with
        players := event.players ++
          [{ playerKey, playerToken := .mint env, displayName, dropped := false }]
        lastActivityAt := env.now })
  | paired {generated : List TournamentPairing} (isCall : call = .generatePairings code)
      (running : event.status.isTerminal = false)
      (scheduled : event.currentRound < event.totalRounds)
      (resolved : event.firstUnresolvedPairing = none)
      (built : event.buildRound compareTiebreaks = .ok generated)
      (after : event' = event.paired generated env)
  | reported {authority : ReportAuthority} {pairingId index : Nat} {pairing : TournamentPairing}
      {outcome : PodOutcome} (isCall : call = .report authority code pairingId outcome)
      (found : event.pairings[index]? = some pairing) (isId : pairing.id = pairingId)
      (admitted : event.admitReport pairing authority = .ok ())
      (legal : validateMatchResult pairing event.players event.matchType outcome = .ok ())
      (advances : ¬(event.bracket = .singleElimination ∧ outcome = .draw))
      (after : event' = { event.settle index (.reported outcome) with lastActivityAt := env.now })
  | hosted {pairingId : Nat} {pairing : TournamentPairing}
      (isCall : call = .beginHosting code pairingId)
      (found : pairing ∈ event.pairings) (isId : pairing.id = pairingId)
      (eligible : event.isHostedEligible pairing = true)
      (running : event.status.isTerminal = false)
      (after : event' = { event with
        hosted := event.hosted.insert pairingId { generation :=
          ((event.hosted.lookup pairingId).map fun hosted =>
            saturatingAdd hosted.generation 1).getD 1 }
        lastActivityAt := env.now })
  | dropped {playerKey : String} {index : Nat} {player : TournamentPlayer}
      (isCall : call = .dropPlayer code playerKey) (running : event.status.isTerminal = false)
      (found : event.players[index]? = some player) (isKey : player.playerKey = playerKey)
      (after : event' = (event.markDropped index).settleForfeits playerKey env)
  | completed (isCall : call = .completeTournament code)
      (running : event.status = .inProgress)
      (resolved : event.firstUnresolvedPairing = none)
      (after : event' = { event with status := .completed, lastActivityAt := env.now })
  | abandoned (isCall : call = .checkExpired) (running : event.status = .inProgress)
      (after : event' = { event with status := .abandoned, lastActivityAt := env.now })

variable {event : TournamentMeta}

theorem startRound_mem : .startRound ∈ event.openActions ↔ event.status.isTerminal = false := by
  unfold openActions
  cases event.status <;> simp [TournamentStatus.isTerminal]

theorem drop_mem : .drop ∈ event.openActions ↔ event.status.isTerminal = false := by
  unfold openActions
  cases event.status <;> simp [TournamentStatus.isTerminal]

theorem endTournament_mem : .endTournament ∈ event.openActions ↔ event.status = .inProgress := by
  unfold openActions
  cases event.status <;> simp [TournamentStatus.isTerminal]

namespace TournamentMeta
variable {compareTiebreaks : CompareTiebreaks} {code : String} {event : TournamentMeta}
  {env : BrokerEnv}

theorem join_cases (playerKey displayName : String) :
    (∃ reason, event.join playerKey displayName env = (.error reason, event)) ∨
      ∃ token event', event.join playerKey displayName env = (.ok token, event') ∧
        Change compareTiebreaks code event (.joinTournament code playerKey displayName) env
          event' := by
  unfold join
  split
  · exact .inl ⟨_, rfl⟩
  · next registering =>
    split
    · exact .inl ⟨_, rfl⟩
    · next unknown =>
      exact .inr ⟨_, _, rfl, .joined rfl (not_not.mp registering)
        (Option.not_isSome_iff_eq_none.mp unknown) rfl⟩

theorem generatePairings_cases :
    (∃ reason, event.generatePairings compareTiebreaks env = (.error reason, event)) ∨
      ∃ ids event', event.generatePairings compareTiebreaks env = (.ok ids, event') ∧
        Change compareTiebreaks code event (.generatePairings code) env event' := by
  unfold generatePairings
  split
  · exact .inl ⟨_, rfl⟩
  · next running =>
    split
    · exact .inl ⟨_, rfl⟩
    · next scheduled =>
      split
      · exact .inl ⟨_, rfl⟩
      · next resolved =>
        split
        · exact .inl ⟨_, rfl⟩
        · next generated built =>
          exact .inr ⟨_, _, rfl, .paired rfl (startRound_mem.mp (not_not.mp running))
            (not_le.mp scheduled) resolved built rfl⟩

theorem reportResultWithAuthority_cases (pairingId : Nat) (outcome : PodOutcome)
    (authority : ReportAuthority) :
    (∃ reason, event.reportResultWithAuthority pairingId outcome authority env =
        (.error reason, event)) ∨
      ∃ event', event.reportResultWithAuthority pairingId outcome authority env =
          (.ok (), event') ∧
        Change compareTiebreaks code event (.report authority code pairingId outcome) env
          event' := by
  unfold reportResultWithAuthority
  split
  · exact .inl ⟨_, rfl⟩
  · next index isIndex =>
    obtain ⟨inside, isId, -⟩ := List.findIdx?_eq_some_iff_getElem.mp isIndex
    split
    · exact .inl ⟨_, rfl⟩
    · next pairing found =>
      split
      · exact .inl ⟨_, rfl⟩
      · next admitted =>
        split
        · exact .inl ⟨_, rfl⟩
        · next legal =>
          split
          · exact .inl ⟨_, rfl⟩
          · next advances =>
            cases (List.getElem?_eq_getElem inside).symm.trans found
            exact .inr ⟨_, rfl, .reported rfl found (of_decide_eq_true isId) admitted
              legal advances rfl⟩

theorem beginHosting_cases (pairingId : Nat) :
    (∃ reason, event.beginHosting pairingId env = (.error reason, event)) ∨
      ∃ generation event', event.beginHosting pairingId env = (.ok generation, event') ∧
        Change compareTiebreaks code event (.beginHosting code pairingId) env event' := by
  unfold beginHosting
  split
  · exact .inl ⟨_, rfl⟩
  · next pairing found =>
    have isId := List.find?_some found
    have mem := List.mem_of_find?_eq_some found
    split
    · exact .inl ⟨_, rfl⟩
    · next eligible =>
      have gate : event.reportGate pairing ≠ .tournamentNotRunning →
          event.status.isTerminal = false := by
        unfold reportGate
        split
        · exact fun other => absurd rfl other
        · next running => exact fun _ => Bool.eq_false_iff.mpr running
      split
      · exact .inl ⟨_, rfl⟩
      · exact .inl ⟨_, rfl⟩
      · exact .inl ⟨_, rfl⟩
      · next isGate =>
        exact .inr ⟨_, _, rfl, .hosted rfl mem (of_decide_eq_true isId)
          (by simpa using eligible) (gate (by simp [isGate])) rfl⟩
      · next isGate =>
        exact .inr ⟨_, _, rfl, .hosted rfl mem (of_decide_eq_true isId)
          (by simpa using eligible) (gate (by simp [isGate])) rfl⟩

theorem dropPlayer_cases (playerKey : String) :
    (∃ reason, event.dropPlayer playerKey env = (.error reason, event)) ∨
      ∃ event', event.dropPlayer playerKey env = (.ok (), event') ∧
        Change compareTiebreaks code event (.dropPlayer code playerKey) env event' := by
  unfold dropPlayer
  split
  · exact .inl ⟨_, rfl⟩
  · next running =>
    split
    · exact .inl ⟨_, rfl⟩
    · next index isIndex =>
      obtain ⟨inside, isKey, -⟩ := List.findIdx?_eq_some_iff_getElem.mp isIndex
      exact .inr ⟨_, rfl, .dropped rfl (drop_mem.mp (not_not.mp running))
        (List.getElem?_eq_getElem inside) (of_decide_eq_true isKey) rfl⟩

theorem complete_cases :
    (∃ reason, event.complete env = (.error reason, event)) ∨
      ∃ event', event.complete env = (.ok (), event') ∧
        Change compareTiebreaks code event (.completeTournament code) env event' := by
  unfold complete
  split
  · exact .inl ⟨_, rfl⟩
  · next running =>
    split
    · exact .inl ⟨_, rfl⟩
    · next resolved =>
      exact .inr ⟨_, rfl, .completed rfl (endTournament_mem.mp (not_not.mp running)) resolved rfl⟩

end TournamentMeta

theorem put_self (manager : TournamentManager) (code : String) (event : Option TournamentMeta) :
    (manager.put code event).tournaments code = event :=
  Function.update_self ..

theorem put_of_ne (manager : TournamentManager) (event : Option TournamentMeta)
    {code other : String} (elsewhere : code ≠ other) :
    (manager.put other event).tournaments code = manager.tournaments code :=
  Function.update_of_ne elsewhere ..

section
variable {compareTiebreaks : CompareTiebreaks} {manager : TournamentManager} {env : BrokerEnv}

/-- A call on one tournament is refused and changes nothing, or makes a change of it. -/
theorem withMeta_cases {α : Type} {code : String} {call : TournamentCall}
    {act : TournamentMeta → Except String α × TournamentMeta}
    (each : ∀ event, (∃ reason, act event = (.error reason, event)) ∨
      ∃ a event', act event = (.ok a, event') ∧
        Change compareTiebreaks code event call env event') :
    (∃ reason, manager.withMeta code act = (.error reason, manager)) ∨
      ∃ a event event', manager.withMeta code act = (.ok a, manager.put code (some event')) ∧
        manager.tournaments code = some event ∧
        Change compareTiebreaks code event call env event' := by
  unfold withMeta
  split
  · exact .inl ⟨_, rfl⟩
  · next event found =>
    rcases each event with ⟨reason, failed⟩ | ⟨a, event', done, change⟩
    · rw [failed]
      simp [put, ← found]
    · exact .inr ⟨a, event, event', by rw [done], found, change⟩

/-- What a call has done: nothing, opened an event, changed one, or swept them all. -/
inductive Called (compareTiebreaks : CompareTiebreaks) (manager : TournamentManager)
    (call : TournamentCall) (env : BrokerEnv) : Except String Unit × TournamentManager → Prop
  | refused (reason : String) : Called compareTiebreaks manager call env (.error reason, manager)
  | created {code : String} {req : CreateTournamentRequest}
      (isCall : call = .createTournament code req) (free : manager.tournaments code = none)
      (rounds : req.totalRounds ≠ some 0) :
      Called compareTiebreaks manager call env
        (.ok (), manager.put code (some (.created code req env)))
  | changed {code : String} {event event' : TournamentMeta}
      (found : manager.tournaments code = some event)
      (change : Change compareTiebreaks code event call env event') :
      Called compareTiebreaks manager call env (.ok (), manager.put code (some event'))
  | swept (isCall : call = .checkExpired) :
      Called compareTiebreaks manager call env (.ok (), (manager.checkExpired env).2)

theorem apply_called (call : TournamentCall) :
    Called compareTiebreaks manager call env (manager.apply compareTiebreaks call env) := by
  have changed {α : Type} {code : String} {act : TournamentMeta → Except String α × TournamentMeta}
      (each : ∀ event, (∃ reason, act event = (.error reason, event)) ∨
        ∃ a event', act event = (.ok a, event') ∧
          Change compareTiebreaks code event call env event') :
      Called compareTiebreaks manager call env
        (((manager.withMeta code act).1.map fun _ => ()), (manager.withMeta code act).2) := by
    rcases withMeta_cases each with ⟨reason, failed⟩ | ⟨a, event, event', done, found, change⟩
    · rw [failed]
      exact .refused reason
    · rw [done]
      exact .changed found change
  have settled {code : String} {act : TournamentMeta → Except String Unit × TournamentMeta}
      (each : ∀ event, (∃ reason, act event = (.error reason, event)) ∨
        ∃ event', act event = (.ok (), event') ∧
          Change compareTiebreaks code event call env event') :
      Called compareTiebreaks manager call env (manager.withMeta code act) := by
    have plain := changed fun event => (each event).imp id fun ⟨event', done⟩ => ⟨(), event', done⟩
    generalize manager.withMeta code act = answer at plain ⊢
    obtain ⟨answer, next⟩ := answer
    cases answer with
    | error reason => exact plain
    | ok _ => exact plain
  cases call with
  | createTournament code req =>
    change Called _ _ _ _ (Except.map _ (manager.createTournament code req env).1,
      (manager.createTournament code req env).2)
    unfold createTournament
    split
    · exact .refused _
    · next free =>
      split
      · exact .refused _
      · split
        · exact .refused _
        · next rounds =>
          split
          · exact .refused _
          · exact .created rfl (Option.not_isSome_iff_eq_none.mp free) rounds
  | joinTournament code playerKey displayName =>
    exact changed fun event => join_cases playerKey displayName
  | generatePairings code => exact changed fun event => generatePairings_cases
  | reportResult code pairingId outcome =>
    exact settled fun event =>
      reportResultWithAuthority_cases pairingId outcome .seatedPlayer
  | reportResultSystem code pairingId outcome =>
    exact settled fun event =>
      reportResultWithAuthority_cases pairingId outcome .system
  | beginHosting code pairingId =>
    exact changed fun event => beginHosting_cases pairingId
  | dropPlayer code playerKey =>
    exact settled fun event => dropPlayer_cases playerKey
  | completeTournament code => exact settled fun event => complete_cases
  | checkExpired => exact .swept rfl

variable {code : String} {event event' : TournamentMeta} {call : TournamentCall}

/-- A call on a tournament that is still there leaves it alone or makes a change of it. -/
theorem apply_event (found : manager.tournaments code = some event)
    (found' : (manager.apply compareTiebreaks call env).2.tournaments code = some event') :
    event' = event ∨ (manager.apply compareTiebreaks call env).1 = .ok () ∧
      Change compareTiebreaks code event call env event' := by
  have called := @apply_called compareTiebreaks manager env call
  generalize manager.apply compareTiebreaks call env = answer at called found'
  cases called with
  | refused reason =>
    cases found.symm.trans found'
    exact .inl rfl
  | @created other req isCall free rounds =>
    have elsewhere : code ≠ other := by
      rintro rfl
      rw [free] at found
      cases found
    rw [put_of_ne _ _ elsewhere, found] at found'
    cases found'
    exact .inl rfl
  | @changed other before after isFound change =>
    by_cases same : code = other
    · subst same
      cases found.symm.trans isFound
      rw [put_self] at found'
      cases found'
      exact .inr ⟨rfl, change⟩
    · rw [put_of_ne _ _ same, found] at found'
      cases found'
      exact .inl rfl
  | swept isCall =>
    simp only [checkExpired, found, Option.bind_some] at found'
    unfold sweep at found'
    dsimp only at found'
    split at found'
    · split at found' <;> cases found'
      exact .inl rfl
    · next running =>
      split at found' <;> cases found'
      · exact .inr ⟨rfl, .abandoned isCall running rfl⟩
      · exact .inl rfl
    · split at found' <;> cases found'
      exact .inl rfl
    · split at found' <;> cases found'
      exact .inl rfl

theorem apply_new (free : manager.tournaments code = none)
    (found' : (manager.apply compareTiebreaks call env).2.tournaments code = some event') :
    ∃ req, req.totalRounds ≠ some 0 ∧ event' = .created code req env := by
  have called := @apply_called compareTiebreaks manager env call
  generalize manager.apply compareTiebreaks call env = answer at called found'
  cases called with
  | refused reason =>
    rw [free] at found'
    cases found'
  | @created other req isCall _ rounds =>
    by_cases same : code = other
    · subst same
      rw [put_self] at found'
      cases found'
      exact ⟨req, rounds, rfl⟩
    · rw [put_of_ne _ _ same, free] at found'
      cases found'
  | @changed other before after isFound change =>
    have elsewhere : code ≠ other := by
      rintro rfl
      rw [free] at isFound
      cases isFound
    rw [put_of_ne _ _ elsewhere, free] at found'
    cases found'
  | swept isCall =>
    simp only [checkExpired, free, Option.bind_none] at found'
    cases found'

/-- The tournament a call is about, unless it opens one or sweeps them all. -/
def TournamentCall.target : TournamentCall → Option String
  | .joinTournament code _ _ | .generatePairings code | .reportResult code _ _
  | .reportResultSystem code _ _ | .beginHosting code _ | .dropPlayer code _
  | .completeTournament code => some code
  | .createTournament _ _ | .checkExpired => none

theorem Change.target (change : Change compareTiebreaks code event call env event') :
    call.target = some code ∨ call = .checkExpired := by
  cases change with
  | joined isCall | paired isCall | hosted isCall | dropped isCall | completed isCall =>
    rw [isCall]
    exact .inl rfl
  | @reported authority _ _ _ _ isCall =>
    rw [isCall]
    cases authority <;> exact .inl rfl
  | abandoned isCall => exact .inr isCall

/-- A call on a tournament that succeeds has changed it. -/
theorem apply_accepted (isTarget : call.target = some code)
    (accepted : (manager.apply compareTiebreaks call env).1 = .ok ()) :
    ∃ event event', manager.tournaments code = some event ∧
      (manager.apply compareTiebreaks call env).2.tournaments code = some event' ∧
      Change compareTiebreaks code event call env event' := by
  have called := @apply_called compareTiebreaks manager env call
  generalize manager.apply compareTiebreaks call env = answer at called accepted
  cases called with
  | refused reason => cases accepted
  | created isCall | swept isCall =>
    rw [isCall] at isTarget
    cases isTarget
  | @changed other before after isFound change =>
    rcases change.target with same | sweeps
    · cases isTarget.symm.trans same
      exact ⟨before, after, isFound, put_self .., change⟩
    · rw [sweeps] at isTarget
      cases isTarget

end

/-- The managers that some sequence of allowed calls leads to. -/
inductive Runs (compareTiebreaks : CompareTiebreaks)
    (allowed : TournamentManager → TournamentCall → BrokerEnv → Prop)
    (start : TournamentManager) : TournamentManager → Prop
  | start : Runs compareTiebreaks allowed start start
  | call {manager : TournamentManager} (run : Runs compareTiebreaks allowed start manager)
      (call : TournamentCall) (env : BrokerEnv) (meets : allowed manager call env) :
      Runs compareTiebreaks allowed start (manager.apply compareTiebreaks call env).2

/-- Any calls on a manager without tournaments. -/
abbrev Reached (compareTiebreaks : CompareTiebreaks) : TournamentManager → Prop :=
  Runs compareTiebreaks (fun _ _ _ => True) .new

variable {compareTiebreaks : CompareTiebreaks} {manager : TournamentManager}

theorem Runs.reached {allowed : TournamentManager → TournamentCall → BrokerEnv → Prop}
    {start : TournamentManager} (run : Runs compareTiebreaks allowed start manager)
    (reached : Reached compareTiebreaks start) : Reached compareTiebreaks manager := by
  induction run with
  | start => exact reached
  | call _ call env _ ih => exact ih.call call env trivial

/-- What new events have and changes keep, the events of every reachable manager have. -/
theorem Runs.invariant {compareTiebreaks : CompareTiebreaks} {inv : TournamentMeta → Prop}
    (new : ∀ code req env, req.totalRounds ≠ some 0 → inv (.created code req env))
    (keep : ∀ code event call env event', inv event →
      Change compareTiebreaks code event call env event' → inv event')
    {manager : TournamentManager} (reached : Reached compareTiebreaks manager) {code : String}
    {event : TournamentMeta} (found : manager.tournaments code = some event) : inv event := by
  induction reached generalizing event with
  | start => cases found
  | @call manager _ call env _ ih =>
    cases before : manager.tournaments code with
    | none =>
      obtain ⟨req, rounds, rfl⟩ := apply_new before found
      exact new code req env rounds
    | some old =>
      rcases apply_event before found with rfl | ⟨-, change⟩
      · exact ih before
      · exact keep code old call env event (ih before) change

end Phase.Tournament
