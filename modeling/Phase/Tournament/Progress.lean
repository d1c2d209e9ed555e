import Phase.Tournament.Bracket

/-! When the pairings of a running tournament can all be resolved. -/
namespace Phase.Tournament
open Indexed List TournamentMeta

/-- Two players to a pairing unless it is a bye, nobody twice in a round, and winners that played. -/
structure Elimination (event : TournamentMeta) : Prop where
  sizes : ∀ p ∈ event.pairings, p.outcome = some .bye ∨ p.players.length = 2
  winners : ∀ p ∈ event.pairings, ∀ key, p.winner = some key → key ∈ p.players
  distinct : ∀ r, ((event.level r).flatMap (·.players)).Nodup

theorem winners_nodup {level : List TournamentPairing} {keys : List String}
    (distinct : (level.flatMap (·.players)).Nodup)
    (played : ∀ p ∈ level, ∀ key, p.winner = some key → key ∈ p.players)
    (isLevel : level.map (·.winner) = keys.map some) : keys.Nodup := by
  induction level generalizing keys with
  | nil =>
    cases map_eq_nil_iff.mp isLevel.symm
    exact .nil
  | cons p level ih =>
    cases keys with
    | nil => cases isLevel
    | cons key keys =>
      simp only [map_cons, cons.injEq] at isLevel
      rw [flatMap_cons, nodup_append] at distinct
      obtain ⟨-, rest, apart⟩ := distinct
      refine nodup_cons.mpr ⟨fun again => ?_, ih rest (fun q mem =>
        played q (mem_cons_of_mem _ mem)) isLevel.2⟩
      have wins : some key ∈ level.map (·.winner) := isLevel.2 ▸ mem_map_of_mem again
      obtain ⟨q, mem, isWinner⟩ := mem_map.mp wins
      have here := played p mem_cons_self key isLevel.1
      have there := played q (mem_cons_of_mem _ mem) key isWinner
      exact apart key here key (mem_flatMap.mpr ⟨q, mem, there⟩) rfl

section
variable {compareTiebreaks : CompareTiebreaks} {code : String} {event event' : TournamentMeta}
  {call : TournamentCall} {env : BrokerEnv}

variable {q : TournamentPairing} {manager : TournamentManager}

/-- A pairing of the new record is one of the old, maybe written, or one of the new round. -/
theorem Change.mem (change : Change compareTiebreaks code event call env event')
    (mem : q ∈ event'.pairings) :
    (∃ p ∈ event.pairings, ∃ outcome, q = { p with outcome } ∧
      (outcome = p.outcome ∨ Written code event call event'.droppedKeys p outcome)) ∨
    ∃ generated, call = .generatePairings code ∧
      event.buildRound compareTiebreaks = .ok generated ∧ q ∈ generated ∧
      event' = event.paired generated env := by
  obtain ⟨i, there⟩ := mem_iff_getElem?.mp mem
  cases before : event.pairings[i]? with
  | some p =>
    obtain ⟨outcome, there', written⟩ := change.pairing before
    cases there.symm.trans there'
    exact .inl ⟨p, mem_of_getElem? before, outcome, rfl, written⟩
  | none =>
    have outside := getElem?_eq_none_iff.mp before
    rcases change.grows with ⟨length, -⟩ | ⟨generated, isCall, -, -, built, rfl⟩
    · have inside := (List.getElem?_eq_some_iff.mp there).1
      omega
    · change (event.pairings ++ generated)[i]? = some q at there
      rw [getElem?_append_right outside] at there
      exact .inr ⟨generated, isCall, built, mem_of_getElem? there, rfl⟩

theorem buildRound_elimination {generated : List TournamentPairing} (sound : Sound event)
    (bracket : event.bracket = .singleElimination) (elimination : Elimination event)
    (built : event.buildRound compareTiebreaks = .ok generated) :
    (∀ p ∈ generated, p.outcome = some .bye ∨ p.players.length = 2) ∧
      (generated.flatMap (·.players)).Nodup := by
  unfold buildRound at built
  rw [bracket] at built
  obtain ⟨pods, rfl, small, seats⟩ := buildSingleEliminationRound_ok built
  refine ⟨fun p mem => ?_, ?_⟩
  · obtain ⟨-, isPod, outcome⟩ := mem_numbered mem
    rcases small _ isPod with one | two
    · rw [if_pos one] at outcome
      exact .inl outcome
    · exact .inr two
  · rw [numbered_flatMap]
    rcases seats with ⟨-, perm⟩ | ⟨-, winners, rfl, level⟩
    · have active := perm.trans standingsOrder_perm
      exact active.nodup_iff.mpr ((filter_sublist.map _).nodup sound.keys)
    · rw [chunksOfTwo_flatten]
      refine winners_nodup (elimination.distinct event.currentRound) (fun p mem => ?_) level
      exact elimination.winners p (mem_filter.mp mem).1

theorem Change.elimination (sound : Sound event)
    (change : Change compareTiebreaks code event call env event')
    (bracket : event.bracket = .singleElimination) (elimination : Elimination event) :
    Elimination event' where
  sizes q mem := by
    rcases change.mem mem with ⟨p, was, outcome, rfl, written⟩ | ⟨generated, -, built, mem, -⟩
    · rcases elimination.sizes p was with bye | two
      · rcases written with same | written
        · exact .inl (same.trans bye)
        · exact absurd (bye ▸ trivial) written.not_permanent
      · exact .inr two
    · exact (buildRound_elimination sound bracket elimination built).1 q mem
  winners q mem key wins := by
    rcases change.mem mem with ⟨p, was, outcome, rfl, written⟩ | ⟨generated, -, built, mem, -⟩
    · rcases written with same | written
      · rw [show outcome = p.outcome from same] at wins
        exact elimination.winners p was key wins
      · exact (written.winner_active (fun _ => change.dropped_stays) wins).1
    · rcases (buildRound_fresh built).outcomes q mem with pending | ⟨bye, alone, isAlone⟩
      · rw [TournamentPairing.winner, pending] at wins
        cases wins
      · rw [TournamentPairing.winner, bye, isAlone] at wins
        cases wins
        rw [isAlone]
        exact mem_singleton_self _
  distinct r := by
    have unchanged {a b : TournamentMeta}
        (same : (b.level r).map (·.players) = (a.level r).map (·.players))
        (distinct : ((a.level r).flatMap (·.players)).Nodup) :
        ((b.level r).flatMap (·.players)).Nodup := by
      rw [flatMap_def, same]
      exact distinct
    rcases change.grows with ⟨length, -⟩ | ⟨generated, -, -, -, built, rfl⟩
    · refine unchanged (filter_map_congr length fun i p q there there' => ?_) (elimination.distinct r)
      obtain ⟨outcome, isThere, -⟩ := change.pairing there
      cases there'.symm.trans isThere
      exact ⟨rfl, fun _ => rfl⟩
    · have fresh := buildRound_fresh built
      rcases Nat.lt_trichotomy r (event.currentRound + 1) with before | rfl | beyond
      · rw [paired_level_old fresh (Nat.lt_succ_iff.mp before)]
        exact elimination.distinct r
      · rw [paired_level_new sound fresh]
        exact (buildRound_elimination sound bracket elimination built).2
      · have empty : (event.paired generated env).level r = [] := by
          refine filter_eq_nil_iff.mpr fun p mem isRound => ?_
          have := (change.sound sound).rounds p mem
          change _ ∧ _ ≤ event.currentRound + 1 at this
          simp only [decide_eq_true_eq] at isRound
          omega
        rw [empty]
        exact .nil

theorem Runs.elimination (reached : Reached compareTiebreaks manager)
    (found : manager.tournaments code = some event) (bracket : event.bracket = .singleElimination) :
    Elimination event := by
  have both := @Runs.invariant compareTiebreaks (fun event => Sound event ∧
    (event.bracket = .singleElimination → Elimination event))
  refine (both (fun code req env _ => ?_) (fun code event call env event' known change => ?_) reached
    found).2 bracket
  · exact ⟨created_sound code req env, fun _ => ⟨nofun, nofun, fun _ => .nil⟩⟩
  · obtain ⟨sound, elimination⟩ := known
    refine ⟨change.sound sound, fun bracket => ?_⟩
    rw [change.bracket] at bracket
    exact change.elimination sound bracket (elimination bracket)

theorem Elimination.pair (elimination : Elimination event) {p : TournamentPairing}
    (mem : p ∈ event.pairings) (pending : p.outcome = none) :
    ∃ a b, p.players = [a, b] ∧ a ≠ b := by
  have two : p.players.length = 2 := by
    refine (elimination.sizes p mem).resolve_left fun bye => ?_
    rw [pending] at bye
    cases bye
  obtain ⟨a, b, players⟩ := length_eq_two.mp two
  have distinct : p.players.Nodup :=
    (nodup_flatMap.mp (elimination.distinct p.round)).1 p (mem_filter.mpr ⟨mem, by simp⟩)
  rw [players] at distinct
  exact ⟨a, b, players, by simpa using distinct⟩

/-- A bracket pairing that nobody can win any more. -/
def Stuck (event : TournamentMeta) : Prop :=
  event.bracket = .singleElimination ∧ ∃ p ∈ event.pairings, p.round = event.currentRound ∧
    p.outcome = none ∧ ∀ key ∈ p.players, key ∈ event.droppedKeys

/-- No round is paired while a result is missing. -/
theorem Change.waits (change : Change compareTiebreaks code event call env event')
    {p : TournamentPairing} (mem : p ∈ event.pairings) (pending : p.outcome = none) :
    event'.currentRound = event.currentRound := by
  rcases change.grows with ⟨-, same⟩ | ⟨_, -, -, resolved, -⟩
  · exact same
  · have settled := find?_eq_none.mp resolved p mem
    rw [pending] at settled
    exact absurd rfl settled

/-- So a missing result is one of the current round. -/
theorem Runs.pending_current (reached : Reached compareTiebreaks manager)
    (found : manager.tournaments code = some event) :
    ∀ p ∈ event.pairings, p.outcome = none → p.round = event.currentRound := by
  have invariant := @Runs.invariant compareTiebreaks fun event =>
    ∀ p ∈ event.pairings, p.outcome = none → p.round = event.currentRound
  refine invariant (fun _ _ _ _ => nofun) (fun code event call env event' known change => ?_) reached
    found
  intro q mem pending
  rcases change.mem mem with ⟨p, was, outcome, rfl, written⟩ | ⟨generated, -, built, fresh, rfl⟩
  · rcases written with same | written
    · have waits := same.symm.trans pending
      exact (known p was waits).trans (change.waits was waits).symm
    · cases pending
      cases written
  · exact (buildRound_fresh built).rounds q fresh

/-- Whatever is called, it stays so. -/
theorem Change.stuck (change : Change compareTiebreaks code event call env event')
    (stuck : Stuck event) : Stuck event' := by
  obtain ⟨bracket, p, mem, current, pending, gone⟩ := stuck
  obtain ⟨i, there⟩ := mem_iff_getElem?.mp mem
  obtain ⟨outcome, there', written⟩ := change.pairing there
  refine ⟨change.bracket.trans bracket, _, mem_of_getElem? there',
    current.trans (change.waits mem pending).symm, ?_, fun key mem =>
      change.dropped_stays (gone key mem)⟩
  rcases written with same | written
  · exact same.trans pending
  · cases written with
    | @report authority result isCall admitted legal advances =>
      cases result with
      | draw => exact absurd ⟨bracket, rfl⟩ advances
      | decisive winner gameWins =>
        obtain ⟨seated, active⟩ := decisive_legal legal
        exact absurd (gone winner seated) active
    | @forfeit playerKey survivor isCall _ seated last =>
      have left : survivor ∈ p.players.filter fun key => !event'.droppedKeys.contains key := by
        rw [last]
        exact mem_singleton_self _
      obtain ⟨mem, active⟩ := mem_filter.mp left
      simp [change.dropped_stays (gone survivor mem)] at active

/-- The tally of a match that `winner` won without losing a game. -/
def sweepOf (winner loser : String) : AList fun _ : String => Nat :=
  (AList.insert winner 2 ∅).insert loser 0

theorem validateBo3_sweep {p : TournamentPairing} {a b winner loser : String}
    (players : p.players = [a, b]) (distinct : winner ≠ loser)
    (both : winner = a ∧ loser = b ∨ winner = b ∧ loser = a) :
    validateBo3 p winner (sweepOf winner loser) = .ok () := by
  have size : (sweepOf winner loser).entries.length = 2 := by
    unfold sweepOf
    rw [AList.entries_insert_of_notMem, AList.entries_insert_of_notMem]
    · rfl
    · exact AList.notMem_empty _
    · rw [AList.mem_insert]
      exact not_or.mpr ⟨distinct.symm, AList.notMem_empty _⟩
  have wins : (sweepOf winner loser).lookup winner = some 2 := by
    unfold sweepOf
    rw [AList.lookup_insert_ne distinct, AList.lookup_insert]
  have loses : (sweepOf winner loser).lookup loser = some 0 := AList.lookup_insert ..
  have listed : winner ∈ sweepOf winner loser ∧ loser ∈ sweepOf winner loser :=
    ⟨AList.lookup_isSome.mp (by rw [wins]; rfl), AList.lookup_isSome.mp (by rw [loses]; rfl)⟩
  unfold validateBo3
  rw [players]
  rcases both with ⟨rfl, rfl⟩ | ⟨rfl, rfl⟩
  · simp [size, wins, loses, listed, illegalTally]
  · simp [size, wins, loses, listed, illegalTally]

/-- A pending pairing of an event that is not stuck has a result that is accepted. -/
theorem exists_result {p : TournamentPairing} (mem : p ∈ event.pairings)
    (current : p.round = event.currentRound) (pending : p.outcome = none) (free : ¬Stuck event)
    (elimination : event.bracket = .singleElimination → Elimination event) :
    ∃ outcome, validateMatchResult p event.players event.matchType outcome = .ok () ∧
      ¬(event.bracket = .singleElimination ∧ outcome = .draw) := by
  cases bracket : event.bracket with
  | swiss => exact ⟨.draw, rfl, fun impossible => nomatch impossible.1⟩
  | singleElimination =>
    have elimination := elimination bracket
    obtain ⟨winner, seated, active⟩ : ∃ key ∈ p.players, key ∉ event.droppedKeys := by
      by_contra none_
      push Not at none_
      exact free ⟨bracket, p, mem, current, pending, none_⟩
    obtain ⟨a, b, players, apart⟩ := elimination.pair mem pending
    have known : p.players.contains winner = true := by simpa using seated
    have here : (event.players.any fun player =>
        player.playerKey = winner && player.dropped) = false := by
      refine Bool.eq_false_iff.mpr fun out => active ?_
      obtain ⟨player, mem, is⟩ := any_eq_true.mp out
      simp only [Bool.and_eq_true, decide_eq_true_eq] at is
      exact mem_droppedKeys.mpr ⟨player, mem, is.2, is.1⟩
    cases games : event.matchType with
    | bo1 =>
      refine ⟨.decisive winner ∅, ?_, nofun⟩
      simp [validateMatchResult, seated, here]
    | bo3 =>
      rw [players] at seated
      rcases mem_pair.mp seated with rfl | rfl
      · refine ⟨.decisive winner (sweepOf winner b), ?_, nofun⟩
        simp only [validateMatchResult, known, here, Bool.not_true, Bool.false_eq_true, if_false]
        exact validateBo3_sweep players apart (.inl ⟨rfl, rfl⟩)
      · refine ⟨.decisive winner (sweepOf winner a), ?_, nofun⟩
        simp only [validateMatchResult, known, here, Bool.not_true, Bool.false_eq_true, if_false]
        exact validateBo3_sweep players apart.symm (.inr ⟨rfl, rfl⟩)

theorem Sound.findIdx_id (sound : Sound event) {i : Nat} {p : TournamentPairing}
    (there : event.pairings[i]? = some p) :
    event.pairings.findIdx? (fun q => q.id = p.id) = some i := by
  obtain ⟨inside, is⟩ := List.getElem?_eq_some_iff.mp there
  refine findIdx?_eq_some_iff_getElem.mpr ⟨inside, by simp [is], fun j earlier same => ?_⟩
  have below : j < event.pairings.length := earlier.trans inside
  have sorted := pairwise_iff_getElem.mp sound.ids j i (by simpa using below)
    (by simpa using inside) earlier
  simp only [getElem_map, is] at sorted
  simp only [decide_eq_true_eq] at same
  omega

/-- The result is written by the server when it hosts the match, and by a player when not. -/
theorem report_accepted {manager : TournamentManager} (found : manager.tournaments code = some event)
    (sound : Sound event) (running : event.status = .inProgress) {i : Nat} {p : TournamentPairing}
    (there : event.pairings[i]? = some p) (pending : p.outcome = none) {outcome : PodOutcome}
    (legal : validateMatchResult p event.players event.matchType outcome = .ok ())
    (advances : ¬(event.bracket = .singleElimination ∧ outcome = .draw)) :
    ∃ authority, manager.apply compareTiebreaks (.report authority code p.id outcome) env =
      (.ok (), manager.put code (some { event.settle i (.reported outcome) with
        lastActivityAt := env.now })) := by
  have written (authority : ReportAuthority) (admitted : event.admitReport p authority = .ok ()) :
      manager.withMeta code (·.reportResultWithAuthority p.id outcome authority env) =
        (.ok (), manager.put code (some { event.settle i (.reported outcome) with
          lastActivityAt := env.now })) := by
    unfold TournamentManager.withMeta reportResultWithAuthority
    simp [found, sound.findIdx_id there, there, admitted, legal, advances]
  have gate : event.reportGate p =
      if (event.hosted.lookup p.id).isSome then .hosted else .open_ := by
    simp [reportGate, running, pending, TournamentStatus.isTerminal]
  by_cases hosted : (event.hosted.lookup p.id).isSome
  · rw [if_pos hosted] at gate
    exact ⟨.system, written .system (by simp [admitReport, gate])⟩
  · rw [if_neg hosted] at gate
    exact ⟨.seatedPlayer, written .seatedPlayer (by simp [admitReport, gate])⟩

/-- A report or a drop of this tournament that succeeds. -/
def Resolving (compareTiebreaks : CompareTiebreaks) (code : String) (manager : TournamentManager)
    (call : TournamentCall) (env : BrokerEnv) : Prop :=
  ((∃ authority pairingId outcome, call = .report authority code pairingId outcome) ∨
    ∃ playerKey, call = .dropPlayer code playerKey) ∧
  (manager.apply compareTiebreaks call env).1 = .ok ()

/-- Reports and drops can resolve the current round, and the tournament can then be completed. -/
def Resolvable (compareTiebreaks : CompareTiebreaks) (code : String)
    (manager : TournamentManager) : Prop :=
  ∃ later event, Runs compareTiebreaks (Resolving compareTiebreaks code) manager later ∧
    later.tournaments code = some event ∧
    (∀ p ∈ event.pairings, p.round = event.currentRound → p.outcome ≠ none) ∧
    ∀ env, (later.apply compareTiebreaks (.completeTournament code) env).1 = .ok ()

def pendingCount (event : TournamentMeta) : Nat :=
  (event.pairings.map fun p => if p.outcome.isNone then 1 else 0).sum

theorem pendingCount_settle {i : Nat} {p : TournamentPairing} (there : event.pairings[i]? = some p)
    (pending : p.outcome = none) (outcome : PairingOutcome) :
    pendingCount (event.settle i outcome) + 1 = pendingCount event := by
  obtain ⟨inside, rfl⟩ := List.getElem?_eq_some_iff.mp there
  have moved := sum_map_modify (fun p : TournamentPairing => if p.outcome.isNone then 1 else 0)
    (fun p => { p with outcome := some outcome }) inside
  simpa [pendingCount, settle, pending] using moved

theorem pendingCount_eq_zero (none_ : pendingCount event = 0) :
    event.firstUnresolvedPairing = none := by
  refine find?_eq_none.mpr fun p mem pending => ?_
  have zero := List.sum_eq_zero_iff_forall_eq_nat.mp none_ _ (List.mem_map_of_mem mem)
  rw [if_pos pending] at zero
  cases zero

/-- A report leaves the event as free as it was. -/
theorem Change.reported_free {authority : ReportAuthority} {pairingId : Nat} {outcome : PodOutcome}
    (change : Change compareTiebreaks code event (.report authority code pairingId outcome) env
      event') (dropped : event'.droppedKeys = event.droppedKeys) (free : ¬Stuck event) :
    ¬Stuck event' := by
  rintro ⟨bracket, q, mem, current, pending, gone⟩
  rcases change.mem mem with ⟨p, was, outcome, rfl, written⟩ | ⟨generated, isCall, -⟩
  · rcases written with same | written
    · have waits := same.symm.trans pending
      rw [change.bracket] at bracket
      rw [dropped] at gone
      exact free ⟨bracket, p, was, current.trans (change.waits was waits), waits, gone⟩
    · cases pending
      cases written
  · cases authority <;> cases isCall

theorem Runs.trans {allowed : TournamentManager → TournamentCall → BrokerEnv → Prop}
    {start middle last : TournamentManager} (first : Runs compareTiebreaks allowed start middle)
    (second : Runs compareTiebreaks allowed middle last) :
    Runs compareTiebreaks allowed start last := by
  induction second with
  | start => exact first
  | call _ call env meets ih => exact ih.call call env meets

/-- One pending pairing after the other is reported. -/
theorem resolvable_of_free (reached : Reached compareTiebreaks manager)
    (found : manager.tournaments code = some event) (running : event.status = .inProgress)
    (free : ¬Stuck event) : Resolvable compareTiebreaks code manager := by
  induction count : pendingCount event generalizing manager event with
  | zero =>
    have resolved := pendingCount_eq_zero count
    refine ⟨manager, event, .start, found, fun p mem _ pending => ?_, fun env => ?_⟩
    · have settled := find?_eq_none.mp resolved p mem
      rw [pending] at settled
      exact settled rfl
    change (manager.withMeta code (·.complete env)).1 = .ok ()
    unfold TournamentManager.withMeta complete
    simp [found, resolved, endTournament_mem.mpr running]
  | succ n ih =>
    have some_ : ∃ p ∈ event.pairings, p.outcome = none := by
      by_contra none_
      push Not at none_
      have zero : pendingCount event = 0 := sum_eq_zero fun x mem => by
        obtain ⟨p, was, rfl⟩ := mem_map.mp mem
        exact if_neg (by simpa using none_ p was)
      omega
    obtain ⟨p, mem, pending⟩ := some_
    obtain ⟨i, there⟩ := mem_iff_getElem?.mp mem
    have sound := reached.sound found
    obtain ⟨outcome, legal, advances⟩ := exists_result mem
      (reached.pending_current found p mem pending) pending free (reached.elimination found)
    have env : BrokerEnv := { nowMs := 0, newToken := "" }
    obtain ⟨authority, done⟩ := @report_accepted compareTiebreaks code event env manager found sound
      running i p there pending outcome legal advances
    have meets : Resolving compareTiebreaks code manager (.report authority code p.id outcome) env :=
      ⟨.inl ⟨authority, p.id, outcome, rfl⟩, by rw [done]⟩
    have found' : (manager.apply compareTiebreaks (.report authority code p.id outcome)
        env).2.tournaments code = some { event.settle i (.reported outcome) with
          lastActivityAt := env.now } := by
      rw [done]
      exact put_self ..
    have isTarget : (TournamentCall.report authority code p.id outcome).target = some code := by
      cases authority <;> rfl
    obtain ⟨_, _, isFound, isFound', change⟩ := apply_accepted isTarget meets.2
    cases found.symm.trans isFound
    cases found'.symm.trans isFound'
    have fewer := pendingCount_settle there pending (.reported outcome)
    obtain ⟨later, last, run, rest⟩ := ih (reached.call _ env trivial) found' running
      (change.reported_free rfl free) (by change pendingCount (event.settle i _) = n; omega)
    exact ⟨later, last, (Runs.start.call _ env meets).trans run, rest⟩

/-- No call unsticks an event. -/
theorem stuck_of_resolving {later : TournamentManager}
    (run : Runs compareTiebreaks (Resolving compareTiebreaks code) manager later)
    (found : manager.tournaments code = some event) (stuck : Stuck event) :
    ∃ event', later.tournaments code = some event' ∧ Stuck event' := by
  induction run with
  | start => exact ⟨event, found, stuck⟩
  | call run call env meets ih =>
    obtain ⟨middle, isMiddle, stuck⟩ := ih
    obtain ⟨isCall, accepted⟩ := meets
    have isTarget : call.target = some code := by
      rcases isCall with ⟨authority, _, _, rfl⟩ | ⟨_, rfl⟩
      · cases authority <;> rfl
      · rfl
    obtain ⟨_, event', isFound, found', change⟩ := apply_accepted isTarget accepted
    cases isMiddle.symm.trans isFound
    exact ⟨event', found', change.stuck stuck⟩

theorem Stuck.not_resolvable (found : manager.tournaments code = some event) (stuck : Stuck event) :
    ¬Resolvable compareTiebreaks code manager := by
  rintro ⟨later, last, run, found', resolved, -⟩
  obtain ⟨_, isFound, _, p, mem, current, pending, -⟩ := stuck_of_resolving run found stuck
  cases found'.symm.trans isFound
  exact resolved p mem current pending

theorem Change.new_drop (change : Change compareTiebreaks code event call env event') {key : String}
    (isDropped : key ∈ event'.droppedKeys) :
    key ∈ event.droppedKeys ∨ call = .dropPlayer code key := by
  obtain ⟨player, mem, out, isKey⟩ := mem_droppedKeys.mp isDropped
  have old (mem : player ∈ event.players) : key ∈ event.droppedKeys :=
    mem_droppedKeys.mpr ⟨player, mem, out, isKey⟩
  cases change with
  | paired _ _ _ _ _ after | reported _ _ _ _ _ _ after | hosted _ _ _ _ _ after
  | completed _ _ _ after | abandoned _ _ after =>
    subst after
    exact .inl (old mem)
  | joined _ _ _ after =>
    subst after
    rcases mem_append.mp mem with was | new
    · exact .inl (old was)
    · cases mem_singleton.mp new
      cases out
  | @dropped playerKey index dropping isCall _ found isDropping after =>
    subst after
    obtain ⟨j, there⟩ := mem_iff_getElem?.mp mem
    change (event.players.modify index _)[j]? = some player at there
    by_cases here : index = j
    · subst here
      rw [getElem?_modify_eq, found] at there
      cases there
      exact .inr (isCall.trans (congrArg _ (isDropping.symm.trans isKey)))
    · rw [getElem?_modify] at there
      simp only [if_neg here, id_map'] at there
      exact .inl (old (mem_of_getElem? there))

/-- Whoever waits for a result of a bracket match is still in the event. -/
def WaitingActive (event : TournamentMeta) : Prop :=
  event.bracket = .singleElimination → ∀ p ∈ event.pairings, p.outcome = none →
    ∀ key ∈ p.players, key ∉ event.droppedKeys

/-- When one of two players drops, the other wins. -/
theorem forfeitFor_resolves {p : TournamentPairing} {playerKey a b : String} {dropped : List String}
    (players : p.players = [a, b]) (seated : playerKey ∈ p.players) (out : playerKey ∈ dropped)
    (stay : ∀ key ∈ p.players, key ≠ playerKey → key ∉ dropped) (apart : a ≠ b) :
    (forfeitFor playerKey dropped p).outcome ≠ none := by
  intro pending
  unfold forfeitFor at pending
  rw [players] at pending seated stay
  have one : ∃ survivor, [a, b].filter (fun key => !dropped.contains key) = [survivor] := by
    rcases mem_pair.mp seated with rfl | rfl
    · simp [out, stay b (by simp) apart.symm]
    · simp [out, stay a (by simp) apart]
  obtain ⟨survivor, isOne⟩ := one
  have seats : p.seats playerKey = true :=
    any_eq_true.mpr ⟨playerKey, players ▸ seated, decide_eq_true rfl⟩
  split at pending
  · next settled => simp [pending, seats] at settled
  · rw [isOne] at pending
    cases pending

/-- The match of a player who drops does not stay open. -/
theorem Change.drop_resolves {playerKey : String}
    (change : Change compareTiebreaks code event (.dropPlayer code playerKey) env event')
    (bracket : event.bracket = .singleElimination) (elimination : Elimination event)
    (active : WaitingActive event) (mem : q ∈ event'.pairings) (pending : q.outcome = none) :
    playerKey ∉ q.players := by
  intro seated
  have out := change.drops
  have newly := fun key (isOut : key ∈ event'.droppedKeys) => change.new_drop isOut
  cases change with
  | joined isCall | paired isCall | hosted isCall | completed isCall | abandoned isCall =>
    cases isCall
  | @reported authority _ _ _ _ isCall => cases authority <;> cases isCall
  | @dropped _ index player isCall _ _ _ after =>
    cases isCall
    subst after
    obtain ⟨p, was, rfl⟩ := mem_map.mp mem
    have players : (forfeitFor playerKey (event.markDropped index).droppedKeys
        p).players = p.players := by
      unfold forfeitFor
      split
      · rfl
      · split <;> rfl
    have waits : p.outcome = none := by
      unfold forfeitFor at pending
      split at pending
      · exact pending
      · split at pending
        · cases pending
        · exact pending
    obtain ⟨a, b, pair, apart⟩ := elimination.pair was waits
    refine forfeitFor_resolves pair (players ▸ seated) out (fun key there other isOut => ?_) apart
      pending
    rcases newly key isOut with before | isCall
    · exact active bracket p was waits key there before
    · cases isCall
      exact other rfl

theorem Change.waitingActive (sound : Sound event)
    (elimination : event.bracket = .singleElimination → Elimination event)
    (change : Change compareTiebreaks code event call env event')
    (meets : SeatsNoDropped event code call) (active : WaitingActive event) :
    WaitingActive event' := by
  intro bracket q mem pending key seated isDropped
  rw [change.bracket] at bracket
  rcases change.mem mem with ⟨p, was, outcome, rfl, written⟩ | ⟨generated, rfl, built, fresh, rfl⟩
  · rcases written with same | written
    · have waiting := active bracket p was (same.symm.trans pending)
      rcases change.new_drop isDropped with before | isCall
      · exact waiting key seated before
      · subst isCall
        exact change.drop_resolves bracket (elimination bracket) active mem pending seated
    · cases pending
      cases written
  · exact buildRound_active sound meets built fresh seated isDropped

/-- No bracket round was ever built from a winner who had dropped. -/
abbrev ReachedSeatingActive (compareTiebreaks : CompareTiebreaks) : TournamentManager → Prop :=
  Runs compareTiebreaks (fun manager call _ => ∀ code event,
    manager.tournaments code = some event → SeatsNoDropped event code call) .new

theorem Runs.waitingActive (run : ReachedSeatingActive compareTiebreaks manager)
    (found : manager.tournaments code = some event) : WaitingActive event := by
  induction run generalizing event with
  | start => cases found
  | @call manager run call env meets ih =>
    have reached := run.reached .start
    cases before : manager.tournaments code with
    | none =>
      obtain ⟨req, -, rfl⟩ := apply_new before found
      exact fun _ => nofun
    | some old =>
      rcases apply_event before found with rfl | ⟨-, change⟩
      · exact ih before
      · exact change.waitingActive (reached.sound before) (reached.elimination before)
          (meets code old before) (ih before)

theorem WaitingActive.free (active : WaitingActive event)
    (elimination : event.bracket = .singleElimination → Elimination event) : ¬Stuck event := by
  rintro ⟨bracket, p, mem, -, pending, gone⟩
  obtain ⟨a, b, players, -⟩ := (elimination bracket).pair mem pending
  have seated : a ∈ p.players := by
    rw [players]
    exact mem_cons_self
  exact active bracket p mem pending a seated (gone a seated)

/-- A started event can be played to its end exactly when no pairing of it is stuck, which is
so in every run that builds no bracket round from a winner who has dropped. -/
theorem started_event_resolvable {manager : TournamentManager}
    (reached : Reached compareTiebreaks manager) (found : manager.tournaments code = some event)
    (running : event.status = .inProgress) :
    (Resolvable compareTiebreaks code manager ↔ ¬Stuck event) ∧
      (ReachedSeatingActive compareTiebreaks manager →
        Resolvable compareTiebreaks code manager) := by
  have enough := resolvable_of_free reached found running
  refine ⟨⟨fun resolvable stuck => Stuck.not_resolvable found stuck resolvable, enough⟩, fun run => ?_⟩
  exact enough ((Runs.waitingActive run found).free (reached.elimination found))

end

/-- The four players of a bracket can play it to its end. -/
theorem semifinals_resolvable : ∃ event, (afterCalls semifinals).tournaments "E" = some event ∧
    event.status = .inProgress ∧ Resolvable noTiebreaks "E" (afterCalls semifinals) := by
  have there : ((afterCalls semifinals).tournaments "E").map (fun event =>
      (event.status, event.droppedKeys, event.pairings.all fun p => !p.players.isEmpty)) =
        some (.inProgress, [], true) := by decide +kernel
  obtain ⟨event, found, isEvent⟩ := Option.map_eq_some_iff.mp there
  obtain ⟨running, nobody, seated⟩ : event.status = .inProgress ∧ event.droppedKeys = [] ∧
      (event.pairings.all fun p => !p.players.isEmpty) = true := by simpa using isEvent
  refine ⟨event, found, running, ?_⟩
  refine (started_event_resolvable (afterCalls_reached _) found running).1.mpr ?_
  rintro ⟨-, p, mem, -, -, gone⟩
  cases players : p.players with
  | nil => simpa [players] using all_eq_true.mp seated p mem
  | cons key keys =>
    have impossible := gone key (by simp [players])
    rw [nobody] at impossible
    cases impossible

/-- Both finalists drop before the final is paired. -/
def emptyFinal : TournamentManager :=
  afterCall (afterCall (afterCall semifinalsWon (.dropPlayer "E" "a")) (.dropPlayer "E" "b"))
    (.generatePairings "E")

/-- Nothing can be reported of that final, and the event never ends. -/
theorem empty_final_deadlocks : Reached noTiebreaks emptyFinal ∧
    (emptyFinal.tournaments "E").map (·.status) = some .inProgress ∧
    ¬Resolvable noTiebreaks "E" emptyFinal := by
  have reached : Reached noTiebreaks emptyFinal :=
    ((semifinalsWon_reached.call _ _ trivial).call _ _ trivial).call _ _ trivial
  have there : (emptyFinal.tournaments "E").map (fun event =>
      (event.status, event.bracket, event.currentRound, event.droppedKeys)) =
        some (.inProgress, .singleElimination, 2, ["a", "b"]) := by decide +kernel
  have final : ((emptyFinal.tournaments "E").bind (·.pairings[2]?)).map (fun p =>
      (p.round, p.outcome.isNone, p.players)) = some (2, true, ["a", "b"]) := by decide +kernel
  obtain ⟨event, found, isEvent⟩ := Option.map_eq_some_iff.mp there
  simp only [Prod.mk.injEq] at isEvent
  obtain ⟨running, bracket, round, out⟩ := isEvent
  rw [found, Option.bind_some] at final
  obtain ⟨p, isFinal, isPairing⟩ := Option.map_eq_some_iff.mp final
  simp only [Prod.mk.injEq] at isPairing
  obtain ⟨isRound, pending, players⟩ := isPairing
  have stuck : Stuck event := by
    refine ⟨bracket, p, mem_of_getElem? isFinal, isRound.trans round.symm,
      Option.isNone_iff_eq_none.mp pending, fun key seated => ?_⟩
    rw [out, ← players]
    exact seated
  exact ⟨reached, by rw [found, Option.map_some, running], Stuck.not_resolvable found stuck⟩

end Phase.Tournament
