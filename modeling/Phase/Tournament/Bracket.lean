import Phase.Tournament.Dropped

/-! The levels of a single-elimination bracket follow from each other, as long as no correction
changes a winner that the next level was built from. -/
namespace Phase.Tournament
open List

namespace TournamentMeta

/-- The pairings of one round, in bracket order. -/
def level (event : TournamentMeta) (round : Nat) : List TournamentPairing :=
  event.pairings.filter (·.round = round)

end TournamentMeta

def PodOutcome.winner : PodOutcome → Option String
  | .decisive winner _ => some winner
  | .draw => none

/-- Round `r + 1` seats the winners of round `r`, two by two. -/
def Coherent (event : TournamentMeta) : Prop :=
  ∀ r, 1 ≤ r → r < event.currentRound → ∃ winners,
    (event.level r).map (·.winner) = winners.map some ∧
      (event.level (r + 1)).map (·.players) = chunksOfTwo winners

theorem filter_map_congr {β : Type*} {f : TournamentPairing → β} {round : Nat}
    {a b : List TournamentPairing} (length : b.length = a.length)
    (each : ∀ (i : Nat) p q, a[i]? = some p → b[i]? = some q →
      q.round = p.round ∧ (p.round = round → f q = f p)) :
    (b.filter (·.round = round)).map f = (a.filter (·.round = round)).map f := by
  induction a generalizing b with
  | nil =>
    cases length_eq_zero_iff.mp length
    rfl
  | cons p a ih =>
    cases b with
    | nil => cases length
    | cons q b =>
      have rest := ih (by simpa using length) fun i => each (i + 1)
      obtain ⟨sameRound, same⟩ := each 0 p q rfl rfl
      rw [filter_cons, filter_cons, sameRound]
      split
      · next here => rw [map_cons, map_cons, rest, same (by simpa using here)]
      · exact rest

/-- A correction of a round that the next one was built from leaves its winner. -/
def KeepsWinners (event : TournamentMeta) (code : String) (call : TournamentCall) : Prop :=
  ∀ authority pairingId outcome, call = .report authority code pairingId outcome →
    event.bracket = .singleElimination → ∀ p ∈ event.pairings, p.id = pairingId →
      p.round < event.currentRound → p.winner = outcome.winner

section
variable {compareTiebreaks : CompareTiebreaks} {code : String} {event event' : TournamentMeta}
  {call : TournamentCall} {env : BrokerEnv}

variable {generated : List TournamentPairing}

theorem paired_level_old (fresh : Fresh (event.currentRound + 1) event.firstId generated) {r : Nat}
    (before : r ≤ event.currentRound) : (event.paired generated env).level r = event.level r := by
  have none_ : generated.filter (·.round = r) = [] := by
    refine filter_eq_nil_iff.mpr fun p mem isRound => ?_
    have := fresh.rounds p mem
    simp only [decide_eq_true_eq] at isRound
    omega
  change (event.pairings ++ generated).filter _ = _
  rw [filter_append, none_, append_nil]
  rfl

theorem paired_level_new (sound : Sound event)
    (fresh : Fresh (event.currentRound + 1) event.firstId generated) :
    (event.paired generated env).level (event.currentRound + 1) = generated := by
  have none_ : event.pairings.filter (·.round = event.currentRound + 1) = [] := by
    refine filter_eq_nil_iff.mpr fun p mem isRound => ?_
    have := sound.rounds p mem
    simp only [decide_eq_true_eq] at isRound
    omega
  change (event.pairings ++ generated).filter _ = _
  rw [filter_append, none_]
  exact filter_eq_self.mpr fun p mem => by simpa using fresh.rounds p mem

/-- Before the current round nothing is pending, so a drop changes no winner there. -/
theorem Change.winners_stay (change : Change compareTiebreaks code event call env event')
    (elimination : event.bracket = .singleElimination) (coherent : Coherent event)
    (sound : Sound event) (meets : KeepsWinners event code call) {i : Nat}
    {p q : TournamentPairing} (there : event.pairings[i]? = some p)
    (there' : event'.pairings[i]? = some q) (consumed : p.round < event.currentRound) :
    q.winner = p.winner := by
  obtain ⟨outcome, isThere, written⟩ := change.pairing there
  cases there'.symm.trans isThere
  have mem := mem_of_getElem? there
  rcases written with same | written
  · rw [show outcome = p.outcome from same]
  · cases written with
    | @report authority result isCall admitted legal advances =>
      rw [meets authority p.id result isCall elimination p mem rfl consumed]
      cases result <;> rfl
    | @forfeit playerKey survivor isCall pending seated last =>
      obtain ⟨winners, level, -⟩ := coherent p.round (sound.rounds p mem).1 consumed
      have wins : p.winner ∈ (event.level p.round).map (·.winner) :=
        mem_map_of_mem (mem_filter.mpr ⟨mem, by simp⟩)
      rw [level, TournamentPairing.winner, pending] at wins
      obtain ⟨_, -, impossible⟩ := mem_map.mp wins
      cases impossible

theorem Change.coherent (change : Change compareTiebreaks code event call env event')
    (elimination : event.bracket = .singleElimination) (coherent : Coherent event)
    (sound : Sound event) (meets : KeepsWinners event code call) : Coherent event' := by
  rcases change.grows with ⟨length, round⟩ | ⟨generated, -, -, -, built, rfl⟩
  · intro r first before
    rw [round] at before
    obtain ⟨winners, level, players⟩ := coherent r first before
    have pairings {i : Nat} {p q : TournamentPairing} (there : event.pairings[i]? = some p)
        (there' : event'.pairings[i]? = some q) : q.round = p.round ∧ q.players = p.players := by
      obtain ⟨outcome, isThere, -⟩ := change.pairing there
      cases there'.symm.trans isThere
      exact ⟨rfl, rfl⟩
    refine ⟨winners, ?_, ?_⟩
    · rw [← level]
      refine filter_map_congr length fun i p q there there' => ⟨(pairings there there').1, ?_⟩
      intro isRound
      exact change.winners_stay elimination coherent sound meets there there' (isRound ▸ before)
    · rw [← players]
      exact filter_map_congr length fun i p q there there' =>
        ⟨(pairings there there').1, fun _ => (pairings there there').2⟩
  · have fresh := buildRound_fresh built
    intro r first before
    rcases Nat.lt_succ_iff_lt_or_eq.mp before with before | rfl
    · rw [paired_level_old fresh (Nat.le_of_lt before), paired_level_old fresh before]
      exact coherent r first before
    · rw [paired_level_old fresh (Nat.le_refl _), paired_level_new sound fresh]
      unfold TournamentMeta.buildRound at built
      rw [elimination] at built
      obtain ⟨pods, rfl, -, ⟨only, -⟩ | ⟨-, winners, rfl, level⟩⟩ :=
        buildSingleEliminationRound_ok built
      · omega
      · exact ⟨winners, level, numbered_players ..⟩

/-- Calls none of which changes a winner that a round was built from. -/
abbrev ReachedKeepingWinners (compareTiebreaks : CompareTiebreaks) : TournamentManager → Prop :=
  Runs compareTiebreaks (fun manager call _ => ∀ code event,
    manager.tournaments code = some event → KeepsWinners event code call) .new

theorem ReachedKeepingWinners.coherent {manager : TournamentManager}
    (run : ReachedKeepingWinners compareTiebreaks manager)
    (found : manager.tournaments code = some event)
    (elimination : event.bracket = .singleElimination) : Coherent event := by
  induction run generalizing event with
  | start => cases found
  | @call manager run call env meets ih =>
    cases before : manager.tournaments code with
    | none =>
      obtain ⟨req, -, rfl⟩ := apply_new before found
      intro r _ impossible
      cases impossible
    | some old =>
      rcases apply_event before found with rfl | ⟨-, change⟩
      · exact ih before elimination
      · have sound := (run.reached .start).sound before
        rw [change.bracket] at elimination
        exact change.coherent elimination (ih before elimination) sound (meets code old before)

theorem chunksOfTwo_getElem (keys : List String) (k : Nat) {pod : List String}
    (there : (chunksOfTwo keys)[k]? = some pod) : pod = (keys.drop (2 * k)).take 2 := by
  induction keys using chunksOfTwo.induct generalizing k with
  | case1 => cases there
  | case2 a =>
    cases k with
    | zero =>
      cases there
      rfl
    | succ k => cases there
  | case3 a b rest ih =>
    cases k with
    | zero =>
      cases there
      rfl
    | succ k => exact ih k there

theorem length_chunksOfTwo_eq (keys : List String) :
    (chunksOfTwo keys).length = (keys.length + 1) / 2 := by
  induction keys using chunksOfTwo.induct with
  | case1 => rfl
  | case2 a => simp [chunksOfTwo]
  | case3 a b rest ih =>
    rw [chunksOfTwo, length_cons, length_cons, length_cons]
    omega

/-- In a run whose corrections leave the winners that a round was built from, the pairings of
every round seat the recorded winners of the adjacent pairings of the round before. -/
theorem bracket_coherent {manager : TournamentManager}
    (run : ReachedKeepingWinners compareTiebreaks manager)
    (found : manager.tournaments code = some event)
    (elimination : event.bracket = .singleElimination) {r : Nat} (first : 1 ≤ r)
    (built : r + 1 ≤ event.currentRound) :
    (event.level (r + 1)).length = ((event.level r).length + 1) / 2 ∧
      ∀ (k : Nat) p, (event.level (r + 1))[k]? = some p →
        p.players.map some = (((event.level r).drop (2 * k)).take 2).map (·.winner) := by
  obtain ⟨winners, level, players⟩ :=
    ReachedKeepingWinners.coherent run found elimination r first built
  have lengths := congrArg length level
  have lengths' := congrArg length players
  rw [length_map, length_map] at lengths
  rw [length_map, length_chunksOfTwo_eq] at lengths'
  refine ⟨by rw [lengths', lengths], fun k p there => ?_⟩
  have pod : (chunksOfTwo winners)[k]? = some p.players := by
    rw [← players, getElem?_map, there]
    rfl
  rw [chunksOfTwo_getElem winners k pod, map_take, map_drop, ← level, map_take, map_drop]

end

/-- The final of the bracket is paired. -/
def finalPaired : TournamentManager := afterCall semifinalsWon (.generatePairings "E")

def TournamentCall.isReport : TournamentCall → Bool
  | .reportResult _ _ _ | .reportResultSystem _ _ _ => true
  | _ => false

theorem keepsWinners_of_not_report {event : TournamentMeta} {code : String}
    {call : TournamentCall} (other : call.isReport = false) : KeepsWinners event code call := by
  intro authority pairingId outcome isCall
  rw [isCall] at other
  cases authority <;> cases other

variable {manager : TournamentManager}

theorem ReachedKeepingWinners.quietly (run : ReachedKeepingWinners noTiebreaks manager)
    {calls : List TournamentCall} (quiet : ∀ call ∈ calls, call.isReport = false) :
    ReachedKeepingWinners noTiebreaks (calls.foldl afterCall manager) := by
  induction calls generalizing manager with
  | nil => exact run
  | cons call calls ih =>
    refine ih (run.call call anyTime fun _ _ _ => ?_) fun other mem =>
      quiet other (mem_cons_of_mem _ mem)
    exact keepsWinners_of_not_report (quiet call mem_cons_self)

theorem first_round_report_meets (reached : Reached noTiebreaks manager)
    (early : (manager.tournaments "E").map (·.currentRound) = some 1) (pairingId : Nat)
    (outcome : PodOutcome) (code : String) (event : TournamentMeta)
    (found : manager.tournaments code = some event) :
    KeepsWinners event code (.reportResult "E" pairingId outcome) := by
  intro authority _ _ isCall _ p mem _ consumed
  have same : code = "E" := by
    cases authority with
    | seatedPlayer =>
      cases isCall
      rfl
    | system => cases isCall
  subst same
  rw [found, Option.map_some, Option.some.injEq] at early
  have started := ((reached.sound found).rounds p mem).1
  omega

/-- The final seats the winners of the semi-finals. -/
theorem final_seats_winners : ∃ event, finalPaired.tournaments "E" = some event ∧
    (event.level 2).length = ((event.level 1).length + 1) / 2 ∧
      ∀ (k : Nat) p, (event.level 2)[k]? = some p →
        p.players.map some = (((event.level 1).drop (2 * k)).take 2).map (·.winner) := by
  have there : (finalPaired.tournaments "E").map (fun event =>
      (event.bracket, event.currentRound)) = some (.singleElimination, 2) := by decide +kernel
  obtain ⟨event, found, isEvent⟩ := Option.map_eq_some_iff.mp there
  obtain ⟨elimination, round⟩ := Prod.mk.inj isEvent
  have quiet : ∀ call ∈ semifinals, call.isReport = false := by decide
  have started : ReachedKeepingWinners noTiebreaks (afterCalls semifinals) :=
    ReachedKeepingWinners.quietly .start quiet
  have reached := afterCalls_reached semifinals
  have one := started.call (.reportResult "E" 0 (.decisive "a" ∅)) anyTime
    (first_round_report_meets reached (by decide +kernel) 0 _)
  have two := one.call (.reportResult "E" 1 (.decisive "b" ∅)) anyTime
    (first_round_report_meets (reached.call _ _ trivial) (by decide +kernel) 1 _)
  have run : ReachedKeepingWinners noTiebreaks finalPaired :=
    two.call (.generatePairings "E") anyTime fun _ _ _ => keepsWinners_of_not_report rfl
  exact ⟨event, found, bracket_coherent run found elimination (by decide) (by omega)⟩

/-- The first semi-final is corrected after the final was paired from it. -/
theorem corrected_semifinal_breaks_bracket :
    Reached noTiebreaks finalPaired ∧
    (finalPaired.apply noTiebreaks (.reportResult "E" 0 (.decisive "d" ∅)) anyTime).1 = .ok () ∧
    ((afterCall finalPaired (.reportResult "E" 0 (.decisive "d" ∅))).tournaments "E").map (fun event =>
      (event.bracket, event.currentRound, (event.level 1).map (·.winner),
        (event.level 2).map (·.players))) =
      some (.singleElimination, 2, [some "d", some "b"], [["a", "b"]]) :=
  ⟨semifinalsWon_reached.call _ _ trivial, by decide +kernel, by decide +kernel⟩

end Phase.Tournament
