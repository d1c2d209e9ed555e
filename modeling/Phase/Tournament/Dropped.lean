import Phase.Tournament.Lifecycle

/-! A player who has dropped is not paired again and wins nothing more, as long as no bracket
round is built from a winner who has dropped. -/
namespace Phase.Tournament
open List

theorem decisive_legal {pairing : TournamentPairing} {event : TournamentMeta} {winner : String}
    {gameWins : AList fun _ : String => Nat}
    (legal : validateMatchResult pairing event.players event.matchType (.decisive winner gameWins) =
      .ok ()) : winner ∈ pairing.players ∧ winner ∉ event.droppedKeys := by
  unfold validateMatchResult at legal
  dsimp only at legal
  split at legal
  · cases legal
  · next seated =>
    split at legal
    · cases legal
    · next active =>
      refine ⟨by simpa using seated, fun isDropped => active ?_⟩
      obtain ⟨player, mem, out, isKey⟩ := mem_droppedKeys.mp isDropped
      exact any_eq_true.mpr ⟨player, mem, by simp [out, isKey]⟩

section
variable {code : String} {event : TournamentMeta} {call : TournamentCall} {dropped : List String}
  {pairing : TournamentPairing} {outcome : Option PairingOutcome}

/-- A written outcome credits a player of the pairing who has not dropped. -/
theorem Written.winner_active (written : Written code event call dropped pairing outcome)
    (stays : ∀ key ∈ event.droppedKeys, key ∈ dropped) {key : String}
    (wins : ({ pairing with outcome } : TournamentPairing).winner = some key) :
    key ∈ pairing.players ∧ key ∉ event.droppedKeys := by
  cases written with
  | @report authority result isCall admitted legal advances =>
    cases result with
    | draw => cases wins
    | decisive winner gameWins =>
      cases wins
      exact decisive_legal legal
  | @forfeit playerKey survivor isCall pending seated last =>
    cases wins
    have left : key ∈ pairing.players.filter fun key => !dropped.contains key := by
      rw [last]
      exact mem_singleton_self _
    obtain ⟨mem, active⟩ := mem_filter.mp left
    exact ⟨mem, fun isDropped => by simp [stays key isDropped] at active⟩

end

/-- No pairing after `event` seats the player, and no outcome written since credits them. -/
structure StaysOut (playerKey : String) (event event' : TournamentMeta) : Prop where
  old : ∀ (i : Nat) p, event.pairings[i]? = some p → ∃ outcome,
    event'.pairings[i]? = some { p with outcome } ∧
      (outcome = p.outcome ∨
        ({ p with outcome } : TournamentPairing).winner ≠ some playerKey)
  new : ∀ (i : Nat) p, event.pairings[i]? = none → event'.pairings[i]? = some p →
    playerKey ∉ p.players ∧ p.winner ≠ some playerKey

theorem StaysOut.refl (playerKey : String) (event : TournamentMeta) :
    StaysOut playerKey event event where
  old _ p there := ⟨p.outcome, there, .inl rfl⟩
  new i p absent there := by
    rw [absent] at there
    cases there

theorem StaysOut.trans {playerKey : String} {a b c : TournamentMeta}
    (first : StaysOut playerKey a b) (second : StaysOut playerKey b c) :
    StaysOut playerKey a c where
  old i p there := by
    obtain ⟨middle, there', credits⟩ := first.old i p there
    obtain ⟨last, there'', credits'⟩ := second.old i _ there'
    refine ⟨last, there'', ?_⟩
    rcases credits' with same | other
    · rw [show last = middle from same]
      exact credits
    · exact .inr other
  new i p absent there := by
    cases middle : b.pairings[i]? with
    | none => exact second.new i p middle there
    | some q =>
      obtain ⟨unseated, uncredited⟩ := first.new i q absent middle
      obtain ⟨last, there', credits⟩ := second.old i q middle
      cases there.symm.trans there'
      refine ⟨unseated, ?_⟩
      rcases credits with same | other
      · rw [show last = q.outcome from same]
        exact uncredited
      · exact other

/-- A bracket round is only built when no winner it is built from has dropped. -/
def SeatsNoDropped (event : TournamentMeta) (code : String) (call : TournamentCall) : Prop :=
  call = .generatePairings code → event.bracket = .singleElimination → 0 < event.currentRound →
    ∀ p ∈ event.pairings, p.round = event.currentRound → ∀ winner, p.winner = some winner →
      winner ∉ event.droppedKeys

section
variable {compareTiebreaks : CompareTiebreaks} {code : String} {event event' : TournamentMeta}
  {call : TournamentCall} {env : BrokerEnv}

theorem active_not_dropped (distinct : (event.players.map (·.playerKey)).Nodup) {key : String}
    (active : key ∈ event.activePlayers.map (·.playerKey)) : key ∉ event.droppedKeys := by
  intro isDropped
  obtain ⟨player, mem, isKey⟩ := mem_map.mp active
  obtain ⟨other, mem', out, isKey'⟩ := mem_droppedKeys.mp isDropped
  obtain ⟨mem, stays⟩ := mem_filter.mp mem
  have same : player = other := inj_on_of_nodup_map distinct mem mem' (isKey.trans isKey'.symm)
  rw [same, out] at stays
  cases stays

/-- A new round seats players who have not dropped. -/
theorem buildRound_active (sound : Sound event) {generated : List TournamentPairing}
    (meets : SeatsNoDropped event code (.generatePairings code))
    (built : event.buildRound compareTiebreaks = .ok generated) {p : TournamentPairing}
    (mem : p ∈ generated) {key : String} (seated : key ∈ p.players) :
    key ∉ event.droppedKeys := by
  have fromOrder (inOrder : key ∈ event.standingsOrder compareTiebreaks) :
      key ∉ event.droppedKeys :=
    active_not_dropped sound.keys (standingsOrder_perm.mem_iff.mp inOrder)
  cases shape : event.bracket with
  | swiss =>
    have all := buildRound_swiss shape built
    have mem' : key ∈ generated.flatMap (·.players) := mem_flatMap.mpr ⟨p, mem, seated⟩
    exact active_not_dropped sound.keys (all.mem_iff.mp mem')
  | singleElimination =>
    unfold TournamentMeta.buildRound at built
    rw [shape] at built
    obtain ⟨pods, rfl, -, ⟨-, perm⟩ | ⟨later, winners, rfl, level⟩⟩ :=
      buildSingleEliminationRound_ok built
    · have mem' : key ∈ pods.flatten := mem_flatten.mpr ⟨_, (mem_numbered mem).2.1, seated⟩
      exact fromOrder (perm.mem_iff.mp mem')
    · have mem' : key ∈ (chunksOfTwo winners).flatten :=
        mem_flatten.mpr ⟨_, (mem_numbered mem).2.1, seated⟩
      rw [chunksOfTwo_flatten] at mem'
      have wins : some key ∈ winners.map some := mem_map_of_mem mem'
      rw [← level] at wins
      obtain ⟨q, inLevel, isWinner⟩ := mem_map.mp wins
      obtain ⟨mem, isRound⟩ := mem_filter.mp inLevel
      exact meets rfl shape (by omega) q mem (by simpa using isRound) key isWinner

variable {playerKey : String}

theorem Change.staysOut (sound : Sound event)
    (change : Change compareTiebreaks code event call env event')
    (meets : SeatsNoDropped event code call) (isDropped : playerKey ∈ event.droppedKeys) :
    StaysOut playerKey event event' where
  old i p there := by
    obtain ⟨outcome, there', written⟩ := change.pairing there
    refine ⟨outcome, there', written.imp id fun written credited => ?_⟩
    exact (written.winner_active (fun _ => change.dropped_stays) credited).2 isDropped
  new i p absent there := by
    have outside := getElem?_eq_none_iff.mp absent
    rcases change.grows with ⟨length, -⟩ | ⟨generated, isCall, -, -, built, rfl⟩
    · have inside := (List.getElem?_eq_some_iff.mp there).1
      omega
    · subst isCall
      change (event.pairings ++ generated)[i]? = some p at there
      rw [getElem?_append_right outside] at there
      have mem := mem_of_getElem? there
      have unseated : playerKey ∉ p.players := fun seated =>
        buildRound_active sound meets built mem seated isDropped
      refine ⟨unseated, fun wins => unseated ?_⟩
      rcases (buildRound_fresh built).outcomes p mem with pending | ⟨bye, key, alone⟩
      · rw [TournamentPairing.winner, pending] at wins
        cases wins
      · rw [TournamentPairing.winner, bye, alone] at wins
        cases wins
        rw [alone]
        exact mem_singleton_self _

/-- Calls on a tournament that is there, none of which builds a bracket round from a winner who
has dropped. -/
abbrev LivesWithoutDropped (compareTiebreaks : CompareTiebreaks) (code : String) :
    TournamentManager → TournamentManager → Prop :=
  Runs compareTiebreaks fun manager call _ =>
    ∃ event, manager.tournaments code = some event ∧ SeatsNoDropped event code call

theorem LivesWithoutDropped.staysOut {manager later : TournamentManager}
    (run : LivesWithoutDropped compareTiebreaks code manager later)
    (reached : Reached compareTiebreaks manager) (found : manager.tournaments code = some event)
    (isDropped : playerKey ∈ event.droppedKeys) (found' : later.tournaments code = some event') :
    playerKey ∈ event'.droppedKeys ∧ StaysOut playerKey event event' := by
  induction run generalizing event' with
  | start =>
    cases found.symm.trans found'
    exact ⟨isDropped, .refl _ _⟩
  | call run call env meets ih =>
    obtain ⟨middle, isMiddle, meets⟩ := meets
    obtain ⟨still, out⟩ := ih isMiddle
    rcases apply_event isMiddle found' with rfl | ⟨-, change⟩
    · exact ⟨still, out⟩
    · have sound := (run.reached reached).sound isMiddle
      exact ⟨change.dropped_stays still, out.trans (change.staysOut sound meets still)⟩

theorem Change.drops
    (change : Change compareTiebreaks code event (.dropPlayer code playerKey) env event') :
    playerKey ∈ event'.droppedKeys := by
  cases change with
  | joined isCall | paired isCall | hosted isCall | completed isCall | abandoned isCall =>
    cases isCall
  | @reported authority _ _ _ _ isCall => cases authority <;> cases isCall
  | @dropped _ index player isCall running found isKey after =>
    cases isCall
    subst after
    refine mem_droppedKeys.mpr ⟨{ player with dropped := true },
      mem_iff_getElem?.mpr ⟨index, ?_⟩, rfl, isKey⟩
    change (event.players.modify index _)[index]? = _
    rw [getElem?_modify_eq, found]
    rfl

/-- Whoever drops is in no pairing made later and is credited with no win written later, in every
run that builds no bracket round from a winner who has dropped. -/
theorem dropped_players_stay_out {manager later : TournamentManager} {playerKey : String}
    (reached : Reached compareTiebreaks manager)
    (accepted : (manager.apply compareTiebreaks (.dropPlayer code playerKey) env).1 = .ok ())
    (found : (manager.apply compareTiebreaks (.dropPlayer code playerKey) env).2.tournaments code =
      some event)
    (run : LivesWithoutDropped compareTiebreaks code
      (manager.apply compareTiebreaks (.dropPlayer code playerKey) env).2 later)
    (found' : later.tournaments code = some event') : StaysOut playerKey event event' := by
  obtain ⟨_, _, -, isFound, change⟩ := apply_accepted rfl accepted
  cases found.symm.trans isFound
  have after := reached.call (.dropPlayer code playerKey) env trivial
  exact (LivesWithoutDropped.staysOut run after found change.drops found').2

end

/-- A bracket of four, and its round 1. -/
def semifinals : List TournamentCall :=
  [.createTournament "E" { headToHeadEvent .singleElimination with matchType := some .bo1 },
    .joinTournament "E" "a" "A", .joinTournament "E" "b" "B", .joinTournament "E" "c" "C",
    .joinTournament "E" "d" "D", .generatePairings "E"]

def afterCall (manager : TournamentManager) (call : TournamentCall) : TournamentManager :=
  (manager.apply noTiebreaks call anyTime).2

/-- It was won by `a` and `b`. -/
def semifinalsWon : TournamentManager :=
  afterCall (afterCall (afterCalls semifinals) (.reportResult "E" 0 (.decisive "a" ∅)))
    (.reportResult "E" 1 (.decisive "b" ∅))

theorem semifinalsWon_reached : Reached noTiebreaks semifinalsWon :=
  ((afterCalls_reached _).call _ _ trivial).call _ _ trivial

/-- A finalist drops, and is then seated in the final. -/
theorem dropped_finalist_is_seated : Reached noTiebreaks semifinalsWon ∧
    (semifinalsWon.apply noTiebreaks (.dropPlayer "E" "a") anyTime).1 = .ok () ∧
    ((afterCall semifinalsWon (.dropPlayer "E" "a")).tournaments "E").map (fun event =>
      event.pairings.map (·.players)) = some [["a", "d"], ["b", "c"]] ∧
    ((afterCall (afterCall semifinalsWon (.dropPlayer "E" "a")) (.generatePairings "E")).tournaments "E").map
      (fun event => event.pairings.map (·.players)) = some [["a", "d"], ["b", "c"], ["a", "b"]] :=
  ⟨semifinalsWon_reached, by decide +kernel, by decide +kernel, by decide +kernel⟩

/-- Someone who lost in round 1 drops; the final is between the winners. -/
theorem dropped_loser_stays_out : ∃ event event',
    (afterCall semifinalsWon (.dropPlayer "E" "c")).tournaments "E" = some event ∧
    (afterCall (afterCall semifinalsWon (.dropPlayer "E" "c")) (.generatePairings "E")).tournaments "E" =
      some event' ∧ event'.currentRound = 2 ∧ StaysOut "c" event event' := by
  have there : ((afterCall semifinalsWon (.dropPlayer "E" "c")).tournaments "E").map (fun event =>
      (event.pairings.map (·.winner), event.droppedKeys)) =
        some ([some "a", some "b"], ["c"]) := by decide +kernel
  have there' : ((afterCall (afterCall semifinalsWon (.dropPlayer "E" "c"))
      (.generatePairings "E")).tournaments "E").map (·.currentRound) = some 2 := by decide +kernel
  obtain ⟨event, found, isEvent⟩ := Option.map_eq_some_iff.mp there
  obtain ⟨event', found', isEvent'⟩ := Option.map_eq_some_iff.mp there'
  obtain ⟨winners, out⟩ := Prod.mk.inj isEvent
  have accepted : (semifinalsWon.apply noTiebreaks (.dropPlayer "E" "c") anyTime).1 = .ok () := by
    decide +kernel
  have meets : SeatsNoDropped event "E" (.generatePairings "E") := by
    intro _ _ _ p mem _ winner isWinner
    have wins : some winner ∈ event.pairings.map (·.winner) := isWinner ▸ mem_map_of_mem mem
    rw [out]
    rw [winners] at wins
    rcases mem_cons.mp wins with same | later
    · cases same
      decide
    · cases mem_singleton.mp later
      decide
  have run : LivesWithoutDropped noTiebreaks "E" (afterCall semifinalsWon (.dropPlayer "E" "c"))
      (afterCall (afterCall semifinalsWon (.dropPlayer "E" "c")) (.generatePairings "E")) :=
    Runs.start.call (.generatePairings "E") anyTime ⟨event, found, meets⟩
  exact ⟨event, event', found, found', isEvent',
    dropped_players_stay_out semifinalsWon_reached accepted found run found'⟩

end Phase.Tournament
