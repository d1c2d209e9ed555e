import Phase.Takeback.Ancestry
import Phase.Takeback.Ballots
import Phase.Takeback.Erase

/-! A ledger offers only states of the branch it is on, and a rollback restores the one that was
asked for. -/
namespace Phase.Takeback
open Branch

section
variable {S : Type} {game : Game S} {aiSeats : List PlayerId} {turnRewind : Bool} {start : S}

/-- What the rings hold, on the branch of the live state. -/
structure HoldsAncestors (game : Game S) (table : Table (Live S)) : Prop where
  points : table.ledger.history.Pairwise fun p q => Before p.state q.state
  acted : ∀ p ∈ table.ledger.history, ∃ action,
    LeftBy (.acted p.actor action true) p.state table.state
  turns : table.ledger.turnPoints.Pairwise fun t u => Before t.state u.state
  onBranch : ∀ t ∈ table.ledger.turnPoints, OnBranch t.state table.state
  distinct : (table.ledger.turnPoints.map fun t => game.turnNumber t.state.now).Nodup
  current : ∀ t ∈ table.ledger.turnPoints,
    game.gameNumber t.state.now = game.gameNumber table.state.now

theorem Ancestral.holds {table : Table (Live S)} (ancestral : Ancestral game table) :
    HoldsAncestors game table where
  points := ancestral.rings.history_order.imp fun ⟨⟨_, left⟩, _⟩ => ⟨_, left⟩
  acted p mem := (ancestral.rings.history_live p mem).1
  turns := ancestral.rings.turns_order.imp And.left
  onBranch t mem := (ancestral.rings.turns_live t mem).1
  distinct := by
    refine List.pairwise_map.mpr (ancestral.rings.turns_order.imp fun ⟨_, earlier⟩ => ?_)
    exact Nat.ne_of_lt earlier
  current t mem := (ancestral.rings.turns_live t mem).2.2.trans ancestral.current.symm

theorem Run.ancestral {table : Table (Live S)} {ballot : Option (Ballot (Live S))}
    (run : Run game.traced aiSeats (KeepsGame game.traced.toGameView)
      (.opened game.traced.toGameView turnRewind ⟨start, [], 0⟩) table ballot) :
    Ancestral game table := by
  induction run with
  | start =>
    cases turnRewind with
    | true => exact ⟨Rings.empty .., rfl, nofun⟩
    | false => exact ⟨Rings.empty .., rfl, nofun⟩
  | move run move admitted meets ih => exact ih.play admitted meets

/-- The requester's last point when the vote was opened, or the start of the turn asked for. -/
def Requested (view : GameView S) (ballot : Ballot S) (target : S) : Prop :=
  match ballot.target with
  | .lastAction => ∃ before point after, ballot.opening.history = before ++ point :: after ∧
      point.actor = ballot.requester ∧ (∀ later ∈ after, later.actor ≠ ballot.requester) ∧
      point.state = target
  | .turnStart turnNumber => ∃ point ∈ ballot.opening.turnPoints,
      view.turnNumber point.state = turnNumber ∧ point.state = target

theorem Agrees.requested {view : GameView S} {pending : PendingTakeback S} {ballot : Ballot S}
    (agrees : Agrees view pending ballot) : Requested view ballot pending.targetState := by
  have picks := agrees.picks
  unfold Requested
  cases target : ballot.target with
  | lastAction =>
    rw [target] at picks
    obtain ⟨before, point, after, isHistory, isActor, latest, picked⟩ := pick_lastAction picks
    exact ⟨before, point, after, isHistory, isActor, latest, (congrArg Prod.fst picked).symm⟩
  | turnStart turnNumber =>
    rw [target] at picks
    obtain ⟨point, mem, isTurn, picked⟩ := pick_turnStart picks
    exact ⟨point, mem, isTurn, (congrArg Prod.fst picked).symm⟩

/-- The revision goes on from the state that was replaced, up to the end of its range. -/
theorem bumpStateRevision_lt {revision : Nat} (below : revision + 1 < 2 ^ 64) :
    revision < bumpStateRevision revision := by
  unfold bumpStateRevision
  rw [Nat.mod_eq_of_lt below]
  exact Nat.lt_succ_self revision

/-- What a move does to the live state. -/
structure Replaces (game : Game S) (table : Table S) (ballot : Option (Ballot S)) (move : Move S)
    (answer : Answer) (after : Table S) : Prop where
  refused : answer = .refused → after = table
  moved : answer ≠ .refused → answer ≠ .done (some .approved) → after.state = move.arrival table
  approved : answer = .done (some .approved) → ∃ cast target,
    Ballot.cast ballot table move answer = some cast ∧ Requested game.toGameView cast target ∧
    after.state = game.install target (move.arrival table) ∧
    game.stateRevision after.state = bumpStateRevision (game.stateRevision (move.arrival table)) ∧
    (game.stateRevision (move.arrival table) + 1 < 2 ^ 64 →
      game.stateRevision (move.arrival table) < game.stateRevision after.state)

theorem Played.replaces {table after : Table S} {ballot : Option (Ballot S)} {move : Move S}
    {answer : Answer} (played : Played game.toGameView aiSeats table move (answer, after))
    (agrees : Option.Rel (Agrees game.toGameView) table.ledger.pending ballot) :
    Replaces game table ballot move answer after where
  refused isRefused := by
    subst isRefused
    generalize isAnswer : (Answer.refused, after) = answer at played
    cases played with
    | refused =>
      cases isAnswer
      rfl
    | acted | departed | selfConceded | held | installed | driven | forfeited | declined
    | cancelled => cases isAnswer
    | @requested _ _ _ outcome | @answered _ _ outcome => cases outcome <;> cases isAnswer
  moved accepted open_ := by
    generalize isAnswer : (answer, after) = played at played
    cases played with
    | refused =>
      cases isAnswer
      exact absurd rfl accepted
    | acted | departed | selfConceded | held | driven | forfeited | declined | cancelled =>
      cases isAnswer
      rfl
    | installed =>
      cases isAnswer
      exact absurd rfl open_
    | requested quiet human picks settled =>
      rcases settle_cases settled with ⟨rfl, rfl, -⟩ | ⟨rfl, resolves⟩
      · cases isAnswer
        rfl
      · cases isAnswer
        exact absurd rfl open_
    | answered vote voter settled =>
      rcases settle_cases settled with ⟨rfl, rfl, -⟩ | ⟨rfl, resolves⟩
      · cases isAnswer
        rfl
      · cases isAnswer
        exact absurd rfl open_
  approved isApproved := by
    subst isApproved
    obtain ⟨voting, restored, votes, resolves, isState⟩ := played.approved
    obtain ⟨pending, cast, isVote, isCast, agrees⟩ := votes.agrees agrees (some .approved)
    obtain ⟨_, isPending, -, isInstalled, -⟩ := tryResolve_some resolves
    cases isVote.symm.trans isPending
    have installed : after.state = game.install pending.targetState (move.arrival table) := by
      rw [isState, isInstalled, votes.arrival]
    have revision : game.stateRevision after.state =
        bumpStateRevision (game.stateRevision (move.arrival table)) := by
      rw [installed]
      exact game.install_revision ..
    refine ⟨cast, pending.targetState, isCast, agrees.requested, installed, revision,
      fun below => ?_⟩
    rw [revision]
    exact bumpStateRevision_lt below

/-- In every run whose concessions without a departure stay in their game while a vote is open,
the rings hold ancestors of the live state, and only an approved vote replaces that state. -/
theorem ledger_holds_ancestors {table : Table S} {ballot : Option (Ballot S)}
    (run : Run game aiSeats (KeepsGame game.toGameView)
      (.opened game.toGameView turnRewind start) table ballot) :
    (∃ live ballot', Run game.traced aiSeats (KeepsGame game.traced.toGameView)
        (.opened game.traced.toGameView turnRewind ⟨start, [], 0⟩) live ballot' ∧
      live.map Traced.now = table ∧ HoldsAncestors game live) ∧
    ∀ move, Replaces game table ballot move (table.play game.toGameView aiSeats move).1
      (table.play game.toGameView aiSeats move).2 := by
  refine ⟨?_, fun move => (play_played move).replaces (run.agrees opened_pending)⟩
  have weaker (table : Table (Live S)) (move : Move (Live S))
      (keeps : KeepsGame game.toGameView (table.map Traced.now) (move.map Traced.now)) :
      KeepsGame game.traced.toGameView table move := by
    cases move with
    | act actor known action result post =>
      intro vote stays
      exact keeps (by simpa [Table.map, TakebackLedger.map] using vote) stays
    | drive | forfeit | request | respond | cancel => trivial
  obtain ⟨live, ballot', run', isTable, -⟩ := run.lift weaker
  exact ⟨live, ballot', run', isTable, run'.ancestral.holds⟩

end

/-- The game of all transitions that make eliminations permanent and announce each turn they
start. -/
def freeGame : Game (GameState Unit) where
  toGameView := GameState.view fun rest waitingFor => (rest, waitingFor)
  Step pre _ events post := pre.eliminatedPlayers ⊆ post.eliminatedPlayers ∧
    (post.gameNumber = pre.gameNumber → pre.turnNumber ≤ post.turnNumber) ∧
    ∀ turn, .turnStarted turn ∈ events ↔ post.turnNumber = turn ∧
      (post.gameNumber = pre.gameNumber → pre.turnNumber < turn)
  turn_grows step same := step.2.1 same
  turn_announced step same announced := ((step.2.2 _).mp announced).2 same
  install_turn _ _ := rfl
  install_game _ _ := rfl
  install_revision _ _ := rfl

/-- Three seats, one of them out. -/
def twoLeft : GameState Unit where
  players := [0, 1, 2]
  eliminatedPlayers := [2]
  turnNumber := 2
  gameNumber := 1
  waitingFor := .other
  stateRevision := 0
  rest := ()

/-- Seat 0 acts. -/
def plays : Move (GameState Unit) :=
  .act 0 true .other ⟨[], true⟩ { twoLeft with stateRevision := 1 }

/-- The concession of the seat that is out leads to the next game. -/
def crosses : Move (GameState Unit) :=
  .act 2 true .concede ⟨[.turnStarted 1], true⟩
    { twoLeft with turnNumber := 1, gameNumber := 2, stateRevision := 2 }

theorem plays_step : freeGame.Step twoLeft (.acted 0 .other true) []
    { twoLeft with stateRevision := 1 } := by
  refine ⟨fun _ => id, fun _ => le_rfl, fun turn => ?_⟩
  refine iff_of_false List.not_mem_nil fun ⟨isTurn, later⟩ => ?_
  have later := later rfl
  change 2 < turn at later
  change 2 = turn at isTurn
  omega

theorem crosses_step : freeGame.Step { twoLeft with stateRevision := 1 } (.acted 2 .concede true)
    [.turnStarted 1] { twoLeft with turnNumber := 1, gameNumber := 2, stateRevision := 2 } := by
  refine ⟨fun _ => id, nofun, fun turn => ?_⟩
  constructor
  · intro announced
    cases List.mem_singleton.mp announced
    exact ⟨rfl, nofun⟩
  · rintro ⟨rfl, -⟩
    exact List.mem_singleton_self _

def replies (table : Table (Live (GameState Unit))) (move : Move (GameState Unit)) :
    Table (Live (GameState Unit)) :=
  (table.play freeGame.traced.toGameView [] (move.trace table.state)).2

/-- Seat 0 asks to take its action back, seat 2 concedes, seat 1 approves. -/
def strange : Table (Live (GameState Unit)) :=
  replies (replies (replies (replies (.opened freeGame.traced.toGameView true ⟨twoLeft, [], 0⟩) plays)
    (.request 0 .lastAction)) crosses) (.respond 1 true)

/-- The ring of turns holds a state of the next game, which the approval has undone. -/
theorem undone_game_stays_in_ring : ∃ ballot, Run freeGame.traced [] (fun _ _ => True)
      (.opened freeGame.traced.toGameView true ⟨twoLeft, [], 0⟩) strange ballot ∧
    ∃ t ∈ strange.ledger.turnPoints, ¬OnBranch t.state strange.state ∧
      t.state.now.gameNumber ≠ strange.state.now.gameNumber := by
  have run : Run freeGame.traced [] (fun _ _ => True)
    (.opened freeGame.traced.toGameView true ⟨twoLeft, [], 0⟩) _ _ := .start
  have acted := run.move (plays.trace ⟨twoLeft, [], 0⟩) ⟨plays_step, rfl⟩ trivial
  have asked := acted.move (.request 0 .lastAction) trivial trivial
  have conceded := asked.move (crosses.trace _) ⟨crosses_step, rfl⟩ trivial
  refine ⟨_, conceded.move (.respond 1 true) trivial trivial, ?_⟩
  have rings : strange.ledger.turnPoints.map (fun t =>
      (t.state.past.length, t.state.now.gameNumber)) = [(2, 2)] := by decide
  have live : strange.state.past.length = 1 ∧ strange.state.now.gameNumber = 1 := by decide
  obtain ⟨t, isRing, isPoint⟩ := List.map_eq_singleton_iff.mp rings
  obtain ⟨length, number⟩ := Prod.mk.inj isPoint
  refine ⟨t, by rw [isRing]; exact List.mem_singleton_self t, fun on => ?_, ?_⟩
  · have shorter := on.length_le
    omega
  · omega

/-- Seat 0 takes its action back with the approval of seat 1. -/
def rolledBack : Table (GameState Unit) :=
  ((((Table.opened freeGame.toGameView true twoLeft).play freeGame.toGameView [] plays).2.play
    freeGame.toGameView [] (.request 0 .lastAction)).2.play freeGame.toGameView []
      (.respond 1 true)).2

theorem rolled_back_holds_ancestors : rolledBack.state = { twoLeft with stateRevision := 2 } ∧
    ∃ live, live.map Traced.now = rolledBack ∧ HoldsAncestors freeGame live := by
  have run : Run freeGame [] (KeepsGame freeGame.toGameView)
    (.opened freeGame.toGameView true twoLeft) _ _ := .start
  have acted := run.move plays plays_step nofun
  have asked := acted.move (.request 0 .lastAction) trivial trivial
  have approved := asked.move (.respond 1 true) trivial trivial
  obtain ⟨⟨live, _, -, isTable, holds⟩, -⟩ := ledger_holds_ancestors approved
  exact ⟨by decide, live, isTable, holds⟩

end Phase.Takeback
