import Phase.Takeback.Ledger
import Phase.Lib.Branch

/-! Runs of a ledger beside any game, and what one move of a run can do. -/
namespace Phase.Takeback
open Branch Table TakebackLedger

/-- How a state was left. -/
inductive Deed where
  | acted (actor : PlayerId) (action : GameAction) (applied : Bool)
  | driven
  | forfeited
  | restored
  deriving DecidableEq

/-- A game with its transitions: within one game of a match the turn number does not fall, and
a turn is announced when it starts. -/
structure Game (S : Type) extends GameView S where
  Step : S → Deed → List GameEvent → S → Prop
  turn_grows : ∀ {pre deed events post}, Step pre deed events post →
    gameNumber post = gameNumber pre → turnNumber pre ≤ turnNumber post
  turn_announced : ∀ {pre deed events post turn}, Step pre deed events post →
    gameNumber post = gameNumber pre → .turnStarted turn ∈ events → turnNumber pre < turn
  install_turn : ∀ target replaced, turnNumber (install target replaced) = turnNumber target
  install_game : ∀ target replaced, gameNumber (install target replaced) = gameNumber target
  install_revision : ∀ target replaced,
    stateRevision (install target replaced) = bumpStateRevision (stateRevision replaced)

/-- A state that carries its branch. -/
abbrev Live (S : Type) := Traced S Deed

/-- The game in which every state carries its branch; a state that is restored continues the
branch it was on. -/
def Game.traced {S : Type} (game : Game S) : Game (Live S) where
  players state := game.players state.now
  eliminatedPlayers state := game.eliminatedPlayers state.now
  turnNumber state := game.turnNumber state.now
  gameNumber state := game.gameNumber state.now
  waitingFor state := game.waitingFor state.now
  stateRevision state := game.stateRevision state.now
  install target replaced :=
    target.resume replaced .restored (game.install target.now replaced.now)
  Step pre deed events post :=
    game.Step pre.now deed events post.now ∧ post = pre.move deed post.now
  turn_grows step := game.turn_grows step.1
  turn_announced step := game.turn_announced step.1
  install_turn target replaced := game.install_turn target.now replaced.now
  install_game target replaced := game.install_game target.now replaced.now
  install_revision target replaced := game.install_revision target.now replaced.now

inductive Move (S : Type) where
  | act (actor : PlayerId) (known : Bool) (action : GameAction) (result : ActionResult) (post : S)
  | drive (events : List GameEvent) (post : S)
  | forfeit (events : List GameEvent) (post : S)
  | request (player : PlayerId) (target : RewindTarget)
  | respond (player : PlayerId) (approve : Bool)
  | cancel (player : PlayerId)

/-- Whether a move was refused, and how a vote ended with it, if one did. -/
inductive Answer where
  | refused
  | done (ended : Option TakebackResolution)
  deriving DecidableEq

def Answer.of : Except String TakebackOutcome → Answer
  | .error _ => .refused
  | .ok .pending => .done none
  | .ok (.resolved resolution) => .done (some resolution)

def Table.play {S : Type} (game : GameView S) (aiSeats : List PlayerId) (table : Table S) :
    Move S → Answer × Table S
  | .act actor known action result post =>
    match table.ledger.admitAction action with
    | .error _ => (.refused, table)
    | .ok _ =>
      let capture := capture game table.state (if known then some action else none)
      let (resolution, table) := recordHumanAction game aiSeats
        { table with state := post } actor capture action result
      (.done resolution, table)
  | .drive events post =>
    (.done none, { state := post, ledger := table.ledger.observeTransition game events post })
  | .forfeit events post =>
    let (resolution, ledger) := table.ledger.observeMatchForfeit
    (.done resolution, { state := post, ledger := ledger.observeTransition game events post })
  | .request player target =>
    let (answer, table) := table.request game aiSeats player target
    (.of answer, table)
  | .respond player approve =>
    let (answer, table) := table.respond game aiSeats player approve
    (.of answer, table)
  | .cancel player =>
    let (answer, ledger) := table.ledger.cancel player
    (.of (answer.map fun _ => .resolved .cancelled), { table with ledger })

/-- The transitions of a run are the game's, and none is driven while a vote is open. -/
def Game.Admits {S : Type} (game : Game S) (table : Table S) : Move S → Prop
  | .act actor _ action result post =>
    game.Step table.state (.acted actor action result.applied) result.events post
  | .drive events post =>
    table.ledger.pending = none ∧ game.Step table.state .driven events post
  | .forfeit events post => game.Step table.state .forfeited events post
  | .request _ _ | .respond _ _ | .cancel _ => True

section
variable {S : Type} {game : GameView S} {aiSeats : List PlayerId} {table : Table S}

/-- A seat that was in the game before is not any more. -/
def Departs (game : GameView S) (pre post : S) : Prop :=
  ∃ seat ∈ game.eliminatedPlayers post, seat ∉ game.eliminatedPlayers pre

/-- The ledger with the point of an action that was applied. -/
def TakebackLedger.recordAction (ledger : TakebackLedger S) (actor : PlayerId)
    (action : GameAction) (result : ActionResult) (pre : S) : TakebackLedger S :=
  if action ≠ .actorScopedPreference ∧ result.applied = true then ledger.recordPoint actor pre
  else ledger

/-- The table while it votes on what a request reaches. -/
def Table.voting (table : Table S) (player : PlayerId) (picked : S × Nat × Nat) : Table S :=
  { table with ledger := { table.ledger with pending := some {
      requestedBy := player, targetState := picked.1, targetAt := picked.2.1,
      approvals := {player}, historyTruncateLen := picked.2.2 } } }

def Table.approvedBy (table : Table S) (pending : PendingTakeback S) (player : PlayerId) :
    Table S :=
  { table with ledger := { table.ledger with
      pending := some { pending with approvals := insert player pending.approvals } } }

inductive Played (game : GameView S) (aiSeats : List PlayerId) (table : Table S) :
    Move S → Answer × Table S → Prop
  | refused (move : Move S) : Played game aiSeats table move (.refused, table)
  | acted {actor : PlayerId} {known : Bool} {action : GameAction} {result : ActionResult} {post : S}
      (quiet : table.ledger.pending = none)
      (stays : action = .concede → ¬Departs game table.state post) :
      Played game aiSeats table (.act actor known action result post) (.done none,
        { state := post
          ledger := (let ledger := table.ledger.recordAction actor action result table.state
            if action = .concede then ledger.noteConcession actor
              else ledger).observeTransition game result.events post })
  | departed {actor : PlayerId} {known : Bool} {result : ActionResult} {post : S}
      (departs : Departs game table.state post) :
      Played game aiSeats table (.act actor known .concede result post)
        (.done (table.ledger.pending.map fun _ => .withdrawn),
          { state := post
            ledger := table.ledger.observeMatchForfeit.2.observeTransition game result.events post })
  | selfConceded {actor : PlayerId} {known : Bool} {result : ActionResult} {post : S}
      {pending : PendingTakeback S} (vote : table.ledger.pending = some pending)
      (stays : ¬Departs game table.state post) (requester : pending.requestedBy = actor) :
      Played game aiSeats table (.act actor known .concede result post)
        (.done (some .cancelled),
          { state := post
            ledger := { table.ledger.noteConcession actor with
              pending := none }.observeTransition game result.events post })
  | held {actor : PlayerId} {known : Bool} {result : ActionResult} {post : S}
      {pending : PendingTakeback S} (vote : table.ledger.pending = some pending)
      (stays : ¬Departs game table.state post) (other : pending.requestedBy ≠ actor)
      (waits : tryResolve game aiSeats
        { state := post, ledger := table.ledger.noteConcession actor } = none) :
      Played game aiSeats table (.act actor known .concede result post) (.done none,
        { state := post
          ledger := (table.ledger.noteConcession actor).observeTransition game result.events post })
  | installed {actor : PlayerId} {known : Bool} {result : ActionResult} {post : S}
      {pending : PendingTakeback S} {restored : Table S}
      (vote : table.ledger.pending = some pending)
      (stays : ¬Departs game table.state post) (other : pending.requestedBy ≠ actor)
      (resolves : tryResolve game aiSeats
        { state := post, ledger := table.ledger.noteConcession actor } = some restored) :
      Played game aiSeats table (.act actor known .concede result post) (.done (some .approved),
        { restored with ledger := { restored.ledger with clock := restored.ledger.clock + 1 } })
  | driven {events : List GameEvent} {post : S} :
      Played game aiSeats table (.drive events post) (.done none,
        { state := post, ledger := table.ledger.observeTransition game events post })
  | forfeited {events : List GameEvent} {post : S} :
      Played game aiSeats table (.forfeit events post)
        (.done (table.ledger.pending.map fun _ => .withdrawn),
          { state := post
            ledger := table.ledger.observeMatchForfeit.2.observeTransition game events post })
  | requested {player : PlayerId} {target : RewindTarget} {picked : S × Nat × Nat}
      {outcome : TakebackOutcome} {after : Table S} (quiet : table.ledger.pending = none)
      (human : isHumanSeat game aiSeats table.state player = true)
      (picks : table.ledger.pick game player target = .ok picked)
      (settled : settle game aiSeats (table.voting player picked) = (outcome, after)) :
      Played game aiSeats table (.request player target) (.of (.ok outcome), after)
  | answered {player : PlayerId} {pending : PendingTakeback S} {outcome : TakebackOutcome}
      {after : Table S} (vote : table.ledger.pending = some pending)
      (voter : player ∈ table.voters game aiSeats pending)
      (settled : settle game aiSeats (table.approvedBy pending player) = (outcome, after)) :
      Played game aiSeats table (.respond player true) (.of (.ok outcome), after)
  | declined {player : PlayerId} {pending : PendingTakeback S}
      (vote : table.ledger.pending = some pending)
      (voter : player ∈ table.voters game aiSeats pending) :
      Played game aiSeats table (.respond player false) (.done (some .declined),
        { table with ledger := { table.ledger with pending := none } })
  | cancelled {player : PlayerId} {pending : PendingTakeback S}
      (vote : table.ledger.pending = some pending) (requester : pending.requestedBy = player) :
      Played game aiSeats table (.cancel player) (.done (some .cancelled),
        { table with ledger := { table.ledger with pending := none } })

variable {pre : S} {ledger : TakebackLedger S} {actor : PlayerId} {action : GameAction}
  {result : ActionResult}

theorem departs_iff {post : S} :
    (game.eliminatedPlayers post).any (!(game.eliminatedPlayers pre).contains ·) = true ↔
      Departs game pre post := by
  simp [Departs]

theorem recordAction_pending :
    (ledger.recordAction actor action result pre).pending = ledger.pending := by
  unfold recordAction recordPoint
  split
  · split <;> rfl
  · rfl

theorem recordAction_gameNumber :
    (ledger.recordAction actor action result pre).gameNumber = ledger.gameNumber := by
  unfold recordAction recordPoint
  split
  · split <;> rfl
  · rfl

/-- While a vote is open no point is recorded. -/
theorem recordAction_of_vote {pending : PendingTakeback S} (vote : ledger.pending = some pending) :
    ledger.recordAction actor action result pre = ledger := by
  unfold recordAction recordPoint
  simp [vote]

theorem recordCapture_eq (ledger : TakebackLedger S) (known : Bool) (actor : PlayerId)
    (action : GameAction) (result : ActionResult) (pre : S) :
    ledger.recordCapture actor (capture game pre
      (if known then some action else none)) action result =
    ledger.recordAction actor action result pre := by
  unfold recordCapture recordAction capture
  cases known <;> cases action <;> simp

theorem concede_played (actor : PlayerId) (known : Bool) (result : ActionResult) (post : S) :
    Played game aiSeats table (.act actor known .concede result post)
      (table.play game aiSeats (.act actor known .concede result post)) := by
  have record : table.play game aiSeats (.act actor known .concede result post) =
      (fun closed : Option TakebackResolution × Table S => (Answer.done closed.1, closed.2))
        (closeAction game result.events (concession game aiSeats
          ⟨post, table.ledger.recordAction actor .concede result table.state⟩ actor
          (game.eliminatedPlayers table.state))) := by
    simp only [play, admitAction, if_true, recordHumanAction, recordCapture_eq]
    rfl
  rw [record]
  unfold concession
  by_cases departs : Departs game table.state post
  · rw [if_pos (departs_iff.mpr departs)]
    have same : (table.ledger.recordAction actor .concede result table.state).observeMatchForfeit =
        table.ledger.observeMatchForfeit := by
      unfold recordAction recordPoint
      split
      · split <;> rfl
      · rfl
    simp only [same]
    exact .departed departs
  · rw [if_neg fun any => departs (departs_iff.mp any)]
    cases vote : table.ledger.pending with
    | none =>
      have quiet : ((table.ledger.recordAction actor .concede result
          table.state).noteConcession actor).pending = none := recordAction_pending.trans vote
      simp only [noopConcede, quiet]
      exact .acted vote fun _ => departs
    | some pending =>
      rw [recordAction_of_vote vote]
      have isVote : (table.ledger.noteConcession actor).pending = some pending := vote
      simp only [noopConcede, isVote]
      by_cases requester : pending.requestedBy = actor
      · simp only [if_pos requester]
        exact .selfConceded vote departs requester
      · simp only [if_neg requester]
        cases resolves : tryResolve game aiSeats
            { state := post, ledger := table.ledger.noteConcession actor } with
        | none => exact .held vote departs requester resolves
        | some restored => exact .installed vote departs requester resolves

theorem play_played (move : Move S) :
    Played game aiSeats table move (table.play game aiSeats move) := by
  cases move with
  | act actor known action result post =>
    by_cases concede : action = .concede
    · subst concede
      exact concede_played actor known result post
    · simp only [play, admitAction, if_neg concede, refuseWhilePending]
      by_cases vote : table.ledger.pending.isSome
      · rw [if_pos vote]
        exact .refused _
      · rw [if_neg vote]
        simp only [recordHumanAction, recordCapture_eq, if_neg concede, closeAction,
          Bool.false_eq_true, if_false]
        have played := @Played.acted _ game aiSeats table actor known action result post
          (by simpa using vote) fun isConcede => absurd isConcede concede
        simp only [if_neg concede] at played
        exact played
  | drive events post => exact .driven
  | forfeit events post => exact .forfeited
  | request player target =>
    simp only [play, request]
    split
    · exact .refused _
    split
    · exact .refused _
    split
    · exact .refused _
    next vote =>
    split
    · exact .refused _
    next human =>
    split
    · exact .refused _
    next picks =>
    exact .requested (by simpa using vote) (by simpa using human) picks rfl
  | respond player approve =>
    simp only [play, respond]
    split
    · exact .refused _
    next pending vote =>
    split
    · exact .refused _
    split
    · exact .refused _
    next voter =>
    cases approve with
    | false => exact .declined vote (not_not.mp voter)
    | true => exact .answered vote (not_not.mp voter) rfl
  | cancel player =>
    simp only [play, cancel]
    split
    · exact .refused _
    next pending vote =>
    split
    · next requester => exact .cancelled vote requester
    · exact .refused _

theorem tryResolve_some {restored : Table S}
    (resolves : table.tryResolve game aiSeats = some restored) :
    ∃ pending, table.ledger.pending = some pending ∧
      (∀ seat ∈ table.voters game aiSeats pending, seat ∈ pending.approvals) ∧
      restored.state = game.install pending.targetState table.state ∧
      restored.ledger = { table.ledger with
        pending := none
        history := table.ledger.history.take pending.historyTruncateLen
        noopConcessions := fun seat =>
          (table.ledger.noopConcessions seat).filter (· < pending.targetAt)
        turnHistory := table.ledger.turnHistory.map (·.filter fun point =>
          game.turnNumber point.state ≤ game.turnNumber restored.state) } := by
  unfold tryResolve at resolves
  split at resolves
  · cases resolves
  · next pending vote =>
    split at resolves
    · next all =>
      cases resolves
      exact ⟨pending, vote, by simpa using all, rfl, rfl⟩
    · cases resolves

theorem settle_cases {after : Table S} {outcome : TakebackOutcome}
    (settled : table.settle game aiSeats = (outcome, after)) :
    outcome = .pending ∧ after = table ∧ table.tryResolve game aiSeats = none ∨
      outcome = .resolved .approved ∧ table.tryResolve game aiSeats = some after := by
  unfold settle at settled
  split at settled
  · next restored resolves =>
    cases settled
    exact .inr ⟨rfl, resolves⟩
  · next waits =>
    cases settled
    exact .inl ⟨rfl, rfl, waits⟩

end

/-- An open vote: the request, the ledger it found, and who has approved it since. -/
structure Ballot (S : Type) where
  requester : PlayerId
  target : RewindTarget
  opening : TakebackLedger S
  approved : List PlayerId

/-- The vote that a move takes part in. -/
def Ballot.cast {S : Type} (ballot : Option (Ballot S)) (table : Table S) :
    Move S → Answer → Option (Ballot S)
  | .request requester target, .done _ =>
    some { requester, target, opening := table.ledger, approved := [] }
  | .respond player true, .done _ =>
    ballot.map fun ballot => { ballot with approved := ballot.approved ++ [player] }
  | _, _ => ballot

/-- It stays open as long as the ledger says so. -/
def Ballot.next {S : Type} (ballot : Option (Ballot S)) (table : Table S) (move : Move S)
    (played : Answer × Table S) : Option (Ballot S) :=
  if played.2.ledger.pending.isSome then Ballot.cast ballot table move played.1 else none

inductive Run {S : Type} (game : Game S) (aiSeats : List PlayerId)
    (allowed : Table S → Move S → Prop) (start : Table S) : Table S → Option (Ballot S) → Prop
  | start : Run game aiSeats allowed start start none
  | move {table : Table S} {ballot : Option (Ballot S)}
      (run : Run game aiSeats allowed start table ballot) (move : Move S)
      (admitted : game.Admits table move) (meets : allowed table move) :
      Run game aiSeats allowed start (table.play game.toGameView aiSeats move).2
        (Ballot.next ballot table move (table.play game.toGameView aiSeats move))

def Table.opened {S : Type} (game : GameView S) (turnRewind : Bool) (state : S) : Table S where
  state
  ledger :=
    if turnRewind then .withTurnRewind (game.gameNumber state) else .new (game.gameNumber state)

end Phase.Takeback
