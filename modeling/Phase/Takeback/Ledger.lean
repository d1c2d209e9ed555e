import Mathlib.Algebra.GroupWithZero.Nat
import Mathlib.Data.Finset.Insert

/-! `TakebackLedger`: the rollback points of a game session, its open vote and how a vote ends. -/
namespace Phase.Takeback

abbrev PlayerId := Nat

inductive WaitingFor where
  | physicalContest
  | gameOver
  | other
  deriving DecidableEq

inductive GameEvent where
  | turnStarted (turnNumber : Nat)
  | other
  deriving DecidableEq

inductive GameAction where
  | concede
  | actorScopedPreference
  | other
  deriving DecidableEq

structure ActionResult where
  events : List GameEvent
  applied : Bool
  deriving DecidableEq

/-- What the ledger reads of a game state, and what is left of a target that is installed in
place of another state. -/
structure GameView (S : Type) where
  players : S → List PlayerId
  eliminatedPlayers : S → List PlayerId
  turnNumber : S → Nat
  gameNumber : S → Nat
  waitingFor : S → WaitingFor
  stateRevision : S → Nat
  install : S → S → S

/-- A game state; `Rest` is everything that the ledger does not read. -/
structure GameState (Rest : Type) where
  players : List PlayerId
  eliminatedPlayers : List PlayerId
  turnNumber : Nat
  gameNumber : Nat
  waitingFor : WaitingFor
  stateRevision : Nat
  rest : Rest
  deriving DecidableEq

def bumpStateRevision (revision : Nat) : Nat := (revision + 1) % 2 ^ 64

/-- `rekey` is what `rekey_after_trusted_restore` does: it forgets an offered shortcut, and may
offer it again. -/
def GameState.view {Rest : Type} (rekey : Rest → WaitingFor → Rest × WaitingFor) :
    GameView (GameState Rest) where
  players := GameState.players
  eliminatedPlayers := GameState.eliminatedPlayers
  turnNumber := GameState.turnNumber
  gameNumber := GameState.gameNumber
  waitingFor := GameState.waitingFor
  stateRevision := GameState.stateRevision
  install target replaced :=
    let (rest, waitingFor) := rekey target.rest target.waitingFor
    { target with
      stateRevision := bumpStateRevision replaced.stateRevision
      rest
      waitingFor }

def maxTakebackHistory : Nat := 12

def maxTurnRewindHistory : Nat := 5

inductive RewindTarget where
  | lastAction
  | turnStart (turnNumber : Nat)
  deriving DecidableEq

inductive TakebackResolution where
  | approved
  | declined
  | cancelled
  | withdrawn
  deriving DecidableEq

inductive TakebackOutcome where
  | pending
  | resolved (resolution : TakebackResolution)
  deriving DecidableEq

structure PendingTakeback (S : Type) where
  requestedBy : PlayerId
  targetState : S
  targetAt : Nat
  approvals : Finset PlayerId
  historyTruncateLen : Nat

structure TakebackCapture (S : Type) where
  snapshot : Option S
  eliminatedBefore : List PlayerId

structure TakebackPoint (S : Type) where
  actor : PlayerId
  made : Nat
  state : S

structure TurnPoint (S : Type) where
  made : Nat
  state : S

structure TakebackLedger (S : Type) where
  history : List (TakebackPoint S)
  turnHistory : Option (List (TurnPoint S))
  pending : Option (PendingTakeback S)
  gameNumber : Nat
  clock : Nat
  noopConcessions : PlayerId → Option Nat

/-- The live state of a session, and its ledger. -/
structure Table (S : Type) where
  state : S
  ledger : TakebackLedger S

/-- A ring of this depth forgets its oldest entry. -/
def pushBounded {α : Type} (depth : Nat) (ring : List α) (entry : α) : List α :=
  (if depth ≤ ring.length then ring.drop 1 else ring) ++ [entry]

namespace TakebackLedger
variable {S : Type} (game : GameView S)

def new (gameNumber : Nat) : TakebackLedger S where
  history := []
  turnHistory := none
  pending := none
  gameNumber
  clock := 0
  noopConcessions := fun _ => none

def withTurnRewind (gameNumber : Nat) : TakebackLedger S :=
  { new gameNumber with turnHistory := some [] }

/-- The action is not always known when the state before it is captured. -/
def capture (state : S) (action : Option GameAction) : TakebackCapture S where
  snapshot := if action = some .actorScopedPreference then none else some state
  eliminatedBefore := game.eliminatedPlayers state

def recordPoint (ledger : TakebackLedger S) (actor : PlayerId) (preState : S) : TakebackLedger S :=
  if ledger.pending.isSome then ledger
  else
    let point : TakebackPoint S := { actor, made := ledger.clock, state := preState }
    { ledger with history := pushBounded maxTakebackHistory ledger.history point }

/-- A reversed action left the state as it was, and a preference is no move of the game. -/
def recordCapture (ledger : TakebackLedger S) (actor : PlayerId) (capture : TakebackCapture S)
    (action : GameAction) (result : ActionResult) : TakebackLedger S :=
  match capture.snapshot with
  | some snapshot =>
    if action ≠ .actorScopedPreference ∧ result.applied = true then
      ledger.recordPoint actor snapshot
    else ledger
  | none => ledger

def retire (ledger : TakebackLedger S) : TakebackLedger S :=
  { ledger with
    history := []
    turnHistory := ledger.turnHistory.map fun _ => []
    noopConcessions := fun _ => none }

/-- The last turn that a batch of events announces. -/
def turnStarted (events : List GameEvent) : Option Nat :=
  events.reverse.findSome? fun
    | .turnStarted turnNumber => some turnNumber
    | .other => none

/-- A batch that also ended the turn it started rests in no turn of its own. -/
def recordTurnPoint (ledger : TakebackLedger S) (events : List GameEvent) (state : S) :
    TakebackLedger S :=
  match ledger.turnHistory, turnStarted events with
  | some ring, some started =>
    if started ≠ game.turnNumber state then ledger
    else
      let point : TurnPoint S := { made := ledger.clock, state }
      { ledger with turnHistory := some (pushBounded maxTurnRewindHistory ring point) }
  | _, _ => ledger

def observeTransition (ledger : TakebackLedger S) (events : List GameEvent) (postState : S) :
    TakebackLedger S :=
  let ledger := { ledger with clock := ledger.clock + 1 }
  let ledger :=
    if game.gameNumber postState ≠ ledger.gameNumber then
      ({ ledger with gameNumber := game.gameNumber postState }).retire
    else ledger
  ledger.recordTurnPoint game events postState

def observeMatchForfeit (ledger : TakebackLedger S) :
    Option TakebackResolution × TakebackLedger S :=
  (ledger.pending.map fun _ => .withdrawn, { ledger with pending := none }.retire)

/-- The earliest one of each seat is kept. -/
def noteConcession (ledger : TakebackLedger S) (actor : PlayerId) : TakebackLedger S :=
  { ledger with noopConcessions := fun seat =>
      if seat = actor then some ((ledger.noopConcessions actor).getD ledger.clock)
      else ledger.noopConcessions seat }

inductive ActionRejection where
  | actionNotAllowed
  deriving DecidableEq

def refuseWhilePending (ledger : TakebackLedger S) : Except ActionRejection Unit :=
  if ledger.pending.isSome then .error .actionNotAllowed else .ok ()

/-- Only a concession is admitted while a vote is open. -/
def admitAction (ledger : TakebackLedger S) (action : GameAction) : Except ActionRejection Unit :=
  if action = .concede then .ok () else ledger.refuseWhilePending

def cancel (ledger : TakebackLedger S) (player : PlayerId) :
    Except String Unit × TakebackLedger S :=
  match ledger.pending with
  | none => (.error "There is no pending takeback request", ledger)
  | some pending =>
    if pending.requestedBy = player then (.ok (), { ledger with pending := none })
    else (.error "Only the player who requested the takeback may cancel it", ledger)

/-- The state a request reaches, when it was live, and how many points lie before it. -/
def pick (ledger : TakebackLedger S) (player : PlayerId) :
    RewindTarget → Except String (S × Nat × Nat)
  | .lastAction =>
    match ledger.history.zipIdx.reverse.find? fun entry => entry.1.actor = player with
    | none => .error "There is no previous action of yours to take back"
    | some (point, index) => .ok (point.state, point.made, index)
  | .turnStart turnNumber =>
    match ledger.turnHistory with
    | none => .error "Turn rewind is not available in this game"
    | some ring =>
      match ring.find? fun point => game.turnNumber point.state = turnNumber with
      | none => .error "That turn is no longer available to rewind to"
      | some point => .ok (point.state, point.made, (ledger.history.takeWhile fun entry =>
        game.turnNumber entry.state < turnNumber).length)

end TakebackLedger

namespace Table
variable {S : Type} (game : GameView S) (aiSeats : List PlayerId)

def isHumanSeat (state : S) (player : PlayerId) : Bool :=
  (game.players state).contains player && !aiSeats.contains player

/-- The human seats besides the requester. -/
def candidates (pending : PendingTakeback S) (state : S) : List PlayerId :=
  (game.players state).filter fun seat =>
    seat ≠ pending.requestedBy && !aiSeats.contains seat

/-- Those in the game now; when there are none, those in the game at the target that have not
conceded since. -/
def voters (table : Table S) (pending : PendingTakeback S) : List PlayerId :=
  let candidates := candidates game aiSeats pending table.state
  let current := candidates.filter fun seat =>
    !(game.eliminatedPlayers table.state).contains seat
  if !current.isEmpty then current
  else candidates.filter fun seat =>
    !(game.eliminatedPlayers pending.targetState).contains seat &&
      (table.ledger.noopConcessions seat).all (· < pending.targetAt)

/-- The table after an approved vote, unless a voter has not approved yet. -/
def tryResolve (table : Table S) : Option (Table S) :=
  match table.ledger.pending with
  | none => none
  | some pending =>
    if (table.voters game aiSeats pending).all (· ∈ pending.approvals) then
      let state := game.install pending.targetState table.state
      some {
        state
        ledger := { table.ledger with
          pending := none
          history := table.ledger.history.take pending.historyTruncateLen
          noopConcessions := fun seat =>
            (table.ledger.noopConcessions seat).filter (· < pending.targetAt)
          turnHistory := table.ledger.turnHistory.map (·.filter fun point =>
            game.turnNumber point.state ≤ game.turnNumber state) } }
    else none

/-- Asks whether the vote is over. -/
def settle (table : Table S) : TakebackOutcome × Table S :=
  match table.tryResolve game aiSeats with
  | some restored => (.resolved .approved, restored)
  | none => (.pending, table)

def request (table : Table S) (player : PlayerId) (target : RewindTarget) :
    Except String TakebackOutcome × Table S :=
  if game.waitingFor table.state = .physicalContest then
    (.error "A takeback cannot be requested while a contest is running", table)
  else if game.waitingFor table.state = .gameOver then
    (.error "A takeback cannot be requested after the game has ended", table)
  else if table.ledger.pending.isSome then
    (.error "A takeback request is already pending for this game", table)
  else if !isHumanSeat game aiSeats table.state player then
    (.error "Only human players may request a takeback", table)
  else
    match table.ledger.pick game player target with
    | .error reason => (.error reason, table)
    | .ok (targetState, targetAt, historyTruncateLen) =>
      let pending := { requestedBy := player, targetState, targetAt, approvals := {player},
                       historyTruncateLen }
      let (outcome, table) := settle game aiSeats { table with
        ledger := { table.ledger with pending := some pending } }
      (.ok outcome, table)

def respond (table : Table S) (player : PlayerId) (approve : Bool) :
    Except String TakebackOutcome × Table S :=
  match table.ledger.pending with
  | none => (.error "There is no pending takeback request", table)
  | some pending =>
    if !isHumanSeat game aiSeats table.state player then
      (.error "Only human players may respond to a takeback request", table)
    else if player ∉ table.voters game aiSeats pending then
      (.error "Only the players asked to approve this takeback may respond", table)
    else if !approve then
      (.ok (.resolved .declined), { table with ledger := { table.ledger with pending := none } })
    else
      let (outcome, table) := settle game aiSeats { table with ledger := { table.ledger with
        pending := some { pending with approvals := insert player pending.approvals } } }
      (.ok outcome, table)

/-- A concession that removed no one is noted, and may end a vote; the flag tells whether a target
was installed. -/
def noopConcede (table : Table S) (actor : PlayerId) : Option TakebackResolution × Bool × Table S :=
  let table := { table with ledger := table.ledger.noteConcession actor }
  match table.ledger.pending with
  | none => (none, false, table)
  | some pending =>
    if pending.requestedBy = actor then
      (some .cancelled, false, { table with ledger := { table.ledger with pending := none } })
    else
      match table.tryResolve game aiSeats with
      | some restored => (some .approved, true, restored)
      | none => (none, false, table)

/-- What a concession does to an open vote. -/
def concession (table : Table S) (actor : PlayerId) (eliminatedBefore : List PlayerId) :
    Option TakebackResolution × Bool × Table S :=
  if (game.eliminatedPlayers table.state).any (!eliminatedBefore.contains ·) then
    let (resolution, ledger) := table.ledger.observeMatchForfeit
    (resolution, false, { table with ledger })
  else noopConcede game aiSeats table actor

/-- An installed target is not the state that the transition led to. -/
def closeAction (events : List GameEvent) (conceded : Option TakebackResolution × Bool × Table S) :
    Option TakebackResolution × Table S :=
  let (resolution, installed, table) := conceded
  (resolution, { table with ledger :=
    if installed then { table.ledger with clock := table.ledger.clock + 1 }
    else table.ledger.observeTransition game events table.state })

/-- The bookkeeping after a human action: the table's state is the one after it. -/
def recordHumanAction (table : Table S) (actor : PlayerId) (capture : TakebackCapture S)
    (action : GameAction) (result : ActionResult) : Option TakebackResolution × Table S :=
  let table : Table S :=
    { table with ledger := table.ledger.recordCapture actor capture action result }
  closeAction game result.events
    (if action = .concede then concession game aiSeats table actor capture.eliminatedBefore
    else (none, false, table))

end Table

end Phase.Takeback
