import Phase.Priority.Topology

/-! Priority passes, the grants that reset them and the departures that shrink
the table, as the engine performs them. -/
namespace Phase.Priority

inductive Step where
  | untap | upkeep | draw | preCombatMain | beginCombat | declareAttackers
  | declareBlockers | combatDamage | endCombat | postCombatMain | endStep | cleanup
  deriving DecidableEq

inductive MatchPhase where
  | inGame
  | betweenGames
  | completed
  deriving DecidableEq

/-- The engine's outstanding question. Only the priority window and the end of
the game are told apart; any other prompt is known by the player it waits on. -/
inductive WaitingFor where
  | priority (player : PlayerId)
  | gameOver (winner : Option PlayerId)
  | prompt (actor : Option PlayerId)
  deriving DecidableEq

def WaitingFor.actingPlayer : WaitingFor → Option PlayerId
  | .priority player => some player
  | .gameOver _ => none
  | .prompt actor => actor

structure GameState extends Table where
  priorityPlayer : PlayerId
  priorityPasses : Finset PlayerId
  priorityPassCount : Nat
  stack : List Nat
  phase : Step
  regularDamageDone : Option Bool
  waitingFor : WaitingFor
  eliminatedPlayers : List PlayerId
  matchPhase : MatchPhase
  gameEnd : Option (Option PlayerId)
  deriving DecidableEq

def clearPriorityPasses (state : GameState) : GameState :=
  { state with priorityPasses := ∅, priorityPassCount := 0 }

def resetPriority (state : GameState) : GameState :=
  clearPriorityPasses { state with priorityPlayer := state.activePlayer }

def prioritySeat (state : GameState) : PlayerId :=
  state.waitingFor.actingPlayer.getD state.priorityPlayer

/-- The rest of the game goes on from `s` to `s'`: nobody changes seats, and a
cleared pass record stays cleared. -/
structure Continues (s s' : GameState) : Prop where
  seatOrder : s'.seatOrder = s.seatOrder
  formatConfig : s'.formatConfig = s.formatConfig
  ids : s'.players.map (·.id) = s.players.map (·.id)
  cleared : s.priorityPasses = ∅ → s'.priorityPasses = ∅

/-- The table and the pass record are as before; anything else may differ. -/
structure Undisturbed (s s' : GameState) : Prop where
  seatOrder : s'.seatOrder = s.seatOrder
  formatConfig : s'.formatConfig = s.formatConfig
  players : s'.players = s.players
  priorityPasses : s'.priorityPasses = s.priorityPasses

/-- The engine modules behind the priority reducer: the stack resolver, the
turn machine, and the clean-up of a departed player's objects and prompts. -/
structure World where
  resolveNextWithLimit : Option Nat → GameState → GameState × Nat
  autoAdvance : GameState → GameState × WaitingFor × Bool
  advancePhaseOnce : GameState → Option GameState
  phaseTransitionRequiresSettlement : GameState → Bool
  sweepDeparture : List PlayerId → GameState → GameState
  settleDeparture : GameState → GameState
  resolve_continues : ∀ limit s, Continues s (resolveNextWithLimit limit s).1
  advance_continues : ∀ s, Continues s (autoAdvance s).1
  phase_continues : ∀ s s', advancePhaseOnce s = some s' → Continues s s'
  sweep_undisturbed : ∀ leaving s, Undisturbed s (sweepDeparture leaving s)
  settle_undisturbed : ∀ s, Undisturbed s (settleDeparture s)

/-- What a pass did: handed priority on, or ended the round. -/
inductive PassEffect where
  | handedTo (next : PlayerId)
  | transitionDeferred
  | reenteredStep
  | advancedPhase
  | resolvedStack (consumed : Nat)
  deriving DecidableEq

/-- The pass let the stack resolve or the turn move on. -/
def PassEffect.movesOn : PassEffect → Bool
  | .handedTo _ | .transitionDeferred => false
  | .reenteredStep | .advancedPhase | .resolvedStack _ => true

def nextPriorityPlayer (state : GameState) (current : PlayerId) : PlayerId :=
  let canonical := state.priorityPassRepresentative current
  let participants := state.priorityPassParticipants
  if canonical ∈ participants then
    (((List.range participants.length).map fun offset =>
      participants.getD
        ((participants.idxOf canonical + (offset + 1)) % participants.length) canonical).find?
        fun candidate => candidate ∉ state.priorityPasses).getD
      (state.nextPlayerInTurnOrder canonical)
  else state.nextPlayerInTurnOrder canonical

/-- The seat's pass enters the record under its team's representative. -/
def recordPass (state : GameState) (seat : PlayerId) : GameState :=
  { state with
    priorityPasses := insert (state.priorityPassRepresentative seat) state.priorityPasses
    priorityPassCount := state.priorityPassCount + 1 }

/-- The pass by `seat` ends the round: as many passes as living participants. -/
def endsRound (state : GameState) (seat : PlayerId) : Bool :=
  state.priorityPassParticipants.length ≤ (recordPass state seat).priorityPasses.card

def advanceTurn (w : World) (state : GameState) : GameState × PassEffect :=
  let incomplete := state.phase = .combatDamage ∧ state.regularDamageDone = some false
  if state.phase = .cleanup ∧ w.phaseTransitionRequiresSettlement state then
    (state, .transitionDeferred)
  else if incomplete ∨ state.phase = .cleanup then
    let (next, waitingFor, _) := w.autoAdvance state
    ({ next with waitingFor }, .reenteredStep)
  else
    match w.advancePhaseOnce state with
    | none => (state, .transitionDeferred)
    | some entered =>
      let (next, waitingFor, _) := w.autoAdvance entered
      ({ next with waitingFor }, .advancedPhase)

def resolveStack (w : World) (limit : Option Nat) (state : GameState) : GameState × PassEffect :=
  let (next, consumed) := w.resolveNextWithLimit limit state
  match next.waitingFor with
  | .priority _ =>
    let granted := resetPriority next
    ({ granted with waitingFor := .priority granted.activePlayer }, .resolvedStack consumed)
  | .gameOver _ | .prompt _ => (next, .resolvedStack consumed)

/-- `handle_priority_pass_with_limit`, with the returned window published. -/
def handlePriorityPass (w : World) (limit : Option Nat) (state : GameState) (seat : PlayerId) :
    GameState × PassEffect :=
  let recorded := recordPass state seat
  if endsRound state seat then
    let cleared := clearPriorityPasses recorded
    if cleared.stack.isEmpty then advanceTurn w cleared else resolveStack w limit cleared
  else
    let next := nextPriorityPlayer recorded (state.priorityPassRepresentative seat)
    ({ recorded with priorityPlayer := next, waitingFor := .priority next }, .handedTo next)

def markLeft : List Player → PlayerId → List Player
  | [], _ => []
  | p :: ps, player =>
    if p.id = player then { p with isEliminated := true } :: ps else p :: markLeft ps player

def doEliminate (state : GameState) (player : PlayerId) : GameState :=
  { state with
    players := markLeft state.players player
    eliminatedPlayers :=
      if player ∈ state.eliminatedPlayers then state.eliminatedPlayers
      else state.eliminatedPlayers ++ [player] }

def eliminateLiving (state : GameState) (player : PlayerId) : GameState :=
  if state.isAlive player then doEliminate state player else state

/-- One loser of a batch leaves, and the living teammates who lose with them. -/
def eliminateWithTeam (state : GameState) (player : PlayerId) : GameState :=
  if !state.isAlive player then state
  else
    let left := doEliminate state player
    if left.hasSharedLife player then (left.teammates player).foldl eliminateLiving left
    else left

def leavingSet (state : GameState) (players : List PlayerId) : List PlayerId :=
  players.flatMap fun player =>
    if !state.isAlive player then []
    else if state.hasSharedLife player then
      player :: (state.teammates player).filter state.isAlive
    else [player]

def endGame (state : GameState) (winner : Option PlayerId) : GameState :=
  { state with gameEnd := some winner, waitingFor := .gameOver winner }

def livingPlayers (state : GameState) : List PlayerId :=
  (state.players.filter fun p => !p.isEliminated).map (·.id)

def checkGameOver (state : GameState) : GameState :=
  match state.matchPhase, state.waitingFor, state.gameEnd with
  | .inGame, .gameOver _, _ => state
  | .inGame, _, some winner => { state with waitingFor := .gameOver winner }
  | .inGame, _, none =>
    let living := livingPlayers state
    match state.archenemy with
    | some archenemy =>
      let heroes := living.filter fun id => id ≠ archenemy
      if archenemy ∈ living then
        if heroes.isEmpty then endGame state (some archenemy) else state
      else endGame state heroes.head?
    | none =>
      if state.formatConfig.format.isTwoHeadedGiantFamily then
        if (living.map state.teamId).toFinset.card ≤ 1 then endGame state living.head?
        else state
      else if living.length ≤ 1 then endGame state living.head? else state
  | _, _, _ => state

/-- The window of a departed player passes to the next living seat. -/
def repointWindow (state : GameState) : GameState :=
  match state.waitingFor.actingPlayer with
  | some actor =>
    if state.isAlive actor then state
    else { state with waitingFor := .priority (state.nextPlayer actor) }
  | none => state

def eliminatePlayers (w : World) (state : GameState) (players : List PlayerId) : GameState :=
  let left := players.foldl eliminateWithTeam state
  if (leavingSet state players).isEmpty then left
  else
    let judged := checkGameOver (w.sweepDeparture (leavingSet state players) left)
    match judged.waitingFor with
    | .gameOver _ => judged
    | .priority _ | .prompt _ => repointWindow (w.settleDeparture judged)

def concede (w : World) (state : GameState) (player : PlayerId) : GameState :=
  eliminatePlayers w state [player]

end Phase.Priority
