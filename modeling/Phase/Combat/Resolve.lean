import Phase.Combat.Damage

/-! The resolution of combat damage: a batch is dealt, its gains are drained, and where one is
suspended it is resumed by whichever door comes first. -/
namespace Phase.Combat

variable {engine : Engine}

structure BatchEntry (D : Type) where
  ctx : DamageContext D
  sourceIsCommander : Bool
  assignment : DamageAssignment
  lifelinkController : Option PlayerId
  deriving DecidableEq

def damageContext (view : View engine.Rest engine.Prompt) (sourceId : ObjectId) :
    DamageContext engine.Details :=
  match engine.fromSource view sourceId with
  | some ctx => ctx
  | none =>
    ⟨sourceId, (engine.lkiController view sourceId).getD view.board.activePlayer, none, false,
      engine.noDetails⟩

/-- Lifelink is taken out of the context: it is settled for the whole batch. -/
def batchEntry (view : View engine.Rest engine.Prompt) (sourceId : ObjectId)
    (assignment : DamageAssignment) : BatchEntry engine.Details :=
  let ctx := damageContext view sourceId
  { ctx := { ctx with hasLifelink := false }
    sourceIsCommander := engine.isCommander view sourceId
    assignment
    lifelinkController := if ctx.hasLifelink then some ctx.controller else none }

/-- The assignments that are not gated, with their proposed events. -/
def collectProposed (view : View engine.Rest engine.Prompt) :
    List (ObjectId × DamageAssignment) →
      List (PlainEvent engine.Event) × List (BatchEntry engine.Details × engine.Proposed)
  | [] => ([], [])
  | (sourceId, assignment) :: rest =>
    let entry := batchEntry view sourceId assignment
    let (events, proposed) :=
      engine.preReplacementDamageGate view entry.ctx assignment.target assignment.amount
    let (later, collected) := collectProposed view rest
    (events ++ later, (proposed.map (entry, ·)).toList ++ collected)

structure Applied (engine : Engine) where
  view : View engine.Rest engine.Prompt
  events : List (PlainEvent engine.Event)
  totals : BatchTotals
  hits : List Hit

def applySurvivor (entry : BatchEntry engine.Details) (survivor : Option engine.Proposed)
    (applied : Applied engine) : Applied engine :=
  let (amount, new, view) : UInt32 × List (PlainEvent engine.Event) × _ :=
    match survivor with
    | some proposed =>
      match engine.applyDamageAfterReplacement applied.view entry.ctx proposed with
      | (.applied amount, new, next) => (amount, new, next.1)
      -- Combat damage does not wait for a choice.
      | (.needsChoice, new, next) => (0, new, next.1)
    | none => (0, [], applied.view)
  let hit : Hit := ⟨entry.ctx.sourceId, entry.ctx.sourceIncarnation, entry.lifelinkController,
    entry.assignment.target, amount⟩
  { view := { view with
      commanderDamage := countCommanderDamage view.commanderDamage hit entry.sourceIsCommander }
    events := applied.events ++ new
    totals := applied.totals.count hit
    hits := applied.hits ++ [hit] }

def applySurvivors : List (BatchEntry engine.Details × Option engine.Proposed) →
    Applied engine → Applied engine
  | [], applied => applied
  | (entry, survivor) :: rest, applied =>
    applySurvivors rest (applySurvivor entry survivor applied)

inductive CombatDamageBatch (engine : Engine) where
  | complete (events : List (GameEvent engine.Event))
  | paused (events : List (GameEvent engine.Event)) (waitingFor : WaitingFor engine.Prompt)

def CombatDamageBatch.events : CombatDamageBatch engine → List (GameEvent engine.Event)
  | .complete events | .paused events _ => events

def invalidateLoopRing (view : View engine.Rest engine.Prompt) (livesBefore : List Int) :
    View engine.Rest engine.Prompt :=
  if engine.lives view = livesBefore then view else (engine.clearLoopDetectWindow view).1

/-- Hands over the gains up to one that a replacement choice suspends. What is left after that one
is returned. -/
def drainGains (waitingBefore : WaitingFor engine.Prompt) :
    List PendingLifelinkGain → List (GameEvent engine.Event) → Game engine →
      Option (List PendingLifelinkGain) × List (GameEvent engine.Event) × Game engine
  | [], events, game => (none, events, game)
  | gain :: rest, events, game =>
    let (outcome, new, next) := engine.applyLifeGain game.view gain.controller gain.amount
    let events := events ++ new.map .plain
    let game := (game.setView next.1).note (.gain gain)
    match outcome with
    | .ok _ => drainGains waitingBefore rest events game
    | .error .replacementChoice => (some rest, events, game)
    | .error .substitutionContinuation =>
      drainGains waitingBefore rest events (game.setView (game.view.setWaiting waitingBefore))

/-- What a prevention shield does once a batch's damage is dealt. -/
def firePreventionRider (view : View engine.Rest engine.Prompt) (key : AppliedReplacementKey)
    (total : Int) : List (PlainEvent engine.Event) × View engine.Rest engine.Prompt :=
  let rid := key.asReplacementId
  if engine.isShieldCounter rid then
    let (events, next) := engine.consumeShieldCounter view rid.source
    (events ++ [.damagePrevented rid.source (.object rid.source) total.toNat], next.1)
  else
    match engine.replacementDefinition view rid with
    | none => ([], view)
    | some shield =>
      let prevented :=
        if shield.isOneShot then []
        else
          let target := match shield.shieldedPlayer with
            | some player => DamageTarget.player player
            | none => .object rid.source
          [.damagePrevented rid.source target total.toNat]
      match shield.rider with
      | none => (prevented, view)
      | some rider =>
        let (events, next) := engine.resolveRider view rider total
        (prevented ++ events, next.1)

def fireCombatPreventionRiders : List (AppliedReplacementKey × Int) →
    List (GameEvent engine.Event) → Game engine → List (GameEvent engine.Event) × Game engine
  | [], events, game => (events, game)
  | (key, total) :: rest, events, game =>
    if total ≤ 0 then fireCombatPreventionRiders rest events game
    else
      let (new, view) := firePreventionRider game.view key total
      fireCombatPreventionRiders rest (events ++ new.map .plain)
        ((game.setView view).note (.rider key total))

def drainCombatLifelink (game : Game engine) (record : PendingCombatLifelink engine.Event) :
    CombatDamageBatch engine × Game engine :=
  match drainGains game.view.waitingFor record.remaining record.batchEvents game with
  | (some remaining, events, game) =>
    let waitingFor := game.view.waitingFor
    let game := game.setView (invalidateLoopRing game.view record.livesBefore)
    let parked := { record with remaining, batchEvents := events }
    (.paused events waitingFor, { game with pendingCombatLifelink := some parked })
  | (none, events, game) =>
    let game := game.note (.damageToPlayers record.damageToPlayers)
    let (events, game) := fireCombatPreventionRiders record.preventionTally
      (events ++ record.damageToPlayers) game
    (.complete events, game.setView (invalidateLoopRing game.view record.livesBefore))

def applyCombatDamage (game : Game engine) (assignments : List (ObjectId × DamageAssignment))
    (subStep : CombatDamageSubStep) : CombatDamageBatch engine × Game engine :=
  let livesBefore := engine.lives game.view
  let (gated, collected) := collectProposed game.view assignments
  let (survivors, tally, replaced, next) :=
    engine.replaceCombatDamageBatch game.view (collected.map (·.2))
  let applied := applySurvivors ((collected.map (·.1)).zip survivors)
    ⟨next.1, gated ++ replaced, {}, []⟩
  let preventionTally := (tally.entries.map fun entry => (entry.1, entry.2)).insertionSort
    fun a b => a.1.sortKey ≤ b.1.sortKey
  let game := { game with
    view := applied.view
    history := ⟨subStep, applied.hits, preventionTally, []⟩ :: game.history }
  drainCombatLifelink game
    { remaining := applied.totals.gains
      batchEvents := applied.events.map .plain
      damageToPlayers := applied.totals.damageToPlayers engine.Event
      preventionTally
      livesBefore
      subStep }

def pendingCombatDamageWaiting (view : View engine.Rest engine.Prompt) :
    Option (WaitingFor engine.Prompt) :=
  match view.waitingFor with
  | .orderTriggers prompt => some (.orderTriggers prompt)
  | .gameOver prompt => some (.gameOver prompt)
  | _ => none

def CombatState.finish (combat : CombatState) : CombatDamageSubStep → CombatState
  | .firstStrike =>
    { combat with firstStrikeDone := true, damageStepIndex := none, damageAssignments := ∅ }
  | .regular => { combat with regularDamageDone := true, damageStepIndex := none }

def includesPhaseEvent (board : GameState) : CombatDamageSubStep → Bool
  | .firstStrike => true
  | .regular => board.combat.any fun combat =>
    !combat.firstStrikeDone && combat.participants.isEmpty

/-- The flag is only set where there still is a combat. -/
def Game.setDone (game : Game engine) (subStep : CombatDamageSubStep) : Game engine :=
  match game.view.board.combat with
  | none => game
  | some _ =>
    (game.setView (game.view.setBoard (game.view.board.updateCombat (·.finish subStep)))).note
      (.subStepDone subStep)

def processTriggers (game : Game engine) (damageEvents : List (GameEvent engine.Event))
    (includePhaseEvent : Bool) : Game engine :=
  let (new, next) := engine.processCombatDamageTriggers game.view damageEvents includePhaseEvent
  (game.setView next.1).emit (new.map .plain)

def finishCombatDamageSubStep (game : Game engine) (subStep : CombatDamageSubStep)
    (damageEvents : List (GameEvent engine.Event)) :
    Option (WaitingFor engine.Prompt) × Game engine :=
  let includePhaseEvent := includesPhaseEvent game.view.board subStep
  let game := processTriggers (game.setDone subStep) damageEvents includePhaseEvent
  match pendingCombatDamageWaiting game.view with
  | some waitingFor => (some waitingFor, game)
  | none =>
    match subStep with
    | .regular => (none, game)
    | .firstStrike =>
      if engine.stackIsEmpty game.view then (none, game)
      else
        let game := game.setView (engine.resetPriority game.view).1
        (some (.priority game.view.board.activePlayer), game)

def claimEvents (game : Game engine) (start : Nat) : Game engine :=
  game.setView (engine.claimEvents game.view game.events start).1

def takePendingDamage (board : GameState) : List (ObjectId × DamageAssignment) × GameState :=
  ((board.combat.map (·.pendingDamage)).getD [],
    board.updateCombat fun combat => { combat with pendingDamage := [] })

/-- One sub-step: its damage is assigned and dealt, and it is finished unless it is suspended. -/
def resolveSubStep (game : Game engine) (subStep : CombatDamageSubStep) :
    Option (WaitingFor engine.Prompt) × Game engine :=
  match collectDamageAssignments game.view.board subStep with
  | (some prompt, board) => (some (.assignDamage prompt), game.setView (game.view.setBoard board))
  | (none, board) =>
    let (pending, board) := takePendingDamage board
    let (batch, game) :=
      applyCombatDamage (game.setView (game.view.setBoard board)) pending subStep
    let start := game.events.length
    let game := game.emit batch.events
    match batch with
    | .paused _ waitingFor => (some waitingFor, claimEvents game start)
    | .complete damageEvents => finishCombatDamageSubStep game subStep damageEvents

/-- The second combat damage step begins when its damage is first assigned. -/
def beginSecondStep (game : Game engine) : Game engine :=
  if game.view.board.combat.any fun combat =>
      combat.firstStrikeDone && combat.damageStepIndex.isNone then
    game.setView (engine.recordStepBegin game.view).1
  else game

def resolveSubSteps (game : Game engine) : Option (WaitingFor engine.Prompt) × Game engine :=
  match game.view.board.combat with
  | none => (none, game)
  | some combat =>
    if combat.regularDamageDone then (none, game)
    else
      let participants := combat.firstStrikeParticipants.getD
        (combatFirstStrikeParticipants game.view.board combat)
      let game := game.setView (game.view.setBoard (snapshotParticipants game.view.board))
      if !participants.isEmpty && !combat.firstStrikeDone then
        match resolveSubStep game .firstStrike with
        | (some waitingFor, game) => (some waitingFor, game)
        | (none, game) => resolveSubStep (beginSecondStep game) .regular
      else resolveSubStep (beginSecondStep game) .regular

/-- Finishes a suspended batch, with the events of the action that answered. The sub-steps after
it are resolved with nothing suspended. -/
def resumePendingCombatLifelink (game : Game engine) (actionEventStart : Nat) :
    Option (WaitingFor engine.Prompt) × Game engine :=
  match game.pendingCombatLifelink with
  | none => (none, game)
  | some record =>
    let record := { record with
      batchEvents := record.batchEvents ++ game.events.drop actionEventStart }
    let owedFrom := record.batchEvents.length
    match drainCombatLifelink { game with pendingCombatLifelink := none } record with
    | (.paused batch waitingFor, game) =>
      (some waitingFor, claimEvents (game.emit (batch.drop owedFrom)) actionEventStart)
    | (.complete damageEvents, game) =>
      let (waitingFor, game) := finishCombatDamageSubStep
        (game.emit (damageEvents.drop owedFrom)) record.subStep damageEvents
      let game := claimEvents game actionEventStart
      match waitingFor with
      | some waitingFor => (some waitingFor, game)
      | none =>
        let (waitingFor, game) := resolveSubSteps game
        (some (waitingFor.getD (.priority game.view.board.activePlayer)), game)

def resolveCombatDamage (game : Game engine) : Option (WaitingFor engine.Prompt) × Game engine :=
  match game.pendingCombatLifelink with
  | some _ =>
    if game.view.waitingFor.isPriority then
      resumePendingCombatLifelink game game.events.length
    else (some game.view.waitingFor, game)
  | none => resolveSubSteps game

/-- The answer of a replacement choice is `inner`'s business. Only when it leaves nothing to answer
is the batch resumed. -/
def handleReplacementChoice
    (inner : Game engine → Except String (WaitingFor engine.Prompt × Game engine))
    (game : Game engine) : Except String (WaitingFor engine.Prompt × Game engine) := do
  let actionEventStart := game.events.length
  let (waitingFor, game) ← inner game
  if waitingFor.isPriority then
    let (resumed, game) := resumePendingCombatLifelink
      (game.setView (game.view.setWaiting waitingFor)) actionEventStart
    return (resumed.getD waitingFor, game)
  else return (waitingFor, game)

/-- The turn of a player who has left is only skipped once the batch is finished, or waits for an
answer that `canAnswer` holds of. -/
def autoAdvanceEliminated (canAnswer : WaitingFor engine.Prompt → Bool) (game : Game engine) :
    Option (WaitingFor engine.Prompt) × Game engine :=
  match game.pendingCombatLifelink with
  | none => (none, game)
  | some _ =>
    match resumePendingCombatLifelink game game.events.length with
    | (some waitingFor, game) =>
      if !waitingFor.isPriority && canAnswer waitingFor then
        (some waitingFor, game.setView (game.view.setWaiting waitingFor))
      else (none, game)
    | (none, game) => (none, game)

/-- A player who leaves the game gains no life. -/
def dropOwedGains (game : Game engine) (player : PlayerId) : Game engine :=
  match game.pendingCombatLifelink with
  | none => game
  | some record =>
    { game with pendingCombatLifelink := some { record with
      remaining := record.remaining.filter (·.controller ≠ player) } }.note (.left player)

/-- A suspended batch does not outlive its step. -/
def enterPhase (game : Game engine) : Game engine :=
  match game.pendingCombatLifelink with
  | none => game
  | some _ => { game with pendingCombatLifelink := none }.note .abandoned

end Phase.Combat
