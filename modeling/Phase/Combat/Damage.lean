import Phase.Combat.Contributions
import Mathlib.Data.UInt

/-! A batch of combat damage: what it deals, the lifelink gains it owes, and how a replacement
choice suspends it. -/
namespace Phase.Combat

inductive AppliedReplacementKey where
  | object (source : ObjectId) (index : Nat)
  | floating (index : Nat)
  | stepEndMana (index : Nat)
  | entryControllerChoice (source : ObjectId) (index : Nat) (controller : PlayerId)
  deriving DecidableEq

structure ReplacementId where
  source : ObjectId
  index : Nat
  deriving DecidableEq

/-- Replacements without an object have the source zero. -/
def AppliedReplacementKey.asReplacementId : AppliedReplacementKey → ReplacementId
  | .object source index | .entryControllerChoice source index _ => ⟨source, index⟩
  | .floating index | .stepEndMana index => ⟨0, index⟩

def AppliedReplacementKey.sortKey : AppliedReplacementKey → List Nat
  | .object source index => [0, source, index, 0]
  | .floating index => [1, 0, index, 0]
  | .stepEndMana index => [2, 0, index, 0]
  | .entryControllerChoice source index controller => [3, source, index, controller]

/-- An event other than a player's combat damage. -/
inductive PlainEvent (E : Type) where
  | damagePrevented (source : ObjectId) (target : DamageTarget) (amount : Nat)
  | other (event : E)
  deriving DecidableEq

inductive GameEvent (E : Type) where
  | combatDamageDealtToPlayer (player : PlayerId) (sourceAmounts : List (ObjectId × UInt32))
      (totalDamage : UInt32) (sourceIncarnations : List ObjectIncarnationRef)
  | plain (event : PlainEvent E)
  deriving DecidableEq

inductive WaitingFor (W : Type) where
  | priority (player : PlayerId)
  | assignDamage (prompt : DamagePrompt)
  | orderTriggers (prompt : W)
  | gameOver (prompt : W)
  | other (prompt : W)
  deriving DecidableEq

def WaitingFor.isPriority {W : Type} : WaitingFor W → Bool
  | .priority _ => true
  | _ => false

structure CommanderDamageEntry where
  player : PlayerId
  commander : ObjectId
  damage : UInt32
  deriving DecidableEq

/-- The state of the game but for a suspended batch. -/
structure View (R W : Type) where
  board : GameState
  waitingFor : WaitingFor W
  commanderDamage : List CommanderDamageEntry
  rest : R

/-- Which sub-steps of the combat are done. -/
def GameState.damageFlags (state : GameState) : Option (Bool × Bool) :=
  state.combat.map fun combat => (combat.firstStrikeDone, combat.regularDamageDone)

section
variable {R W : Type} (view : View R W)

def View.flags : Option (Bool × Bool) := view.board.damageFlags

/-- What the rest of the game makes of a state: which sub-steps are done is not its business. -/
def View.Next : Type := { after : View R W // after.flags = view.flags }

def View.setBoard (board : GameState) : View R W := { view with board }

def View.setWaiting (waitingFor : WaitingFor W) : View R W := { view with waitingFor }

end

structure DamageContext (D : Type) where
  sourceId : ObjectId
  controller : PlayerId
  sourceIncarnation : Option Nat
  hasLifelink : Bool
  details : D
  deriving DecidableEq

inductive DamageResult where
  | applied (amount : UInt32)
  | needsChoice
  deriving DecidableEq

inductive ReplacementDeferred where
  | replacementChoice
  | substitutionContinuation
  deriving DecidableEq

/-- A damage replacement as the rider of its prevention sees it. -/
structure PreventionShield (Q : Type) where
  isOneShot : Bool
  shieldedPlayer : Option PlayerId
  rider : Option Q
  deriving DecidableEq

/-- What a batch calls of the rest of the game. -/
structure Engine where
  Rest : Type
  Prompt : Type
  Event : Type
  Details : Type
  Proposed : Type
  Rider : Type
  isCommander : View Rest Prompt → ObjectId → Bool
  fromSource : View Rest Prompt → ObjectId → Option (DamageContext Details)
  lkiController : View Rest Prompt → ObjectId → Option PlayerId
  noDetails : Details
  preReplacementDamageGate : View Rest Prompt → DamageContext Details → DamageTarget → Nat →
    List (PlainEvent Event) × Option Proposed
  replaceCombatDamageBatch : (view : View Rest Prompt) → List Proposed →
    List (Option Proposed) × AList (fun _ : AppliedReplacementKey => Int) ×
      List (PlainEvent Event) × view.Next
  applyDamageAfterReplacement : (view : View Rest Prompt) → DamageContext Details → Proposed →
    DamageResult × List (PlainEvent Event) × view.Next
  applyLifeGain : (view : View Rest Prompt) → PlayerId → UInt32 →
    Except ReplacementDeferred UInt32 × List (PlainEvent Event) × view.Next
  isShieldCounter : ReplacementId → Bool
  consumeShieldCounter : (view : View Rest Prompt) → ObjectId → List (PlainEvent Event) × view.Next
  replacementDefinition : View Rest Prompt → ReplacementId → Option (PreventionShield Rider)
  resolveRider : (view : View Rest Prompt) → Rider → Int → List (PlainEvent Event) × view.Next
  lives : View Rest Prompt → List Int
  clearLoopDetectWindow : (view : View Rest Prompt) → view.Next
  processCombatDamageTriggers : (view : View Rest Prompt) → List (GameEvent Event) → Bool →
    List (PlainEvent Event) × view.Next
  stackIsEmpty : View Rest Prompt → Bool
  resetPriority : (view : View Rest Prompt) → view.Next
  claimEvents : (view : View Rest Prompt) → List (GameEvent Event) → Nat → view.Next
  recordStepBegin : (view : View Rest Prompt) → view.Next

structure PendingLifelinkGain where
  controller : PlayerId
  amount : UInt32
  deriving DecidableEq

/-- The tail of a batch that a replacement choice has suspended. -/
structure PendingCombatLifelink (E : Type) where
  remaining : List PendingLifelinkGain
  batchEvents : List (GameEvent E)
  damageToPlayers : List (GameEvent E)
  preventionTally : List (AppliedReplacementKey × Int)
  livesBefore : List Int
  subStep : CombatDamageSubStep
  deriving DecidableEq

/-- What came of a damage assignment that was not gated. -/
structure Hit where
  sourceId : ObjectId
  sourceIncarnation : Option Nat
  lifelinkController : Option PlayerId
  target : DamageTarget
  amount : UInt32
  deriving DecidableEq

structure LifelinkTotal where
  sourceId : ObjectId
  controller : PlayerId
  total : UInt32
  deriving DecidableEq

structure PlayerTotal where
  player : PlayerId
  sources : List (ObjectId × UInt32)
  total : UInt32
  deriving DecidableEq

structure BatchTotals where
  lifelinkBySource : List LifelinkTotal := []
  combatDamageToPlayers : List PlayerTotal := []
  sourceIncarnations : List ObjectIncarnationRef := []
  deriving DecidableEq

/-- The controller that gains life for a hit. -/
def Hit.gainer (hit : Hit) : Option PlayerId :=
  if 0 < hit.amount then hit.lifelinkController else none

def BatchTotals.addLifelink (totals : BatchTotals) (hit : Hit) : List LifelinkTotal :=
  match hit.gainer with
  | some controller => Tally.add (·.sourceId)
      (fun entry => { entry with total := entry.total + hit.amount })
      ⟨hit.sourceId, controller, hit.amount⟩ totals.lifelinkBySource
  | none => totals.lifelinkBySource

def PlayerTotal.add (hit : Hit) (entry : PlayerTotal) : PlayerTotal :=
  { entry with
    sources := Tally.add (·.1) (fun source => (source.1, source.2 + hit.amount))
      (hit.sourceId, hit.amount) entry.sources
    total := entry.total + hit.amount }

/-- The totals with one more hit. -/
def BatchTotals.count (totals : BatchTotals) (hit : Hit) : BatchTotals where
  lifelinkBySource := totals.addLifelink hit
  combatDamageToPlayers :=
    match hit.target with
    | .player player => Tally.add (·.player) (PlayerTotal.add hit)
        ⟨player, [(hit.sourceId, hit.amount)], hit.amount⟩ totals.combatDamageToPlayers
    | .object _ => totals.combatDamageToPlayers
  sourceIncarnations :=
    match hit.target, hit.sourceIncarnation with
    | .player _, some incarnation =>
      if ⟨hit.sourceId, incarnation⟩ ∈ totals.sourceIncarnations then totals.sourceIncarnations
      else totals.sourceIncarnations ++ [⟨hit.sourceId, incarnation⟩]
    | _, _ => totals.sourceIncarnations

def BatchTotals.gains (totals : BatchTotals) : List PendingLifelinkGain :=
  totals.lifelinkBySource.map fun entry => ⟨entry.controller, entry.total⟩

def BatchTotals.damageToPlayers (E : Type) (totals : BatchTotals) : List (GameEvent E) :=
  totals.combatDamageToPlayers.map fun entry =>
    .combatDamageDealtToPlayer entry.player entry.sources entry.total
      (totals.sourceIncarnations.filter fun source =>
        entry.sources.any fun amount => amount.1 = source.objectId)

def countCommanderDamage (entries : List CommanderDamageEntry) (hit : Hit) (isCommander : Bool) :
    List CommanderDamageEntry :=
  match hit.target with
  | .player player =>
    if isCommander && 0 < hit.amount then
      Tally.add (fun entry => (entry.player, entry.commander))
        (fun entry => { entry with damage := entry.damage + hit.amount })
        ⟨player, hit.sourceId, hit.amount⟩ entries
    else entries
  | .object _ => entries

/-- What is done about a batch after its damage is dealt. -/
inductive Deed (E : Type) where
  | gain (gain : PendingLifelinkGain)
  | left (player : PlayerId)
  | abandoned
  | damageToPlayers (events : List (GameEvent E))
  | rider (key : AppliedReplacementKey) (total : Int)
  | subStepDone (subStep : CombatDamageSubStep)
  deriving DecidableEq

/-- A batch as it was dealt, and what has been done about it since. -/
structure DealtBatch (E : Type) where
  subStep : CombatDamageSubStep
  hits : List Hit
  prevented : List (AppliedReplacementKey × Int)
  deeds : List (Deed E)
  deriving DecidableEq

/-- The history, the latest batch first, is a record beside the state. -/
structure Game (engine : Engine) where
  view : View engine.Rest engine.Prompt
  pendingCombatLifelink : Option (PendingCombatLifelink engine.Event)
  events : List (GameEvent engine.Event)
  history : List (DealtBatch engine.Event)

section
variable {engine : Engine}

def Game.note (game : Game engine) (deed : Deed engine.Event) : Game engine :=
  { game with history := game.history.modifyHead fun batch =>
      { batch with deeds := batch.deeds ++ [deed] } }

def Game.setView (game : Game engine) (view : View engine.Rest engine.Prompt) : Game engine :=
  { game with view }

def Game.emit (game : Game engine) (events : List (GameEvent engine.Event)) : Game engine :=
  { game with events := game.events ++ events }

end

end Phase.Combat
