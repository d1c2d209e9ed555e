import Phase.Lib.Fallible
import Mathlib.Logic.Basic

/-! The game state that a staged payment runs on, and the engine it runs with. -/
namespace Phase.Payment

abbrev PlayerId := Nat
abbrev ObjectId := Nat

/-- The types of the engine that staging passes on without looking into them. `Rest` is all of the
game that staging does not name. -/
structure Kinds where
  Rest : Type
  Effect : Type
  Action : Type
  Event : Type
  Claim : Type
  LogEntry : Type
  WaitingFor : Type
  EffectError : Type
  EngineError : Type

variable (K : Kinds)

/-- An ability with the clauses that follow it. -/
inductive ResolvedAbility where
  | mk (effect : K.Effect) (controller : PlayerId) (optionalEffectPerformed : Bool)
      (subAbility elseAbility : Option ResolvedAbility)

structure ResolvingTriggerContext where
  event : Option K.Event
  events : List K.Event
  matchCount : Option Nat
  dieResult : Option Int

structure ResolutionPaymentTranscriptEntry where
  authenticatedActor : PlayerId
  semanticOwner : PlayerId
  action : K.Action

structure ResolutionPaymentTransaction where
  wireVersion : Nat
  owner : PlayerId
  root : ResolvedAbility K
  transcript : List (ResolutionPaymentTranscriptEntry K)
  baseWaitingFor : K.WaitingFor
  resolvingTriggerContext : Option (ResolvingTriggerContext K)

structure GameState where
  waitingFor : K.WaitingFor
  paymentTransaction : Option (ResolutionPaymentTransaction K)
  paymentTransactionReplay : Bool
  paymentTransactionJustHandled : Bool
  costPaymentFailedFlag : Bool
  currentTriggerEvent : Option K.Event
  currentTriggerEvents : List K.Event
  currentTriggerMatchCount : Option Nat
  dieResultThisResolution : Option Int
  consumedBeforePriorityTriggerEvents : List K.Claim
  deferredEntryEvents : List K.Event
  resolvingStackEntry : Option ObjectId
  gameEnd : Bool
  rest : K.Rest

inductive EngineError where
  | invalidAction (message : String)
  | other (error : K.EngineError)

structure ActionResult where
  events : List K.Event
  waitingFor : K.WaitingFor
  logEntries : List K.LogEntry

inductive TriggerCollectionRequester where
  | ordinary
  | delayed
  deriving DecidableEq

/-- What staging calls. Each is any function of its arguments; those that the source lets write to
the state or to a buffer of events return them. -/
structure Engine where
  actingPlayers : K.WaitingFor → List PlayerId
  isPriority : K.WaitingFor → Bool
  hasActiveAbilityContinuation : GameState K → Bool
  debug : K.EffectError → String
  resolveAbilityChain : GameState K → ResolvedAbility K → List K.Event → Nat →
    Except K.EffectError (GameState K × List K.Event)
  applyAdmittedRecordedAction : GameState K → PlayerId → PlayerId → K.Action →
    Except (EngineError K) (GameState K × ActionResult K)
  applyParentChainContext : ResolvedAbility K → ResolvedAbility K → GameState K → ResolvedAbility K
  retainedLogicalZoneEvents : GameState K → List K.Event
  retainedCostEvents : GameState K → List K.Event
  filterAlreadyCollectedTriggerEvents : GameState K → List K.Event → Nat → List K.Claim →
    List K.Event
  filterConsumedTriggerEvents : List K.Event → Nat → TriggerCollectionRequester →
    List K.Claim → List K.Event
  collectTriggersIntoDeferred : GameState K → List K.Event → GameState K
  collectDelayedTriggerContextsIntoDeferred : GameState K → List K.Event → GameState K
  resumePendingContinuationIfPriority : GameState K → List K.Event →
    Except (EngineError K) (GameState K × List K.Event)
  isPendingTriggerConstructionActive : GameState K → Bool
  runPostActionPipeline : GameState K → List K.Event → Nat → K.WaitingFor → Option ObjectId →
    Except (EngineError K) (GameState K × List K.Event × K.WaitingFor)
  syncWaitingFor : GameState K → K.WaitingFor → GameState K
  authorizedSubmitters : GameState K → List PlayerId

end Phase.Payment

/-! The staged payment: every answer reruns the payment from the untouched base. -/
namespace Phase.Payment

variable {K : Kinds}

inductive ReplayOutcome (K : Kinds) where
  | paused (shadow : GameState K)
  | completed (shadow : GameState K) (events : List K.Event) (logEntries : List K.LogEntry)
  | failed

namespace ResolvedAbility

def controller : ResolvedAbility K → PlayerId
  | mk _ controller _ _ _ => controller

def subAbility : ResolvedAbility K → Option (ResolvedAbility K)
  | mk _ _ _ sub _ => sub

/-- The payment clause alone; what follows it stays with the root. -/
def paymentOnlyRoot : ResolvedAbility K → ResolvedAbility K
  | mk effect controller performed _ _ => mk effect controller performed none none

/-- The context of the parent also says whether the payment was made. -/
def performed (paymentSucceeded : Bool) : ResolvedAbility K → ResolvedAbility K
  | mk effect controller performed sub else_ =>
    mk effect controller (performed || paymentSucceeded) sub else_

end ResolvedAbility

namespace GameState
variable (state : GameState K)

/-- The trigger context that is live, `none` when there is none. -/
def captureTriggerContext : Option (ResolvingTriggerContext K) :=
  if state.currentTriggerEvent.isSome || !state.currentTriggerEvents.isEmpty ||
      state.currentTriggerMatchCount.isSome || state.dieResultThisResolution.isSome then
    some {
      event := state.currentTriggerEvent
      events := state.currentTriggerEvents
      matchCount := state.currentTriggerMatchCount
      dieResult := state.dieResultThisResolution }
  else none

def restoreTriggerContext : Option (ResolvingTriggerContext K) → GameState K
  | none => state
  | some context => { state with
      currentTriggerEvent := context.event
      currentTriggerEvents := context.events
      currentTriggerMatchCount := context.matchCount
      dieResultThisResolution := context.dieResult }

theorem restoreTriggerContext_capture :
    state.restoreTriggerContext state.captureTriggerContext = state := by
  rw [captureTriggerContext]
  split <;> rfl

/-- Without a transaction, with the guards as given. -/
def unstaged (replay : Bool) : GameState K :=
  { state with
    paymentTransaction := none
    paymentTransactionReplay := replay
    paymentTransactionJustHandled := false }

end GameState

namespace Engine
variable [DecidableEq K.WaitingFor] [DecidableEq K.Event] (engine : Engine K)

def replayError (error : K.EffectError) : EngineError K :=
  .invalidAction s!"staged payment transaction replay failed: {engine.debug error}"

def returnedToBaseWaiting (state : GameState K) (baseWaitingFor : K.WaitingFor) : Bool :=
  if state.waitingFor = baseWaitingFor then true
  else engine.isPriority state.waitingFor && engine.isPriority baseWaitingFor &&
    !engine.hasActiveAbilityContinuation state

/-- Stages a payment, or makes it at once when it neither fails nor asks for anything. -/
def begin (state : GameState K) (ability : ResolvedAbility K) (events : List K.Event) :
    Except K.EffectError (GameState K × List K.Event) := do
  let base := state
  let context := base.captureTriggerContext
  let (shadow, buffered) ← engine.resolveAbilityChain (base.unstaged true)
    ability.paymentOnlyRoot [] 0
  let shadow := shadow.restoreTriggerContext context
  let shadow := { shadow with paymentTransactionReplay := false }
  if shadow.costPaymentFailedFlag then
    return ({ base with
      costPaymentFailedFlag := true
      paymentTransactionJustHandled := false }, events)
  else if shadow.waitingFor = base.waitingFor then
    return (shadow.unstaged false, events ++ buffered)
  else
    return ({ base with
      paymentTransaction := some {
        wireVersion := 1
        owner := (engine.actingPlayers shadow.waitingFor).head?.getD ability.controller
        root := ability
        transcript := []
        baseWaitingFor := base.waitingFor
        resolvingTriggerContext := context }
      waitingFor := shadow.waitingFor
      costPaymentFailedFlag := false
      paymentTransactionReplay := false
      paymentTransactionJustHandled := true }, events)

/-- How a payment comes to be staged: with the failure flag cleared, and outside any other. -/
def stageComposite (state : GameState K) (ability : ResolvedAbility K) (events : List K.Event) :
    Option (Except K.EffectError (GameState K × List K.Event)) :=
  let state := { state with costPaymentFailedFlag := false }
  if !state.paymentTransactionReplay && state.paymentTransaction.isNone then
    some (engine.begin state ability events)
  else none

/-- The triggers of the events of the root, which no action result reports. -/
def collectInitialPaymentEvents (state : GameState K) (events : List K.Event) : GameState K :=
  let retained := engine.retainedLogicalZoneEvents state ++ state.deferredEntryEvents ++
    engine.retainedCostEvents state
  let claims := state.consumedBeforePriorityTriggerEvents
  let ordinary := (engine.filterAlreadyCollectedTriggerEvents state events 0 claims).filter
    (· ∉ retained)
  let delayed := (engine.filterConsumedTriggerEvents events 0 .delayed claims).filter
    (· ∉ retained)
  engine.collectDelayedTriggerContextsIntoDeferred
    (engine.collectTriggersIntoDeferred state ordinary) delayed

/-- One recorded action on the shadow; `none` when the payment fails there. -/
def replayEntry (context : Option (ResolvingTriggerContext K))
    (run : GameState K × List K.Event × List K.LogEntry)
    (entry : ResolutionPaymentTranscriptEntry K) :
    Except (EngineError K) (Option (GameState K × List K.Event × List K.LogEntry)) := do
  let (shadow, result) ← engine.applyAdmittedRecordedAction (run.1.restoreTriggerContext context)
    entry.authenticatedActor entry.semanticOwner entry.action
  let events := run.2.1 ++ result.events
  let logEntries := run.2.2 ++ result.logEntries
  if shadow.costPaymentFailedFlag then return none
  else
    let shadow := { shadow with paymentTransactionReplay := true }
    return some (shadow.restoreTriggerContext context, events, logEntries)

/-- Reruns the root and the whole transcript from `state`. -/
def replay (state : GameState K) (transaction : ResolutionPaymentTransaction K) :
    Except (EngineError K) (ReplayOutcome K) := do
  let context := transaction.resolvingTriggerContext
  let shadow := { state.unstaged true with
    costPaymentFailedFlag := false
    waitingFor := transaction.baseWaitingFor }
  let (shadow, buffered) ← (engine.resolveAbilityChain (shadow.restoreTriggerContext context)
    transaction.root.paymentOnlyRoot [] 0).mapError engine.replayError
  let shadow := shadow.restoreTriggerContext context
  let shadow := { shadow with paymentTransactionReplay := true }
  if shadow.costPaymentFailedFlag then return .failed
  else
    let shadow :=
      if transaction.transcript.isEmpty then shadow
      else { engine.collectInitialPaymentEvents shadow buffered with
        consumedBeforePriorityTriggerEvents := [] }
    match ← Rerun.rerun (engine.replayEntry context) (shadow, buffered, [])
      transaction.transcript with
    | none => return .failed
    | some (shadow, events, logEntries) =>
      let shadow := { shadow with paymentTransactionReplay := false }
      if engine.returnedToBaseWaiting shadow transaction.baseWaitingFor then
        return .completed shadow events logEntries
      else return .paused shadow

def settleCanonicalTail (state : GameState K) (events : List K.Event) (eventStart : Nat) :
    Option ObjectId → Except (EngineError K) (GameState K × List K.Event)
  | none => return (state, events)
  | some carrier => do
      let (state, events) ← engine.resumePendingContinuationIfPriority state events
      let completed := if state.resolvingStackEntry.isNone && engine.isPriority state.waitingFor &&
          !state.gameEnd && state.paymentTransaction.isNone && !state.paymentTransactionReplay &&
          !engine.isPendingTriggerConstructionActive state then some carrier else none
      let (state, events, waitingFor) ← engine.runPostActionPipeline state events eventStart
        state.waitingFor completed
      return (engine.syncWaitingFor state waitingFor, events)

/-- What is printed after the payment, told whether the payment was made. -/
def resolveRootContinuation (state : GameState K) (root : ResolvedAbility K)
    (paymentSucceeded : Bool) (context : Option (ResolvingTriggerContext K))
    (events : List K.Event) : Except (EngineError K) (GameState K × List K.Event) :=
  match root.subAbility with
  | none => return (state, events)
  | some sub =>
    let continuation := engine.applyParentChainContext sub (root.performed paymentSucceeded) state
    (engine.resolveAbilityChain (state.restoreTriggerContext context) continuation events
      1).mapError engine.replayError

/-- The continuation on `state`, then the tail. -/
def continueFrom (state : GameState K) (root : ResolvedAbility K) (paymentSucceeded : Bool)
    (context : Option (ResolvingTriggerContext K)) (events : List K.Event) :
    Except (EngineError K) (GameState K × List K.Event) := do
  let carrier := state.resolvingStackEntry
  let eventStart := events.length
  let (state, events) ← engine.resolveRootContinuation state root paymentSucceeded context events
  engine.settleCanonicalTail state events eventStart carrier

/-- The transaction with one more answer, and what rerunning it comes to. -/
def rerunWith (state : GameState K) (actor : PlayerId) (action : K.Action) :
    Except (EngineError K) (ResolutionPaymentTransaction K × ReplayOutcome K) :=
  match state.paymentTransaction with
  | none => throw (.invalidAction "no staged payment transaction")
  | some transaction => do
      let entry : ResolutionPaymentTranscriptEntry K := {
        authenticatedActor := actor
        semanticOwner := (engine.actingPlayers state.waitingFor).head?.getD transaction.owner
        action }
      let transaction := { transaction with transcript := transaction.transcript ++ [entry] }
      return (transaction, ← engine.replay state transaction)

def applyPendingAction (state : GameState K) (actor : PlayerId) (action : K.Action) :
    Except (EngineError K) (GameState K × ActionResult K) := do
  let (transaction, outcome) ← engine.rerunWith state actor action
  match outcome with
  | .failed =>
    let restored := { state.unstaged false with
      waitingFor := transaction.baseWaitingFor
      costPaymentFailedFlag := true }
    let (state, events) ← engine.continueFrom restored transaction.root false
      transaction.resolvingTriggerContext []
    return (state, { events, waitingFor := state.waitingFor, logEntries := [] })
  | .paused shadow =>
    return ({ state with
      paymentTransaction := some transaction
      waitingFor := shadow.waitingFor
      costPaymentFailedFlag := false
      paymentTransactionReplay := false
      paymentTransactionJustHandled := false },
      { events := [], waitingFor := shadow.waitingFor, logEntries := [] })
  | .completed shadow events logEntries =>
    let (state, events) ← engine.continueFrom (shadow.unstaged false) transaction.root true
      transaction.resolvingTriggerContext events
    return (state, { events, waitingFor := state.waitingFor, logEntries })

def project (state : GameState K) : GameState K :=
  match state.paymentTransaction with
  | none => state
  | some transaction =>
    match engine.replay state transaction with
    | .ok (.paused shadow) | .ok (.completed shadow _ _) => shadow.unstaged false
    | .ok .failed | .error _ =>
      { state.unstaged false with waitingFor := transaction.baseWaitingFor }

def projectWithoutViewer (state : GameState K) : GameState K := state.unstaged false

def projectForViewer (state : GameState K) (viewer : PlayerId) : GameState K :=
  match state.paymentTransaction with
  | none => state
  | some _ =>
    let shadow := engine.project state
    if viewer ∈ engine.authorizedSubmitters state then shadow
    else { state.unstaged false with waitingFor := shadow.waitingFor }

end Engine
end Phase.Payment
