import Phase.Payment.Staged

/-! An answer to a staged payment that ends in an error, and the state that the caller is left with.
The functions of `Transaction` say what a call returns; here they write to the caller's state, as in
the source, and an error leaves it as it has become. -/
namespace Phase.Payment

variable {K : Kinds}

/-- What the caller sees of a call that writes to its state. -/
def seen {ε σ α : Type} : EStateM.Result ε σ α → Except ε (σ × α)
  | .ok a s => .ok (s, a)
  | .error e _ => .error e

section
variable {ε σ α β : Type}

@[simp] theorem seen_bind (x : EStateM ε σ α) (f : α → EStateM ε σ β) (s : σ) :
    seen ((x >>= f) s) = seen (x s) >>= fun (s, a) => seen (f a s) := by
  simp only [bind, EStateM.bind]
  cases x s <;> rfl

theorem seen_get_bind (f : σ → EStateM ε σ β) (s : σ) : seen ((get >>= f) s) = seen (f s s) := rfl

theorem bind_ok_apply {x : EStateM ε σ α} {a : α} {s s' : σ} (done : x s = .ok a s')
    (f : α → EStateM ε σ β) : (x >>= f) s = f a s' := by
  simp only [bind, EStateM.bind, done]

theorem bind_error_apply {x : EStateM ε σ α} {e : ε} {s s' : σ} (fails : x s = .error e s')
    (f : α → EStateM ε σ β) : (x >>= f) s = .error e s' := by
  simp only [bind, EStateM.bind, fails]

theorem get_bind_apply (f : σ → EStateM ε σ β) (s : σ) : (get >>= f) s = f s s := rfl

theorem seen_set_bind (s' : σ) (f : PUnit → EStateM ε σ β) (s : σ) :
    seen ((set s' >>= f) s) = seen (f ⟨⟩ s') := rfl

theorem seen_modify_bind (g : σ → σ) (f : PUnit → EStateM ε σ β) (s : σ) :
    seen ((modify g >>= f) s) = seen (f ⟨⟩ (g s)) := rfl

/-- A call of a function that returns the state it has written, or what it has left of it. -/
def writing (call : σ → Except ε (σ × α)) (leaves : σ → σ) : EStateM ε σ α := fun s =>
  match call s with
  | .ok (s', a) => .ok a s'
  | .error e => .error e (leaves s)

@[simp] theorem seen_writing (call : σ → Except ε (σ × α)) (leaves : σ → σ) (s : σ) :
    seen (writing call leaves s) = call s := by
  unfold writing
  cases call s <;> rfl

end

/-- What the calls that fail leave of the state they were given. -/
structure Leftovers (K : Kinds) where
  resolveAbilityChain : GameState K → ResolvedAbility K → List K.Event → Nat → GameState K
  resumePendingContinuationIfPriority : GameState K → List K.Event → GameState K
  runPostActionPipeline : GameState K → List K.Event → Nat → K.WaitingFor → Option ObjectId →
    GameState K

/-- The base of a payment that has failed. -/
def GameState.restored (state : GameState K) (transaction : ResolutionPaymentTransaction K) :
    GameState K :=
  { state.unstaged false with
    waitingFor := transaction.baseWaitingFor
    costPaymentFailedFlag := true }

namespace Engine
variable [DecidableEq K.WaitingFor] [DecidableEq K.Event] (engine : Engine K) (left : Leftovers K)

def settleCanonicalTailIn (events : List K.Event) (eventStart : Nat) :
    Option ObjectId → EStateM (EngineError K) (GameState K) (List K.Event)
  | none => pure events
  | some carrier => do
      let events ← writing (engine.resumePendingContinuationIfPriority · events)
        (left.resumePendingContinuationIfPriority · events)
      let state ← get
      let completed := if state.resolvingStackEntry.isNone && engine.isPriority state.waitingFor &&
          !state.gameEnd && state.paymentTransaction.isNone && !state.paymentTransactionReplay &&
          !engine.isPendingTriggerConstructionActive state then some carrier else none
      let (events, waitingFor) ← writing
        (engine.runPostActionPipeline · events eventStart state.waitingFor completed)
        (left.runPostActionPipeline · events eventStart state.waitingFor completed)
      modify (engine.syncWaitingFor · waitingFor)
      return events

def resolveRootContinuationIn (root : ResolvedAbility K) (paymentSucceeded : Bool)
    (context : Option (ResolvingTriggerContext K)) (events : List K.Event) :
    EStateM (EngineError K) (GameState K) (List K.Event) :=
  match root.subAbility with
  | none => pure events
  | some sub => do
      let continuation :=
        engine.applyParentChainContext sub (root.performed paymentSucceeded) (← get)
      modify (·.restoreTriggerContext context)
      writing
        (fun state =>
          (engine.resolveAbilityChain state continuation events 1).mapError engine.replayError)
        (left.resolveAbilityChain · continuation events 1)

def continueIn (root : ResolvedAbility K) (paymentSucceeded : Bool)
    (context : Option (ResolvingTriggerContext K)) (events : List K.Event) :
    EStateM (EngineError K) (GameState K) (List K.Event) := do
  let carrier := (← get).resolvingStackEntry
  let eventStart := events.length
  let events ← engine.resolveRootContinuationIn left root paymentSucceeded context events
  engine.settleCanonicalTailIn left events eventStart carrier

/-- A payment that has failed goes on in the caller's state; one that is made goes on in the shadow,
which becomes the caller's state at the end. -/
def applyPendingActionIn (actor : PlayerId) (action : K.Action) :
    EStateM (EngineError K) (GameState K) (ActionResult K) := do
  let state ← get
  match engine.rerunWith state actor action with
  | .error error => throw error
  | .ok (transaction, .failed) =>
    set (state.restored transaction)
    let events ← engine.continueIn left transaction.root false
      transaction.resolvingTriggerContext []
    return { events, waitingFor := (← get).waitingFor, logEntries := [] }
  | .ok (transaction, .paused shadow) =>
    set { state with
      paymentTransaction := some transaction
      waitingFor := shadow.waitingFor
      costPaymentFailedFlag := false
      paymentTransactionReplay := false
      paymentTransactionJustHandled := false }
    return { events := [], waitingFor := shadow.waitingFor, logEntries := [] }
  | .ok (transaction, .completed shadow events logEntries) =>
    match engine.continueIn left transaction.root true transaction.resolvingTriggerContext events
      (shadow.unstaged false) with
    | .error error _ => throw error
    | .ok events shadow =>
      set shadow
      return { events, waitingFor := shadow.waitingFor, logEntries }

variable {engine left}

theorem seen_settleCanonicalTailIn (events : List K.Event) (eventStart : Nat)
    (carrier : Option ObjectId) (state : GameState K) :
    seen (engine.settleCanonicalTailIn left events eventStart carrier state) =
      engine.settleCanonicalTail state events eventStart carrier := by
  cases carrier with
  | none => rfl
  | some carrier =>
    rw [settleCanonicalTailIn, settleCanonicalTail, seen_bind, seen_writing]
    refine bind_congr fun settled => ?_
    dsimp only
    rw [seen_get_bind, seen_bind, seen_writing]
    exact bind_congr fun _ => rfl

section
variable (root : ResolvedAbility K) (paymentSucceeded : Bool)
  (context : Option (ResolvingTriggerContext K)) (events : List K.Event) (state : GameState K)
include root paymentSucceeded context events state

theorem seen_resolveRootContinuationIn :
    seen (engine.resolveRootContinuationIn left root paymentSucceeded context events state) =
      engine.resolveRootContinuation state root paymentSucceeded context events := by
  rw [resolveRootContinuationIn, resolveRootContinuation]
  cases root.subAbility with
  | none => rfl
  | some sub => rw [seen_get_bind, seen_modify_bind, seen_writing]

theorem seen_continueIn :
    seen (engine.continueIn left root paymentSucceeded context events state) =
      engine.continueFrom state root paymentSucceeded context events := by
  rw [continueIn, seen_get_bind, seen_bind, seen_resolveRootContinuationIn]
  exact bind_congr fun (state, events) => seen_settleCanonicalTailIn _ _ _ _

end

/-- What the caller is told does not depend on what an error leaves behind. -/
theorem seen_applyPendingActionIn (state : GameState K) (actor : PlayerId) (action : K.Action) :
    seen (engine.applyPendingActionIn left actor action state) =
      engine.applyPendingAction state actor action := by
  rw [applyPendingActionIn, applyPendingAction, seen_get_bind]
  rcases engine.rerunWith state actor action with error | ⟨transaction, shadow | ⟨shadow, events,
    logEntries⟩ | _⟩
  · rfl
  · rfl
  · have same := @seen_continueIn _ _ _ engine left transaction.root true
      transaction.resolvingTriggerContext events (shadow.unstaged false)
    simp only [Fallible.ok_bind]
    rw [← same]
    cases engine.continueIn left transaction.root true transaction.resolvingTriggerContext events
      (shadow.unstaged false) <;> rfl
  · have same := @seen_continueIn _ _ _ engine left transaction.root false
      transaction.resolvingTriggerContext [] (state.restored transaction)
    rw [seen_set_bind, seen_bind, same]
    exact bind_congr fun _ => rfl

theorem rerunWith_staged {state : GameState K} {actor : PlayerId} {action : K.Action}
    {transaction : ResolutionPaymentTransaction K} {outcome : ReplayOutcome K}
    (reran : engine.rerunWith state actor action = .ok (transaction, outcome)) :
    state.paymentTransaction ≠ none := by
  intro none_
  rw [rerunWith, none_] at reran
  cases reran

/-- Calls that fail close whatever payment is staged in the state they leave. -/
def closing : Leftovers K where
  resolveAbilityChain state _ _ _ := state.unstaged false
  resumePendingContinuationIfPriority state _ := state.unstaged false
  runPostActionPipeline state _ _ _ _ := state.unstaged false

/-- Where it fails, no payment is staged. -/
def Closes {ε α : Type} (x : EStateM ε (GameState K) α) : Prop :=
  ∀ state error after, x state = .error error after → after.paymentTransaction = none

omit [DecidableEq K.WaitingFor] [DecidableEq K.Event] in
variable {ε : Type}

theorem Closes.bind {α β : Type} {x : EStateM ε (GameState K) α} {f : α → EStateM ε (GameState K) β}
    (first : Closes x) (next : ∀ a, Closes (f a)) : Closes (x >>= f) := by
  intro state error after fails
  simp only [Bind.bind, EStateM.bind] at fails
  cases result : x state with
  | ok a state' =>
    rw [result] at fails
    exact next a state' error after fails
  | error other left =>
    rw [result] at fails
    cases fails
    exact first state error after result

omit [DecidableEq K.WaitingFor] [DecidableEq K.Event] in
theorem Closes.writing {α : Type} {call : GameState K → Except ε (GameState K × α)}
    {leaves : GameState K → GameState K}
    (closes : ∀ state, (leaves state).paymentTransaction = none) :
    Closes (writing call leaves) := by
  intro state error after fails
  unfold Payment.writing at fails
  split at fails <;> cases fails
  exact closes state

omit [DecidableEq K.WaitingFor] [DecidableEq K.Event] in
theorem Closes.of_ok {α : Type} {x : EStateM ε (GameState K) α}
    (succeeds : ∀ state, ∃ a after, x state = .ok a after) : Closes x := by
  intro state error after fails
  obtain ⟨a, other, isOk⟩ := succeeds state
  rw [isOk] at fails
  cases fails

omit [DecidableEq K.WaitingFor] [DecidableEq K.Event] in
theorem closes_pure {α : Type} (a : α) : Closes (pure a : EStateM ε (GameState K) α) :=
  .of_ok fun state => ⟨a, state, rfl⟩

omit [DecidableEq K.WaitingFor] [DecidableEq K.Event] in
theorem closes_get : Closes (get : EStateM ε (GameState K) (GameState K)) :=
  .of_ok fun state => ⟨state, state, rfl⟩

omit [DecidableEq K.WaitingFor] [DecidableEq K.Event] in
theorem closes_modify (f : GameState K → GameState K) :
    Closes (modify f : EStateM ε (GameState K) PUnit) :=
  .of_ok fun state => ⟨⟨⟩, f state, rfl⟩

theorem closes_resolveRootContinuationIn (root : ResolvedAbility K) (paymentSucceeded : Bool)
    (context : Option (ResolvingTriggerContext K)) (events : List K.Event) :
    Closes (engine.resolveRootContinuationIn closing root paymentSucceeded context events) := by
  rw [resolveRootContinuationIn]
  cases root.subAbility with
  | none => exact closes_pure events
  | some sub =>
    exact closes_get.bind fun _ => (closes_modify _).bind fun _ => .writing fun _ => rfl

theorem closes_settleCanonicalTailIn (events : List K.Event) (eventStart : Nat)
    (carrier : Option ObjectId) :
    Closes (engine.settleCanonicalTailIn closing events eventStart carrier) := by
  cases carrier with
  | none => exact closes_pure events
  | some carrier =>
    exact (Closes.writing fun _ => rfl).bind fun _ => closes_get.bind fun _ =>
      (Closes.writing fun _ => rfl).bind fun _ => (closes_modify _).bind fun _ => closes_pure _

theorem closes_continueIn (root : ResolvedAbility K) (paymentSucceeded : Bool)
    (context : Option (ResolvingTriggerContext K)) (events : List K.Event) :
    Closes (engine.continueIn closing root paymentSucceeded context events) :=
  closes_get.bind fun _ => (closes_resolveRootContinuationIn _ _ _ _).bind fun _ =>
    closes_settleCanonicalTailIn _ _ _

/-- An error of an answer leaves the state as it was, whatever the calls that fail leave behind, if
and only if it is not the continuation of a payment that has failed. -/
theorem applyPendingAction_atomic_iff (engine : Engine K) (state : GameState K) (actor : PlayerId)
    (action : K.Action) :
    (∀ left error after, engine.applyPendingActionIn left actor action state = .error error after →
      after = state) ↔
    ∀ transaction, engine.rerunWith state actor action = .ok (transaction, .failed) →
      ∃ continued, engine.continueFrom (state.restored transaction) transaction.root false
        transaction.resolvingTriggerContext [] = .ok continued := by
  constructor
  · intro atomic transaction reran
    have same := @seen_continueIn _ _ _ engine closing transaction.root false
      transaction.resolvingTriggerContext [] (state.restored transaction)
    cases result : engine.continueIn closing transaction.root false
        transaction.resolvingTriggerContext [] (state.restored transaction) with
    | ok events after =>
      rw [result] at same
      exact ⟨_, same.symm⟩
    | error error after =>
      have fails : engine.applyPendingActionIn closing actor action state =
          .error error after := by
        rw [applyPendingActionIn, get_bind_apply, reran]
        exact bind_error_apply result _
      have unstaged := closes_continueIn _ _ _ _ _ _ _ result
      rw [atomic closing error after fails] at unstaged
      exact absurd unstaged (rerunWith_staged reran)
  · intro continues left error after fails
    rw [applyPendingActionIn, get_bind_apply] at fails
    rcases isReran : engine.rerunWith state actor action with refused | ⟨transaction, shadow |
      ⟨shadow, events, logEntries⟩ | _⟩
    · rw [isReran] at fails
      cases fails
      rfl
    · rw [isReran] at fails
      cases fails
    · rw [isReran] at fails
      cases result : engine.continueIn left transaction.root true
          transaction.resolvingTriggerContext events (shadow.unstaged false) with
      | ok events after =>
        simp only [result] at fails
        cases fails
      | error other dropped =>
        simp only [result] at fails
        cases fails
        rfl
    · obtain ⟨continued, isContinued⟩ := continues transaction isReran
      have same := @seen_continueIn _ _ _ engine left transaction.root false
        transaction.resolvingTriggerContext [] (state.restored transaction)
      rw [isReran] at fails
      cases result : engine.continueIn left transaction.root false
          transaction.resolvingTriggerContext [] (state.restored transaction) with
      | error other dropped =>
        rw [result, isContinued] at same
        cases same
      | ok events after =>
        replace fails : ((engine.continueIn left transaction.root false
          transaction.resolvingTriggerContext [] >>= _) (state.restored transaction) :
            EStateM.Result _ _ _) = _ := fails
        rw [bind_ok_apply result] at fails
        cases fails

/-- The answer cannot be paid, and what follows the payment is not understood. -/
def unpaidEngine : Engine Toll :=
  { tollEngine with
    resolveAbilityChain := fun state _ events depth =>
      if depth = 0 then .ok ({ state with waitingFor := (1 : Nat) }, events) else .error ()
    applyAdmittedRecordedAction := fun state _ _ action =>
      .ok ({ state with costPaymentFailedFlag := true },
        { events := [action], waitingFor := (0 : Nat), logEntries := [] }) }

def tollWithRider : ResolvedAbility Toll := .mk () 0 false (some toll) none

/-- The payment is staged and player 1 is asked. -/
def tollStaged : GameState Toll :=
  { twentyLife with
    waitingFor := (1 : Nat)
    paymentTransaction := some {
      wireVersion := 1
      owner := 1
      root := tollWithRider
      transcript := []
      baseWaitingFor := (0 : Nat)
      resolvingTriggerContext := none }
    paymentTransactionJustHandled := true }

/-- Calls that fail leave the state they were given. -/
def unwritten : Leftovers Toll where
  resolveAbilityChain state _ _ _ := state
  resumePendingContinuationIfPriority state _ := state
  runPostActionPipeline state _ _ _ _ := state

/-- The rider of the payment that failed is refused, and the payment is no longer staged. -/
theorem refused_rider_closes_the_payment :
    ∃ error after, unpaidEngine.applyPendingActionIn unwritten 1 (3 : Nat) tollStaged =
        .error error after ∧
      tollStaged.paymentTransaction.isSome ∧ after.paymentTransaction = none :=
  ⟨_, _, rfl, rfl, rfl⟩

end Engine

end Phase.Payment
