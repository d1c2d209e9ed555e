import Phase.Payment.Transaction

/-! The payment made in place, each action once, and the runs of the staged one; staging a payment
comes to making it in place. -/
namespace Phase.Payment
open Fallible Engine

section
variable {K : Kinds} [DecidableEq K.WaitingFor] [DecidableEq K.Event]

/-- A payment that runs in place: its state, and all it has emitted. -/
structure Live (K : Kinds) where
  shadow : GameState K
  events : List K.Event
  logEntries : List K.LogEntry
  owner : PlayerId
  answered : Bool

/-- The state outside the payment. -/
def Live.outside (live : Live K) : GameState K :=
  { live.shadow with paymentTransactionReplay := false }

/-- The state that a payment leaves alone until it is made. -/
def GameState.untouched (state : GameState K) : GameState K :=
  { state with costPaymentFailedFlag := false }

/-- The state after a payment that failed. -/
def GameState.unpaid (state : GameState K) : GameState K :=
  { state with costPaymentFailedFlag := true, paymentTransactionJustHandled := false }

namespace Engine
variable (engine : Engine K)

/-- The payment clause, once; `none` when it fails. -/
def liveRoot (base : GameState K) (ability : ResolvedAbility K) :
    Except K.EffectError (Option (Live K)) := do
  let (shadow, events) ← engine.resolveAbilityChain (base.unstaged true) ability.paymentOnlyRoot
    [] 0
  let shadow := { shadow.restoreTriggerContext base.captureTriggerContext with
    paymentTransactionReplay := true }
  if shadow.costPaymentFailedFlag then return none
  else return some {
    shadow
    events
    logEntries := []
    owner := (engine.actingPlayers shadow.waitingFor).head?.getD ability.controller
    answered := false }

/-- The triggers of the root are collected before the first answer. -/
def collected (live : Live K) : GameState K :=
  if live.answered then live.shadow
  else { engine.collectInitialPaymentEvents live.shadow live.events with
    consumedBeforePriorityTriggerEvents := [] }

/-- One action, once, by whoever the payment waits for. -/
def liveAnswer (context : Option (ResolvingTriggerContext K)) (live : Live K) (actor : PlayerId)
    (action : K.Action) : Except (EngineError K) (Option (Live K)) := do
  match ← engine.replayEntry context (engine.collected live, live.events, live.logEntries) {
      authenticatedActor := actor
      semanticOwner := (engine.actingPlayers live.shadow.waitingFor).head?.getD live.owner
      action } with
  | none => return none
  | some (shadow, events, logEntries) =>
    return some { live with shadow, events, logEntries, answered := true }

/-- The payment made in place as far as these answers, and waiting for another. -/
inductive LiveRun (base : GameState K) (ability : ResolvedAbility K) :
    List (PlayerId × K.Action) → Live K → Prop where
  | root {live : Live K} (ran : engine.liveRoot base ability = .ok (some live))
      (waits : live.shadow.waitingFor ≠ base.waitingFor) : LiveRun base ability [] live
  | answer {answers : List (PlayerId × K.Action)} {live next : Live K} {actor : PlayerId}
      {action : K.Action} (run : LiveRun base ability answers live)
      (ran : engine.liveAnswer base.captureTriggerContext live actor action = .ok (some next))
      (waits : engine.returnedToBaseWaiting next.outside base.waitingFor = false) :
      LiveRun base ability (answers ++ [(actor, action)]) next

/-- The continuation of the payment, and what the answer returns. -/
def conclude (state base : GameState K) (ability : ResolvedAbility K) (paid : Bool)
    (events : List K.Event) (logEntries : List K.LogEntry) :
    Except (EngineError K) (GameState K × ActionResult K) := do
  let (state, events) ← engine.continueFrom state ability paid base.captureTriggerContext events
  return (state, { events, waitingFor := state.waitingFor, logEntries })

/-- A staged payment, and the answers it has taken so far. -/
inductive Staged (before : GameState K) (ability : ResolvedAbility K) :
    List (PlayerId × K.Action) → GameState K → Prop where
  | begun {events events' : List K.Event} {state : GameState K}
      (staged : engine.stageComposite before ability events = some (.ok (state, events')))
      (paused : state.paymentTransaction.isSome) : Staged before ability [] state
  | answered {answers : List (PlayerId × K.Action)} {state next shadow : GameState K}
      {actor : PlayerId} {action : K.Action} {transaction : ResolutionPaymentTransaction K}
      {result : ActionResult K} (run : Staged before ability answers state)
      (paused : engine.rerunWith state actor action = .ok (transaction, .paused shadow))
      (done : engine.applyPendingAction state actor action = .ok (next, result)) :
      Staged before ability (answers ++ [(actor, action)]) next

end Engine

end

variable {K : Kinds} {engine : Engine K} {before state next base : GameState K}
  {ability : ResolvedAbility K} {answers : List (PlayerId × K.Action)}
  {events events' : List K.Event}

variable {root : Live K}

theorem liveRoot_fresh (ran : engine.liveRoot base ability = .ok (some root)) :
    root.logEntries = [] ∧ root.answered = false := by
  obtain ⟨⟨shadow, buffered⟩, -, rest⟩ := bind_eq_ok.mp ran
  simp only at rest
  split at rest
  · cases rest
  · cases pure_eq_ok.mp rest
    exact ⟨rfl, rfl⟩

variable [DecidableEq K.WaitingFor]

theorem stageComposite_eq_some {result : Except K.EffectError (GameState K × List K.Event)}
    (staged : engine.stageComposite before ability events = some result) :
    before.paymentTransactionReplay = false ∧ before.paymentTransaction = none ∧
      engine.begin before.untouched ability events = result := by
  simp only [stageComposite] at staged
  split at staged
  · next outside =>
    obtain ⟨guard, none_⟩ := (Bool.and_eq_true _ _).mp outside
    exact ⟨by simpa using guard, Option.isNone_iff_eq_none.mp none_, Option.some.inj staged⟩
  · cases staged

/-- The descriptor of a payment staged on `base`. -/
def descriptor (base : GameState K) (ability : ResolvedAbility K) (owner : PlayerId)
    (transcript : List (ResolutionPaymentTranscriptEntry K)) : ResolutionPaymentTransaction K :=
  { wireVersion := 1
    owner
    root := ability
    transcript
    baseWaitingFor := base.waitingFor
    resolvingTriggerContext := base.captureTriggerContext }

/-- The base with a prompt and a descriptor on it. -/
def GameState.staging (base : GameState K) (waitingFor : K.WaitingFor)
    (transaction : ResolutionPaymentTransaction K) (justHandled : Bool) : GameState K :=
  { base with
    waitingFor
    paymentTransaction := some transaction
    paymentTransactionReplay := false
    paymentTransactionJustHandled := justHandled
    costPaymentFailedFlag := false }

/-- The three beginnings of a payment. -/
theorem begin_cases (begun : engine.begin base ability events = .ok (state, events')) :
    (engine.liveRoot base ability = .ok none ∧ state = base.unpaid ∧ events' = events) ∨
    ∃ live, engine.liveRoot base ability = .ok (some live) ∧
      ((live.shadow.waitingFor = base.waitingFor ∧ state = live.shadow.unstaged false ∧
        events' = events ++ live.events) ∨
      (live.shadow.waitingFor ≠ base.waitingFor ∧ events' = events ∧
        state = base.staging live.shadow.waitingFor (descriptor base ability live.owner [])
          true)) := by
  obtain ⟨⟨shadow, buffered⟩, ran, begun⟩ := bind_eq_ok.mp begun
  have root : engine.liveRoot base ability =
      (if (shadow.restoreTriggerContext base.captureTriggerContext).costPaymentFailedFlag then
        pure none
      else pure (some {
        shadow := { shadow.restoreTriggerContext base.captureTriggerContext with
          paymentTransactionReplay := true }
        events := buffered
        logEntries := []
        owner := (engine.actingPlayers (shadow.restoreTriggerContext
          base.captureTriggerContext).waitingFor).head?.getD ability.controller
        answered := false })) := by
    rw [liveRoot, ran]
    rfl
  simp only at begun
  split at begun
  · next failed =>
    rw [if_pos failed] at root
    cases pure_eq_ok.mp begun
    exact .inl ⟨root, rfl, rfl⟩
  · next paid =>
    rw [if_neg paid] at root
    refine .inr ⟨_, root, ?_⟩
    split at begun
    · next same =>
      cases pure_eq_ok.mp begun
      exact .inl ⟨same, rfl, rfl⟩
    · next waits =>
      cases pure_eq_ok.mp begun
      exact .inr ⟨waits, rfl, rfl⟩

variable [DecidableEq K.Event]

/-- The transcript, rerun, comes to the payment in place. -/
def Replays (engine : Engine K) (base : GameState K) (ability : ResolvedAbility K)
    (transcript : List (ResolutionPaymentTranscriptEntry K)) (live : Live K) : Prop :=
  ∃ root, engine.liveRoot base ability = .ok (some root) ∧ live.owner = root.owner ∧
    (transcript = [] ∧ live = root ∨
      live.answered = true ∧ Rerun.rerun (engine.replayEntry base.captureTriggerContext)
        (engine.collected root, root.events, []) transcript =
        .ok (some (live.shadow, live.events, live.logEntries)))

/-- The outcome of a rerun whose last entry comes to `answer`. -/
def Engine.outcome (engine : Engine K) (base : GameState K) :
    Option (Live K) → ReplayOutcome K
  | none => .failed
  | some next =>
    if engine.returnedToBaseWaiting next.outside base.waitingFor then
      .completed next.outside next.events next.logEntries
    else .paused next.outside

variable {transcript : List (ResolutionPaymentTranscriptEntry K)}

theorem liveRoot_replay (ran : engine.liveRoot base ability = .ok (some root))
    (unfailed : base.costPaymentFailedFlag = false) {waitingFor : K.WaitingFor}
    {transaction : ResolutionPaymentTransaction K} {justHandled : Bool} {owner : PlayerId}
    (some_ : transcript ≠ []) :
    engine.replay (base.staging waitingFor transaction justHandled)
        (descriptor base ability owner transcript) = do
      match ← Rerun.rerun (engine.replayEntry base.captureTriggerContext)
        (engine.collected root, root.events, []) transcript with
      | none => return .failed
      | some (shadow, events, logEntries) =>
        let shadow := { shadow with paymentTransactionReplay := false }
        if engine.returnedToBaseWaiting shadow base.waitingFor then
          return .completed shadow events logEntries
        else return .paused shadow := by
  obtain ⟨⟨shadow, buffered⟩, resolved, rest⟩ := bind_eq_ok.mp ran
  have start : ({ (base.staging waitingFor transaction justHandled).unstaged true with
      costPaymentFailedFlag := false
      waitingFor := base.waitingFor } : GameState K) = base.unstaged true := by
    cases base
    subst unfailed
    rfl
  have context : (base.unstaged true).restoreTriggerContext base.captureTriggerContext =
      base.unstaged true := GameState.restoreTriggerContext_capture (base.unstaged true)
  simp only [replay, descriptor]
  rw [start, context, resolved]
  simp only at rest
  split at rest
  · cases rest
  · next paid =>
    cases pure_eq_ok.mp rest
    have more : transcript.isEmpty = false := by simpa using some_
    simp only [mapError_ok, ok_bind, more]
    rw [if_neg paid]
    rfl

/-- The entry that records an answer. -/
def Live.entry (engine : Engine K) (live : Live K) (actor : PlayerId) (action : K.Action) :
    ResolutionPaymentTranscriptEntry K :=
  { authenticatedActor := actor
    semanticOwner := (engine.actingPlayers live.shadow.waitingFor).head?.getD live.owner
    action }

omit [DecidableEq K.WaitingFor] in
variable {live : Live K}

/-- With one more entry, all but that entry comes to the state in place. -/
theorem Replays.snoc (replays : Replays engine base ability transcript live)
    (ran : engine.liveRoot base ability = .ok (some root))
    (entry : ResolutionPaymentTranscriptEntry K) :
    Rerun.rerun (engine.replayEntry base.captureTriggerContext)
        (engine.collected root, root.events, []) (transcript ++ [entry]) =
      engine.replayEntry base.captureTriggerContext
        (engine.collected live, live.events, live.logEntries) entry := by
  obtain ⟨root', ran', -, step⟩ := replays
  obtain rfl : root' = root := Option.some.inj (Except.ok.inj (ran'.symm.trans ran))
  rcases step with ⟨rfl, rfl⟩ | ⟨answered, here⟩
  · rw [← (liveRoot_fresh ran).1]
    exact Rerun.rerun_snoc rfl entry
  · rw [Rerun.rerun_snoc here entry, collected, if_pos answered]

theorem Replays.answer (replays : Replays engine base ability transcript live)
    (unfailed : base.costPaymentFailedFlag = false) (waitingFor : K.WaitingFor)
    (transaction : ResolutionPaymentTransaction K) (justHandled : Bool) (actor : PlayerId)
    (action : K.Action) :
    engine.replay (base.staging waitingFor transaction justHandled)
        (descriptor base ability live.owner (transcript ++ [live.entry engine actor action])) =
      (engine.liveAnswer base.captureTriggerContext live actor action).map
        (engine.outcome base) := by
  obtain ⟨root, ran, rest⟩ := replays
  rw [liveRoot_replay ran unfailed (by simp), Replays.snoc ⟨root, ran, rest⟩ ran, liveAnswer]
  show (engine.replayEntry _ _ (live.entry engine actor action) >>= _) =
    Except.map _ (engine.replayEntry _ _ (live.entry engine actor action) >>= _)
  cases engine.replayEntry base.captureTriggerContext
      (engine.collected live, live.events, live.logEntries) (live.entry engine actor action) with
  | error e => rfl
  | ok answer =>
    cases answer with
    | none => rfl
    | some run =>
      exact (apply_ite Except.ok _ _ _).symm

theorem Replays.grow {next : Live K} (replays : Replays engine base ability transcript live)
    {actor : PlayerId} {action : K.Action}
    (ran : engine.liveAnswer base.captureTriggerContext live actor action = .ok (some next)) :
    Replays engine base ability (transcript ++ [live.entry engine actor action]) next := by
  obtain ⟨root, begun, owner, rest⟩ := replays
  obtain ⟨answer, replayed, built⟩ := bind_eq_ok.mp ran
  cases answer with
  | none => cases built
  | some run =>
    cases pure_eq_ok.mp built
    refine ⟨root, begun, owner, .inr ⟨rfl, ?_⟩⟩
    rw [Replays.snoc ⟨root, begun, owner, rest⟩ begun]
    exact replayed

/-- The canonical state of a staged payment, next to the payment in place. -/
structure Holds (engine : Engine K) (before : GameState K) (ability : ResolvedAbility K)
    (answers : List (PlayerId × K.Action))
    (transcript : List (ResolutionPaymentTranscriptEntry K)) (live : Live K) (justHandled : Bool)
    (state : GameState K) : Prop where
  guard : before.paymentTransactionReplay = false
  alone : before.paymentTransaction = none
  run : engine.LiveRun before.untouched ability answers live
  replays : Replays engine before.untouched ability transcript live
  canonical : state = before.untouched.staging live.shadow.waitingFor
    (descriptor before.untouched ability live.owner transcript) justHandled

section
variable {transcript : List (ResolutionPaymentTranscriptEntry K)} {live : Live K}
  {justHandled : Bool}

theorem Holds.rerunWith
    (holds : Holds engine before ability answers transcript live justHandled state)
    (actor : PlayerId) (action : K.Action) :
    engine.rerunWith state actor action =
      (engine.liveAnswer before.untouched.captureTriggerContext live actor action).map fun answer =>
        (descriptor before.untouched ability live.owner
          (transcript ++ [live.entry engine actor action]),
          engine.outcome before.untouched answer) := by
  have replayed := holds.replays.answer rfl live.shadow.waitingFor
    (descriptor before.untouched ability live.owner transcript) justHandled actor action
  rw [← holds.canonical] at replayed
  have opened : state.paymentTransaction =
      some (descriptor before.untouched ability live.owner transcript) := by rw [holds.canonical]; rfl
  have prompt : state.waitingFor = live.shadow.waitingFor := by rw [holds.canonical]; rfl
  simp only [Engine.rerunWith, opened, prompt]
  show (engine.replay state (descriptor before.untouched ability live.owner
    (transcript ++ [live.entry engine actor action])) >>= _) = _
  rw [replayed]
  cases engine.liveAnswer before.untouched.captureTriggerContext live actor action <;> rfl

section
variable (holds : Holds engine before ability answers transcript live justHandled state)
  {actor : PlayerId} {action : K.Action}
include holds

theorem Holds.refused {error : EngineError K}
    (ran : engine.liveAnswer before.untouched.captureTriggerContext live actor action =
      .error error) : engine.applyPendingAction state actor action = .error error := by
  rw [applyPendingAction, holds.rerunWith, ran]
  rfl

theorem Holds.failed
    (ran : engine.liveAnswer before.untouched.captureTriggerContext live actor action =
      .ok none) :
    engine.applyPendingAction state actor action =
      engine.conclude before.unpaid before.untouched ability false [] [] := by
  have restored : ({ state.unstaged false with
      waitingFor := before.waitingFor
      costPaymentFailedFlag := true } : GameState K) = before.unpaid := by
    rw [holds.canonical]
    obtain ⟨guard, alone⟩ := And.intro holds.guard holds.alone
    cases before
    subst guard alone
    rfl
  rw [applyPendingAction, holds.rerunWith, ran]
  show (engine.continueFrom { state.unstaged false with
    waitingFor := before.waitingFor, costPaymentFailedFlag := true } ability false _ [] >>= _) = _
  rw [restored]
  rfl

theorem Holds.completed {last : Live K}
    (ran : engine.liveAnswer before.untouched.captureTriggerContext live actor action =
      .ok (some last))
    (settled : engine.returnedToBaseWaiting last.outside before.waitingFor = true) :
    engine.applyPendingAction state actor action =
      engine.conclude (last.shadow.unstaged false) before.untouched ability true last.events
        last.logEntries := by
  have outcome : engine.outcome before.untouched (some last) =
      .completed last.outside last.events last.logEntries := if_pos settled
  rw [applyPendingAction, holds.rerunWith, ran]
  simp only [Except.map, ok_bind, outcome]
  rfl

theorem Holds.paused {next : Live K}
    (ran : engine.liveAnswer before.untouched.captureTriggerContext live actor action =
      .ok (some next))
    (waits : engine.returnedToBaseWaiting next.outside before.waitingFor = false) :
    ∃ state', engine.applyPendingAction state actor action =
        .ok (state', { events := [], waitingFor := next.shadow.waitingFor, logEntries := [] }) ∧
      Holds engine before ability (answers ++ [(actor, action)])
        (transcript ++ [live.entry engine actor action]) next false state' := by
  have outcome : engine.outcome before.untouched (some next) = .paused next.outside :=
    if_neg ((Bool.not_eq_true _).mpr waits)
  have owner : next.owner = live.owner := by
    obtain ⟨answer, -, built⟩ := bind_eq_ok.mp ran
    cases answer with
    | none => cases built
    | some run => cases pure_eq_ok.mp built; rfl
  refine ⟨_, ?_, holds.guard, holds.alone, .answer holds.run ran waits, holds.replays.grow ran, rfl⟩
  rw [applyPendingAction, holds.rerunWith, ran]
  simp only [Except.map, ok_bind, outcome]
  rw [holds.canonical, owner]
  rfl

end

end

/-- Whoever may not answer is shown the base, and the prompt. -/
theorem Holds.shown {justHandled : Bool}
    (holds : Holds engine before ability answers transcript live justHandled state)
    {viewer : PlayerId} (out : viewer ∉ engine.authorizedSubmitters state) :
    engine.projectForViewer state viewer = { before with
      waitingFor := (engine.project state).waitingFor
      costPaymentFailedFlag := false
      paymentTransactionJustHandled := false } := by
  have opened : state.paymentTransaction =
      some (descriptor before.untouched ability live.owner transcript) := by rw [holds.canonical]; rfl
  have base : ({ state.unstaged false with waitingFor := (engine.project state).waitingFor } :
      GameState K) = { before with
        waitingFor := (engine.project state).waitingFor
        costPaymentFailedFlag := false
        paymentTransactionJustHandled := false } := by
    generalize (engine.project state).waitingFor = shown
    rw [holds.canonical]
    obtain ⟨guard, alone⟩ := And.intro holds.guard holds.alone
    cases before
    subst guard alone
    rfl
  simp only [projectForViewer, opened, if_neg out, base]

theorem Engine.Staged.holds (run : engine.Staged before ability answers state) :
    ∃ transcript live justHandled,
      Holds engine before ability answers transcript live justHandled state := by
  induction run with
  | begun staged paused =>
    obtain ⟨guard, alone, begun⟩ := stageComposite_eq_some staged
    rcases begin_cases begun with ⟨-, rfl, -⟩ | ⟨live, ran, ⟨-, rfl, -⟩ | ⟨waits, -, rfl⟩⟩
    · rw [show before.untouched.unpaid.paymentTransaction = none from alone] at paused
      cases paused
    · cases paused
    · exact ⟨[], live, true, guard, alone, .root ran waits, ⟨live, ran, rfl, .inl ⟨rfl, rfl⟩⟩, rfl⟩
  | @answered answers state next shadow actor action transaction result _ paused done ih =>
    obtain ⟨transcript, live, justHandled, holds⟩ := ih
    rw [holds.rerunWith] at paused
    obtain ⟨answer, ran, same⟩ := map_eq_ok.mp paused
    have outcome := congrArg Prod.snd same
    cases answer with
    | none => cases outcome
    | some more =>
      cases waits : engine.returnedToBaseWaiting more.outside before.untouched.waitingFor with
      | true => simp [Engine.outcome, waits] at outcome
      | false =>
        obtain ⟨state', answered, again⟩ := holds.paused ran waits
        cases answered.symm.trans done
        exact ⟨_, more, false, again⟩

/-- A staged payment is the payment made in place. While it is open the canonical state is the base
but for the prompt, the descriptor and the flags; an answer does what it does in place, once; and
only who may answer sees more than the prompt. -/
theorem staged_payment_is_made_in_place (engine : Engine K) (before : GameState K)
    (ability : ResolvedAbility K) :
    (∀ events state events',
      engine.stageComposite before ability events = some (.ok (state, events')) →
      (engine.liveRoot before.untouched ability = .ok none ∧ state = before.unpaid ∧
        events' = events) ∨
      ∃ live, engine.liveRoot before.untouched ability = .ok (some live) ∧
        ((live.shadow.waitingFor = before.waitingFor ∧ state = live.shadow.unstaged false ∧
          events' = events ++ live.events) ∨
        (live.shadow.waitingFor ≠ before.waitingFor ∧ events' = events ∧
          engine.Staged before ability [] state))) ∧
    ∀ answers state, engine.Staged before ability answers state →
      (∃ transaction justHandled, state = { before with
        waitingFor := state.waitingFor
        paymentTransaction := some transaction
        costPaymentFailedFlag := false
        paymentTransactionReplay := false
        paymentTransactionJustHandled := justHandled }) ∧
      (∃ live, engine.LiveRun before.untouched ability answers live ∧
        state.waitingFor = live.shadow.waitingFor ∧
        ∀ actor action,
          (∀ error, engine.liveAnswer before.untouched.captureTriggerContext live actor action =
              .error error → engine.applyPendingAction state actor action = .error error) ∧
          (engine.liveAnswer before.untouched.captureTriggerContext live actor action = .ok none →
            engine.applyPendingAction state actor action =
              engine.conclude before.unpaid before.untouched ability false [] []) ∧
          ∀ next, engine.liveAnswer before.untouched.captureTriggerContext live actor action =
              .ok (some next) →
            (engine.returnedToBaseWaiting next.outside before.waitingFor = true →
              engine.applyPendingAction state actor action =
                engine.conclude (next.shadow.unstaged false) before.untouched ability true
                  next.events next.logEntries) ∧
            (engine.returnedToBaseWaiting next.outside before.waitingFor = false →
              ∃ state', engine.applyPendingAction state actor action = .ok (state',
                  { events := [], waitingFor := next.shadow.waitingFor, logEntries := [] }) ∧
                engine.Staged before ability (answers ++ [(actor, action)]) state')) ∧
      (∀ viewer, viewer ∉ engine.authorizedSubmitters state → ∃ waitingFor,
        engine.projectForViewer state viewer = { before with
          waitingFor
          costPaymentFailedFlag := false
          paymentTransactionJustHandled := false }) := by
  refine ⟨fun events state events' staged => ?_, fun answers state run => ?_⟩
  · obtain ⟨-, -, begun⟩ := stageComposite_eq_some staged
    rcases begin_cases begun with failed | ⟨live, ran, made | ⟨waits, quiet, rfl⟩⟩
    · exact .inl failed
    · exact .inr ⟨live, ran, .inl made⟩
    · exact .inr ⟨live, ran, .inr ⟨waits, quiet, .begun staged rfl⟩⟩
  · obtain ⟨transcript, live, justHandled, holds⟩ := run.holds
    have prompt : state.waitingFor = live.shadow.waitingFor := by rw [holds.canonical]; rfl
    refine ⟨⟨descriptor before.untouched ability live.owner transcript, justHandled, ?_⟩,
      ⟨live, holds.run, prompt, fun actor action =>
        ⟨fun error ran => holds.refused ran, fun ran => holds.failed ran, fun next ran =>
          ⟨fun settled => holds.completed ran settled, fun waits => ?_⟩⟩⟩, fun viewer out => ?_⟩
    · rw [prompt]
      exact holds.canonical
    · obtain ⟨state', done, -⟩ := holds.paused ran waits
      have outcome : engine.outcome before.untouched (some next) = .paused next.outside :=
        if_neg ((Bool.not_eq_true _).mpr waits)
      have paused := holds.rerunWith actor action
      rw [ran, Except.map, outcome] at paused
      exact ⟨state', done, .answered run paused done⟩
    · exact ⟨_, holds.shown out⟩

/-- Life totals, prompts named by the player they ask, and 0 for priority. -/
abbrev Toll : Kinds where
  Rest := Nat
  Effect := Unit
  Action := Nat
  Event := Nat
  Claim := Unit
  LogEntry := Unit
  WaitingFor := Nat
  EffectError := Unit
  EngineError := Unit

local instance : DecidableEq Toll.WaitingFor := inferInstanceAs (DecidableEq Nat)
local instance : DecidableEq Toll.Event := inferInstanceAs (DecidableEq Nat)

/-- The root takes one life and asks player 1, whose answer takes as much as it says. -/
def tollEngine : Engine Toll where
  actingPlayers := fun (waitingFor : Nat) => if waitingFor = 0 then [] else [waitingFor]
  isPriority := fun (waitingFor : Nat) => waitingFor = 0
  hasActiveAbilityContinuation := fun _ => false
  debug := fun _ => ""
  resolveAbilityChain := fun state _ events _ =>
    .ok ({ state with rest := (state.rest - 1 : Nat), waitingFor := (1 : Nat) },
      events ++ [(1 : Nat)])
  applyAdmittedRecordedAction := fun state _ _ action =>
    .ok ({ state with rest := (state.rest - action : Nat), waitingFor := (0 : Nat) },
      { events := [action], waitingFor := (0 : Nat), logEntries := [] })
  applyParentChainContext := fun sub _ _ => sub
  retainedLogicalZoneEvents := fun _ => []
  retainedCostEvents := fun _ => []
  filterAlreadyCollectedTriggerEvents := fun _ _ _ _ => []
  filterConsumedTriggerEvents := fun _ _ _ _ => []
  collectTriggersIntoDeferred := fun state _ => state
  collectDelayedTriggerContextsIntoDeferred := fun state _ => state
  resumePendingContinuationIfPriority := fun state events => .ok (state, events)
  isPendingTriggerConstructionActive := fun _ => false
  runPostActionPipeline := fun state events _ waitingFor _ => .ok (state, events, waitingFor)
  syncWaitingFor := fun state waitingFor => { state with waitingFor }
  authorizedSubmitters := fun state => [(state.waitingFor : Nat)]

def twentyLife : GameState Toll :=
  { waitingFor := (0 : Nat)
    paymentTransaction := none
    paymentTransactionReplay := false
    paymentTransactionJustHandled := false
    costPaymentFailedFlag := false
    currentTriggerEvent := none
    currentTriggerEvents := []
    currentTriggerMatchCount := none
    dieResultThisResolution := none
    consumedBeforePriorityTriggerEvents := []
    deferredEntryEvents := []
    resolvingStackEntry := none
    gameEnd := false
    rest := (20 : Nat) }

def toll : ResolvedAbility Toll := .mk () 0 false none none

/-- Until player 1 answers no life is gone; then all of it is. -/
theorem toll_is_paid_at_once : ∃ state, tollEngine.Staged twentyLife toll [] state ∧
    state.rest = (20 : Nat) ∧ ∃ paid result,
      tollEngine.applyPendingAction state 1 (3 : Nat) = .ok (paid, result) ∧
      paid.rest = (16 : Nat) ∧ result.events = [(1 : Nat), (3 : Nat)] := by
  obtain ⟨begins, answers⟩ := staged_payment_is_made_in_place tollEngine twentyLife toll
  rcases begins [] _ _ rfl with ⟨ran, -⟩ | ⟨_, ran, ⟨same, -⟩ | ⟨-, -, staged⟩⟩
  · cases ran
  · cases ran
    cases same
  · refine ⟨_, staged, rfl, ?_⟩
    obtain ⟨-, ⟨live, run, -, answered⟩, -⟩ := answers [] _ staged
    generalize none_ : ([] : List (PlayerId × Toll.Action)) = taken at run
    cases run with
    | answer => simp at none_
    | root ran =>
      cases ran
      exact ⟨_, _, ((answered 1 (3 : Nat)).2.2 _ rfl).1 rfl, rfl, rfl⟩

end Phase.Payment
