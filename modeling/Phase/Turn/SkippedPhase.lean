import Phase.Turn.ScheduleRun

/-! A combat phase that is prevented from beginning is skipped through the schedule; when that
skips exactly the phase. -/
namespace Phase.Turn
open List TurnSegment TurnState ScheduledSuccessor

set_option linter.dupNamespace false

def Phase.group : Phase → PhaseGroup
  | .untap | .upkeep | .draw => .beginning
  | .preCombatMain => .precombatMain
  | .beginCombat | .declareAttackers | .declareBlockers | .combatDamage | .endCombat => .combat
  | .postCombatMain => .postcombatMain
  | .end | .cleanup => .ending

def lastStepOfPhase (phase : Phase) : Phase := phase.group.lastStep

namespace TurnState

/-- The innermost added unit that is a phase decides it, or else the turn's own phase. -/
def finalStepOfPhaseHolding (state : TurnState) (step : Phase) : Phase :=
  (state.extraPhaseResume.reverse.findSome? fun unit =>
    if unit.segment.isStep then none else some unit.segment.finalStep).getD
      (lastStepOfPhase ((state.extraPhaseResume.head?.map (·.anchor)).getD step))

end TurnState

/-- How many steps of a turn lead from `step` to `final`. -/
def stepsUntil (final step : Phase) : Nat :=
  (phaseOrder.idxOf final + phaseOrder.length - phaseOrder.idxOf step) % phaseOrder.length

variable {step : Phase}

theorem stepsUntil_next {final : Phase} (more : step ≠ final) :
    stepsUntil final (nextPhase step) < stepsUntil final step := by
  revert more
  cases step <;> cases final <;> decide

theorem lastStepOfPhase_next (more : step ≠ lastStepOfPhase step) :
    lastStepOfPhase (nextPhase step) = lastStepOfPhase step := by
  revert more
  cases step <;> decide

variable {state : TurnState}

/-- Without a unit to close, the natural successor is in the same phase. -/
theorem TurnState.finalStepOfPhaseHolding_next (more : step ≠ state.finalStepOfPhaseHolding step) :
    state.finalStepOfPhaseHolding (nextPhase step) = state.finalStepOfPhaseHolding step := by
  unfold finalStepOfPhaseHolding at more ⊢
  cases inner : state.extraPhaseResume.reverse.findSome? fun unit =>
      if unit.segment.isStep then none else some unit.segment.finalStep with
  | some final => rfl
  | none =>
    rw [inner] at more
    cases outer : state.extraPhaseResume.head? with
    | some unit => rfl
    | none =>
      rw [outer] at more
      exact lastStepOfPhase_next more

variable {next : Phase} {after : TurnState}

/-- Every successor that is taken brings the end of the phase in progress nearer. -/
theorem TurnState.takeScheduledSuccessor_nearer {taken : Option ExtraPhase}
    (more : step ≠ state.finalStepOfPhaseHolding step)
    (isTaken : state.takeScheduledSuccessor (plan state step) =
      some (taken, next, after)) :
    Prod.Lex (· < ·) (Prod.Lex (· < ·) (· < ·))
      (after.extraPhases.length, after.extraPhaseResume.length,
        stepsUntil (after.finalStepOfPhaseHolding next) next)
      (state.extraPhases.length, state.extraPhaseResume.length,
        stepsUntil (state.finalStepOfPhaseHolding step) step) := by
  obtain ⟨finished, rest, last, unwinds, ⟨before, ep, later, split, -, -, _, planned, -, result⟩ |
    ⟨-, -, unwound, planned, result⟩⟩ := state.takeScheduledSuccessor_spec step
  · rw [planned, result] at isTaken
    cases isTaken
    exact .left _ _ (by simp [split])
  · rw [planned, result] at isTaken
    cases isTaken
    refine .right _ ?_
    obtain ⟨units, isUnits⟩ : ∃ units, state.extraPhaseResume.reverse = units := ⟨_, rfl⟩
    have split := unwinds.split
    rw [isUnits] at unwinds split
    cases unwinds with
    | stop =>
      rw [← isUnits, reverse_reverse]
      exact .right _ (by
        rw [finalStepOfPhaseHolding_next more]
        exact stepsUntil_next more)
    | pop =>
      have shorter := congrArg length (isUnits.trans split)
      simp only [length_reverse, length_append, length_cons] at shorter
      exact .left _ _ (by rw [length_reverse]; omega)

namespace TurnState

/-- The state and the step on which the skipped phase that starts at `step` ends. -/
def finalStepOfSkippedPhase (state : TurnState) (step : Phase) : Option (TurnState × Phase) :=
  if step = state.finalStepOfPhaseHolding step then some (state, step)
  else
    match _isTaken : state.takeScheduledSuccessor (plan state step) with
    | none => none
    | some (_, next, after) => finalStepOfSkippedPhase after next
termination_by (state.extraPhases.length, state.extraPhaseResume.length,
  stepsUntil (state.finalStepOfPhaseHolding step) step)
decreasing_by exact takeScheduledSuccessor_nearer ‹_› ‹_›

end TurnState

def TurnState.skipPastPreventedStep (state : TurnState) (step : Phase) : Option TurnState :=
  if step = .beginCombat then
    (state.finalStepOfSkippedPhase step).map fun (state, final) => { state with phase := final }
  else some { state with phase := step }

/-- What every successor taken on the way preserves holds where the skip ends. -/
theorem TurnState.finalStepOfSkippedPhase_spec {P : TurnState → Phase → Prop}
    (preserved : ∀ {state after : TurnState} {step next : Phase} {taken : Option ExtraPhase},
      step ≠ state.finalStepOfPhaseHolding step →
      state.takeScheduledSuccessor (plan state step) =
        some (taken, next, after) → P state step → P after next) (start : P state step) :
    ∃ after final, state.finalStepOfSkippedPhase step = some (after, final) ∧
      final = after.finalStepOfPhaseHolding final ∧ P after final := by
  induction state, step using finalStepOfSkippedPhase.induct with
  | case1 state step done =>
    rw [finalStepOfSkippedPhase, if_pos done]
    exact ⟨state, step, rfl, done, start⟩
  | case2 state step more none_ =>
    obtain ⟨_, _, _, _, ⟨_, _, _, _, -, -, _, planned, -, result⟩ |
      ⟨-, -, _, planned, result⟩⟩ := state.takeScheduledSuccessor_spec step
    · rw [planned, result] at none_
      cases none_
    · rw [planned, result] at none_
      cases none_
  | case3 state step more taken next after isTaken ih =>
    rw [finalStepOfSkippedPhase, if_neg more]
    split
    · next none_ =>
      rw [isTaken] at none_
      cases none_
    · next _ _ _ same =>
      rw [isTaken] at same
      cases same
      exact ih (preserved more isTaken start)

/-- Added steps in progress, innermost first: `p` is the innermost one's step, and `at_` is the step
after which the outermost one was added. -/
def Chain : List InsertedPhaseResume → Phase → Phase → Prop
  | [], p, at_ => p = at_
  | unit :: units, p, at_ => unit.segment = .step p ∧ Chain units unit.anchor at_

section
variable {nested : List InsertedPhaseResume} {p at_ : Phase}

theorem Chain.isStep (chain : Chain nested p at_) :
    ∀ unit ∈ nested, unit.segment.isStep = true := by
  induction nested generalizing p with
  | nil => exact fun _ inside => absurd inside not_mem_nil
  | cons unit units ih =>
    rintro other inside
    rcases mem_cons.mp inside with rfl | inside
    · rw [chain.1]
      rfl
    · exact ih chain.2 other inside

theorem Chain.outermost (chain : Chain nested p at_) :
    ∀ unit ∈ nested.getLast?, unit.anchor = at_ := by
  induction nested generalizing p with
  | nil => exact fun _ inside => by cases inside
  | cons unit units ih =>
    cases units with
    | nil =>
      rintro other same
      cases same
      exact chain.2
    | cons below units =>
      exact ih chain.2

/-- Leaving a step closes added steps only, each with nothing more waiting behind it, down to the
phase that holds them. -/
theorem Unwinds.chain {extraPhases : List ExtraPhase}
    {floor finished rest : List InsertedPhaseResume} {last : Phase}
    (unwinds : Unwinds extraPhases p (nested ++ floor) finished rest last)
    (chain : Chain nested p at_)
    (holds : ∀ unit ∈ floor.head?, unit.segment.finalStep ≠ at_) :
    ∃ left, nested = finished ++ left ∧ rest = left ++ floor ∧ Chain left last at_ ∧
      ∀ unit ∈ finished, ∀ ep ∈ extraPhases, ep.anchor ≠ unit.segment.finalStep := by
  induction nested generalizing p finished with
  | nil =>
    obtain rfl : p = at_ := chain
    cases unwinds with
    | stop => exact ⟨[], rfl, rfl, rfl, by simp⟩
    | pop _ final _ => exact absurd final (holds _ rfl)
  | cons unit units ih =>
    cases unwinds with
    | stop => exact ⟨unit :: units, rfl, rfl, chain, by simp⟩
    | pop none_ final more =>
      obtain ⟨left, split, isRest, chain', done⟩ := ih more chain.2
      refine ⟨left, by rw [split, cons_append], isRest, chain', ?_⟩
      intro other inside
      rcases mem_cons.mp inside with rfl | inside
      · rw [final]
        exact none_
      · exact done other inside

end

variable {p at_ : Phase} {nested : List InsertedPhaseResume}

/-- With added steps only on top of it, an added phase is the one in progress. -/
theorem TurnState.finalStepOfPhaseHolding_added {below : List InsertedPhaseResume}
    {unit : InsertedPhaseResume} (stack : state.extraPhaseResume = below ++ unit :: nested)
    (whole : unit.segment.isStep = false) (chain : Chain nested.reverse p at_) (step : Phase) :
    state.finalStepOfPhaseHolding step = unit.segment.finalStep := by
  have none_ : nested.reverse.findSome? (fun unit : InsertedPhaseResume =>
      if unit.segment.isStep then none else some unit.segment.finalStep) = none := by
    rw [findSome?_eq_none_iff]
    intro other inside
    rw [if_pos (chain.isStep other inside)]
  rw [finalStepOfPhaseHolding, stack, reverse_append, reverse_cons, findSome?_append,
    findSome?_append, none_]
  simp [whole]

/-- With added steps only, the turn's own phase is the one in progress. -/
theorem TurnState.finalStepOfPhaseHolding_own (chain : Chain state.extraPhaseResume.reverse p at_) :
    state.finalStepOfPhaseHolding p = lastStepOfPhase at_ := by
  have none_ : state.extraPhaseResume.reverse.findSome? (fun unit : InsertedPhaseResume =>
      if unit.segment.isStep then none else some unit.segment.finalStep) = none := by
    rw [findSome?_eq_none_iff]
    intro other inside
    rw [if_pos (chain.isStep other inside)]
  rw [finalStepOfPhaseHolding, none_]
  have outermost := chain.outermost
  rw [getLast?_reverse] at outermost
  cases isHead : state.extraPhaseResume.head? with
  | some unit => exact congrArg lastStepOfPhase (outermost unit isHead)
  | none =>
    rw [head?_eq_none_iff.mp isHead] at chain
    exact congrArg lastStepOfPhase chain

/-- A phase is open above the first `n` units, with its steps under way. -/
def Deep (n : Nat) (state : TurnState) (step : Phase) : Prop :=
  ∃ below unit nested at_, state.extraPhaseResume = below ++ unit :: nested ∧ n ≤ below.length ∧
    unit.segment.isStep = false ∧ Chain nested.reverse step at_ ∧
    (nested ≠ [] → unit.segment.finalStep ≠ at_)

/-- The skip never closes a phase. -/
theorem Deep.taken {n : Nat} {state : TurnState} {step : Phase} {taken : Option ExtraPhase}
    (deep : Deep n state step) (more : step ≠ state.finalStepOfPhaseHolding step)
    (isTaken : state.takeScheduledSuccessor (plan state step) =
      some (taken, next, after)) : Deep n after next := by
  obtain ⟨below, unit, nested, at_, stack, above, whole, chain, guard⟩ := deep
  rw [finalStepOfPhaseHolding_added stack whole chain] at more
  have holds : unit.segment.finalStep ≠ at_ := by
    by_cases plain : nested = []
    · subst plain
      exact fun same => more (Eq.trans chain same.symm)
    · exact guard plain
  have reversed : state.extraPhaseResume.reverse = nested.reverse ++ (unit :: below.reverse) := by
    rw [stack]
    simp
  obtain ⟨finished, rest, last, unwinds, result⟩ := state.takeScheduledSuccessor_spec step
  rw [reversed] at unwinds
  obtain ⟨left, -, rfl, chain', -⟩ := unwinds.chain chain (by
    rintro other same
    cases same
    exact holds)
  rcases result with ⟨before, ep, later, -, rfl, -, _, planned, -, result⟩ |
    ⟨-, open_, unwound, planned, result⟩
  · rw [planned, result] at isTaken
    cases isTaken
    cases kind : ep.segment with
    | step added =>
      refine ⟨below, unit, left.reverse ++ [ep.unit], at_, ?_, above, whole, ?_, fun _ => holds⟩
      · simp
      · rw [reverse_append, reverse_reverse]
        exact ⟨kind, chain'⟩
    | phase group =>
      exact ⟨_, ep.unit, [], _, rfl, by simp; omega,
        by rw [show ep.unit.segment = ep.segment from rfl, kind]; rfl, rfl, by simp⟩
    | createdPhase added =>
      exact ⟨_, ep.unit, [], _, rfl, by simp; omega,
        by rw [show ep.unit.segment = ep.segment from rfl, kind]; rfl, rfl, by simp⟩
  · rw [planned, result] at isTaken
    cases isTaken
    cases left with
    | nil => exact ⟨below, unit, [], _, by simp, above, whole, rfl, by simp⟩
    | cons top left =>
      have final := open_ top rfl
      rw [chain'.1] at final
      exact absurd rfl final

/-- A combat phase is about to begin: the turn's own, or an added one. -/
inductive BeginsCombat : TurnState → List Phase → Prop where
  | own {state : TurnState} (noUnit : state.extraPhaseResume = []) :
      BeginsCombat state PhaseGroup.combat.steps
  | added {state : TurnState} {below : List InsertedPhaseResume} {unit : InsertedPhaseResume}
      (top : state.extraPhaseResume = below ++ [unit]) (whole : unit.segment.isStep = false)
      (first : unit.segment.firstStep = .beginCombat) : BeginsCombat state unit.segment.steps

/-- The added steps inside a phase: those after one of its own steps other than the last, or after an
added step inside it. -/
inductive PartOf (extraPhases : List ExtraPhase) (own : List Phase) (final : Phase) :
    ExtraPhase → Prop where
  | own {ep : ExtraPhase} (queued : ep ∈ extraPhases) (isStep : ep.segment.isStep = true)
      (after : ep.anchor ∈ own) (inner : ep.anchor ≠ final) : PartOf extraPhases own final ep
  | added {ep earlier : ExtraPhase} (queued : ep ∈ extraPhases) (isStep : ep.segment.isStep = true)
      (before : PartOf extraPhases own final earlier)
      (after : ep.anchor = earlier.segment.finalStep) : PartOf extraPhases own final ep

/-- The turn is at the end of the skipped phase: the units open are those that were open when it
was about to begin, and of the queue the added steps inside it are gone, and nothing else. -/
structure SkipsOnly (state : TurnState) (own : List Phase) (final : Phase) (after : TurnState) :
    Prop where
  atEnd : after.phase = final
  sameUnits : after.extraPhaseResume = state.extraPhaseResume
  skipped : ∃ taken, state.extraPhases.Perm (taken ++ after.extraPhases) ∧
    ∀ ep ∈ taken, PartOf state.extraPhases own final ep
  nothingLeft : ∀ ep ∈ after.extraPhases, ¬PartOf state.extraPhases own final ep

/-- No phase is queued behind a step of the phase other than its last, own or added, and no added
step inside it is named like its last step. -/
structure Unbroken (extraPhases : List ExtraPhase) (own : List Phase) (final : Phase) : Prop where
  ownSteps : ∀ p ∈ own, p ≠ final → ∀ ep ∈ extraPhases, ep.anchor = p → ep.segment.isStep = true
  addedSteps : ∀ ep, PartOf extraPhases own final ep → ep.segment.finalStep ≠ final ∧
    ∀ other ∈ extraPhases, other.anchor = ep.segment.finalStep → other.segment.isStep = true

theorem PartOf.isStep {extraPhases : List ExtraPhase} {own : List Phase} {final : Phase}
    {ep : ExtraPhase} (part : PartOf extraPhases own final ep) : ep.segment.isStep = true := by
  cases part with
  | own _ isStep => exact isStep
  | added _ isStep => exact isStep

section
variable {start : TurnState} {own : List Phase} {final : Phase}

section
variable (begins : BeginsCombat start own)
include begins

theorem BeginsCombat.first : own.head? = some .beginCombat := by
  cases begins with
  | own => rfl
  | added _ _ first => rw [steps_first, first]

theorem BeginsCombat.consecutive : Consecutive own := by
  cases begins with
  | own => exact consecutive (.phase .combat)
  | @added below unit => exact unit.segment.consecutive

/-- Inside the phase its last step is the one that the skip looks for. -/
theorem BeginsCombat.holding (last : own.getLast? = some final) {state : TurnState}
    {nested : List InsertedPhaseResume} {p at_ : Phase}
    (stack : state.extraPhaseResume = start.extraPhaseResume ++ nested)
    (chain : Chain nested.reverse p at_) (inside : at_ ∈ own) :
    state.finalStepOfPhaseHolding p = final := by
  cases begins with
  | own noUnit =>
    rw [noUnit, nil_append] at stack
    rw [← stack] at chain
    rw [finalStepOfPhaseHolding_own chain, ← Option.some.inj last]
    revert inside
    cases at_ <;> decide
  | @added below unit top whole first =>
    rw [top, append_assoc] at stack
    rw [finalStepOfPhaseHolding_added stack whole chain]
    rw [steps_final] at last
    exact Option.some.inj last

/-- The unit of the phase itself stays open at its other steps. -/
theorem BeginsCombat.guard (last : own.getLast? = some final) {at_ : Phase} (more : at_ ≠ final) :
    ∀ unit ∈ start.extraPhaseResume.reverse.head?, unit.segment.finalStep ≠ at_ := by
  cases begins with
  | own noUnit =>
    rw [noUnit]
    intro unit same
    cases same
  | @added below unit top whole first =>
    rw [top, reverse_append]
    rintro other same
    cases same
    rw [steps_final] at last
    exact fun same => more (same.symm.trans (Option.some.inj last))

end

/-- The skip has come to an own step of the phase or to an added one, and so far nothing but added
steps of the phase was taken. -/
structure Within (start : TurnState) (own : List Phase) (final : Phase) (state : TurnState)
    (step : Phase) (taken : List ExtraPhase) (nested : List InsertedPhaseResume) (at_ : Phase)
    (begun : List Phase) : Prop where
  stack : state.extraPhaseResume = start.extraPhaseResume ++ nested
  chain : Chain nested.reverse step at_
  upTo : UpTo own at_ begun
  inner : nested ≠ [] → at_ ≠ final
  entries : start.extraPhases.Perm (taken ++ state.extraPhases)
  parts : ∀ ep ∈ taken, PartOf start.extraPhases own final ep ∧ ep.segment.finalStep ≠ final
  opened : ∀ unit ∈ nested, ∃ ep ∈ taken, ep.segment = unit.segment
  left : ∀ p ∈ begun, p ≠ at_ → ∀ ep ∈ state.extraPhases, ep.anchor ≠ p
  closed : ∀ ep ∈ taken, (∃ unit ∈ nested, unit.segment = ep.segment) ∨
    ∀ other ∈ state.extraPhases, other.anchor ≠ ep.segment.finalStep

/-- Something else than an added step of the phase was taken, or an added step is taken for the
end of the phase. -/
def Broken (n : Nat) (state : TurnState) (step : Phase) : Prop :=
  Deep n state step ∨ (n < state.extraPhaseResume.length ∧ step = state.finalStepOfPhaseHolding step)

theorem Broken.longer {n : Nat} (broken : Broken n state step) :
    n < state.extraPhaseResume.length := by
  rcases broken with ⟨below, unit, nested, _, stack, above, -⟩ | ⟨longer, -⟩
  · rw [stack, length_append, length_cons]
    omega
  · exact longer

variable {begun : List Phase}

theorem UpTo.mem {steps : List Phase} (h : UpTo steps p begun) :
    p ∈ steps ∧ ∀ q ∈ begun, q ∈ steps := by
  obtain ⟨at_, later, rfl⟩ := h
  exact ⟨mem_append_left _ (mem_of_getLast? at_), fun q inside =>
    mem_append_left _ inside⟩

variable (begins : BeginsCombat start own) (last : own.getLast? = some final)
include begins last

/-- One successor on the way through the phase. -/
theorem Within.taken {state : TurnState} {step at_ : Phase} {took : Option ExtraPhase}
    {taken : List ExtraPhase} {nested : List InsertedPhaseResume}
    (within : Within start own final state step taken nested at_ begun)
    (more : step ≠ state.finalStepOfPhaseHolding step)
    (isTaken : state.takeScheduledSuccessor (plan state step) =
      some (took, next, after)) :
    (∃ taken nested at_ begun, Within start own final after next taken nested at_ begun) ∨
      (Broken start.extraPhaseResume.length after next ∧
        ¬Unbroken start.extraPhases own final) := by
  obtain ⟨stack, chain, upTo, inner, entries, parts, opened, left, closed⟩ := within
  have inside := upTo.mem.1
  rw [begins.holding last stack chain inside] at more
  have apart : at_ ≠ final := by
    by_cases plain : nested = []
    · subst plain
      exact fun same => more (Eq.trans chain same)
    · exact inner plain
  have reversed : state.extraPhaseResume.reverse =
      nested.reverse ++ start.extraPhaseResume.reverse := by
    rw [stack, reverse_append]
  obtain ⟨finished, rest, last', unwinds, result⟩ := state.takeScheduledSuccessor_spec step
  rw [reversed] at unwinds
  obtain ⟨still, split, rfl, chain', done⟩ := unwinds.chain chain (begins.guard last apart)
  have nestedIff (unit : InsertedPhaseResume) : unit ∈ nested ↔ unit ∈ finished ∨ unit ∈ still := by
    rw [← mem_reverse, split, mem_append]
  have cameFrom : last' = at_ ∨ ∃ earlier ∈ taken, earlier.segment.finalStep = last' := by
    cases still with
    | nil => exact .inl chain'
    | cons top units =>
      obtain ⟨earlier, isTaken', same⟩ :=
        opened top ((nestedIff top).mpr (.inr mem_cons_self))
      refine .inr ⟨earlier, isTaken', ?_⟩
      rw [same, chain'.1]
      rfl
  have closes : ∀ ep ∈ taken, (∃ unit ∈ still, unit.segment = ep.segment) ∨
      ∀ other ∈ state.extraPhases, other.anchor ≠ ep.segment.finalStep := by
    intro ep isTaken'
    rcases closed ep isTaken' with ⟨unit, isOpen, same⟩ | none_
    · rcases (nestedIff unit).mp isOpen with isClosed | isOpen
      · rw [← same]
        exact .inr (done unit isClosed)
      · exact .inl ⟨unit, isOpen, same⟩
    · exact .inr none_
  rcases result with ⟨before, ep, later, queue, anchored, -, _, planned, -, result⟩ |
    ⟨nothing, open_, _, planned, result⟩
  · rw [planned, result] at isTaken
    cases isTaken
    have wasQueued : ep ∈ start.extraPhases :=
      entries.symm.subset (mem_append_right _ (by rw [queue]; simp))
    have fewer : ∀ other ∈ before ++ later, other ∈ state.extraPhases := by
      intro other waits
      rw [queue]
      simp only [mem_append, mem_cons] at waits ⊢
      tauto
    have stack' : (still ++ start.extraPhaseResume.reverse).reverse ++ [ep.unit] =
        start.extraPhaseResume ++ (still.reverse ++ [ep.unit]) := by simp
    cases kind : ep.segment.isStep with
    | true =>
      have part : PartOf start.extraPhases own final ep := by
        rcases cameFrom with rfl | ⟨earlier, isTaken', rfl⟩
        · exact .own wasQueued kind (by rw [anchored]; exact inside) (by rw [anchored]; exact apart)
        · exact .added wasQueued kind (parts earlier isTaken').1 anchored
      have longer : Chain (still.reverse ++ [ep.unit]).reverse ep.segment.firstStep at_ := by
        rw [reverse_append, reverse_reverse]
        refine ⟨?_, show Chain still ep.anchor at_ by rw [anchored]; exact chain'⟩
        rw [show ep.unit.segment = ep.segment from rfl]
        revert kind
        cases ep.segment <;> simp [isStep, firstStep]
      have same : ep.segment.firstStep = ep.segment.finalStep := by
        revert kind
        cases ep.segment <;> simp [isStep, firstStep, finalStep]
      by_cases named : ep.segment.finalStep = final
      · refine .inr ⟨.inr ⟨?_, ?_⟩, fun unbroken => (unbroken.addedSteps ep part).1 named⟩
        · simp only [stack', length_append, length_cons, length_reverse, length_nil]
          omega
        · rw [begins.holding last stack' longer inside, same, named]
      · refine .inl ⟨taken ++ [ep], still.reverse ++ [ep.unit], at_, begun, ?_⟩
        exact {
          stack := stack'
          chain := longer
          upTo := upTo
          inner := fun _ => apart
          entries := by
            refine entries.trans ?_
            rw [queue, append_assoc]
            exact perm_middle.append_left taken
          parts := fun other isTaken' => by
            rcases mem_append.mp isTaken' with isTaken' | isLast
            · exact parts other isTaken'
            · rw [mem_singleton.mp isLast]
              exact ⟨part, named⟩
          opened := fun unit isOpen => by
            rcases mem_append.mp isOpen with isOpen | isLast
            · obtain ⟨earlier, isTaken', same⟩ :=
                opened unit ((nestedIff unit).mpr (.inr (mem_reverse.mp isOpen)))
              exact ⟨earlier, mem_append_left _ isTaken', same⟩
            · rw [mem_singleton.mp isLast]
              exact ⟨ep, by simp, rfl⟩
          left := fun p isBegun apart other waits => left p isBegun apart other (fewer other waits)
          closed := fun other isTaken' => by
            rcases mem_append.mp isTaken' with isTaken' | isLast
            · rcases closes other isTaken' with ⟨unit, isOpen, same⟩ | none_
              · exact .inl ⟨unit, by simp [isOpen], same⟩
              · exact .inr fun entry waits => none_ entry (fewer entry waits)
            · rw [mem_singleton.mp isLast]
              exact .inl ⟨ep.unit, by simp, rfl⟩ }
    | false =>
      refine .inr ⟨.inl ?_, fun unbroken => ?_⟩
      · exact ⟨_, ep.unit, [], _, rfl, by simp, kind, rfl, by simp⟩
      · have isStep : ep.segment.isStep = true := by
          rcases cameFrom with rfl | ⟨earlier, isTaken', rfl⟩
          · exact unbroken.ownSteps _ inside apart ep wasQueued anchored
          · exact (unbroken.addedSteps earlier (parts earlier isTaken').1).2 ep wasQueued anchored
        rw [kind] at isStep
        cases isStep
  · rw [planned, result] at isTaken
    cases isTaken
    cases still with
    | cons top units =>
      have final := open_ top rfl
      rw [chain'.1] at final
      exact absurd rfl final
    | nil =>
      obtain rfl : last' = at_ := chain'
      obtain ⟨-, further⟩ := upTo.next begins.consecutive
        (by rw [last]; exact fun same => apart (Option.some.inj same).symm)
      refine .inl ⟨taken, [], nextPhase last', begun ++ [nextPhase last'], ?_⟩
      exact {
        stack := by simp
        chain := rfl
        upTo := further
        inner := by simp
        entries := entries
        parts := parts
        opened := by simp
        left := fun p isBegun other => by
          rcases mem_append.mp isBegun with isBegun | isLast
          · by_cases here : p = last'
            · rw [here]
              exact nothing
            · exact left p isBegun here
          · exact absurd (mem_singleton.mp isLast) other
        closed := closes }

omit begins last in
/-- The first step is about to begin. -/
theorem BeginsCombat.within (begins : BeginsCombat start own) :
    Within start own final start .beginCombat [] [] .beginCombat [.beginCombat] where
  stack := (append_nil _).symm
  chain := rfl
  upTo := upTo_first begins.first
  inner := by simp
  entries := .refl _
  parts := by simp
  opened := by simp
  left := by simp +contextual
  closed := by simp

/-- A skip that stays within the phase ends with its own last step. -/
theorem Within.ended {taken : List ExtraPhase}
    (within : Within start own final state step taken nested at_ begun)
    (done : step = state.finalStepOfPhaseHolding step) :
    SkipsOnly start own final { state with phase := step } ∧
      Unbroken start.extraPhases own final := by
  obtain ⟨stack, chain, upTo, inner, entries, parts, opened, left, closed⟩ := within
  rw [begins.holding last stack chain upTo.mem.1] at done
  subst done
  obtain rfl : nested = [] := by
    rcases eq_nil_or_concat' nested with rfl | ⟨below, top, rfl⟩
    · rfl
    · rw [reverse_append] at chain
      obtain ⟨ep, isTaken, same⟩ := opened top (by simp)
      have named : ep.segment.finalStep = step := by
        rw [same, chain.1]
        rfl
      exact absurd named (parts ep isTaken).2
  obtain rfl : step = at_ := chain
  obtain rfl := upTo.last begins.consecutive.nodup last
  have closed : ∀ ep ∈ taken, ∀ other ∈ state.extraPhases, other.anchor ≠ ep.segment.finalStep := by
    intro ep isTaken
    rcases closed ep isTaken with ⟨unit, inside, -⟩ | none_
    · exact absurd inside not_mem_nil
    · exact none_
  have queued {ep : ExtraPhase} (waits : ep ∈ start.extraPhases) (gone : ep ∉ state.extraPhases) :
      ep ∈ taken :=
    (mem_append.mp (entries.subset waits)).resolve_right gone
  have all (ep : ExtraPhase) (part : PartOf start.extraPhases begun step ep) :
      ep ∉ state.extraPhases ∧ ep ∈ taken := by
    induction part with
    | own waits _ after inner =>
      have gone : _ ∉ state.extraPhases := fun stays => left _ after inner _ stays rfl
      exact ⟨gone, queued waits gone⟩
    | added waits _ _ after ih =>
      have gone : _ ∉ state.extraPhases := fun stays => closed _ ih.2 _ stays after
      exact ⟨gone, queued waits gone⟩
  refine ⟨⟨rfl, ?_, ⟨taken, entries, fun ep isTaken => (parts ep isTaken).1⟩,
    fun ep stays part => (all ep part).1 stays⟩, ⟨?_, ?_⟩⟩
  · rw [stack, append_nil]
  · intro p inside apart ep waits anchored
    have gone : ep ∉ state.extraPhases := fun stays => left p inside apart ep stays anchored
    exact (parts ep (queued waits gone)).1.isStep
  · intro ep part
    refine ⟨(parts ep (all ep part).2).2, fun other waits anchored => ?_⟩
    have gone : other ∉ state.extraPhases := fun stays =>
      closed ep (all ep part).2 other stays anchored
    exact (parts other (queued waits gone)).1.isStep

/-- The skip of a combat phase ends, and it skips exactly that phase if no phase is queued inside
it and none of the steps added inside it is named like its last step. -/
theorem skipPastPreventedStep_exact_iff :
    ∃ after, start.skipPastPreventedStep .beginCombat = some after ∧
      (SkipsOnly start own final after ↔ Unbroken start.extraPhases own final) := by
  obtain ⟨after, step, isFinal, done, reached⟩ := finalStepOfSkippedPhase_spec
    (P := fun state step =>
      (∃ taken nested at_ begun, Within start own final state step taken nested at_ begun) ∨
        (Broken start.extraPhaseResume.length state step ∧ ¬Unbroken start.extraPhases own final))
    (fun more isTaken held => by
      rcases held with ⟨_, _, _, _, within⟩ | ⟨deep | ⟨-, atEnd⟩, broken⟩
      · exact within.taken begins last more isTaken
      · exact .inr ⟨.inl (deep.taken more isTaken), broken⟩
      · exact absurd atEnd more)
    (show (∃ taken nested at_ begun, Within start own final start .beginCombat taken nested at_
      begun) ∨ _ from .inl ⟨_, _, _, _, begins.within⟩)
  refine ⟨{ after with phase := step }, by simp [skipPastPreventedStep, isFinal], ?_⟩
  rcases reached with ⟨_, _, _, _, within⟩ | ⟨outside, broken⟩
  · obtain ⟨exact_, unbroken⟩ := within.ended begins last done
    exact ⟨fun _ => unbroken, fun _ => exact_⟩
  · refine ⟨fun exact_ => ?_, fun unbroken => absurd unbroken broken⟩
    have longer := outside.longer
    rw [← exact_.sameUnits] at longer
    exact absurd longer (Nat.lt_irrefl _)

end

/-- The turn's own combat, with an upkeep step added after its beginning and a second combat phase
after it. -/
def doctorsCombat : TurnState where
  phase := .preCombatMain
  extraPhases := [⟨.beginCombat, .step .upkeep, 0⟩, ⟨.endCombat, .phase .combat, 1⟩]
  extraPhaseResume := []
  nextExtraPhaseId := 2

theorem doctors_combat_skipped :
    ∃ after, doctorsCombat.skipPastPreventedStep .beginCombat = some after ∧
      SkipsOnly doctorsCombat PhaseGroup.combat.steps .endCombat after := by
  obtain ⟨after, skips, exact_⟩ := skipPastPreventedStep_exact_iff
    (show BeginsCombat doctorsCombat PhaseGroup.combat.steps from .own rfl)
    (show PhaseGroup.combat.steps.getLast? = some .endCombat from rfl)
  refine ⟨after, skips, exact_.mpr ⟨by decide, fun ep part => ?_⟩⟩
  have inside : ∀ ep ∈ doctorsCombat.extraPhases, ep.segment.isStep = true →
      ep.segment.finalStep ≠ .endCombat ∧
        ∀ other ∈ doctorsCombat.extraPhases, other.anchor = ep.segment.finalStep →
          other.segment.isStep = true := by decide
  cases part with
  | own queued isStep => exact inside ep queued isStep
  | added queued isStep => exact inside ep queued isStep

/-- The turn's own combat, with an end of combat step added after its beginning. -/
def earlyEnd : TurnState where
  phase := .preCombatMain
  extraPhases := [⟨.beginCombat, .step .endCombat, 0⟩]
  extraPhaseResume := []
  nextExtraPhaseId := 1

/-- The added step is taken for the end of the phase, and the attackers of the prevented combat are
declared next. -/
theorem skip_stops_at_added_step :
    BeginsCombat earlyEnd PhaseGroup.combat.steps ∧
      ∃ after, earlyEnd.skipPastPreventedStep .beginCombat = some after ∧
      ¬SkipsOnly earlyEnd PhaseGroup.combat.steps .endCombat after ∧
      ∃ later, after.advancePhaseHop = some (.entered none later) ∧
        later.phase = .declareAttackers := by
  refine ⟨.own rfl, ⟨.endCombat, [], [⟨.beginCombat, .step .endCombat, 0⟩], 1⟩, ?_, ?_, _, rfl, rfl⟩
  · rw [skipPastPreventedStep, if_pos rfl, finalStepOfSkippedPhase,
      if_neg (by decide)]
    show (finalStepOfSkippedPhase _ .endCombat).map _ = _
    rw [finalStepOfSkippedPhase, if_pos (by decide)]
    rfl
  · intro exact_
    cases exact_.sameUnits

end Phase.Turn
