import Phase.Lib.Indexed

/-! The schedule of one turn: the steps that follow each other, and the phases and steps that
effects insert. -/
namespace Phase.Turn
open List

set_option linter.dupNamespace false

/-- The phases and steps of a turn. -/
inductive Phase where
  | untap
  | upkeep
  | draw
  | preCombatMain
  | beginCombat
  | declareAttackers
  | declareBlockers
  | combatDamage
  | endCombat
  | postCombatMain
  | «end»
  | cleanup
  deriving DecidableEq

inductive PhaseGroup where
  | beginning
  | precombatMain
  | combat
  | postcombatMain
  | ending
  deriving DecidableEq

def phaseOrder : List Phase :=
  [.untap, .upkeep, .draw, .preCombatMain, .beginCombat, .declareAttackers, .declareBlockers,
    .combatDamage, .endCombat, .postCombatMain, .end, .cleanup]

def nextPhase (phase : Phase) : Phase :=
  phaseOrder.getD ((phaseOrder.idxOf phase + 1) % phaseOrder.length) .untap

def PhaseGroup.lastStep : PhaseGroup → Phase
  | .beginning => .draw
  | .precombatMain => .preCombatMain
  | .combat => .endCombat
  | .postcombatMain => .postCombatMain
  | .ending => .cleanup

def PhaseGroup.steps : PhaseGroup → List Phase
  | .beginning => [.untap, .upkeep, .draw]
  | .precombatMain => [.preCombatMain]
  | .combat => [.beginCombat, .declareAttackers, .declareBlockers, .combatDamage, .endCombat]
  | .postcombatMain => [.postCombatMain]
  | .ending => [.end, .cleanup]

/-- What an effect adds to a turn. -/
inductive TurnSegment where
  /-- A whole added phase, with all of its steps. -/
  | phase (group : PhaseGroup)
  /-- A phase created to hold only this step. -/
  | createdPhase (step : Phase)
  /-- A step added directly after a step of the phase in progress. -/
  | step (step : Phase)
  deriving DecidableEq

namespace TurnSegment

/-- An added main phase is a postcombat main phase. -/
def firstStep : TurnSegment → Phase
  | .phase .beginning => .untap
  | .phase .precombatMain | .phase .postcombatMain => .postCombatMain
  | .phase .combat => .beginCombat
  | .phase .ending => .end
  | .createdPhase added | .step added => added

def finalStep : TurnSegment → Phase
  | .phase .precombatMain | .phase .postcombatMain => .postCombatMain
  | .phase group => group.lastStep
  | .createdPhase added | .step added => added

def isStep : TurnSegment → Bool
  | .step _ => true
  | .phase _ | .createdPhase _ => false

end TurnSegment

structure ExtraPhase where
  anchor : Phase
  segment : TurnSegment
  id : Nat
  deriving DecidableEq

/-- An inserted unit in progress. -/
structure InsertedPhaseResume where
  anchor : Phase
  segment : TurnSegment
  entry : Nat
  deriving DecidableEq

/-- The record of the unit that `ep` begins. -/
def ExtraPhase.unit (ep : ExtraPhase) : InsertedPhaseResume where
  anchor := ep.anchor
  segment := ep.segment
  entry := ep.id

structure TurnState where
  phase : Phase
  extraPhases : List ExtraPhase
  extraPhaseResume : List InsertedPhaseResume
  nextExtraPhaseId : Nat

inductive ScheduledSuccessor where
  | insert (unwound index : Nat)
  | natural (unwound : Nat) (next : Phase)
  deriving DecidableEq

/-- The last position whose element passes. -/
def rposition {α : Type} (p : α → Bool) : List α → Option Nat
  | [] => none
  | x :: xs =>
    match rposition p xs with
    | some i => some (i + 1)
    | none => if p x then some 0 else none

/-- The entry taken after `ended`: a queued step before a queued phase, each kind newest first. -/
def due (extraPhases : List ExtraPhase) (ended : Phase) : Option Nat :=
  (rposition (fun ep => ep.anchor = ended && ep.segment.isStep) extraPhases).or
    (rposition (fun ep => ep.anchor = ended) extraPhases)

namespace ScheduledSuccessor

/-- The loop of `plan`; `units` are the open units not yet looked at, innermost first. -/
def planFrom (extraPhases : List ExtraPhase) (ended : Phase) (unwound : Nat) :
    List InsertedPhaseResume → ScheduledSuccessor
  | [] =>
    match due extraPhases ended with
    | some index => .insert unwound index
    | none => .natural unwound (nextPhase ended)
  | unit :: units =>
    match due extraPhases ended with
    | some index => .insert unwound index
    | none =>
      if unit.segment.finalStep = ended then planFrom extraPhases unit.anchor (unwound + 1) units
      else .natural unwound (nextPhase ended)

def plan (state : TurnState) (leaving : Phase) : ScheduledSuccessor :=
  planFrom state.extraPhases leaving 0 state.extraPhaseResume.reverse

def unwound : ScheduledSuccessor → Nat
  | .insert unwound _ | .natural unwound _ => unwound

def endsTurn : ScheduledSuccessor → Bool
  | .natural _ .untap => true
  | _ => false

end ScheduledSuccessor

namespace TurnState

/-- `none` where the subtraction would underflow or the index would be out of bounds. -/
def takeScheduledSuccessor (state : TurnState) (successor : ScheduledSuccessor) :
    Option (Option ExtraPhase × Phase × TurnState) :=
  if state.extraPhaseResume.length < successor.unwound then none
  else
    let depth := state.extraPhaseResume.length - successor.unwound
    let truncated := state.extraPhaseResume.take depth
    match successor with
    | .natural _ next => some (none, next, { state with extraPhaseResume := truncated })
    | .insert _ index =>
      match state.extraPhases[index]? with
      | none => none
      | some ep =>
        some (some ep, ep.segment.firstStep, { state with
          extraPhases := state.extraPhases.eraseIdx index
          extraPhaseResume := truncated ++ [ep.unit] })

inductive PhaseHop where
  | turnEnds
  | entered (taken : Option ExtraPhase) (state : TurnState)

/-- One successor of the step being left, with nothing to settle and no step skipped. -/
def advancePhaseHop (state : TurnState) : Option PhaseHop :=
  let successor := ScheduledSuccessor.plan state state.phase
  match state.takeScheduledSuccessor successor with
  | none => none
  | some (removed, next, state) =>
    if successor.endsTurn then some .turnEnds
    else some (.entered removed { state with phase := next })

/-- An effect queues `segment` after `anchor`. -/
def schedule (state : TurnState) (anchor : Phase) (segment : TurnSegment) : TurnState :=
  let id := max state.nextExtraPhaseId 1
  { state with
    nextExtraPhaseId := id + 1
    extraPhases := state.extraPhases ++ [{ anchor, segment, id }] }

/-- The innermost added unit in progress. -/
def addedUnit (state : TurnState) : Option Nat :=
  state.extraPhaseResume.getLast?.map (·.entry)

end TurnState

theorem ScheduledSuccessor.endsTurn_natural_ne (unwound : Nat) {next : Phase}
    (inner : next ≠ .untap) : endsTurn (.natural unwound next) = false := by
  cases next with
  | untap => exact absurd rfl inner
  | _ => rfl

/-- The steps that a segment consists of. -/
def TurnSegment.steps : TurnSegment → List Phase
  | .phase .precombatMain => [.postCombatMain]
  | .phase group => group.steps
  | .createdPhase added | .step added => [added]

theorem TurnSegment.steps_first (segment : TurnSegment) :
    segment.steps.head? = some segment.firstStep := by
  rcases segment with group | step | step
  · cases group <;> rfl
  · rfl
  · rfl

theorem TurnSegment.steps_final (segment : TurnSegment) :
    segment.steps.getLast? = some segment.finalStep := by
  rcases segment with group | step | step
  · cases group <;> rfl
  · rfl
  · rfl

theorem nextPhase_eq_untap {phase : Phase} : nextPhase phase = .untap ↔ phase = .cleanup := by
  cases phase <;> decide

/-- Steps that follow each other as the turn has them. -/
structure Consecutive (steps : List Phase) : Prop where
  nodup : steps.Nodup
  chain : steps.IsChain fun p q => nextPhase p = q
  inner : .untap ∉ steps.tail

theorem consecutive_phaseOrder : Consecutive phaseOrder where
  nodup := by decide
  chain := by decide
  inner := by decide

theorem TurnSegment.consecutive (segment : TurnSegment) : Consecutive segment.steps := by
  rcases segment with group | added | added
  · cases group <;> exact ⟨by decide, by decide, by decide⟩
  · exact ⟨by simp [steps], .singleton _, by simp [steps]⟩
  · exact ⟨by simp [steps], .singleton _, by simp [steps]⟩

/-- `begun` is how far `steps` has come when `p` is in progress. -/
def UpTo (steps : List Phase) (p : Phase) (begun : List Phase) : Prop :=
  begun.getLast? = some p ∧ ∃ later, steps = begun ++ later

section
variable {steps begun : List Phase} {p : Phase}

theorem upTo_first (first : steps.head? = some p) : UpTo steps p [p] := by
  cases steps with
  | nil => cases first
  | cons q later =>
    cases first
    exact ⟨rfl, later, rfl⟩

theorem UpTo.last (h : UpTo steps p begun) (nodup : steps.Nodup)
    (final : steps.getLast? = some p) : begun = steps := by
  obtain ⟨at_, later, rfl⟩ := h
  rcases eq_nil_or_concat' later with rfl | ⟨later, q, rfl⟩
  · rw [append_nil]
  · rw [← append_assoc, getLast?_concat] at final
    cases final
    have inside := mem_of_getLast? at_
    exact absurd rfl ((nodup_append.mp nodup).2.2 p inside p (by simp))

/-- A step that is not the last gives way to the next. -/
theorem UpTo.next (h : UpTo steps p begun) (consecutive : Consecutive steps)
    (more : steps.getLast? ≠ some p) :
    nextPhase p ≠ .untap ∧ UpTo steps (nextPhase p) (begun ++ [nextPhase p]) := by
  obtain ⟨at_, later, split⟩ := h
  obtain ⟨earlier, rfl⟩ := getLast?_eq_some_iff.mp at_
  cases later with
  | nil =>
    rw [split, append_nil] at more
    exact absurd at_ more
  | cons q later =>
    have joined : steps = earlier ++ p :: q :: later := by rw [split]; simp
    have chain := consecutive.chain
    rw [joined, isChain_append_cons_cons] at chain
    obtain ⟨-, rfl, -⟩ := chain
    refine ⟨fun wraps => consecutive.inner ?_, getLast?_concat, later, by rw [joined]; simp⟩
    rw [joined, wraps]
    cases earlier <;> simp

end

theorem rposition_eq_none {α : Type} {p : α → Bool} {xs : List α} :
    rposition p xs = none ↔ ∀ x ∈ xs, p x = false := by
  induction xs with
  | nil => simp [rposition]
  | cons x xs ih =>
    rw [rposition, forall_mem_cons, ← ih]
    cases rposition p xs with
    | some i => simp
    | none => cases p x <;> simp

theorem rposition_eq_some {α : Type} {p : α → Bool} {xs : List α} {i : Nat}
    (h : rposition p xs = some i) :
    ∃ before x after, xs = before ++ x :: after ∧ i = before.length ∧ p x = true ∧
      ∀ y ∈ after, p y = false := by
  induction xs generalizing i with
  | nil => cases h
  | cons x xs ih =>
    rw [rposition] at h
    cases later : rposition p xs with
    | some j =>
      rw [later] at h
      cases h
      obtain ⟨before, y, after, rfl, rfl, passes, rest⟩ := ih later
      exact ⟨x :: before, y, after, rfl, rfl, passes, rest⟩
    | none =>
      simp only [later] at h
      split at h
      · next passes =>
        cases h
        exact ⟨[], x, xs, rfl, rfl, passes, rposition_eq_none.mp later⟩
      · cases h

variable {ended : Phase} {extraPhases : List ExtraPhase}

theorem due_eq_none : due extraPhases ended = none ↔ ∀ ep ∈ extraPhases, ep.anchor ≠ ended := by
  rw [due, Option.or_eq_none_iff, rposition_eq_none, rposition_eq_none]
  constructor
  · rintro ⟨-, none_⟩ ep inside
    exact of_decide_eq_false (none_ ep inside)
  · intro none_
    refine ⟨fun ep inside => ?_, fun ep inside => decide_eq_false (none_ ep inside)⟩
    rw [decide_eq_false (none_ ep inside), Bool.false_and]

/-- `ep` is entered before `other`, which waits at the same anchor. -/
def Precedes (ep other : ExtraPhase) (created : Prop) : Prop :=
  (ep.segment.isStep = true ∧ other.segment.isStep = false) ∨
    (ep.segment.isStep = other.segment.isStep ∧ created)

theorem due_eq_some {index : Nat} (h : due extraPhases ended = some index) :
    ∃ before ep after, extraPhases = before ++ ep :: after ∧ index = before.length ∧
      ep.anchor = ended ∧ ∀ other ∈ before ++ after, other.anchor = ended →
        Precedes ep other (other ∈ before) := by
  rcases Option.or_eq_some_iff.mp h with step | ⟨noStep, newest⟩
  · obtain ⟨before, ep, after, split, at_, passes, later⟩ := rposition_eq_some step
    rw [Bool.and_eq_true, decide_eq_true_eq] at passes
    refine ⟨before, ep, after, split, at_, passes.1, fun other inside waits => ?_⟩
    cases kind : other.segment.isStep with
    | false => exact .inl ⟨passes.2, kind⟩
    | true =>
      refine .inr ⟨by rw [passes.2, kind], ?_⟩
      rcases mem_append.mp inside with earlier | after_
      · exact earlier
      · have := later other after_
        rw [decide_eq_true waits, kind] at this
        cases this
  · obtain ⟨before, ep, after, split, at_, passes, later⟩ := rposition_eq_some newest
    have waits := of_decide_eq_true passes
    have plain : ∀ other ∈ extraPhases, other.anchor = ended → other.segment.isStep = false := by
      intro other inside same
      have := rposition_eq_none.mp noStep other inside
      rw [decide_eq_true same] at this
      exact this
    refine ⟨before, ep, after, split, at_, waits, fun other inside same => .inr ⟨?_, ?_⟩⟩
    · have known : other ∈ extraPhases := by
        rw [split]
        rcases mem_append.mp inside with earlier | after_
        · exact mem_append_left _ earlier
        · exact mem_append_right _ (mem_cons_of_mem ep after_)
      rw [plain ep (split ▸ by simp) waits, plain other known same]
    · rcases mem_append.mp inside with earlier | after_
      · exact earlier
      · exact absurd (decide_eq_true same) (by rw [later other after_]; decide)

/-- Unwinding the units that `ended` ends: those at whose end nothing more is due give way to
their anchors. -/
inductive Unwinds (extraPhases : List ExtraPhase) :
    Phase → List InsertedPhaseResume → List InsertedPhaseResume → List InsertedPhaseResume →
      Phase → Prop where
  | stop (ended units) : Unwinds extraPhases ended units [] units ended
  | pop {ended unit units finished rest last} (none_ : ∀ ep ∈ extraPhases, ep.anchor ≠ ended)
      (final : unit.segment.finalStep = ended)
      (more : Unwinds extraPhases unit.anchor units finished rest last) :
      Unwinds extraPhases ended (unit :: units) (unit :: finished) rest last

theorem Unwinds.split {last : Phase} {units finished rest : List InsertedPhaseResume}
    (h : Unwinds extraPhases ended units finished rest last) : units = finished ++ rest := by
  induction h with
  | stop => rfl
  | pop _ _ _ ih => rw [ih, cons_append]

theorem planFrom_spec (extraPhases : List ExtraPhase) (ended : Phase) (count : Nat)
    (units : List InsertedPhaseResume) :
    ∃ finished rest last, Unwinds extraPhases ended units finished rest last ∧
      ((∃ index, due extraPhases last = some index ∧
        ScheduledSuccessor.planFrom extraPhases ended count units =
          .insert (count + finished.length) index) ∨
      (due extraPhases last = none ∧ (∀ unit ∈ rest.head?, unit.segment.finalStep ≠ last) ∧
        ScheduledSuccessor.planFrom extraPhases ended count units =
          .natural (count + finished.length) (nextPhase last))) := by
  induction units generalizing ended count with
  | nil =>
    refine ⟨[], [], ended, .stop .., ?_⟩
    rw [ScheduledSuccessor.planFrom]
    cases found : due extraPhases ended with
    | some index => exact .inl ⟨index, rfl, rfl⟩
    | none => exact .inr ⟨rfl, by simp, rfl⟩
  | cons unit units ih =>
    rw [ScheduledSuccessor.planFrom]
    cases found : due extraPhases ended with
    | some index => exact ⟨[], unit :: units, ended, .stop .., .inl ⟨index, found, rfl⟩⟩
    | none =>
      by_cases final : unit.segment.finalStep = ended
      · obtain ⟨finished, rest, last, unwinds, result⟩ := ih unit.anchor (count + 1)
        refine ⟨unit :: finished, rest, last, .pop (due_eq_none.mp found) final unwinds, ?_⟩
        simp only [if_pos final, length_cons, Nat.add_comm finished.length 1, ← Nat.add_assoc]
        exact result
      · refine ⟨[], unit :: units, ended, .stop .., .inr ⟨found, ?_, ?_⟩⟩
        · rintro other same
          cases same
          exact final
        · simp only [if_neg final]
          rfl

namespace TurnState

/-- `ep` is taken from the queue, on top of the units in `rest`, innermost first. -/
def inserted (state : TurnState) (ep : ExtraPhase) (queue : List ExtraPhase)
    (rest : List InsertedPhaseResume) : TurnState :=
  { state with
    phase := ep.segment.firstStep
    extraPhases := queue
    extraPhaseResume := rest.reverse ++ [ep.unit] }

/-- The natural successor of `last` follows, inside the units in `rest`. -/
def continued (state : TurnState) (last : Phase) (rest : List InsertedPhaseResume) : TurnState :=
  { state with
    phase := nextPhase last
    extraPhaseResume := rest.reverse }

theorem addedUnit_inserted (state : TurnState) (ep : ExtraPhase) (queue : List ExtraPhase)
    (rest : List InsertedPhaseResume) : (state.inserted ep queue rest).addedUnit = some ep.id := by
  rw [addedUnit, inserted, getLast?_concat]
  rfl

theorem addedUnit_continued (state : TurnState) (last : Phase) (rest : List InsertedPhaseResume) :
    (state.continued last rest).addedUnit = rest.head?.map (·.entry) := by
  rw [addedUnit, continued, getLast?_reverse]

end TurnState

/-- Everything that can follow the step `leaving`. The subtraction never underflows. -/
theorem TurnState.takeScheduledSuccessor_spec (state : TurnState) (leaving : Phase) :
    ∃ finished rest last, Unwinds state.extraPhases leaving state.extraPhaseResume.reverse
        finished rest last ∧
      ((∃ before ep after, state.extraPhases = before ++ ep :: after ∧ ep.anchor = last ∧
        (∀ other ∈ before ++ after, other.anchor = last → Precedes ep other (other ∈ before)) ∧
        ∃ successor, ScheduledSuccessor.plan state leaving = successor ∧
          successor.endsTurn = false ∧
          state.takeScheduledSuccessor successor = some (some ep, ep.segment.firstStep,
            { state with
              extraPhases := before ++ after
              extraPhaseResume := rest.reverse ++ [ep.unit] })) ∨
      ((∀ ep ∈ state.extraPhases, ep.anchor ≠ last) ∧
        (∀ unit ∈ rest.head?, unit.segment.finalStep ≠ last) ∧
        ∃ unwound, ScheduledSuccessor.plan state leaving = .natural unwound (nextPhase last) ∧
          state.takeScheduledSuccessor (.natural unwound (nextPhase last)) =
            some (none, nextPhase last, { state with extraPhaseResume := rest.reverse }))) := by
  obtain ⟨finished, rest, last, unwinds, result⟩ :=
    planFrom_spec state.extraPhases leaving 0 state.extraPhaseResume.reverse
  have stack : state.extraPhaseResume = rest.reverse ++ finished.reverse := by
    rw [← reverse_append, ← unwinds.split, reverse_reverse]
  have count : state.extraPhaseResume.length = rest.length + finished.length := by
    rw [stack]
    simp
  have truncated : state.extraPhaseResume.take (state.extraPhaseResume.length - finished.length) =
      rest.reverse := by
    rw [stack]
    exact take_left' (by simp)
  refine ⟨finished, rest, last, unwinds, ?_⟩
  rcases result with ⟨index, found, planned⟩ | ⟨nothing, open_, planned⟩
  · obtain ⟨before, ep, after, split, rfl, waits, precedes⟩ := due_eq_some found
    refine .inl ⟨before, ep, after, split, waits, precedes, _, planned, rfl, ?_⟩
    have here : state.extraPhases[before.length]? = some ep := by
      rw [split]
      exact Indexed.getElem?_middle ..
    have removed : state.extraPhases.eraseIdx before.length = before ++ after := by
      rw [split]
      exact Indexed.eraseIdx_middle ..
    simp only [takeScheduledSuccessor, ScheduledSuccessor.unwound, Nat.zero_add, here, removed,
      truncated]
    rw [if_neg (by omega)]
  · refine .inr ⟨due_eq_none.mp nothing, open_, _, planned, ?_⟩
    simp only [takeScheduledSuccessor, ScheduledSuccessor.unwound, Nat.zero_add, truncated]
    rw [if_neg (by omega)]

/-- Everything that leaving a step can do. -/
theorem TurnState.advancePhaseHop_spec (state : TurnState) :
    ∃ finished rest last, Unwinds state.extraPhases state.phase state.extraPhaseResume.reverse
        finished rest last ∧
      ((∃ before ep after, state.extraPhases = before ++ ep :: after ∧ ep.anchor = last ∧
        (∀ other ∈ before ++ after, other.anchor = last → Precedes ep other (other ∈ before)) ∧
        state.advancePhaseHop =
          some (.entered (some ep) (state.inserted ep (before ++ after) rest))) ∨
      ((∀ ep ∈ state.extraPhases, ep.anchor ≠ last) ∧
        (∀ unit ∈ rest.head?, unit.segment.finalStep ≠ last) ∧
        state.advancePhaseHop = if last = .cleanup then some .turnEnds
          else some (.entered none (state.continued last rest)))) := by
  obtain ⟨finished, rest, last, unwinds, result⟩ := state.takeScheduledSuccessor_spec state.phase
  refine ⟨finished, rest, last, unwinds, ?_⟩
  rcases result with ⟨before, ep, after, split, waits, precedes, successor, planned, inner, taken⟩ |
    ⟨nothing, open_, unwound, planned, taken⟩
  · refine .inl ⟨before, ep, after, split, waits, precedes, ?_⟩
    simp only [advancePhaseHop, planned, taken, inner]
    rfl
  · refine .inr ⟨nothing, open_, ?_⟩
    simp only [advancePhaseHop, planned, taken]
    by_cases wraps : last = .cleanup
    · subst wraps
      rfl
    · have inner : nextPhase last ≠ .untap := mt nextPhase_eq_untap.mp wraps
      rw [ScheduledSuccessor.endsTurn_natural_ne _ inner, if_neg wraps]
      rfl

end Phase.Turn
