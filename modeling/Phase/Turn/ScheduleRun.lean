import Mathlib.Algebra.Order.BigOperators.Group.List
import Mathlib.Algebra.Order.Group.Nat
import Phase.Lib.Stacked
import Phase.Turn.Schedule

/-! One whole turn, with phases and steps inserted at any moment of it. -/
namespace Phase.Turn
open List

set_option linter.dupNamespace false

inductive Move where
  | schedule (anchor : Phase) (segment : TurnSegment)
  | leave

/-- A turn so far: the steps begun, each with the added unit that it belongs to, and the entries
taken. -/
structure Turn where
  state : TurnState
  begun : List (Phase × Option Nat)
  taken : List ExtraPhase

namespace Turn

def start (nextExtraPhaseId : Nat) : Turn where
  state := { phase := .untap, extraPhases := [], extraPhaseResume := [], nextExtraPhaseId }
  begun := [(.untap, none)]
  taken := []

def schedule (t : Turn) (anchor : Phase) (segment : TurnSegment) : Turn :=
  { t with state := t.state.schedule anchor segment }

def enter (t : Turn) (taken : Option ExtraPhase) (state : TurnState) : Turn where
  state
  begun := t.begun ++ [(state.phase, state.addedUnit)]
  taken := t.taken ++ taken.toList

inductive Step : Turn → Move → Turn → Prop where
  | schedule (t anchor segment) : Step t (.schedule anchor segment) (t.schedule anchor segment)
  | leave {t : Turn} {taken state} (hop : t.state.advancePhaseHop = some (.entered taken state)) :
      Step t .leave (t.enter taken state)

inductive Run : Turn → List Move → Turn → Prop where
  | refl (t) : Run t [] t
  | step {t t' t'' moves move} (run : Run t moves t') (last : Step t' move t'') :
      Run t (moves ++ [move]) t''

def Ends (t : Turn) : Prop := t.state.advancePhaseHop = some .turnEnds

/-- The steps of one unit so far; those of `none` are the turn's own. -/
def steps (t : Turn) (unit : Option Nat) : List Phase :=
  (t.begun.filter (·.2 = unit)).map (·.1)

theorem steps_enter (t : Turn) (taken : Option ExtraPhase) (state : TurnState)
    (unit : Option Nat) : (t.enter taken state).steps unit =
      t.steps unit ++ if state.addedUnit = unit then [state.phase] else [] := by
  simp only [steps, enter, filter_append, map_append, filter_cons, filter_nil]
  split <;> simp_all

end Turn

/-- Each open unit has come to the step after which the next one in was inserted, the innermost
to the step in progress. -/
def InProgress (done : Option Nat → List Phase) : List InsertedPhaseResume → Phase → Prop
  | [], p => UpTo phaseOrder p (done none)
  | unit :: units, p =>
    UpTo unit.segment.steps p (done (some unit.entry)) ∧ InProgress done units unit.anchor

variable {units rest finished : List InsertedPhaseResume} {done' done : Option Nat → List Phase}
  {last : Phase} {extraPhases : List ExtraPhase}

theorem InProgress.congr {p : Phase} (h : InProgress done units p)
    (same : ∀ unit ∈ units, done' (some unit.entry) = done (some unit.entry))
    (own : done' none = done none) : InProgress done' units p := by
  induction units generalizing p with
  | nil =>
    show UpTo phaseOrder p (done' none)
    rw [own]
    exact h
  | cons unit units ih =>
    refine ⟨?_, ih h.2 fun other inside => same other (mem_cons_of_mem unit inside)⟩
    rw [same unit mem_cons_self]
    exact h.1

/-- A unit that is unwound has run all of its steps. -/
theorem InProgress.unwind {ended : Phase}
    (unwinds : Unwinds extraPhases ended units finished rest last)
    (h : InProgress done units ended) :
    InProgress done rest last ∧ ∀ unit ∈ finished, done (some unit.entry) = unit.segment.steps := by
  induction unwinds with
  | stop => exact ⟨h, fun _ inside => absurd inside not_mem_nil⟩
  | @pop ended unit units finished rest last _ final _ ih =>
    obtain ⟨progress, complete⟩ := ih h.2
    refine ⟨progress, fun other inside => ?_⟩
    rcases mem_cons.mp inside with rfl | inside
    · exact h.1.last other.segment.consecutive.nodup (final ▸ other.segment.steps_final)
    · exact complete other inside

/-- The natural successor is the next step of the innermost unit that is still open. -/
theorem InProgress.next {done done' : Option Nat → List Phase}
    {rest : List InsertedPhaseResume} {last : Phase} (h : InProgress done rest last)
    (open_ : ∀ unit ∈ rest.head?, unit.segment.finalStep ≠ last)
    (more : rest = [] → last ≠ .cleanup) (apart : (rest.map (·.entry)).Nodup)
    (grown : ∀ unit, done' unit = done unit ++
      if rest.head?.map (·.entry) = unit then [nextPhase last] else []) :
    nextPhase last ≠ .untap ∧ InProgress done' rest (nextPhase last) := by
  cases rest with
  | nil =>
    have up : UpTo phaseOrder last (done none) := h
    have goes : phaseOrder.getLast? ≠ some last := by
      intro final
      exact more rfl (Option.some.inj final).symm
    obtain ⟨inner, next⟩ := up.next consecutive_phaseOrder goes
    refine ⟨inner, ?_⟩
    show UpTo phaseOrder _ (done' none)
    rw [grown none]
    exact next
  | cons unit rest =>
    obtain ⟨up, below⟩ := h
    have goes : unit.segment.steps.getLast? ≠ some last := by
      rw [unit.segment.steps_final]
      intro final
      exact open_ unit rfl (Option.some.inj final)
    obtain ⟨inner, next⟩ := up.next unit.segment.consecutive goes
    refine ⟨inner, ?_, below.congr (fun other inside => ?_) ?_⟩
    · rw [grown (some unit.entry)]
      simpa using next
    · have differ : unit.entry ≠ other.entry := by
        rw [map_cons, nodup_cons] at apart
        exact fun same => apart.1 (same ▸ mem_map_of_mem inside)
      rw [grown (some other.entry)]
      simp [differ]
    · rw [grown none]
      simp

/-- What waits at an unwound anchor stops the unwinding there. -/
theorem Unwinds.waiting {ended : Phase}
    (unwinds : Unwinds extraPhases ended units finished rest last) {ep : ExtraPhase}
    (waits : ep ∈ extraPhases) :
    (ep.anchor = ended → last = ep.anchor) ∧
      ∀ unit ∈ finished, unit.anchor = ep.anchor → last = ep.anchor := by
  induction unwinds with
  | stop ended units =>
    exact ⟨fun same => same.symm, fun _ inside => absurd inside not_mem_nil⟩
  | @pop ended unit units finished rest last none_ _ _ ih =>
    refine ⟨fun same => absurd same (none_ ep waits), fun other inside same => ?_⟩
    rcases mem_cons.mp inside with rfl | inside
    · exact ih.1 same.symm
    · exact ih.2 other inside same

/-- The stack of units, innermost first, with the turn itself at the bottom. -/
def owners (units : List InsertedPhaseResume) : List (Option Nat) :=
  units.map (some ·.entry) ++ [none]

structure Turn.Sound (t : Turn) : Prop where
  progress : InProgress t.steps t.state.extraPhaseResume.reverse t.state.phase
  nested : Nesting.Nested (t.begun.map (·.2)) (owners t.state.extraPhaseResume.reverse)
  unique : ((t.taken ++ t.state.extraPhases).map (·.id)).Nodup
  below : ∀ ep ∈ t.taken ++ t.state.extraPhases, ep.id < max t.state.nextExtraPhaseId 1
  ordered : t.state.extraPhases.Pairwise fun older newer => older.id < newer.id
  opened : ∀ unit ∈ t.state.extraPhaseResume, ∃ ep ∈ t.taken, ep.id = unit.entry ∧
    ep.segment = unit.segment
  closed : ∀ ep ∈ t.taken, ep.id ∉ t.state.extraPhaseResume.map (·.entry) →
    t.steps (some ep.id) = ep.segment.steps
  owned : ∀ record ∈ t.begun, record.2 = none ∨ ∃ ep ∈ t.taken, record.2 = some ep.id

namespace Turn

variable {t t' : Turn}

theorem sound_start (nextExtraPhaseId : Nat) : (start nextExtraPhaseId).Sound where
  progress := ⟨rfl, _, rfl⟩
  nested := Nesting.nested_start none
  unique := nodup_nil
  below := fun _ inside => absurd inside not_mem_nil
  ordered := .nil
  opened := fun _ inside => absurd inside not_mem_nil
  closed := fun _ inside => absurd inside not_mem_nil
  owned := fun _ inside => .inl (by rw [mem_singleton.mp inside])

theorem Sound.schedule (h : t.Sound) (anchor : Phase) (segment : TurnSegment) :
    (t.schedule anchor segment).Sound where
  progress := h.progress
  nested := h.nested
  unique := by
    have fresh : max t.state.nextExtraPhaseId 1 ∉ (t.taken ++ t.state.extraPhases).map (·.id) := by
      intro inside
      obtain ⟨ep, known, same⟩ := mem_map.mp inside
      exact absurd (h.below ep known) (same ▸ lt_irrefl _)
    have grown : (t.taken ++ (t.schedule anchor segment).state.extraPhases).map (·.id) =
        (t.taken ++ t.state.extraPhases).map (·.id) ++ [max t.state.nextExtraPhaseId 1] := by
      simp [Turn.schedule, TurnState.schedule]
    show ((t.taken ++ (t.schedule anchor segment).state.extraPhases).map (·.id)).Nodup
    rw [grown]
    refine nodup_append.mpr ⟨h.unique, by simp, ?_⟩
    rintro id known id' new rfl
    exact fresh (mem_singleton.mp new ▸ known)
  below := by
    intro ep inside
    have inside : ep ∈ t.taken ++ (t.state.extraPhases ++
        [{ anchor, segment, id := max t.state.nextExtraPhaseId 1 }]) := inside
    show ep.id < max (max t.state.nextExtraPhaseId 1 + 1) 1
    rw [← append_assoc, mem_append, mem_singleton] at inside
    rcases inside with known | rfl
    · have := h.below ep known
      omega
    · show max t.state.nextExtraPhaseId 1 < _
      omega
  ordered := by
    refine pairwise_append.mpr ⟨h.ordered, pairwise_singleton _ _, ?_⟩
    rintro older known newer new
    rw [mem_singleton.mp new]
    exact h.below older (mem_append_right _ known)
  opened := h.opened
  closed := h.closed
  owned := h.owned

variable {ep : ExtraPhase} {rest : List InsertedPhaseResume} {move : Move} {moves : List Move}

/-- Units that have not begun have no steps. -/
theorem Sound.steps_waiting (h : t.Sound) (waits : ep ∈ t.state.extraPhases) :
    some ep.id ∉ t.begun.map (·.2) ∧ t.steps (some ep.id) = [] := by
  have absent : ∀ record ∈ t.begun, record.2 ≠ some ep.id := by
    intro record inside same
    rcases h.owned record inside with own | ⟨other, taken, theirs⟩
    · rw [own] at same
      cases same
    · rw [theirs] at same
      have unique := h.unique
      rw [map_append, nodup_append] at unique
      exact unique.2.2 other.id (mem_map_of_mem taken) ep.id (mem_map_of_mem waits)
        (Option.some.inj same)
  refine ⟨fun inside => ?_, ?_⟩
  · obtain ⟨record, known, same⟩ := mem_map.mp inside
    exact absent record known same
  · rw [steps, filter_eq_nil_iff.mpr fun record inside => by simpa using absent record inside]
    rfl

/-- What holds once the finished units are unwound, before the next step is entered. -/
structure Unwound (t : Turn) (rest : List InsertedPhaseResume) (last : Phase) : Prop where
  progress : InProgress t.steps rest last
  nested : Nesting.Nested (t.begun.map (·.2)) (owners rest)
  apart : (rest.map (·.entry)).Nodup
  opened : ∀ unit ∈ rest, ∃ ep ∈ t.taken, ep.id = unit.entry ∧ ep.segment = unit.segment
  closed : ∀ ep ∈ t.taken, ep.id ∉ rest.map (·.entry) → t.steps (some ep.id) = ep.segment.steps

theorem Sound.unwound (h : t.Sound) {finished : List InsertedPhaseResume} {last : Phase}
    (unwinds : Unwinds t.state.extraPhases t.state.phase t.state.extraPhaseResume.reverse
      finished rest last) : t.Unwound rest last := by
  obtain ⟨progress, complete⟩ := h.progress.unwind unwinds
  have split := unwinds.split
  have known : ∀ unit, unit ∈ t.state.extraPhaseResume ↔ unit ∈ finished ∨ unit ∈ rest := by
    intro unit
    rw [← mem_reverse, split, mem_append]
  have nested := h.nested
  rw [split, owners, map_append, append_assoc] at nested
  have nested := nested.close
  refine ⟨progress, nested, ?_, ?_, ?_⟩
  · have distinct := (nodup_append.mp nested.distinct).1
    have mapped : rest.map (some ·.entry) = (rest.map (·.entry)).map some := by
      rw [map_map]
      rfl
    rw [mapped] at distinct
    exact distinct.of_map some
  · exact fun unit inside => h.opened unit ((known unit).mpr (.inr inside))
  · intro ep taken shut
    by_cases still : ep.id ∈ t.state.extraPhaseResume.map (·.entry)
    · obtain ⟨unit, inside, same⟩ := mem_map.mp still
      rcases (known unit).mp inside with done | more
      · obtain ⟨ep', taken', same', segment⟩ := h.opened unit inside
        have unique := h.unique
        rw [map_append, nodup_append] at unique
        have one : ep' = ep :=
          inj_on_of_nodup_map unique.1 taken' taken (by rw [same', same])
        rw [← same, complete unit done, ← segment, one]
      · exact absurd (mem_map.mpr ⟨unit, more, same⟩) shut
    · exact h.closed ep taken still

theorem Sound.insert (h : t.Sound) (u : t.Unwound rest ep.anchor) {before after : List ExtraPhase}
    (split : t.state.extraPhases = before ++ ep :: after) :
    (t.enter (some ep) (t.state.inserted ep (before ++ after) rest)).Sound := by
  have waits : ep ∈ t.state.extraPhases := by rw [split]; simp
  obtain ⟨new, unbegun⟩ := h.steps_waiting waits
  have absent : ep.id ∉ t.taken.map (·.id) := by
    have unique := h.unique
    rw [map_append, nodup_append] at unique
    exact fun inside => unique.2.2 ep.id inside ep.id (mem_map_of_mem waits) rfl
  have outside : ∀ unit ∈ rest, unit.entry ≠ ep.id := by
    intro unit inside same
    obtain ⟨ep', taken, same', -⟩ := u.opened unit inside
    exact absent (mem_map.mpr ⟨ep', taken, same'.trans same⟩)
  have grown := steps_enter t (some ep) (t.state.inserted ep (before ++ after) rest)
  rw [TurnState.addedUnit_inserted] at grown
  have others : ∀ unit, unit ≠ some ep.id →
      (t.enter (some ep) (t.state.inserted ep (before ++ after) rest)).steps unit =
        t.steps unit := by
    intro unit apart
    rw [grown, if_neg (Ne.symm apart), append_nil]
  have perm : (t.taken ++ [ep] ++ (before ++ after)).Perm (t.taken ++ t.state.extraPhases) := by
    rw [split, append_assoc, singleton_append]
    exact (perm_middle.symm).append_left t.taken
  refine ⟨?_, ?_, ?_, ?_, ?_, ?_, ?_, ?_⟩
  · show InProgress _ (rest.reverse ++ [ep.unit]).reverse ep.segment.firstStep
    rw [reverse_append, reverse_reverse]
    refine ⟨?_, u.progress.congr (fun unit inside => others _ ?_) (others _ (by simp))⟩
    · show UpTo _ _ (steps _ (some ep.id))
      rw [grown, unbegun, if_pos rfl]
      exact upTo_first ep.segment.steps_first
    · exact fun same => outside unit inside (Option.some.inj same)
  · show Nesting.Nested ((t.begun ++ [((_ : Phase), (_ : Option Nat))]).map (·.2))
      (owners (rest.reverse ++ [ep.unit]).reverse)
    rw [map_append, reverse_append, reverse_reverse, TurnState.addedUnit_inserted]
    refine (u.nested.enter new ?_).work
    rw [owners, mem_append, mem_map]
    rintro (⟨unit, inside, same⟩ | none_)
    · exact outside unit inside (Option.some.inj same)
    · simp at none_
  · exact (perm.map _).nodup_iff.mpr h.unique
  · exact fun ep' inside => h.below ep' (perm.mem_iff.mp inside)
  · have ordered := h.ordered
    rw [split] at ordered
    exact ordered.sublist ((sublist_cons_self ep after).append_left before)
  · intro unit inside
    rcases mem_append.mp inside with more | here
    · obtain ⟨ep', taken, same⟩ := u.opened unit (mem_reverse.mp more)
      exact ⟨ep', mem_append_left _ taken, same⟩
    · rw [mem_singleton.mp here]
      exact ⟨ep, mem_append_right _ (mem_singleton_self ep), rfl, rfl⟩
  · intro ep' inside (shut : ep'.id ∉ (rest.reverse ++ [ep.unit]).map (·.entry))
    rw [map_append, map_reverse, mem_append, mem_reverse, not_or] at shut
    rcases mem_append.mp inside with taken | here
    · rw [others]
      · exact u.closed ep' taken shut.1
      · exact fun same => shut.2 (by rw [Option.some.inj same]; exact mem_singleton_self _)
    · rw [mem_singleton.mp here] at shut
      exact absurd (mem_singleton_self _) shut.2
  · intro record inside
    rcases mem_append.mp inside with known | here
    · rcases h.owned record known with own | ⟨ep', taken, theirs⟩
      · exact .inl own
      · exact .inr ⟨ep', mem_append_left _ taken, theirs⟩
    · rw [mem_singleton.mp here]
      exact .inr ⟨ep, mem_append_right _ (mem_singleton_self ep), TurnState.addedUnit_inserted ..⟩

theorem Sound.natural (h : t.Sound) {last : Phase} (u : t.Unwound rest last)
    (open_ : ∀ unit ∈ rest.head?, unit.segment.finalStep ≠ last) (more : last ≠ .cleanup) :
    (t.enter none (t.state.continued last rest)).Sound := by
  have grown := steps_enter t none (t.state.continued last rest)
  rw [TurnState.addedUnit_continued] at grown
  have kept : (t.enter none (t.state.continued last rest)).taken = t.taken := append_nil _
  refine ⟨?_, ?_, ?_, ?_, h.ordered, ?_, ?_, ?_⟩
  · show InProgress _ rest.reverse.reverse _
    rw [reverse_reverse]
    exact (u.progress.next open_ (fun _ => more) u.apart grown).2
  · show Nesting.Nested ((t.begun ++ [((_ : Phase), (_ : Option Nat))]).map (·.2))
      (owners rest.reverse.reverse)
    rw [map_append, reverse_reverse, TurnState.addedUnit_continued]
    cases rest with
    | nil => exact u.nested.work
    | cons unit rest => exact u.nested.work
  · rw [kept]
    exact h.unique
  · rw [kept]
    exact h.below
  · rw [kept]
    exact fun unit inside => u.opened unit (mem_reverse.mp inside)
  · rw [kept]
    intro ep taken (shut : ep.id ∉ rest.reverse.map (·.entry))
    rw [map_reverse, mem_reverse] at shut
    rw [grown, if_neg, append_nil]
    · exact u.closed ep taken shut
    · intro same
      obtain ⟨unit, first, entry⟩ := Option.map_eq_some_iff.mp same
      exact shut (mem_map.mpr ⟨unit, mem_of_head? first, entry⟩)
  · rw [kept]
    intro record inside
    rcases mem_append.mp inside with known | here
    · exact h.owned record known
    · rw [mem_singleton.mp here, TurnState.addedUnit_continued]
      cases rest with
      | nil => exact .inl rfl
      | cons unit rest =>
        obtain ⟨ep, taken, same, -⟩ := u.opened unit mem_cons_self
        exact .inr ⟨ep, taken, congrArg some same.symm⟩

/-- What leaving a step does to the turn. -/
theorem Step.leave_cases (step : Step t .leave t') :
    ∃ finished rest last, Unwinds t.state.extraPhases t.state.phase
        t.state.extraPhaseResume.reverse finished rest last ∧
      ((∃ before ep after, t.state.extraPhases = before ++ ep :: after ∧ ep.anchor = last ∧
        (∀ other ∈ before ++ after, other.anchor = last → Precedes ep other (other ∈ before)) ∧
        t' = t.enter (some ep) (t.state.inserted ep (before ++ after) rest)) ∨
      ((∀ ep ∈ t.state.extraPhases, ep.anchor ≠ last) ∧
        (∀ unit ∈ rest.head?, unit.segment.finalStep ≠ last) ∧ last ≠ .cleanup ∧
        t' = t.enter none (t.state.continued last rest))) := by
  cases step with
  | leave hop =>
    obtain ⟨finished, rest, last, unwinds, inserted | natural⟩ :=
      t.state.advancePhaseHop_spec
    · obtain ⟨before, ep, after, split, anchor, precedes, result⟩ := inserted
      rw [hop] at result
      cases result
      exact ⟨finished, rest, last, unwinds, .inl ⟨before, ep, after, split, anchor, precedes, rfl⟩⟩
    · obtain ⟨nothing, open_, result⟩ := natural
      rw [hop] at result
      split at result
      · cases result
      · next more =>
        cases result
        exact ⟨finished, rest, last, unwinds, .inr ⟨nothing, open_, more, rfl⟩⟩

theorem Ends.cases (ends : t.Ends) :
    ∃ finished rest, Unwinds t.state.extraPhases t.state.phase
        t.state.extraPhaseResume.reverse finished rest .cleanup ∧
      (∀ ep ∈ t.state.extraPhases, ep.anchor ≠ .cleanup) ∧
      ∀ unit ∈ rest.head?, unit.segment.finalStep ≠ .cleanup := by
  obtain ⟨finished, rest, last, unwinds, inserted | natural⟩ := t.state.advancePhaseHop_spec
  · obtain ⟨before, ep, after, -, -, -, result⟩ := inserted
    rw [ends] at result
    cases result
  · obtain ⟨nothing, open_, result⟩ := natural
    rw [ends] at result
    split at result
    · next wraps =>
      subst wraps
      exact ⟨finished, rest, unwinds, nothing, open_⟩
    · cases result

theorem Sound.step {move : Move} (h : t.Sound) (step : Step t move t') : t'.Sound := by
  cases move with
  | schedule anchor segment =>
    cases step
    exact h.schedule anchor segment
  | leave =>
    obtain ⟨finished, rest, last, unwinds, inserted | natural⟩ := step.leave_cases
    · obtain ⟨before, ep, after, split, rfl, -, rfl⟩ := inserted
      exact h.insert (h.unwound unwinds) split
    · obtain ⟨-, open_, more, rfl⟩ := natural
      exact h.natural (h.unwound unwinds) open_ more

theorem Sound.run {moves : List Move} (h : t.Sound) (run : Run t moves t') : t'.Sound := by
  induction run with
  | refl => exact h
  | step _ last ih => exact ih.step last

theorem Run.head {t'' : Turn} (first : Step t move t') (run : Run t' moves t'') :
    Run t (move :: moves) t'' := by
  induction run with
  | refl => exact .step (.refl t) first
  | step _ last ih => exact .step ih last

/-- `ep` is taken, or waits at the anchor of a unit in progress. -/
def Owed (t : Turn) (ep : ExtraPhase) : Prop :=
  ep ∈ t.taken ∨ ep ∈ t.state.extraPhases ∧
    ∃ unit ∈ t.state.extraPhaseResume, unit.anchor = ep.anchor

/-- Leaving a step serves what waits there, and what waits at the anchor of an open unit. -/
theorem owed_leave (step : Step t .leave t') (waits : ep ∈ t.state.extraPhases)
    (due : ep.anchor = t.state.phase ∨ ∃ unit ∈ t.state.extraPhaseResume, unit.anchor = ep.anchor) :
    t'.Owed ep := by
  obtain ⟨finished, rest, last, unwinds, result⟩ := step.leave_cases
  obtain ⟨here, unwound⟩ := unwinds.waiting waits
  have served : last = ep.anchor ∨ ∃ unit ∈ rest, unit.anchor = ep.anchor := by
    rcases due with now | ⟨unit, inside, same⟩
    · exact .inl (here now)
    · rw [← mem_reverse, unwinds.split, mem_append] at inside
      rcases inside with done | more
      · exact .inl (unwound unit done same)
      · exact .inr ⟨unit, more, same⟩
  rcases result with ⟨before, ep', after, split, anchor, -, rfl⟩ | ⟨nothing, -, -, rfl⟩
  · rw [split, mem_append, mem_cons] at waits
    rcases waits with earlier | rfl | later
    · refine .inr ⟨mem_append_left after earlier, ?_⟩
      rcases served with rfl | ⟨unit, more, same⟩
      · exact ⟨ep'.unit, mem_append_right _ (mem_singleton_self _), anchor⟩
      · exact ⟨unit, mem_append_left _ (mem_reverse.mpr more), same⟩
    · exact .inl (mem_append_right _ (mem_singleton_self _))
    · refine .inr ⟨mem_append_right before later, ?_⟩
      rcases served with rfl | ⟨unit, more, same⟩
      · exact ⟨ep'.unit, mem_append_right _ (mem_singleton_self _), anchor⟩
      · exact ⟨unit, mem_append_left _ (mem_reverse.mpr more), same⟩
  · rcases served with rfl | ⟨unit, more, same⟩
    · exact absurd rfl (nothing ep waits)
    · exact .inr ⟨waits, unit, mem_reverse.mpr more, same⟩

theorem Owed.step {ep : ExtraPhase} {move : Move} (h : t.Owed ep) (step : Step t move t') :
    t'.Owed ep := by
  cases move with
  | schedule anchor segment =>
    cases step
    rcases h with taken | ⟨waits, unit⟩
    · exact .inl taken
    · exact .inr ⟨mem_append_left _ waits, unit⟩
  | leave =>
    rcases h with taken | ⟨waits, unit⟩
    · cases step
      exact .inl (mem_append_left _ taken)
    · exact owed_leave step waits (.inr unit)

theorem Owed.run {ep : ExtraPhase} {moves : List Move} (h : t.Owed ep)
    (run : Run t moves t') : t'.Owed ep := by
  induction run with
  | refl => exact h
  | step _ last ih => exact ih.step last

/-- When the turn ends, no unit is open. -/
theorem Sound.ends (h : t.Sound) (ends : t.Ends) :
    ∃ finished, Unwinds t.state.extraPhases t.state.phase t.state.extraPhaseResume.reverse
      finished [] .cleanup ∧ t.Unwound [] .cleanup := by
  obtain ⟨finished, rest, unwinds, -, open_⟩ := ends.cases
  have u := h.unwound unwinds
  cases rest with
  | nil => exact ⟨finished, unwinds, u⟩
  | cons unit rest =>
    have inner := (u.progress.next open_ (fun none_ => by cases none_) u.apart (fun _ => rfl)).1
    exact absurd rfl inner

theorem Sound.ends_owed (h : t.Sound) (ends : t.Ends) (owed : t.Owed ep) : ep ∈ t.taken := by
  rcases owed with taken | ⟨waits, unit, inside, same⟩
  · exact taken
  · obtain ⟨finished, unwinds, -⟩ := h.ends ends
    obtain ⟨-, -, -, nothing, -⟩ := ends.cases
    rw [← mem_reverse, unwinds.split, append_nil] at inside
    exact absurd ((unwinds.waiting waits).2 unit inside same).symm (nothing ep waits)

theorem Sound.ends_steps (h : t.Sound) (ends : t.Ends) :
    t.steps none = phaseOrder ∧ ∀ ep ∈ t.taken, t.steps (some ep.id) = ep.segment.steps := by
  obtain ⟨-, -, u⟩ := h.ends ends
  exact ⟨u.progress.last consecutive_phaseOrder.nodup rfl,
    fun ep taken => u.closed ep taken not_mem_nil⟩

/-- A turn is as long as its own steps and those of the units taken, so far. -/
theorem Sound.length (h : t.Sound) :
    t.begun.length = (t.steps none).length +
      (t.taken.map fun ep => (t.steps (some ep.id)).length).sum := by
  have distinct : (none :: t.taken.map fun ep => some ep.id).Nodup := by
    have unique := h.unique
    rw [map_append, nodup_append] at unique
    have mapped : (t.taken.map fun ep => some ep.id) = (t.taken.map (·.id)).map some := by
      rw [map_map]
      rfl
    rw [nodup_cons, mapped]
    exact ⟨by simp, unique.1.map (Option.some_injective _)⟩
  have known : ∀ record ∈ t.begun, record.2 ∈ none :: t.taken.map fun ep => some ep.id := by
    intro record inside
    rcases h.owned record inside with own | ⟨ep, taken, theirs⟩
    · rw [own]
      exact mem_cons_self
    · rw [theirs]
      exact mem_cons_of_mem _ (mem_map.mpr ⟨ep, taken, rfl⟩)
  rw [Nesting.length_eq_sum distinct known, map_cons, sum_cons, map_map]
  simp only [steps, length_map, Function.comp_def]

theorem length_le_of_upTo {steps begun : List Phase} {p : Phase} (h : UpTo steps p begun) :
    begun.length ≤ steps.length := by
  obtain ⟨-, later, rfl⟩ := h
  simp

theorem progress_length_le {done : Option Nat → List Phase}
    {units : List InsertedPhaseResume} {p : Phase} (h : InProgress done units p) :
    (done none).length ≤ 12 ∧
      ∀ unit ∈ units, (done (some unit.entry)).length ≤ unit.segment.steps.length := by
  induction units generalizing p with
  | nil => exact ⟨@length_le_of_upTo phaseOrder _ p h, fun _ inside => by cases inside⟩
  | cons unit units ih =>
    obtain ⟨own, below⟩ := ih h.2
    refine ⟨own, fun other inside => ?_⟩
    rcases mem_cons.mp inside with rfl | inside
    · exact length_le_of_upTo h.1
    · exact below other inside

/-- How many steps the entries add to a turn. -/
def added (entries : List ExtraPhase) : Nat :=
  (entries.map fun ep => ep.segment.steps.length).sum

theorem Sound.length_le (h : t.Sound) : t.begun.length ≤ 12 + added t.taken := by
  obtain ⟨own, below⟩ := progress_length_le h.progress
  have each : ∀ ep ∈ t.taken, (t.steps (some ep.id)).length ≤ ep.segment.steps.length := by
    intro ep taken
    by_cases still : ep.id ∈ t.state.extraPhaseResume.map (·.entry)
    · obtain ⟨unit, inside, same⟩ := mem_map.mp still
      obtain ⟨ep', taken', same', segment⟩ := h.opened unit inside
      have unique := h.unique
      rw [map_append, nodup_append] at unique
      have one : ep' = ep := inj_on_of_nodup_map unique.1 taken' taken (same'.trans same)
      have := below unit (mem_reverse.mpr inside)
      rw [same, ← segment, one] at this
      exact this
    · rw [h.closed ep taken still]
  have total := sum_le_sum each
  have := h.length
  rw [added]
  omega

/-- Leaving a step moves entries from the queue to the taken ones. -/
theorem Step.leave_perm (step : Step t .leave t') :
    (t'.taken ++ t'.state.extraPhases).Perm (t.taken ++ t.state.extraPhases) ∧
      t'.begun.length = t.begun.length + 1 := by
  obtain ⟨finished, rest, last, -, inserted | natural⟩ := step.leave_cases
  · obtain ⟨before, ep, after, split, -, -, rfl⟩ := inserted
    refine ⟨?_, length_append ..⟩
    show (t.taken ++ [ep] ++ (before ++ after)).Perm _
    rw [split, append_assoc, singleton_append]
    exact (perm_middle.symm).append_left t.taken
  · obtain ⟨-, -, -, rfl⟩ := natural
    refine ⟨?_, length_append ..⟩
    show (t.taken ++ [] ++ t.state.extraPhases).Perm _
    rw [append_nil]

/-- With nothing more queued, the turn comes to its end. -/
theorem Sound.ends_after (h : t.Sound) : ∃ n t', Run t (replicate n .leave) t' ∧ t'.Ends := by
  induction left : 12 + added (t.taken ++ t.state.extraPhases) - t.begun.length using
    Nat.strong_induction_on generalizing t with
  | _ left_ ih =>
    cases hop : t.state.advancePhaseHop with
    | none =>
      obtain ⟨_, _, _, _, inserted | natural⟩ := t.state.advancePhaseHop_spec
      · obtain ⟨_, _, _, _, _, _, result⟩ := inserted
        rw [hop] at result
        cases result
      · obtain ⟨_, _, result⟩ := natural
        rw [hop] at result
        split at result <;> cases result
    | some result =>
      cases result with
      | turnEnds => exact ⟨0, t, .refl t, hop⟩
      | entered taken state =>
        have step : Step t .leave (t.enter taken state) := .leave hop
        have next := h.step step
        obtain ⟨perm, longer⟩ := step.leave_perm
        have same : added ((t.enter taken state).taken ++ (t.enter taken state).state.extraPhases) =
              added (t.taken ++ t.state.extraPhases) := (perm.map _).sum_eq
        have bound := next.length_le
        have part : added (t.enter taken state).taken ≤ added ((t.enter taken state).taken ++
            (t.enter taken state).state.extraPhases) := by
          simp [added]
        obtain ⟨n, t', run, ends⟩ := ih _ (by omega) next rfl
        exact ⟨n + 1, t', run.head step, ends⟩

/-- The entry that a move queues. -/
def queued : Move → Option (Phase × TurnSegment)
  | .schedule anchor segment => some (anchor, segment)
  | .leave => none

def content (ep : ExtraPhase) : Phase × TurnSegment := (ep.anchor, ep.segment)

theorem Run.content_perm {nextExtraPhaseId : Nat} (run : Run (start nextExtraPhaseId) moves t) :
    ((t.taken ++ t.state.extraPhases).map content).Perm (moves.filterMap queued) := by
  generalize first : start nextExtraPhaseId = t₀ at run
  induction run with
  | refl =>
    subst first
    exact .refl _
  | @step t t' moves move before last ih =>
    rw [filterMap_append]
    cases move with
    | schedule anchor segment =>
      cases last
      have grown : (t.taken ++ (t.schedule anchor segment).state.extraPhases).map content =
          (t.taken ++ t.state.extraPhases).map content ++ [(anchor, segment)] := by
        simp [schedule, TurnState.schedule, content]
      show ((t.taken ++ (t.schedule anchor segment).state.extraPhases).map content).Perm _
      rw [grown]
      exact ih.append_right _
    | leave =>
      have none_ : [Move.leave].filterMap queued = [] := rfl
      rw [none_, append_nil]
      exact (last.leave_perm.1.map content).trans ih

/-- The schedule of a turn, whatever is queued at whatever moment of it. Leaving a step always
succeeds; every entry is taken at most once, and is taken if a step labelled with its anchor
ends while it waits; of the entries that wait at one anchor a step goes before a phase, and the
newest first; no two units alternate; and the turn comes to an end, by when its own steps have
been the twelve of the turn and each unit has run the steps of its segment, in order, and
nothing else. -/
theorem turn_runs_its_schedule {nextExtraPhaseId : Nat} {moves : List Move}
    (run : Run (start nextExtraPhaseId) moves t) :
    t.state.advancePhaseHop ≠ none ∧
    ((t.taken ++ t.state.extraPhases).map (·.id)).Nodup ∧
    ((t.taken ++ t.state.extraPhases).map content).Perm (moves.filterMap queued) ∧
    (∀ ep ∈ t.taken ++ t.state.extraPhases, ep.anchor = t.state.phase → (t.Ends → ep ∈ t.taken) ∧
      ∀ t' moves' t'', Step t .leave t' → Run t' moves' t'' → t''.Ends → ep ∈ t''.taken) ∧
    (∀ t' ep, Step t .leave t' → t'.taken = t.taken ++ [ep] →
      ∀ other ∈ t.state.extraPhases, other ≠ ep → other.anchor = ep.anchor →
        Precedes ep other (other.id < ep.id)) ∧
    (∀ a b, a ≠ b → ¬[a, b, a, b].Sublist (t.begun.map (·.2))) ∧
    t.begun.length ≤ 12 + ((moves.filterMap queued).map (·.2.steps.length)).sum ∧
    (∃ n t', Run t (replicate n .leave) t' ∧ t'.Ends) ∧
    (t.Ends → t.steps none = phaseOrder ∧
      (∀ ep ∈ t.taken, t.steps (some ep.id) = ep.segment.steps) ∧
      t.begun.length = 12 + (t.taken.map (·.segment.steps.length)).sum) := by
  have h := (sound_start nextExtraPhaseId).run run
  have perm := run.content_perm
  refine ⟨?_, h.unique, perm, ?_, ?_, h.nested.uncrossed, ?_, h.ends_after, ?_⟩
  · intro stuck
    obtain ⟨_, _, _, _, inserted | natural⟩ := t.state.advancePhaseHop_spec
    · obtain ⟨_, _, _, _, _, _, result⟩ := inserted
      rw [stuck] at result
      cases result
    · obtain ⟨_, _, result⟩ := natural
      rw [stuck] at result
      split at result <;> cases result
  · intro ep known here
    rcases mem_append.mp known with taken | waits
    · refine ⟨fun _ => taken, fun t' moves' t'' step later ends => ?_⟩
      have owed : t.Owed ep := .inl taken
      exact ((h.step step).run later).ends_owed ends ((owed.step step).run later)
    · refine ⟨fun ends => ?_, fun t' moves' t'' step later ends => ?_⟩
      · obtain ⟨finished, unwinds, -⟩ := h.ends ends
        obtain ⟨_, _, _, nothing, -⟩ := ends.cases
        exact absurd ((unwinds.waiting waits).1 here).symm (nothing ep waits)
      · exact ((h.step step).run later).ends_owed ends
          ((owed_leave step waits (.inl here)).run later)
  · intro t' ep step took other waits apart same
    obtain ⟨_, _, _, -, inserted | natural⟩ := step.leave_cases
    · obtain ⟨before, ep', after, split, rfl, precedes, rfl⟩ := inserted
      have one : ep' = ep := singleton_inj.mp (append_cancel_left took)
      subst one
      have ordered := h.ordered
      rw [split] at waits ordered
      have inside : other ∈ before ++ after := by
        rcases mem_append.mp waits with earlier | later
        · exact mem_append_left _ earlier
        · exact mem_append_right _ ((mem_cons.mp later).resolve_left apart)
      rcases precedes other inside same with kind | ⟨kind, earlier⟩
      · exact .inl kind
      · exact .inr ⟨kind, (pairwise_append.mp ordered).2.2 other earlier ep' mem_cons_self⟩
    · obtain ⟨-, -, -, rfl⟩ := natural
      exact absurd (append_cancel_left took) (by simp)
  · have total : ((moves.filterMap queued).map (·.2.steps.length)).sum =
        added (t.taken ++ t.state.extraPhases) := by
      rw [← (perm.map _).sum_eq, map_map]
      rfl
    have part : added t.taken ≤ added (t.taken ++ t.state.extraPhases) := by
      simp [added]
    have := h.length_le
    omega
  · intro ends
    obtain ⟨own, units⟩ := h.ends_steps ends
    refine ⟨own, units, ?_⟩
    have lengths : (t.taken.map fun ep => (t.steps (some ep.id)).length) =
        t.taken.map (·.segment.steps.length) :=
      map_congr_left fun ep taken => by rw [units ep taken]
    rw [h.length, own, lengths]
    rfl

/-- An extra upkeep step queued during the untap step, which the turn then leaves. -/
theorem extra_upkeep_turn_ends :
    ∃ t n t', Run (start 1) [.schedule .upkeep (.step .upkeep), .leave] t ∧
      Run t (replicate n .leave) t' ∧ t'.Ends := by
  have first : Step (start 1) (.schedule .upkeep (.step .upkeep))
      ((start 1).schedule .upkeep (.step .upkeep)) := .schedule ..
  have second : Step ((start 1).schedule .upkeep (.step .upkeep)) .leave
      (((start 1).schedule .upkeep (.step .upkeep)).enter none _) := .leave rfl
  have run := Run.step (Run.step (.refl (start 1)) first) second
  obtain ⟨-, -, -, -, -, -, -, ⟨n, t', rest, ends⟩, -⟩ := turn_runs_its_schedule run
  exact ⟨_, n, t', run, rest, ends⟩

end Turn
end Phase.Turn
