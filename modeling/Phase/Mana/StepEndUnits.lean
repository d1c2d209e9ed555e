import Phase.Mana.PoolRefines
import Phase.Mana.StepEnd

/-! What the decisions about an emptying pool do to each of its units, whatever list of decisions
comes in. -/
namespace Phase.StepEnd
open Mana List UnitDisposition

/-- Sorting by a key keeps, of the elements with one key, the first one first. -/
theorem find?_mergeSort_key {α : Type} (key : α → Nat) (items : List α) (k : Nat) :
    (items.mergeSort fun a b => key b ≤ key a).find? (key · = k) = items.find? (key · = k) := by
  have same : (items.filter (key · = k)).Pairwise fun a b => decide (key b ≤ key a) = true := by
    refine pairwise_iff_forall_sublist.mpr fun {a b} pair => ?_
    have ka := (mem_filter.mp (pair.subset (by simp : a ∈ [a, b]))).2
    have kb := (mem_filter.mp (pair.subset (by simp : b ∈ [a, b]))).2
    simp only [decide_eq_true_eq] at ka kb ⊢
    omega
  have kept : (items.filter (key · = k)).Sublist (items.mergeSort fun a b => key b ≤ key a) :=
    sublist_mergeSort (fun a b c => by simp only [decide_eq_true_eq]; omega)
      (fun a b => by simp only [Bool.or_eq_true, decide_eq_true_eq]; omega) same
      filter_sublist
  have filtered := kept.filter (key · = k)
  simp only [filter_filter, Bool.and_self] at filtered
  rw [← head?_filter, ← head?_filter]
  exact congrArg head? (filtered.eq_of_length
    (((mergeSort_perm items _).filter _).length_eq).symm).symm

/-- The first decision that names a position decides about it, if it also names the color of the
unit there. -/
def dispositionAt (decisions : List UnitDecision) (index : Nat) (unit : ManaUnit) :
    UnitDisposition :=
  match decisions.find? (·.poolIndex = index) with
  | none => .keep
  | some decision => if decision.color = unit.color then decision.disposition else .keep

/-- What is left of a unit. -/
def UnitDisposition.left (unit : ManaUnit) : UnitDisposition → Option ManaUnit
  | .drop => none
  | .keep => some unit
  | .recolor color => some { unit with color }

def UnitDisposition.event (playerId : PlayerId) (unit : ManaUnit) :
    UnitDisposition → Option GameEvent
  | .drop => some (.manaPoolEmptied playerId unit.sourceId unit.color)
  | .keep => none
  | .recolor color => some (.manaRecolored playerId unit.color color)

abbrev Verdict := ManaUnit × UnitDisposition

def Verdict.left (verdict : Verdict) : Option ManaUnit := verdict.2.left verdict.1

def Verdict.event (playerId : PlayerId) (verdict : Verdict) : Option GameEvent :=
  verdict.2.event playerId verdict.1

def Verdict.dropped (verdict : Verdict) : Bool := verdict.2 = .drop

/-- Every unit with what the decisions say about it. -/
def verdicts (decisions : List UnitDecision) (units : List ManaUnit) : List Verdict :=
  units.zipIdx.map fun entry => (entry.1, dispositionAt decisions entry.2 entry.1)

def GameEvent.isPoolEmptied : GameEvent → Bool
  | .manaPoolEmptied .. => true
  | _ => false

/-- The decisions still ahead, of which those about seen positions no longer count. -/
def ahead (seen : List Nat) (decisions : List UnitDecision) : List UnitDecision :=
  decisions.filter (·.poolIndex ∉ seen)

section
variable {seen : List Nat} {decision : UnitDecision} {decisions : List UnitDecision}
  {units front back : List ManaUnit} {unit : ManaUnit} {playerId : PlayerId} {pool : ManaPool}

theorem ahead_seen (known : decision.poolIndex ∈ seen) :
    ahead seen (decision :: decisions) = ahead (decision.poolIndex :: seen) decisions := by
  rw [ahead, filter_cons_of_neg (by simpa using known)]
  refine filter_congr fun other _ => ?_
  by_cases same : other.poolIndex = decision.poolIndex <;> simp [same, known]

theorem ahead_fresh (fresh : decision.poolIndex ∉ seen) :
    ahead seen (decision :: decisions) = decision :: ahead seen decisions :=
  filter_cons_of_pos (by simpa using fresh)

theorem find?_ahead (index : Nat) : (ahead seen decisions).find? (·.poolIndex = index) =
    if index ∈ seen then none else decisions.find? (·.poolIndex = index) := by
  rw [ahead, find?_filter]
  split
  · next known =>
    refine find?_eq_none.mpr fun decision _ => ?_
    simp only [Bool.and_eq_true, decide_eq_true_eq, not_and]
    rintro unseen rfl
    exact unseen known
  · next fresh =>
    congr 1
    funext decision
    by_cases same : decision.poolIndex = index <;> simp [same, fresh]

/-- The first decision ahead settles its own position and leaves the others to the rest. -/
theorem dispositionAt_fresh (fresh : decision.poolIndex ∉ seen) (index : Nat)
    (unit : ManaUnit) : dispositionAt (ahead seen (decision :: decisions)) index unit =
      if index = decision.poolIndex then
        if decision.color = unit.color then decision.disposition else .keep
      else dispositionAt (ahead (decision.poolIndex :: seen) decisions) index unit := by
  rw [ahead_fresh fresh, dispositionAt, dispositionAt, find?_ahead]
  by_cases same : index = decision.poolIndex
  · simp [same]
  · have other : decision.poolIndex ≠ index := Ne.symm same
    simp [same, other, find?_ahead]

theorem dispositionAt_seen (known : index ∈ seen) (unit : ManaUnit) :
    dispositionAt (ahead seen decisions) index unit = .keep := by
  rw [dispositionAt, find?_ahead, if_pos known]

theorem mem_ahead {other : UnitDecision} :
    other ∈ ahead seen decisions ↔ other ∈ decisions ∧ other.poolIndex ∉ seen := by
  simp [ahead]

theorem ahead_mono (index : Nat) : ahead (index :: seen) decisions ⊆ ahead seen decisions :=
  fun other there => by
    simp only [mem_ahead, mem_cons, not_or] at there ⊢
    exact ⟨there.1, there.2.2⟩

/-- A decision that does not match the unit in its place changes nothing. -/
theorem verdicts_mismatch (fresh : decision.poolIndex ∉ seen)
    (mismatch : ∀ unit, front[decision.poolIndex]? = some unit → decision.color ≠ unit.color) :
    verdicts (ahead seen (decision :: decisions)) front =
      verdicts (ahead (decision.poolIndex :: seen) decisions) front := by
  refine map_congr_left fun ⟨unit, index⟩ there => ?_
  have at_ : front[index]? = some unit := by
    simpa using mem_zipIdx_iff_getElem?.mp there
  refine Prod.ext rfl ?_
  rw [dispositionAt_fresh fresh]
  split
  · next same =>
    subst same
    rw [if_neg (mismatch unit at_), dispositionAt_seen mem_cons_self]
  · rfl

/-- A decision that matches settles its unit; those above it are settled already. -/
theorem verdicts_match (fresh : decision.poolIndex ∉ seen)
    (sorted : ∀ other ∈ decisions, other.poolIndex ≤ decision.poolIndex)
    (place : front.length = decision.poolIndex) (color : decision.color = unit.color) :
    verdicts (ahead seen (decision :: decisions)) (front ++ unit :: back) =
      verdicts (ahead (decision.poolIndex :: seen) decisions) front ++
        ([(unit, decision.disposition)] ++ back.map fun above => (above, .keep)) := by
  rw [singleton_append]
  have settled : (back.zipIdx (front.length + 1)).map (fun entry =>
      (entry.1, dispositionAt (ahead seen (decision :: decisions)) entry.2 entry.1)) =
        back.map fun above => (above, keep) := by
    conv_rhs => rw [← zipIdx_map_fst (front.length + 1) back, map_map]
    refine map_congr_left fun ⟨above, index⟩ there => Prod.ext rfl ?_
    have higher := (mem_zipIdx there).1
    have none_ : decisions.find? (·.poolIndex = index) = none :=
      find?_eq_none.mpr fun other mem => by
        have := sorted other mem
        simp only [decide_eq_true_eq]
        omega
    rw [dispositionAt_fresh fresh, if_neg (by omega), dispositionAt, find?_ahead, none_, ite_self]
    rfl
  rw [verdicts, zipIdx_append, map_append, zipIdx_cons, map_cons, Nat.zero_add, settled]
  congr 1
  · refine map_congr_left fun ⟨below, index⟩ there => Prod.ext rfl ?_
    have lower := (mem_zipIdx there).2.1
    rw [dispositionAt_fresh fresh, if_neg (by omega)]
  · rw [dispositionAt_fresh fresh, if_pos place, if_pos color]

/-- A decision that matches does to the unit in its place what it says. -/
theorem applyDecision_spec (playerId : PlayerId) (sound : pool.Sound)
    (list : pool.units = front ++ unit :: back) (place : front.length = decision.poolIndex) (removed : Nat) (events : List GameEvent) :
    ∃ after, applyDecision playerId decision (pool, removed, events) =
        (after, removed + [(unit, decision.disposition)].countP Verdict.dropped,
          events ++ [(unit, decision.disposition)].filterMap (Verdict.event playerId)) ∧
      after.Sound ∧
        after.units = front ++ [(unit, decision.disposition)].filterMap Verdict.left ++ back := by
  have at_ : pool.units[decision.poolIndex]? = some unit := by simp [list, ← place]
  rw [applyDecision]
  cases said : decision.disposition with
  | keep =>
    refine ⟨pool, ?_, sound, ?_⟩
    · simp [Verdict.dropped, Verdict.event, event]
    · simp [list, Verdict.left, left]
  | drop =>
    obtain ⟨left, gone, sound', units⟩ := ManaPool.removeAt_refines sound at_
    refine ⟨left, ?_, sound', ?_⟩
    · simp [gone, Verdict.dropped, Verdict.event, event]
    · simp [units, list, ← place, Verdict.left, UnitDisposition.left]
  | recolor color =>
    obtain ⟨left, changed, sound', units⟩ := ManaPool.recolorAt_refines sound at_ color
    refine ⟨left, ?_, sound', ?_⟩
    · simp [changed, Verdict.dropped, Verdict.event, event]
    · simp [units, list, ← place, Verdict.left, UnitDisposition.left]

theorem kept_left (units : List ManaUnit) :
    (units.map fun unit => (unit, keep)).filterMap Verdict.left = units := by
  rw [filterMap_map]
  exact filterMap_some

theorem kept_event (units : List ManaUnit) :
    (units.map fun unit => (unit, keep)).filterMap (Verdict.event playerId) = [] := by
  rw [filterMap_map]
  exact filterMap_eq_nil_iff.mpr fun _ _ => rfl

theorem kept_dropped (units : List ManaUnit) :
    (units.map fun unit => (unit, keep)).countP Verdict.dropped = 0 := by
  rw [countP_map]
  exact countP_eq_zero.mpr fun _ _ => Bool.false_ne_true

theorem applyDecisions_spec (playerId : PlayerId) (seen : List Nat) (sound : pool.Sound)
    (sorted : decisions.Pairwise fun a b => b.poolIndex ≤ a.poolIndex)
    (list : pool.units = front ++ back)
    (reach : ∀ decision ∈ ahead seen decisions, decision.poolIndex < front.length ∨ back = [])
    (removed : Nat) (events : List GameEvent) :
    ∃ after, applyDecisions playerId seen decisions (pool, removed, events) =
        (after, removed + (verdicts (ahead seen decisions) front).countP Verdict.dropped,
          events ++ (verdicts (ahead seen decisions) front).reverse.filterMap
            (Verdict.event playerId)) ∧
      after.Sound ∧
        after.units = (verdicts (ahead seen decisions) front).filterMap Verdict.left ++ back := by
  induction decisions generalizing pool seen front back removed events with
  | nil =>
    have kept : verdicts (ahead seen []) front = front.map fun unit => (unit, .keep) := by
      conv_rhs => rw [← zipIdx_map_fst 0 front, map_map]
      rfl
    refine ⟨pool, ?_, sound, ?_⟩
    · rw [kept, ← map_reverse, kept_dropped, kept_event]
      simp [applyDecisions]
    · rw [kept, kept_left, list]
  | cons decision decisions ih =>
    obtain ⟨highest, sorted⟩ := pairwise_cons.mp sorted
    rw [applyDecisions]
    by_cases known : decision.poolIndex ∈ seen
    · rw [if_pos (by simp [known])]
      rw [ahead_seen known] at reach ⊢
      exact ih _ sound sorted list reach removed events
    have within := reach
    rw [ahead_fresh known] at within
    obtain ⟨here, later⟩ := forall_mem_cons.mp within
    have at_ : pool.units[decision.poolIndex]? = front[decision.poolIndex]? := by
      rcases here with inside | rfl
      · rw [list, getElem?_append_left inside]
      · rw [list, append_nil]
    by_cases hit : ∃ unit, front[decision.poolIndex]? = some unit ∧ decision.color = unit.color
    · obtain ⟨unit, there, color⟩ := hit
      obtain ⟨low, high, rfl, place⟩ : ∃ low high, front = low ++ unit :: high ∧
          low.length = decision.poolIndex := by
        obtain ⟨bound, rfl⟩ := List.getElem?_eq_some_iff.mp there
        exact ⟨front.take decision.poolIndex, front.drop (decision.poolIndex + 1), by simp,
          length_take_of_le (Nat.le_of_lt bound)⟩
      rw [append_assoc] at list
      obtain ⟨pool', applied, sound', list'⟩ :=
        applyDecision_spec playerId sound list place removed events
      have below : ∀ other ∈ ahead (decision.poolIndex :: seen) decisions,
          other.poolIndex < low.length := fun other there => by
        obtain ⟨later, fresh⟩ := mem_ahead.mp there
        have atMost := highest other later
        have apart := ne_of_not_mem_cons fresh
        omega
      rw [append_assoc] at list'
      obtain ⟨after, ran, soundAfter, units⟩ :=
        ih _ sound' sorted list' (fun other there => .inl (below other there)) _ _
      refine ⟨after, ?_, soundAfter, ?_⟩
      · rw [if_neg (by simp [known, ManaPool.unitAt_eq, at_, there, color]), applied, ran,
          verdicts_match known highest place color, countP_append, reverse_append,
          filterMap_append, countP_append, kept_dropped, reverse_append,
          filterMap_append, ← map_reverse, kept_event, reverse_singleton]
        simp only [nil_append, append_assoc, Prod.mk.injEq, true_and, and_true]
        omega
      · rw [units, verdicts_match known highest place color, filterMap_append,
          filterMap_append, kept_left]
        simp only [append_assoc, append_eq]
    · have mismatch (unit : ManaUnit) (there : front[decision.poolIndex]? = some unit) :
          decision.color ≠ unit.color := fun color => hit ⟨unit, there, color⟩
      have passed : (pool.unitAt decision.poolIndex).any (·.color = decision.color) = false := by
        rw [ManaPool.unitAt_eq, at_, Option.any_eq_false]
        intro unit there
        simpa using Ne.symm (mismatch unit there)
      rw [if_pos (by simp [passed]), verdicts_mismatch known mismatch]
      exact ih _ sound sorted list (fun other there => later other (ahead_mono _ there)) removed
        events

/-- The pool's own operations made it, out of an empty one. -/
def Built (pool : ManaPool) : Prop :=
  ∃ ops outputs, ManaPool.run {} ops = .ok (outputs, pool)

theorem Built.sound (built : Built pool) : pool.Sound := by
  obtain ⟨ops, outputs, ran⟩ := built
  have agrees := ManaPool.pool_refines_unit_list ops
  cases list : ReferencePool.run [] ops with
  | none =>
    simp only [list, ran] at agrees
    cases agrees
  | some result =>
    simp only [list, ran] at agrees
    obtain ⟨final, same, sound, -⟩ := agrees
    cases same
    exact sound

theorem dispositionAt_sorted (index : Nat) (unit : ManaUnit) :
    dispositionAt (decisions.mergeSort fun a b => b.poolIndex ≤ a.poolIndex) index unit =
      dispositionAt decisions index unit := by
  rw [dispositionAt, dispositionAt, find?_mergeSort_key UnitDecision.poolIndex]

theorem isPoolEmptied_event (verdict : Verdict) :
    ((verdict.event playerId).map GameEvent.isPoolEmptied).getD false = verdict.dropped := by
  obtain ⟨unit, disposition⟩ := verdict
  cases disposition <;> rfl

theorem countP_emptied (ruled : List Verdict) :
    (ruled.reverse.filterMap (Verdict.event playerId)).countP GameEvent.isPoolEmptied =
      ruled.countP Verdict.dropped := by
  rw [countP_filterMap, countP_reverse]
  exact countP_congr fun verdict _ => by rw [isPoolEmptied_event]

theorem verdicts_sorted :
    verdicts (ahead [] (decisions.mergeSort fun a b => b.poolIndex ≤ a.poolIndex)) units =
      verdicts decisions units := by
  have all : ahead [] (decisions.mergeSort fun a b => b.poolIndex ≤ a.poolIndex) =
      decisions.mergeSort fun a b => b.poolIndex ≤ a.poolIndex :=
    filter_eq_self.mpr fun _ _ => rfl
  rw [all]
  exact map_congr_left fun entry _ => Prod.ext rfl (dispositionAt_sorted ..)

variable {ω : Type} {state : GameState ω}

/-- The pool is left with its units in their order, each as the first decision that names its
place says. -/
theorem applyEmptyManaPoolDecisions_units (decisions : List UnitDecision)
    (held : state.board.pools.lookup playerId = some pool) (sound : pool.Sound) :
    ∃ after, after.Sound ∧ after.units = (verdicts decisions pool.units).filterMap Verdict.left ∧
      applyEmptyManaPoolDecisions state playerId decisions =
        ({ state with
            board := { state.board with pools := state.board.pools.insert playerId after }
            events := state.events ++
              (verdicts decisions pool.units).reverse.filterMap (Verdict.event playerId) },
          (verdicts decisions pool.units).countP Verdict.dropped) := by
  have descending : (decisions.mergeSort fun a b => b.poolIndex ≤ a.poolIndex).Pairwise
      fun a b => b.poolIndex ≤ a.poolIndex := by
    have sorted : (decisions.mergeSort fun a b => b.poolIndex ≤ a.poolIndex).Pairwise
        fun a b => decide (b.poolIndex ≤ a.poolIndex) = true :=
      pairwise_mergeSort (fun a b c => by simp only [decide_eq_true_eq]; omega)
        (fun a b => by simp only [Bool.or_eq_true, decide_eq_true_eq]; omega) decisions
    exact sorted.imp of_decide_eq_true
  obtain ⟨after, ran, sound', units⟩ := applyDecisions_spec playerId [] sound descending
    (append_nil _).symm (fun _ _ => .inr rfl) 0 []
  rw [verdicts_sorted] at ran units
  refine ⟨after, sound', by rw [units, append_nil], ?_⟩
  rw [applyEmptyManaPoolDecisions, held]
  simp only [ran, Nat.zero_add, nil_append]

end

/-- Decisions about an emptying pool apply to the positions they name, and to nothing else: the
units stay in their order, each dropped, recolored or kept as the first decision that names its
position says, if that decision names its color. As many units are dropped as are counted and as
are reported. -/
theorem decisions_apply_by_position {ω : Type} (state : GameState ω) (playerId : PlayerId)
    (decisions : List UnitDecision) :
    (state.board.pools.lookup playerId = none →
      applyEmptyManaPoolDecisions state playerId decisions = (state, 0)) ∧
    ∀ pool, state.board.pools.lookup playerId = some pool → Built pool →
      ∃ after events removed, applyEmptyManaPoolDecisions state playerId decisions =
          ({ state with
              board := { state.board with pools := state.board.pools.insert playerId after }
              events := state.events ++ events }, removed) ∧
        after.Sound ∧
        after.units = (verdicts decisions pool.units).filterMap Verdict.left ∧
        events = (verdicts decisions pool.units).reverse.filterMap (Verdict.event playerId) ∧
        removed = (verdicts decisions pool.units).countP Verdict.dropped ∧
        removed = events.countP GameEvent.isPoolEmptied := by
  refine ⟨fun unknown => by rw [applyEmptyManaPoolDecisions, unknown], fun pool held built => ?_⟩
  obtain ⟨after, sound, units, applied⟩ := applyEmptyManaPoolDecisions_units decisions held built.sound
  exact ⟨after, _, _, applied, sound, units, rfl, rfl, (countP_emptied _).symm⟩

def redUnit : ManaUnit := { color := .red, sourceId := 7, pipId := 1 }

def blueUnit : ManaUnit := { color := .blue, sourceId := 8, pipId := 2 }

def twoUnits : ManaPool := (ManaPool.add {} redUnit).add blueUnit

def leavingUnits : GameState Unit where
  board := { pools := AList.insert 0 twoUnits ∅, rest := () }
  phase := .endStep
  pendingPhaseTransitionProgress := none
  waitingFor := .priority 0
  events := []
  history := []

theorem twoUnits_built : Built twoUnits := ⟨[.add redUnit, .add blueUnit], [.done, .done], rfl⟩

theorem twoUnits_units : twoUnits.units = [redUnit, blueUnit] := by
  obtain ⟨pool, ran, -, answers⟩ := ManaPool.pool_refines_unit_list [.add redUnit, .add blueUnit]
  cases ran
  exact answers.units

/-- The red unit turns blue; a repeated decision and one about no unit change nothing. -/
theorem red_turns_blue : ∃ after events removed,
    applyEmptyManaPoolDecisions leavingUnits 0
        [⟨5, .red, .drop⟩, ⟨0, .red, .recolor .blue⟩, ⟨1, .blue, .drop⟩, ⟨1, .blue, .drop⟩] =
      ({ leavingUnits with
          board := { leavingUnits.board with
            pools := leavingUnits.board.pools.insert 0 after }
          events := events }, removed) ∧
      after.units = [{ redUnit with color := .blue }] ∧ removed = 1 := by
  obtain ⟨after, events, removed, applied, -, units, -, count, -⟩ :=
    (decisions_apply_by_position leavingUnits 0
      [⟨5, .red, .drop⟩, ⟨0, .red, .recolor .blue⟩, ⟨1, .blue, .drop⟩, ⟨1, .blue, .drop⟩]).2
      twoUnits (AList.lookup_insert _) twoUnits_built
  rw [twoUnits_units] at units count
  exact ⟨after, events, removed, applied, units, count⟩

/-- The first decision that names both the position and the color of the unit there. -/
def firstMatching (decisions : List UnitDecision) (index : Nat) (unit : ManaUnit) :
    UnitDisposition :=
  ((decisions.find? fun decision => decision.poolIndex = index ∧ decision.color = unit.color).map
    UnitDecision.disposition).getD .keep

/-- A decision with a stale color keeps a later one about the same position from applying, though
that one matches the unit. -/
theorem stale_decision_shields : ∃ after,
    applyEmptyManaPoolDecisions leavingUnits 0 [⟨0, .blue, .drop⟩, ⟨0, .red, .drop⟩] =
      ({ leavingUnits with
          board := { leavingUnits.board with
            pools := leavingUnits.board.pools.insert 0 after } }, 0) ∧
      after.units = [redUnit, blueUnit] ∧
      (twoUnits.units.zipIdx.filterMap fun entry =>
        (firstMatching [⟨0, .blue, .drop⟩, ⟨0, .red, .drop⟩] entry.2 entry.1).left entry.1) =
          [blueUnit] := by
  have held : leavingUnits.board.pools.lookup 0 = some twoUnits := AList.lookup_insert _
  obtain ⟨after, -, units, applied⟩ := applyEmptyManaPoolDecisions_units
    [⟨0, .blue, .drop⟩, ⟨0, .red, .drop⟩] held twoUnits_built.sound
  rw [twoUnits_units] at units applied ⊢
  exact ⟨after, applied, units, rfl⟩

end Phase.StepEnd
