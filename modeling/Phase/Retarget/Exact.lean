import Phase.Retarget.Matching

/-! The completion search is exact when the validator's verdict falls apart into admissible pairs
and one check for each position. -/
namespace Phase.Retarget
open List

/-- The validator accepts what has admissible pairs and passes the checks of all positions, each
of which reads its own pick and those of the positions that its filter names. -/
structure Verdict (s : StackEntry) (check : Nat → (Nat → RetargetPick) → Prop) : Prop where
  accepts : ∀ picks, picks.length = s.size → (s.validate picks ↔
    (∀ a < s.size, ∀ b < a, s.pairAdmissible a (picks.getD a none) b (picks.getD b none)) ∧
    ∀ i < s.size, check i fun j => picks.getD j none)
  reads : ∀ i < s.size, ∀ v w : Nat → RetargetPick, v i = w i →
    (∀ j < s.size, s.Reads i j → v j = w j) → (check i v ↔ check i w)

/-- A decided part of the walk: each pick is a candidate, or changes nothing. -/
structure Answered (s : StackEntry) (answered : List RetargetPick) : Prop where
  length : answered.length ≤ s.size
  picks : ∀ i pick, answered[i]? = some pick → pick ∈ s.candidates i ∨ s.changed i pick = false

namespace StackEntry

variable {s : StackEntry} {check : Nat → (Nat → RetargetPick) → Prop} {positions : List Nat}
  {fixed : List (Option RetargetPick)} {v : List RetargetPick}

theorem pairsChecked (verdict : Verdict s check) : s.PairsChecked :=
  fun picks size accepted => ((verdict.accepts picks size).mp accepted).1

theorem length_restrict : (s.restrict positions v).length = s.size := by
  unfold restrict
  rw [length_map, length_range]

variable {i : Nat} {pick : RetargetPick} {picks : List RetargetPick} {components : List Component}

theorem getD_restrict {i : Nat} (low : i < s.size) :
    (s.restrict positions v).getD i none = if i ∈ positions then v.getD i none else none := by
  unfold restrict
  rw [getD_eq_getElem?_getD, getElem?_map, getElem?_range low]
  rfl

theorem getD_keepAll (i : Nat) : s.keepAll.getD i none = none := by
  unfold keepAll
  rw [getD_eq_getElem?_getD, getElem?_replicate]
  split <;> rfl

/-- What is accepted is so on one component, with every other position kept. -/
theorem restrict_accepted (verdict : Verdict s check) (seed : s.validate s.keepAll)
    (mem : positions ∈ s.grouped) (size : v.length = s.size) (accepted : s.validate v) :
    s.validate (s.restrict positions v) := by
  obtain ⟨pairs, checks⟩ := (verdict.accepts v size).mp accepted
  obtain ⟨kept, keptChecks⟩ := (verdict.accepts s.keepAll s.length_keepAll).mp seed
  refine (verdict.accepts _ length_restrict).mpr ⟨?_, ?_⟩
  · intro a low b below
    have low' := below.trans low
    rw [getD_restrict low, getD_restrict low']
    by_cases apart : s.run a = none ∨ s.run a ≠ s.run b
    · exact pairAdmissible_of_run apart
    · rw [not_or, not_not, ← ne_eq, Option.ne_none_iff_isSome] at apart
      have together := grouped_run mem low low' apart.1 apart.2
      by_cases here : a ∈ positions
      · rw [if_pos here, if_pos (together.mp here)]
        exact pairs a low b below
      · rw [if_neg here, if_neg fun there => here (together.mpr there)]
        have admissible := kept a low b below
        rwa [getD_keepAll, getD_keepAll] at admissible
  · intro i low
    by_cases here : i ∈ positions
    · refine (verdict.reads i low _ _ ?_ ?_).mp (checks i low)
      · rw [getD_restrict low, if_pos here]
      · intro j low' reads
        rw [getD_restrict low', if_pos ((grouped_reads mem low low' reads).mp here)]
    · refine (verdict.reads i low _ _ ?_ ?_).mp (keptChecks i low)
      · rw [getD_restrict low, if_neg here, getD_keepAll]
      · intro j low' reads
        rw [getD_restrict low', getD_keepAll,
          if_neg fun there => here ((grouped_reads mem low low' reads).mpr there)]

theorem identity_of_changed (changed : s.changed i pick = true) :
    ∃ target, pick = some target ∧
      s.identity i pick = ⟨target, liveTargetPin s.objects target⟩ := by
  cases pick with
  | none => cases changed
  | some target =>
    refine ⟨target, rfl, ?_⟩
    unfold identity
    rw [changed]

theorem identity_none {binding : RetargetSlotBinding} (isBinding : s.bindings[i]? = some binding) :
    s.identity i none = ⟨binding.current, binding.targetPinAt⟩ := by
  unfold identity
  rw [isBinding]
  rfl

theorem mem_pool_of_candidate {target : TargetRef} (isCandidate : some target ∈ s.candidates i) :
    ∃ binding ∈ s.bindings, target ∈ binding.slotPool := by
  unfold candidates at isCandidate
  split at isCandidate
  · next binding isBinding =>
    rcases mem_cons.mp isCandidate with same | mem
    · cases same
    · obtain ⟨_, isOne, same⟩ := mem_map.mp mem
      cases same
      exact ⟨binding, mem_of_getElem? isBinding, (mem_filter.mp isOne).1⟩
  · cases mem_singleton.mp isCandidate

/-- The announced identities of these positions, which are in one run, are all different. -/
structure PureRun (s : StackEntry) (positions : List Nat) : Prop where
  isSome : ∀ i ∈ positions, (s.run i).isSome
  same : ∀ i ∈ positions, ∀ j ∈ positions, s.run i = s.run j
  different : ∀ i ∈ positions, ∀ j ∈ positions, i ≠ j →
    (s.identity i none).sameObject (s.identity j none) = false

theorem pureRun_of_matching (matching : s.solverOf positions = .matching) :
    s.PureRun positions := by
  unfold solverOf at matching
  dsimp only at matching
  split at matching
  · next pure =>
    rw [Bool.and_eq_true, Bool.and_eq_true, decide_eq_true_eq] at pure
    obtain ⟨⟨_, runs⟩, different⟩ := pure
    rw [all_eq_true] at runs
    have first : ∀ i ∈ positions, (s.run i).isSome ∧ s.run i = s.run (positions.headD 0) := by
      intro i mem
      simpa using runs i mem
    let Apart : Nat → Nat → Prop := fun i j =>
      (s.identity i none).sameObject (s.identity j none) = false
    have symm : Std.Symm Apart := by
      refine ⟨fun i j apart => ?_⟩
      show (s.identity j none).sameObject (s.identity i none) = false
      rw [OccurrenceIdentity.sameObject_comm]
      exact apart
    have apart : positions.Pairwise Apart := by
      refine (pairwise_map.mp different).imp ?_
      intro i j different
      show (s.identity i none).sameObject (s.identity j none) = false
      rw [OccurrenceIdentity.sameObject_comm]
      simpa using different
    refine ⟨fun i mem => (first i mem).1, ?_, ?_⟩
    · intro i mem j mem'
      exact (first i mem).2.trans (first j mem').2.symm
    · intro i mem j mem'
      exact apart.forall mem mem'
  · cases matching

/-- Two positions of a pure run that the validator does not refuse name different objects. -/
theorem PureRun.apart (pure : s.PureRun positions) (low : ∀ i ∈ positions, i < s.size) {j : Nat}
    (mem : i ∈ positions) (mem' : j ∈ positions) (ne : i ≠ j) {pick' : RetargetPick}
    (admissible : s.pairAdmissible i pick j pick') :
    (s.identity i pick).sameObject (s.identity j pick') = false := by
  unfold pairAdmissible at admissible
  have isSome := pure.isSome i mem
  rw [pure.same i mem j mem'] at admissible isSome
  have some_ : (s.run j).isNone = false := by
    rw [← Bool.not_eq_true, Option.isNone_iff_eq_none, ← ne_eq, Option.ne_none_iff_isSome]
    exact isSome
  simp only [some_, ne_eq, not_true_eq_false, decide_false, Bool.or_self, Bool.false_or,
    Bool.or_eq_true, Bool.and_eq_true, Bool.not_eq_true'] at admissible
  rcases admissible with ⟨kept, kept'⟩ | different
  · rw [identity_of_unchanged (low i mem) kept, identity_of_unchanged (low j mem') kept']
    exact pure.different i mem j mem' ne
  · exact different

/-- A key of a pure run that is the same object as two different ones has no pin, and neither has
a pin for it: not the announced one, which would be the same as another, nor the live one. -/
theorem PureRun.key_unique (pure : s.PureRun positions) (low : ∀ i ∈ positions, i < s.size)
    {j k : Nat} (mem : i ∈ positions) (mem' : j ∈ positions) (isKey : k ∈ positions)
    {pick' known : RetargetPick} (answered : known ∈ s.candidates k ∨ s.changed k known = false)
    (same : (s.identity k known).sameObject (s.identity i pick))
    (same' : (s.identity k known).sameObject (s.identity j pick')) :
    (s.identity i pick).sameObject (s.identity j pick') := by
  by_cases pinned : (s.identity k known).pin.isSome ∨ (s.identity k known).target.isObject = false
  · rw [OccurrenceIdentity.sameObject_comm] at same
    exact OccurrenceIdentity.sameObject_trans pinned same same'
  rw [not_or, Bool.not_eq_true, Option.isSome_eq_false_iff, Option.isNone_iff_eq_none] at pinned
  obtain ⟨unpinned, object⟩ := pinned
  have elected : ∀ i ∈ positions, ∀ pick,
      (s.identity k known).sameObject (s.identity i pick) → ∀ pin ∈ (s.identity i pick).pin,
        liveTargetPin s.objects (s.identity k known).target = some pin := by
    intro i mem pick same pin isPin
    have target := (OccurrenceIdentity.sameObject_iff.mp same).1
    by_cases changed : s.changed i pick = true
    · obtain ⟨t, rfl, isIdentity⟩ := identity_of_changed changed
      rw [isIdentity] at target isPin
      rw [target]
      exact isPin
    · rw [Bool.not_eq_true] at changed
      rw [identity_of_unchanged (low i mem) changed] at target isPin same
      by_cases changed' : s.changed k known = true
      · obtain ⟨t, rfl, isIdentity⟩ := identity_of_changed changed'
        rcases answered with isCandidate | kept
        · obtain ⟨binding, isBinding, inPool⟩ := mem_pool_of_candidate isCandidate
          obtain ⟨announced, isAnnounced⟩ := exists_binding (low i mem)
          rw [identity_none isAnnounced] at target isPin
          rw [isIdentity] at target unpinned
          have target : t = announced.current := target
          rw [target] at inPool
          have dead := s.alive announced (mem_of_getElem? isAnnounced) binding isBinding
            (Option.isSome_iff_exists.mpr ⟨pin, isPin⟩) inPool
          rw [← target, show liveTargetPin s.objects t = none from unpinned] at dead
          cases dead
        · rw [kept] at changed'
          cases changed'
      · rw [Bool.not_eq_true] at changed'
        rw [identity_of_unchanged (low k isKey) changed'] at same unpinned
        by_cases here : k = i
        · subst here
          rw [unpinned] at isPin
          cases isPin
        · rw [pure.different k isKey i mem here] at same
          cases same
  refine OccurrenceIdentity.sameObject_iff.mpr ⟨?_, ?_⟩
  · exact (OccurrenceIdentity.sameObject_iff.mp same).1.symm.trans
      (OccurrenceIdentity.sameObject_iff.mp same').1
  · intro _ a isA b isB
    have both := (elected i mem pick same a isA).symm.trans (elected j mem' pick' same' b isB)
    exact Option.some.inj both

theorem solveComponent_some {component : Component} {assignment : Assignment}
    (found : s.solveComponent component fixed = some assignment) :
    s.Fills component.positions fixed assignment := by
  unfold solveComponent at found
  split at found
  · obtain ⟨matching, isMatching, found⟩ := Option.bind_eq_some_iff.mp found
    split at found
    · cases found
      exact solveMatching_some isMatching
    · exact (solveSearch_some found).1
  · exact (solveSearch_some found).1

theorem solveComponent_none (verdict : Verdict s check) (seed : s.validate s.keepAll)
    (mem : positions ∈ s.grouped)
    (answered : ∀ i ∈ positions, ∀ pick ∈ s.choices fixed i,
      pick ∈ s.candidates i ∨ s.changed i pick = false)
    (failed : s.solveComponent ⟨positions, s.solverOf positions⟩ fixed = none)
    (size : v.length = s.size) (given : ∀ i ∈ positions, v.getD i none ∈ s.choices fixed i) :
    s.validate v = false := by
  have low : ∀ i ∈ positions, i < s.size := fun i => grouped_lt mem
  have once := grouped_nodup mem
  have unsearched (failed : s.solveSearch positions fixed = none) : s.validate v = false := by
    by_contra accepted
    rw [Bool.not_eq_false] at accepted
    have local_ := restrict_accepted verdict seed mem size accepted
    rw [solveSearch_none (pairsChecked verdict) once low failed given] at local_
    cases local_
  unfold solveComponent at failed
  split at failed
  · next matching =>
    cases isMatching : s.solveMatching positions fixed with
    | some assignment =>
      rw [isMatching, Option.bind_eq_bind, Option.bind_some] at failed
      split at failed
      · cases failed
      · exact unsearched failed
    | none =>
      by_contra accepted
      rw [Bool.not_eq_false] at accepted
      have pure := pureRun_of_matching matching
      obtain ⟨i, here, j, there, ne, key, isKey, same, same'⟩ :=
        solveMatching_none isMatching once given
      obtain ⟨option, isOption, rfl⟩ := mem_keysOf isKey
      obtain ⟨k, known, isGiven, isIdentity⟩ := of_mem_options isOption
      rw [isIdentity] at same same'
      have one := pure.key_unique low here there known (answered k known _ isGiven) same same'
      have apart := pure.apart low here there ne
        ((pairsChecked verdict).apart size accepted (low i here) (low j there) ne)
      rw [apart] at one
      cases one
  · exact unsearched failed

/-- The components one after the other give every position of theirs something it may be given. -/
theorem solveComponents_some {result : List RetargetPick}
    (found : s.solveComponents fixed components picks = some result) :
    result.length = picks.length ∧ ∀ i < picks.length,
      (∃ component ∈ components, i ∈ component.positions) ∨
          picks.getD i none ∈ s.choices fixed i →
        result.getD i none ∈ s.choices fixed i := by
  induction components generalizing picks with
  | nil =>
    cases found
    refine ⟨rfl, ?_⟩
    rintro i _ (⟨_, mem, _⟩ | given)
    · cases mem
    · exact given
  | cons component rest ih =>
    obtain ⟨assignment, isAssignment, found⟩ := Option.bind_eq_some_iff.mp found
    have fills := solveComponent_some isAssignment
    obtain ⟨length, later⟩ := ih found
    rw [length_place] at length later
    refine ⟨length, ?_⟩
    intro i low here
    apply later i low
    rcases place_cases assignment low with ⟨pick, isGiven, now⟩ | ⟨absent, now⟩
    · refine .inr ?_
      rw [getD_eq_getElem?_getD, now]
      exact fills.chosen _ isGiven
    · rw [getD_eq_getElem?_getD, now]
      rcases here with ⟨other, mem, inside⟩ | given
      · rcases mem_cons.mp mem with rfl | mem
        · obtain ⟨pick, isGiven⟩ := fills.covers i inside
          exact absurd rfl (absent _ isGiven)
        · exact .inl ⟨other, mem, inside⟩
      · exact .inr given

theorem solveComponents_none (failed : s.solveComponents fixed components picks = none) :
    ∃ component ∈ components, s.solveComponent component fixed = none := by
  induction components generalizing picks with
  | nil => cases failed
  | cons component rest ih =>
    cases isAssignment : s.solveComponent component fixed with
    | none => exact ⟨component, mem_cons_self, isAssignment⟩
    | some assignment =>
      rw [solveComponents, isAssignment] at failed
      obtain ⟨other, mem, isNone⟩ := ih failed
      exact ⟨other, mem_cons_of_mem _ mem, isNone⟩

end StackEntry

end Phase.Retarget
