import Phase.Retarget.Exact

/-! A walk through the positions of a retarget prompt that takes only what is offered always has
a next answer, and ends with a target set that the validator accepts. Of its slot checks, a changed
position takes from its own pool, and no object stands twice in a run if one of its positions has
changed. -/
namespace Phase.Retarget
open List StackEntry

section
namespace StackEntry

variable (s : StackEntry)

def inPool (i : Nat) (pick : RetargetPick) : Bool :=
  match pick, s.bindings[i]? with
  | some submitted, some binding => submitted ∈ binding.slotPool
  | _, _ => false

/-- Whether an earlier position of the run names the same object. -/
def duplicate (picks : List RetargetPick) (i : Nat) : Bool :=
  (s.run i).isSome && (range i).any fun j =>
    s.run j = s.run i &&
      (s.changed i (picks.getD i none) || s.changed j (picks.getD j none)) &&
      (s.identity i (picks.getD i none)).sameObject (s.identity j (picks.getD j none))

/-- The first position whose pick is not legal for its slot. -/
def retargetSlotViolation (picks : List RetargetPick) : Option Nat :=
  (range (min s.size picks.length)).find? fun i =>
    s.changed i (picks.getD i none) && !s.inPool i (picks.getD i none) || s.duplicate picks i

def slotsAccepted (picks : List RetargetPick) : Bool :=
  picks.length = s.size && (s.retargetSlotViolation picks).isNone

/-- The entry with the slot checks as its validator. -/
def slotChecked : StackEntry := { s with validate := s.slotsAccepted }

/-- The check of one position: if it changes, it is given a member of its pool. -/
def PoolCheck (i : Nat) (v : Nat → RetargetPick) : Prop :=
  s.changed i (v i) = true → s.inPool i (v i) = true

variable {s} {picks : List RetargetPick} {i : Nat}

theorem duplicate_eq_false : s.duplicate picks i = false ↔
    ∀ j < i, s.pairAdmissible i (picks.getD i none) j (picks.getD j none) := by
  unfold duplicate pairAdmissible
  cases single : s.run i with
  | none => simp
  | some run =>
    constructor
    · grind
    · grind

theorem slotsAccepted_iff (size : picks.length = s.size) : s.slotsAccepted picks ↔
    (∀ a < s.size, ∀ b < a, s.pairAdmissible a (picks.getD a none) b (picks.getD b none)) ∧
      ∀ i < s.size, s.PoolCheck i fun j => picks.getD j none := by
  unfold slotsAccepted retargetSlotViolation
  rw [size, Nat.min_self, decide_eq_true rfl, Bool.true_and, Option.isNone_iff_eq_none,
    find?_eq_none]
  have each : ∀ i, ¬ (s.changed i (picks.getD i none) && !s.inPool i (picks.getD i none) ||
      s.duplicate picks i) = true ↔
        (∀ b < i, s.pairAdmissible i (picks.getD i none) b (picks.getD b none)) ∧
          s.PoolCheck i fun j => picks.getD j none := by
    intro i
    rw [← duplicate_eq_false]
    unfold PoolCheck
    cases s.changed i (picks.getD i none) <;> cases s.inPool i (picks.getD i none) <;>
      cases s.duplicate picks i <;> simp
  constructor
  · intro all
    exact ⟨fun a low => ((each a).mp (all a (mem_range.mpr low))).1,
      fun i low => ((each i).mp (all i (mem_range.mpr low))).2⟩
  · rintro ⟨pairs, pools⟩ i mem
    have low := mem_range.mp mem
    exact (each i).mpr ⟨pairs i low, pools i low⟩

/-- The verdict of the slot checks is that of the pairs and of each position by itself. -/
theorem slotChecked_verdict (s : StackEntry) : Verdict s.slotChecked s.PoolCheck := by
  constructor
  · intro picks size
    exact slotsAccepted_iff size
  · intro i _ v w same _
    unfold PoolCheck
    rw [same]

end StackEntry

end

namespace RetargetSearch

variable {s : StackEntry} {search : RetargetSearch} {check : Nat → (Nat → RetargetPick) → Prop}
  {answered v : List RetargetPick} {pick : RetargetPick}

theorem of_forStackEntry (found : forStackEntry s = some search) :
    search.entry = s ∧
      search.components = s.grouped.map fun positions => ⟨positions, s.solverOf positions⟩ := by
  unfold forStackEntry at found
  split at found
  · cases found
  · cases found
    exact ⟨rfl, rfl⟩

/-- The picks of an answered part, at their positions. -/
def fixedBy (s : StackEntry) (answered : List RetargetPick) : List (Option RetargetPick) :=
  (range s.size).map fun position => answered[position]?

variable {i : Nat}

theorem fixedAt_fixedBy (low : i < s.size) : fixedAt (fixedBy s answered) i = answered[i]? := by
  unfold fixedAt fixedBy
  rw [getElem?_map, getElem?_range low]
  rfl

theorem choices_fixedBy (low : i < s.size) :
    pick ∈ s.choices (fixedBy s answered) i ↔
      answered[i]? = some pick ∨ answered.length ≤ i ∧ pick ∈ s.candidates i := by
  unfold choices
  rw [fixedAt_fixedBy low]
  by_cases inside : i < answered.length
  · simp [inside, eq_comm]
  · simp [Nat.le_of_not_lt inside]

/-- A vector that extends the answered part with candidates. -/
structure Extends (s : StackEntry) (answered v : List RetargetPick) : Prop where
  length : v.length = s.size
  start : answered <+: v
  candidates : ∀ i < s.size, answered.length ≤ i → v.getD i none ∈ s.candidates i

theorem Extends.given (extends_ : Extends s answered v) (low : i < s.size) :
    v.getD i none ∈ s.choices (fixedBy s answered) i := by
  rw [choices_fixedBy low]
  by_cases inside : i < answered.length
  · refine .inl ?_
    have same := prefix_iff_getElem?.mp extends_.start i inside
    rw [getD_eq_getElem?_getD, same, getElem?_eq_getElem inside]
    rfl
  · exact .inr ⟨by omega, extends_.candidates i low (by omega)⟩

theorem extends_of_given (size : v.length = s.size) (most : answered.length ≤ s.size)
    (given : ∀ i < s.size, v.getD i none ∈ s.choices (fixedBy s answered) i) :
    Extends s answered v := by
  refine ⟨size, ?_, ?_⟩
  · refine prefix_iff_getElem?.mpr ?_
    intro i inside
    have low : i < s.size := by omega
    rcases (choices_fixedBy low).mp (given i low) with same | ⟨past, _⟩
    · rw [getElem?_eq_getElem inside] at same
      rw [getElem?_eq_getElem (by omega), Option.some.inj same, getD_eq_getElem]
    · omega
  · intro i low past
    rcases (choices_fixedBy low).mp (given i low) with same | ⟨_, isCandidate⟩
    · rw [getElem?_eq_none past] at same
      cases same
    · exact isCandidate

/-- The reading of the definition in these terms. -/
theorem completion_eq (found : forStackEntry s = some search) (most : answered.length ≤ s.size) :
    search.completion answered =
      if s.decidedAdmissible answered then
        (s.solveComponents (fixedBy s answered) search.components s.keepAll).bind fun picks =>
          if s.validate picks then some picks
          else (s.solveSearch (range s.size) (fixedBy s answered)).map (place s.keepAll)
      else none := by
  unfold completion
  dsimp only
  rw [(of_forStackEntry found).1, take_of_length_le most]
  rfl

theorem completion_some (found : forStackEntry s = some search)
    (most : answered.length ≤ s.size) (completed : search.completion answered = some v) :
    Extends s answered v ∧ s.validate v := by
  rw [completion_eq found most] at completed
  split at completed
  · obtain ⟨picks, isPicks, completed⟩ := Option.bind_eq_some_iff.mp completed
    split at completed
    · next accepted =>
      cases completed
      obtain ⟨length, given⟩ := solveComponents_some isPicks
      rw [length_keepAll] at length given
      refine ⟨extends_of_given length most ?_, accepted⟩
      intro i low
      apply given i low
      obtain ⟨positions, mem, here⟩ := grouped_covers low
      refine .inl ⟨⟨positions, s.solverOf positions⟩, ?_, here⟩
      rw [(of_forStackEntry found).2]
      exact mem_map_of_mem mem
    · obtain ⟨assignment, isAssignment, rfl⟩ := Option.map_eq_some_iff.mp completed
      obtain ⟨fills, accepted⟩ := solveSearch_some isAssignment
      have size : (place s.keepAll assignment).length = s.size := by
        rw [length_place, length_keepAll]
      refine ⟨extends_of_given size most ?_, accepted nodup_range⟩
      intro i low
      have low' : i < s.keepAll.length := by rwa [length_keepAll]
      rcases place_cases assignment low' with ⟨pick, isGiven, here⟩ | ⟨absent, _⟩
      · rw [getD_eq_getElem?_getD, here]
        exact fills.chosen _ isGiven
      · obtain ⟨pick, isGiven⟩ := fills.covers i (mem_range.mpr low)
        exact absurd rfl (absent _ isGiven)
  · cases completed

theorem decidedAdmissible_of_accepted (verdict : Verdict s check) (extends_ : Extends s answered v)
    (most : answered.length ≤ s.size) (accepted : s.validate v) : s.decidedAdmissible answered := by
  have same : ∀ i pick, answered[i]? = some pick → v.getD i none = pick := by
    intro i pick isPick
    have inside := (List.getElem?_eq_some_iff.mp isPick).1
    have here := prefix_iff_getElem?.mp extends_.start i inside
    rw [getD_eq_getElem?_getD, here, ← getElem?_eq_getElem inside, isPick]
    rfl
  refine all_eq_true.mpr ?_
  rintro ⟨pickA, a⟩ isA
  refine all_eq_true.mpr ?_
  rintro ⟨pickB, b⟩ isB
  have isA := mem_zipIdx_iff_getElem?.mp isA
  have isB := mem_zipIdx_iff_getElem?.mp isB
  have inside := (List.getElem?_eq_some_iff.mp isA).1
  rw [getElem?_take] at isB
  split at isB
  · next below =>
    have admissible := pairsChecked verdict v extends_.length accepted a (by omega) b below
    rwa [same a pickA isA, same b pickB isB] at admissible
  · cases isB

/-- Where no completion is found there is none. -/
theorem completion_none (found : forStackEntry s = some search) (verdict : Verdict s check)
    (seed : s.validate s.keepAll) (isAnswered : Answered s answered)
    (failed : search.completion answered = none) (extends_ : Extends s answered v) :
    s.validate v = false := by
  by_contra accepted
  rw [Bool.not_eq_false] at accepted
  have most := isAnswered.length
  rw [completion_eq found most,
    if_pos (decidedAdmissible_of_accepted verdict extends_ most accepted)] at failed
  cases isPicks : s.solveComponents (fixedBy s answered) search.components s.keepAll with
  | none =>
    obtain ⟨component, mem, isNone⟩ := solveComponents_none isPicks
    rw [(of_forStackEntry found).2] at mem
    obtain ⟨positions, isOne, rfl⟩ := mem_map.mp mem
    have refused := solveComponent_none verdict seed isOne ?_ isNone
      extends_.length fun i here => extends_.given (grouped_lt isOne here)
    · rw [refused] at accepted
      cases accepted
    · intro i here pick isGiven
      rcases (choices_fixedBy (grouped_lt isOne here)).mp isGiven with same | ⟨_, isOne⟩
      · exact isAnswered.picks i pick same
      · exact .inl isOne
  | some picks =>
    rw [isPicks, Option.bind_some] at failed
    split at failed
    · cases failed
    · rw [Option.map_eq_none_iff] at failed
      have refused := solveSearch_none (pairsChecked verdict)
        nodup_range (fun i => mem_range.mp) failed
        (fun i mem => extends_.given (mem_range.mp mem))
      have whole : s.restrict (range s.size) v = v := by
        refine ext_getElem? ?_
        intro i
        by_cases low : i < s.size
        · have right := @getD_restrict s (range s.size) v i low
          rw [if_pos (mem_range.mpr low)] at right
          rw [getD_eq_getElem _ _ (by rwa [length_restrict]),
            getD_eq_getElem _ _ (by rwa [extends_.length])] at right
          rw [getElem?_eq_getElem (by rwa [length_restrict]),
            getElem?_eq_getElem (by rwa [extends_.length]), right]
        · rw [getElem?_eq_none (by rw [length_restrict]; omega),
            getElem?_eq_none (by rw [extends_.length]; omega)]
      rw [whole, accepted] at refused
      cases refused

theorem offers_foldl {picks : List RetargetPick} {offered : OfferedPicks} :
    (picks.foldl (search.offer answered) offered).offers pick ↔
      offered.offers pick ∨ pick ∈ picks ∧ search.admits answered pick := by
  induction picks generalizing offered with
  | nil => simp
  | cons first rest ih =>
    rw [foldl_cons, ih, mem_cons]
    unfold offer
    by_cases admitted : search.admits answered first
    · cases first <;> cases pick <;> simp [OfferedPicks.offers] <;> grind
    · rw [if_neg admitted]
      constructor
      · rintro (old | ⟨mem, isOne⟩)
        · exact .inl old
        · exact .inr ⟨.inr mem, isOne⟩
      · rintro (old | ⟨rfl | mem, isOne⟩)
        · exact .inl old
        · exact absurd isOne admitted
        · exact .inr ⟨mem, isOne⟩

/-- What is offered are the candidates with which the walk can be completed. -/
theorem offers_iff (found : forStackEntry s = some search) :
    (search.offered answered).offers pick ↔ answered.length < s.size ∧
      pick ∈ s.candidates answered.length ∧ search.admits answered pick := by
  unfold offered
  rw [(of_forStackEntry found).1]
  split
  · next past =>
    have nothing : (OfferedPicks.mk [] false).offers pick = false := by cases pick <;> rfl
    rw [nothing]
    simp [Nat.not_lt.mpr past]
  · next inside =>
    have nothing : (OfferedPicks.mk [] false).offers pick = false := by cases pick <;> rfl
    rw [offers_foldl, nothing]
    simp [Nat.lt_of_not_le inside]

/-- Answers position by position, each one of those offered. -/
inductive Walk (search : RetargetSearch) : List RetargetPick → Prop where
  | start : Walk search []
  | answer {answered : List RetargetPick} {pick : RetargetPick} (walk : Walk search answered)
      (isOffered : (search.offered answered).offers pick) : Walk search (answered ++ [pick])

theorem Extends.take (extends_ : Extends s answered v) (past : answered.length ≤ i) :
    Extends s (v.take i) v := by
  refine ⟨extends_.length, take_prefix i v, ?_⟩
  intro j low past'
  rw [length_take, extends_.length] at past'
  exact extends_.candidates j low (by omega)

theorem Extends.answered_take (extends_ : Extends s answered v) (isAnswered : Answered s answered)
    (i : Nat) : Answered s (v.take i) := by
  refine ⟨?_, ?_⟩
  · rw [length_take, extends_.length]
    exact Nat.min_le_right ..
  · intro j pick isPick
    have here : v[j]? = some pick := by
      rw [getElem?_take] at isPick
      split at isPick
      · exact isPick
      · cases isPick
    have low : j < s.size := extends_.length ▸ (List.getElem?_eq_some_iff.mp here).1
    by_cases inside : j < answered.length
    · have same := prefix_iff_getElem?.mp extends_.start j inside
      rw [here, ← getElem?_eq_getElem inside] at same
      exact isAnswered.picks j pick same.symm
    · have isCandidate := extends_.candidates j low (by omega)
      rw [getD_eq_getElem?_getD, here] at isCandidate
      exact .inl isCandidate

/-- The next pick of an accepted vector is among those offered. -/
theorem offers_next (found : forStackEntry s = some search) (verdict : Verdict s check)
    (seed : s.validate s.keepAll) (isAnswered : Answered s answered)
    (extends_ : Extends s answered v) (accepted : s.validate v) (low : i < s.size)
    (past : answered.length ≤ i) : (search.offered (v.take i)).offers (v.getD i none) := by
  have length : (v.take i).length = i := by
    rw [length_take, extends_.length]
    omega
  have isPick : v.take i ++ [v.getD i none] = v.take (i + 1) := by
    rw [take_add_one, getD_eq_getElem?_getD, getElem?_eq_getElem (extends_.length ▸ low)]
    rfl
  rw [offers_iff found, length]
  refine ⟨low, extends_.candidates i low past, ?_⟩
  unfold admits
  rw [isPick, Option.isSome_iff_ne_none]
  intro failed
  have refused := completion_none found verdict seed
    (extends_.answered_take isAnswered (i + 1)) failed (extends_.take (by omega))
  rw [refused] at accepted
  cases accepted

theorem extends_keepAll (s : StackEntry) : Extends s [] s.keepAll := by
  refine ⟨s.length_keepAll, nil_prefix, ?_⟩
  intro i _ _
  rw [getD_keepAll]
  exact s.none_mem_candidates i

/-- An answered part of a walk can be completed. -/
theorem Walk.extends (walk : Walk search answered) (found : forStackEntry s = some search)
    (seed : s.validate s.keepAll) :
    Answered s answered ∧ ∃ v, Extends s answered v ∧ s.validate v := by
  induction walk with
  | start => exact ⟨⟨Nat.zero_le _, nofun⟩, s.keepAll, extends_keepAll s, seed⟩
  | @answer answered pick walk isOffered ih =>
    obtain ⟨low, isCandidate, isSome⟩ := (offers_iff found).mp isOffered
    obtain ⟨v, completed⟩ := Option.isSome_iff_exists.mp isSome
    have most : (answered ++ [pick]).length ≤ s.size := by
      rw [length_append, length_singleton]
      omega
    refine ⟨⟨most, ?_⟩, v, completion_some found most completed⟩
    intro i given isGiven
    by_cases inside : i < answered.length
    · rw [getElem?_append_left inside] at isGiven
      exact ih.1.picks i given isGiven
    · rw [getElem?_append_right (by omega), getElem?_singleton] at isGiven
      split at isGiven
      · next last =>
        cases isGiven
        obtain rfl : i = answered.length := by omega
        exact .inl isCandidate
      · cases isGiven

/-- Two creatures that one spell targets, with a third in the pool of both. -/
def twoTargets : StackEntry where
  bindings := [0, 1].map fun slot =>
    { address := ⟨[], slot⟩
      enforcement := .legacy
      current := .object slot
      targetPin := some ⟨slot, 0⟩
      run := some 0
      slotPool := [.object 0, .object 1, .object 2] }
  declared := []
  objects := fun id => if id < 3 then some 0 else none
  validate := fun _ => true
  alive := by
    intro announced isAnnounced _ _ _ _
    rcases mem_map.mp isAnnounced with ⟨slot, isSlot, rfl⟩
    have low : slot < 3 := by
      simp only [mem_cons, not_mem_nil, or_false] at isSlot
      omega
    show (((if slot < 3 then some 0 else none).map fun incarnation =>
      ObjectIncarnationRef.mk slot incarnation).isSome) = true
    rw [if_pos low]
    rfl

end RetargetSearch

end Phase.Retarget
