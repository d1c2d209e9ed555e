import Phase.Retarget.Prompt
import Phase.Lib.UnionFind

/-! The positions of a walk that the validator compares with each other, put together by the runs
and by what the filters read. -/
namespace Phase.Retarget
open UnionFind List

structure Coupling where
  parent : List Nat
  dependent : List Bool
  deriving DecidableEq

inductive ComponentSolver where
  | matching
  | search
  deriving DecidableEq

structure Component where
  positions : List Nat
  solver : ComponentSolver
  deriving DecidableEq

structure Grouping where
  parent : List Nat
  rootIndex : List (Option Nat)
  components : List (List Nat)
  deriving DecidableEq

/-- A position joins the component of its root, or opens it. -/
def Grouping.push (grouping : Grouping) (i : Nat) : Grouping :=
  let (root, parent) := find grouping.parent i
  match grouping.rootIndex.getD root none with
  | some k => { grouping with parent, components := grouping.components.modify k (· ++ [i]) }
  | none =>
    { parent
      rootIndex := grouping.rootIndex.set root (some grouping.components.length)
      components := grouping.components ++ [[i]] }

namespace StackEntry

variable (s : StackEntry)

def deps (position : Nat) : RetargetDeps :=
  (s.bindings[position]?.map (·.deps)).getD .independent

def combined : Bool := s.bindings.any fun binding => binding.deps = .allPositions

def coupleRuns (i : Nat) (parent : List Nat) : List Nat :=
  (range i).foldl (fun parent j =>
    if (s.run i).isSome && s.run i = s.run j then union parent i j else parent) parent

def coupleSlot (i : Nat) (coupling : Coupling) (slot : Nat) : Coupling :=
  match s.positionOfDeclared slot with
  | some j => ⟨union coupling.parent i j, coupling.dependent.set j true⟩
  | none => coupling

def couple (coupling : Coupling) (i : Nat) : Coupling :=
  if s.combined then ⟨union coupling.parent i 0, coupling.dependent.set i true⟩
  else
    let parent := s.coupleRuns i coupling.parent
    match s.deps i with
    | .slots read => read.foldl (s.coupleSlot i) ⟨parent, coupling.dependent.set i true⟩
    | _ => ⟨parent, coupling.dependent⟩

def coupling : Coupling :=
  (range s.size).foldl s.couple ⟨range s.size, replicate s.size false⟩

/-- The components, without their solvers. -/
def grouped : List (List Nat) :=
  ((range s.size).foldl Grouping.push ⟨s.coupling.parent, replicate s.size none, []⟩).components

/-- Matching is for a run of positions that nothing else depends on, and whose announced
identities are all different. -/
def solverOf (positions : List Nat) : ComponentSolver :=
  let pureRun := 1 < positions.length &&
    (positions.all fun i => !s.coupling.dependent.getD i false) &&
    positions.all fun i => (s.run i).isSome && s.run i = s.run (positions.headD 0)
  let announced := positions.map fun i => s.identity i none
  if pureRun && announced.Pairwise fun y x => !x.sameObject y then .matching else .search

end StackEntry

/-- A completion search over one stack entry's addressed positions. -/
structure RetargetSearch where
  entry : StackEntry
  components : List Component

/-- The search for a stack entry, if it has an addressed position. -/
def forStackEntry (s : StackEntry) : Option RetargetSearch :=
  if s.bindings.isEmpty then none
  else some ⟨s, s.grouped.map fun positions => ⟨positions, s.solverOf positions⟩⟩

/-- The legality at a position reads these positions, besides its own. -/
def StackEntry.Reads (s : StackEntry) (i j : Nat) : Prop :=
  match s.deps i with
  | .independent => False
  | .slots read => ∃ slot ∈ read, s.positionOfDeclared slot = some j
  | .allPositions => True

/-- The positions that the validator compares with position `i`. -/
structure Coupled (s : StackEntry) (i : Nat) (parent : List Nat) : Prop where
  runs : ∀ j < i, (s.run i).isSome → s.run i = s.run j → root parent i = root parent j
  reads : ∀ j < s.size, s.Reads i j → root parent i = root parent j

namespace StackEntry

variable {s : StackEntry} {i : Nat} {parent : List Nat}

theorem combined_of_deps (all : s.deps i = .allPositions) : s.combined := by
  unfold deps at all
  cases isBinding : s.bindings[i]? with
  | none =>
    rw [isBinding] at all
    cases all
  | some binding =>
    rw [isBinding] at all
    exact any_eq_true.mpr ⟨binding, mem_of_getElem? isBinding, decide_eq_true all⟩

theorem positionOfDeclared_lt {slot j : Nat} (found : s.positionOfDeclared slot = some j) :
    j < s.size := by
  obtain ⟨address, _, found⟩ := Option.bind_eq_some_iff.mp found
  obtain ⟨_, _, found⟩ := Option.bind_eq_some_iff.mp found
  exact (findIdx?_eq_some_iff_findIdx_eq.mp found).1

theorem coupleRuns_spec (low : i < s.size) (valid : Valid s.size parent) :
    (Valid s.size (s.coupleRuns i parent) ∧ Coarser parent (s.coupleRuns i parent)) ∧
      ∀ j ∈ range i, (s.run i).isSome → s.run i = s.run j →
        root (s.coupleRuns i parent) i = root (s.coupleRuns i parent) j := by
  apply foldl_gathers (fun p => Valid s.size p ∧ Coarser parent p)
    (fun j p => (s.run i).isSome → s.run i = s.run j → root p i = root p j)
  · rintro p j mem ⟨valid, coarser⟩
    have low' := (mem_range.mp mem).trans low
    split
    · exact ⟨union_valid valid low low', coarser.trans (union_coarser valid low low')⟩
    · exact ⟨valid, coarser⟩
  · rintro p j mem ⟨valid, _⟩ isSome same
    rw [if_pos (by rw [isSome, decide_eq_true same]; rfl)]
    exact union_joins valid low ((mem_range.mp mem).trans low)
  · rintro p j mem k ⟨valid, _⟩ joined isSome same
    split
    · exact union_coarser valid low ((mem_range.mp mem).trans low) _ _ (joined isSome same)
    · exact joined isSome same
  · exact ⟨valid, Coarser.refl parent⟩

variable {coupling : Coupling}

theorem coupleSlot_spec (slot : Nat) (low : i < s.size) (valid : Valid s.size coupling.parent) :
    Valid s.size (s.coupleSlot i coupling slot).parent ∧
      Coarser coupling.parent (s.coupleSlot i coupling slot).parent ∧
      ∀ j, s.positionOfDeclared slot = some j →
        root (s.coupleSlot i coupling slot).parent i = root (s.coupleSlot i coupling slot).parent j := by
  unfold coupleSlot
  cases found : s.positionOfDeclared slot with
  | none => exact ⟨valid, Coarser.refl _, nofun⟩
  | some j =>
    have low' := positionOfDeclared_lt found
    refine ⟨union_valid valid low low', union_coarser valid low low', ?_⟩
    rintro _ ⟨⟩
    exact union_joins valid low low'

theorem coupleSlots_spec (coupling : Coupling) (read : List Nat) (low : i < s.size)
    (valid : Valid s.size coupling.parent) :
    (Valid s.size (read.foldl (s.coupleSlot i) coupling).parent ∧
      Coarser coupling.parent (read.foldl (s.coupleSlot i) coupling).parent) ∧
      ∀ slot ∈ read, ∀ j, s.positionOfDeclared slot = some j →
        root (read.foldl (s.coupleSlot i) coupling).parent i =
          root (read.foldl (s.coupleSlot i) coupling).parent j := by
  apply foldl_gathers (fun c : Coupling => Valid s.size c.parent ∧ Coarser coupling.parent c.parent)
    (fun slot c => ∀ j, s.positionOfDeclared slot = some j → root c.parent i = root c.parent j)
  · rintro c slot _ ⟨valid, coarser⟩
    obtain ⟨valid', coarser', _⟩ := coupleSlot_spec slot low valid
    exact ⟨valid', coarser.trans coarser'⟩
  · rintro c slot _ ⟨valid, _⟩
    exact (coupleSlot_spec slot low valid).2.2
  · rintro c slot _ other ⟨valid, _⟩ joined j found
    exact (coupleSlot_spec slot low valid).2.1 _ _ (joined j found)
  · exact ⟨valid, Coarser.refl _⟩

theorem couple_spec (low : i < s.size) (valid : Valid s.size coupling.parent)
    (apart : ¬ s.combined) :
    (Valid s.size (s.couple coupling i).parent ∧
      Coarser coupling.parent (s.couple coupling i).parent) ∧
      Coupled s i (s.couple coupling i).parent := by
  obtain ⟨⟨valid', coarser⟩, runs⟩ := coupleRuns_spec low valid
  unfold couple
  rw [if_neg apart]
  cases isDeps : s.deps i with
  | independent =>
    refine ⟨⟨valid', coarser⟩, fun j below => runs j (mem_range.mpr below), ?_⟩
    intro j _ reads
    unfold Reads at reads
    rw [isDeps] at reads
    exact reads.elim
  | slots read =>
    obtain ⟨⟨valid'', coarser'⟩, joined⟩ :=
      coupleSlots_spec ⟨s.coupleRuns i coupling.parent, coupling.dependent.set i true⟩ read low
        valid'
    refine ⟨⟨valid'', coarser.trans coarser'⟩, ?_, ?_⟩
    · intro j below isSome same
      exact coarser' _ _ (runs j (mem_range.mpr below) isSome same)
    · intro j _ reads
      unfold Reads at reads
      rw [isDeps] at reads
      obtain ⟨slot, mem, found⟩ := reads
      exact joined slot mem j found
  | allPositions => exact absurd (combined_of_deps isDeps) apart

theorem couple_combined (low : i < s.size) (valid : Valid s.size coupling.parent)
    (combined : s.combined) :
    Valid s.size (s.couple coupling i).parent ∧
      Coarser coupling.parent (s.couple coupling i).parent ∧
      root (s.couple coupling i).parent i = root (s.couple coupling i).parent 0 := by
  have first : 0 < s.size := Nat.zero_lt_of_lt low
  unfold couple
  rw [if_pos combined]
  exact ⟨union_valid valid low first, union_coarser valid low first, union_joins valid low first⟩

theorem coupled_coarser {parent' : List Nat} (coupled : Coupled s i parent)
    (coarser : Coarser parent parent') : Coupled s i parent' := by
  obtain ⟨runs, reads⟩ := coupled
  refine ⟨?_, ?_⟩
  · intro j below isSome same
    exact coarser _ _ (runs j below isSome same)
  · intro j low read
    exact coarser _ _ (reads j low read)

/-- Whatever the validator compares with a position is in its class. -/
theorem coupling_spec (s : StackEntry) : Valid s.size s.coupling.parent ∧
    ∀ i < s.size, Coupled s i s.coupling.parent := by
  by_cases combined : s.combined
  · obtain ⟨valid, joined⟩ := @foldl_gathers Coupling Nat (fun c => Valid s.size c.parent)
      (fun i c => root c.parent i = root c.parent 0) s.couple (range s.size)
      ⟨range s.size, replicate s.size false⟩
      (fun c i mem valid => (couple_combined (mem_range.mp mem) valid combined).1)
      (fun c i mem valid => (couple_combined (mem_range.mp mem) valid combined).2.2)
      (fun c i mem j valid joined =>
        (couple_combined (mem_range.mp mem) valid combined).2.1 _ _ joined)
      (valid_range s.size)
    refine ⟨valid, ?_⟩
    intro i low
    have here := joined i (mem_range.mpr low)
    refine ⟨?_, ?_⟩
    · intro j below _ _
      exact here.trans (joined j (mem_range.mpr (below.trans low))).symm
    · intro j low' _
      exact here.trans (joined j (mem_range.mpr low')).symm
  · obtain ⟨valid, coupled⟩ := @foldl_gathers Coupling Nat (fun c => Valid s.size c.parent)
      (fun i c => Coupled s i c.parent) s.couple (range s.size)
      ⟨range s.size, replicate s.size false⟩
      (fun c i mem valid => (couple_spec (mem_range.mp mem) valid combined).1.1)
      (fun c i mem valid => (couple_spec (mem_range.mp mem) valid combined).2)
      (fun c i mem j valid coupled =>
        coupled_coarser coupled (couple_spec (mem_range.mp mem) valid combined).1.2)
      (valid_range s.size)
    exact ⟨valid, fun i low => coupled i (mem_range.mpr low)⟩

end StackEntry

/-- The positions below `m` of one class. -/
def classOf (parent : List Nat) (m r : Nat) : List Nat :=
  (range m).filter fun i => root parent i = r

theorem mem_classOf {parent : List Nat} {m r i : Nat} :
    i ∈ classOf parent m r ↔ i < m ∧ root parent i = r := by
  unfold classOf
  simp

theorem classOf_succ (parent : List Nat) (m r : Nat) :
    classOf parent (m + 1) r =
      classOf parent m r ++ if root parent m = r then [m] else [] := by
  unfold classOf
  rw [range_succ]
  by_cases here : root parent m = r <;> simp [here]

/-- The positions below `m` stand in the components of their classes. -/
structure Grouped (parent : List Nat) (n m : Nat) (grouping : Grouping) : Prop where
  valid : Valid n grouping.parent
  roots : ∀ y, root grouping.parent y = root parent y
  size : grouping.rootIndex.length = n
  indexed : ∀ i < m, ∃ k : Nat, grouping.rootIndex[root parent i]? = some (some k)
  classes : ∀ r k : Nat, grouping.rootIndex[r]? = some (some k) →
    grouping.components[k]? = some (classOf parent m r) ∧ ∃ i < m, root parent i = r
  known : ∀ k < grouping.components.length, ∃ r : Nat, grouping.rootIndex[r]? = some (some k)

section
variable {parent : List Nat} {n m : Nat} {grouping : Grouping}

/-- A component is that of one class only. -/
theorem Grouped.root_unique (grouped : Grouped parent n m grouping) {r r' k : Nat}
    (here : grouping.rootIndex[r]? = some (some k))
    (there : grouping.rootIndex[r']? = some (some k)) : r = r' := by
  obtain ⟨isClass, i, low, isRoot⟩ := grouped.classes r k here
  have same := (grouped.classes r' k there).1
  rw [isClass] at same
  have mem : i ∈ classOf parent m r' := by
    rw [← Option.some.inj same]
    exact mem_classOf.mpr ⟨low, isRoot⟩
  rw [← isRoot, (mem_classOf.mp mem).2]

theorem Grouped.join (grouped : Grouped parent n m grouping) {parent' : List Nat} {k : Nat}
    (valid : Valid n parent') (roots : ∀ y, root parent' y = root parent y)
    (here : grouping.rootIndex[root parent m]? = some (some k)) :
    Grouped parent n (m + 1)
      { grouping with parent := parent', components := grouping.components.modify k (· ++ [m]) } := by
  refine ⟨valid, roots, grouped.size, ?_, ?_, ?_⟩
  · intro i below
    rcases Nat.lt_succ_iff_lt_or_eq.mp below with earlier | rfl
    · exact grouped.indexed i earlier
    · exact ⟨k, here⟩
  · intro r k' there
    obtain ⟨isClass, i, below, root_i⟩ := grouped.classes r k' there
    refine ⟨?_, i, by omega, root_i⟩
    rw [getElem?_modify, isClass, classOf_succ, Option.map_eq_map, Option.map_some]
    by_cases same : k = k'
    · rw [if_pos same, if_pos (grouped.root_unique here (same ▸ there))]
    · have apart : root parent m ≠ r := by
        rintro rfl
        rw [here] at there
        cases there
        exact same rfl
      rw [if_neg same, if_neg apart, append_nil]
  · intro k' low'
    rw [length_modify] at low'
    exact grouped.known k' low'

theorem Grouped.opens (grouped : Grouped parent n m grouping) {parent' : List Nat}
    (valid : Valid n parent') (roots : ∀ y, root parent' y = root parent y)
    (here : grouping.rootIndex[root parent m]? = some none) :
    Grouped parent n (m + 1)
      { parent := parent'
        rootIndex := grouping.rootIndex.set (root parent m) (some grouping.components.length)
        components := grouping.components ++ [[m]] } := by
  have inside := (List.getElem?_eq_some_iff.mp here).1
  have first : classOf parent m (root parent m) = [] := by
    refine eq_nil_iff_forall_not_mem.mpr ?_
    intro i mem
    obtain ⟨below, same⟩ := mem_classOf.mp mem
    obtain ⟨k, isIndex⟩ := grouped.indexed i below
    rw [same, here] at isIndex
    cases isIndex
  refine ⟨valid, roots, (length_set ..).trans grouped.size, ?_, ?_, ?_⟩
  · intro i below
    rw [getElem?_set]
    by_cases same : root parent m = root parent i
    · rw [if_pos same, if_pos inside]
      exact ⟨_, rfl⟩
    · rw [if_neg same]
      rcases Nat.lt_succ_iff_lt_or_eq.mp below with earlier | rfl
      · exact grouped.indexed i earlier
      · exact absurd rfl same
  · intro r k there
    rw [getElem?_set] at there
    by_cases same : root parent m = r
    · rw [if_pos same, if_pos inside] at there
      cases there
      refine ⟨?_, m, m.lt_succ_self, same⟩
      rw [getElem?_concat_length, classOf_succ, if_pos same, ← same, first]
      rfl
    · rw [if_neg same] at there
      obtain ⟨isClass, i, below, root_i⟩ := grouped.classes r k there
      refine ⟨?_, i, by omega, root_i⟩
      rw [List.getElem?_append_left (List.getElem?_eq_some_iff.mp isClass).1, isClass,
        classOf_succ, if_neg same, append_nil]
  · intro k low
    rw [length_append, length_singleton] at low
    by_cases last : k = grouping.components.length
    · refine ⟨root parent m, ?_⟩
      rw [getElem?_set_self inside, last]
    · obtain ⟨r, isIndex⟩ := grouped.known k (by omega)
      refine ⟨r, ?_⟩
      have apart : root parent m ≠ r := by
        rintro rfl
        rw [here] at isIndex
        cases isIndex
      rw [getElem?_set_ne apart, isIndex]

theorem Grouped.push (valid : Valid n parent) (grouped : Grouped parent n m grouping)
    (low : m < n) : Grouped parent n (m + 1) (grouping.push m) := by
  obtain ⟨valid', roots'⟩ := find_spec grouped.valid low
  have roots : ∀ y, root (find grouping.parent m).2 y = root parent y := by
    intro y
    rw [roots', grouped.roots]
  have isRoot : (find grouping.parent m).1 = root parent m := grouped.roots m
  have inside : root parent m < grouping.rootIndex.length := by
    rw [grouped.size]
    exact root_lt valid low
  unfold Grouping.push
  dsimp only
  rw [isRoot, getD_eq_getElem _ _ inside]
  cases isIndex : grouping.rootIndex[root parent m] with
  | some k => exact grouped.join valid' roots (by rw [getElem?_eq_getElem inside, isIndex])
  | none => exact grouped.opens valid' roots (by rw [getElem?_eq_getElem inside, isIndex])

theorem Grouped.range (valid : Valid n parent) (most : m ≤ n) :
    Grouped parent n m ((range m).foldl Grouping.push ⟨parent, replicate n none, []⟩) := by
  induction m with
  | zero =>
    refine ⟨valid, fun _ => rfl, length_replicate, nofun, ?_, nofun⟩
    intro r k isIndex
    have isIndex : (replicate n none)[r]? = some (some k) := isIndex
    rw [getElem?_replicate] at isIndex
    split at isIndex <;> cases isIndex
  | succ m ih =>
    rw [range_succ, foldl_append]
    exact (ih (by omega)).push valid (by omega)

end

namespace StackEntry

variable {s : StackEntry} {i j : Nat} {positions : List Nat}

/-- The class that a component consists of. -/
theorem grouped_class (mem : positions ∈ s.grouped) :
    ∃ r, positions = classOf s.coupling.parent s.size r := by
  have all := Grouped.range s.coupling_spec.1 (Nat.le_refl _)
  obtain ⟨k, isPositions⟩ := mem_iff_getElem?.mp mem
  obtain ⟨r, isIndex⟩ := all.known k (List.getElem?_eq_some_iff.mp isPositions).1
  refine ⟨r, ?_⟩
  rw [StackEntry.grouped, (all.classes r k isIndex).1] at isPositions
  exact (Option.some.inj isPositions).symm

theorem grouped_covers (low : i < s.size) : ∃ positions ∈ s.grouped, i ∈ positions := by
  have all := Grouped.range s.coupling_spec.1 (Nat.le_refl _)
  obtain ⟨k, isIndex⟩ := all.indexed i low
  exact ⟨_, mem_of_getElem? (all.classes _ k isIndex).1, mem_classOf.mpr ⟨low, rfl⟩⟩

theorem grouped_lt (mem : positions ∈ s.grouped) (here : i ∈ positions) : i < s.size := by
  obtain ⟨r, rfl⟩ := grouped_class mem
  exact (mem_classOf.mp here).1

theorem grouped_nodup (mem : positions ∈ s.grouped) : positions.Nodup := by
  obtain ⟨r, rfl⟩ := grouped_class mem
  exact Nodup.filter _ nodup_range

section
variable (mem : positions ∈ s.grouped) (low : i < s.size) (low' : j < s.size)
include mem low low'

theorem grouped_closed (same : root s.coupling.parent i = root s.coupling.parent j) :
    i ∈ positions ↔ j ∈ positions := by
  obtain ⟨r, rfl⟩ := grouped_class mem
  rw [mem_classOf, mem_classOf, same]
  simp [low, low']

/-- The positions of one run are in one component. -/
theorem grouped_run (isSome : (s.run i).isSome) (same : s.run i = s.run j) :
    i ∈ positions ↔ j ∈ positions := by
  apply grouped_closed mem low low'
  rcases Nat.lt_trichotomy i j with below | rfl | above
  · exact ((s.coupling_spec.2 j low').runs i below (same ▸ isSome) same.symm).symm
  · rfl
  · exact (s.coupling_spec.2 i low).runs j above isSome same

/-- So are a position and those that its legality reads. -/
theorem grouped_reads (reads : s.Reads i j) : i ∈ positions ↔ j ∈ positions :=
  grouped_closed mem low low' ((s.coupling_spec.2 i low).reads j low' reads)

end

end StackEntry

end Phase.Retarget
