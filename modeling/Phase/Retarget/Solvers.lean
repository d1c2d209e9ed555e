import Mathlib.Data.List.Sort
import Phase.Lib.AlongEdges
import Phase.Lib.Searching
import Phase.Retarget.Components

/-! The completion search: a component at a time, by matching or depth first, against the
validator of the stack entry; what its solvers return, and what it means that they do not. -/
namespace Phase.Retarget

abbrev Assignment := List (Nat × RetargetPick)

/-- Writes the picks of an assignment to their positions. -/
def place (picks : List RetargetPick) (assignment : Assignment) : List RetargetPick :=
  assignment.foldl (fun picks entry => picks.set entry.1 entry.2) picks

def sortByPosition (assignment : Assignment) : Assignment :=
  assignment.insertionSort fun a b => a.1 ≤ b.1

/-- The identities of the options, each but for those of the same object before it. -/
def keysOf (options : List (RetargetPick × OccurrenceIdentity)) : List OccurrenceIdentity :=
  options.foldl (fun keys option =>
    if keys.any fun key => key.sameObject option.2 then keys else keys ++ [option.2]) []

def keyOf (keys : List OccurrenceIdentity) (identity : OccurrenceIdentity) : Nat :=
  keys.findIdx fun key => key.sameObject identity

namespace StackEntry

variable (s : StackEntry)

def keepAll : List RetargetPick := List.replicate s.size none

/-- Validates an assignment with every other position kept. -/
def locallyAccepted (assignment : Assignment) : Bool := s.validate (place s.keepAll assignment)

def fixedAt (fixed : List (Option RetargetPick)) (position : Nat) : Option RetargetPick :=
  fixed[position]?.join

/-- What a position may still be given: its fixed pick, or else its candidates. -/
def choices (fixed : List (Option RetargetPick)) (position : Nat) : List RetargetPick :=
  match fixedAt fixed position with
  | some pick => [pick]
  | none => s.candidates position

def options (positions : List Nat) (fixed : List (Option RetargetPick)) :
    List (List (RetargetPick × OccurrenceIdentity)) :=
  positions.map fun position =>
    (s.choices fixed position).map fun pick => (pick, s.identity position pick)

/-- Which keys a position can have, each with the option that gives it. -/
def edges (options : List (List (RetargetPick × OccurrenceIdentity))) : List (List (Nat × Nat)) :=
  options.map fun option =>
    option.zipIdx.map fun choice => (keyOf (keysOf options.flatten) choice.1.2, choice.2)

/-- The pick that the holder of a key holds it by. -/
def chosen (positions : List Nat) (options : List (List (RetargetPick × OccurrenceIdentity)))
    (held : Option (Nat × Nat)) : Option (Nat × RetargetPick) := do
  let (left, choice) ← held
  let position ← positions[left]?
  let option ← options[left]?
  let (pick, _) ← option[choice]?
  return (position, pick)

/-- A matching of positions to identities along augmenting paths. -/
def solveMatching (positions : List Nat) (fixed : List (Option RetargetPick)) : Option Assignment :=
  let options := s.options positions fixed
  let owner := Augmenting.matchEdges (fun left => (edges options).getD left [])
    (List.range positions.length) (List.replicate (keysOf options.flatten).length none)
  owner.map fun owner => sortByPosition (owner.filterMap (chosen positions options))

/-- Depth-first search over the open positions; the assignment as it stands when it is
accepted. -/
def search : List Nat → Assignment → Option Assignment :=
  Backtracking.extend s.candidates
    (fun assignment position pick =>
      assignment.all fun other => s.pairAdmissible position pick other.1 other.2)
    s.locallyAccepted

def solveSearch (positions : List Nat) (fixed : List (Option RetargetPick)) : Option Assignment :=
  let assignment := positions.filterMap fun position =>
    (fixedAt fixed position).map fun pick => (position, pick)
  let undecided := positions.filter fun position => (fixedAt fixed position).isNone
  (s.search undecided assignment).map sortByPosition

/-- A matching that the validator refuses falls back to search; a failed one is conclusive. -/
def solveComponent (component : Component) (fixed : List (Option RetargetPick)) :
    Option Assignment :=
  match component.solver with
  | .matching => do
      let assignment ← s.solveMatching component.positions fixed
      if s.locallyAccepted assignment then return assignment
      s.solveSearch component.positions fixed
  | .search => s.solveSearch component.positions fixed

def solveComponents (fixed : List (Option RetargetPick)) :
    List Component → List RetargetPick → Option (List RetargetPick)
  | [], picks => some picks
  | component :: rest, picks => do
      let assignment ← s.solveComponent component fixed
      solveComponents fixed rest (place picks assignment)

/-- Whether no two of the decided picks name one object twice within a run. -/
def decidedAdmissible (decided : List RetargetPick) : Bool :=
  decided.zipIdx.all fun (pickA, a) =>
    (decided.take a).zipIdx.all fun (pickB, b) => s.pairAdmissible a pickA b pickB

end StackEntry

structure OfferedPicks where
  alternatives : List TargetRef
  canKeep : Bool
  deriving DecidableEq

def OfferedPicks.offers (offered : OfferedPicks) : RetargetPick → Bool
  | none => offered.canKeep
  | some target => target ∈ offered.alternatives

namespace RetargetSearch

variable (search : RetargetSearch)

/-- A complete pick vector that extends `answered` and that the validator accepts. -/
def completion (answered : List RetargetPick) : Option (List RetargetPick) :=
  let s := search.entry
  let decided := answered.take s.size
  if s.decidedAdmissible decided then
    let fixed := (List.range s.size).map fun position => decided[position]?
    (s.solveComponents fixed search.components s.keepAll).bind fun picks =>
      if s.validate picks then some picks
      else (s.solveSearch (List.range s.size) fixed).map (place s.keepAll)
  else none

/-- Whether the walk can still be completed with this pick. -/
def admits (answered : List RetargetPick) (pick : RetargetPick) : Bool :=
  (search.completion (answered ++ [pick])).isSome

def offer (answered : List RetargetPick) (offered : OfferedPicks) (pick : RetargetPick) :
    OfferedPicks :=
  if search.admits answered pick then
    match pick with
    | none => { offered with canKeep := true }
    | some target => { offered with alternatives := offered.alternatives ++ [target] }
  else offered

def offered (answered : List RetargetPick) : OfferedPicks :=
  if search.entry.size ≤ answered.length then ⟨[], false⟩
  else (search.entry.candidates answered.length).foldl (search.offer answered) ⟨[], false⟩

end RetargetSearch

open Augmenting List

section

variable {picks : List RetargetPick} {assignment : Assignment} {i : Nat}

@[simp] theorem length_place (picks : List RetargetPick) (assignment : Assignment) :
    (place picks assignment).length = picks.length := by
  unfold place
  induction assignment generalizing picks with
  | nil => rfl
  | cons entry rest ih => rw [foldl_cons, ih, length_set]

/-- A position is given by an entry for it, or is as it was. -/
theorem place_cases (assignment : Assignment) (low : i < picks.length) :
    (∃ pick, (i, pick) ∈ assignment ∧ (place picks assignment)[i]? = some pick) ∨
      (∀ entry ∈ assignment, entry.1 ≠ i) ∧ (place picks assignment)[i]? = picks[i]? := by
  induction assignment using reverseRecOn with
  | nil => exact .inr ⟨nofun, rfl⟩
  | append_singleton before last ih =>
    obtain ⟨j, pick⟩ := last
    have step : place picks (before ++ [(j, pick)]) = (place picks before).set j pick := by
      unfold place
      rw [foldl_append]
      rfl
    rw [step]
    by_cases same : j = i
    · subst same
      refine .inl ⟨pick, by simp, ?_⟩
      rw [getElem?_set_self (by rwa [length_place])]
    · rw [getElem?_set_ne same]
      rcases ih with ⟨given, mem, here⟩ | ⟨absent, here⟩
      · exact .inl ⟨given, mem_append_left _ mem, here⟩
      · refine .inr ⟨?_, here⟩
        intro entry mem
        rcases mem_append.mp mem with old | new
        · exact absent entry old
        · rw [mem_singleton.mp new]
          exact same

/-- With one entry a position the order does not matter. -/
theorem place_of_mem (once : (assignment.map Prod.fst).Nodup) (low : i < picks.length)
    {pick : RetargetPick} (mem : (i, pick) ∈ assignment) :
    (place picks assignment)[i]? = some pick := by
  rcases place_cases assignment low with ⟨given, isGiven, here⟩ | ⟨absent, _⟩
  · cases inj_on_of_nodup_map once isGiven mem rfl
    exact here
  · exact absurd rfl (absent _ mem)

theorem place_perm {assignment' : Assignment} (perm : assignment'.Perm assignment)
    (once : (assignment.map Prod.fst).Nodup) :
    place picks assignment' = place picks assignment := by
  refine ext_getElem? ?_
  intro i
  by_cases low : i < picks.length
  · rcases place_cases assignment' low with ⟨pick, mem, here⟩ | ⟨absent, here⟩
    · rw [here, place_of_mem once low (perm.mem_iff.mp mem)]
    · rcases place_cases assignment low with ⟨pick, mem, _⟩ | ⟨_, there⟩
      · exact absurd rfl (absent _ (perm.mem_iff.mpr mem))
      · rw [here, there]
  · rw [getElem?_eq_none (by rw [length_place]; omega),
      getElem?_eq_none (by rw [length_place]; omega)]

theorem sortByPosition_perm (assignment : Assignment) :
    (sortByPosition assignment).Perm assignment :=
  perm_insertionSort ..

end

namespace StackEntry

variable {s : StackEntry} {positions : List Nat} {fixed : List (Option RetargetPick)}
  {assignment : Assignment} {v : List RetargetPick}

@[simp] theorem length_keepAll (s : StackEntry) : s.keepAll.length = s.size :=
  length_replicate

/-- The vector with the picks of `v` at these positions, and every other one kept. -/
def restrict (s : StackEntry) (positions : List Nat) (v : List RetargetPick) : List RetargetPick :=
  (range s.size).map fun i => if i ∈ positions then v.getD i none else none

/-- The picks that `v` has at these positions. -/
def picksOf (v : List RetargetPick) (positions : List Nat) : Assignment :=
  positions.map fun i => (i, v.getD i none)

theorem place_picksOf (once : positions.Nodup) (perm : assignment.Perm (picksOf v positions)) :
    place s.keepAll assignment = s.restrict positions v := by
  have keys : (picksOf v positions).map Prod.fst = positions := by
    unfold picksOf
    rw [map_map]
    exact map_id _
  have once' : ((picksOf v positions).map Prod.fst).Nodup := by rwa [keys]
  have size := s.length_keepAll
  rw [place_perm perm once']
  refine ext_getElem? ?_
  intro i
  by_cases low : i < s.size
  · have right : (s.restrict positions v)[i]? =
        some (if i ∈ positions then v.getD i none else none) := by
      unfold restrict
      rw [getElem?_map, getElem?_range low]
      rfl
    rw [right]
    by_cases mem : i ∈ positions
    · rw [if_pos mem]
      exact place_of_mem once' (size ▸ low) (mem_map_of_mem mem)
    · rw [if_neg mem]
      have low' : i < s.keepAll.length := size ▸ low
      rcases place_cases (picksOf v positions) low' with ⟨pick, isOne, _⟩ | ⟨_, here⟩
      · have : i ∈ (picksOf v positions).map Prod.fst := mem_map_of_mem isOne
        exact absurd (keys ▸ this) mem
      · rw [here]
        unfold keepAll
        rw [getElem?_replicate, if_pos low]
  · unfold restrict
    rw [getElem?_eq_none (by rw [length_place]; omega), getElem?_eq_none (by simpa using low)]

/-- Each position is given something that it may still be given. -/
structure Fills (s : StackEntry) (positions : List Nat) (fixed : List (Option RetargetPick))
    (assignment : Assignment) : Prop where
  covers : ∀ i ∈ positions, ∃ pick, (i, pick) ∈ assignment
  chosen : ∀ entry ∈ assignment, entry.2 ∈ s.choices fixed entry.1

/-- What the validator accepts has admissible pairs only. -/
def PairsChecked (s : StackEntry) : Prop :=
  ∀ picks, picks.length = s.size → s.validate picks → ∀ a < s.size, ∀ b < a,
    s.pairAdmissible a (picks.getD a none) b (picks.getD b none)

theorem PairsChecked.apart (checked : s.PairsChecked) {picks : List RetargetPick}
    (size : picks.length = s.size) (accepted : s.validate picks) {a b : Nat} (low : a < s.size)
    (low' : b < s.size) (apart : a ≠ b) :
    s.pairAdmissible a (picks.getD a none) b (picks.getD b none) := by
  rcases Nat.lt_or_gt_of_ne apart with below | above
  · rw [pairAdmissible_comm]
    exact checked picks size accepted b low' a below
  · exact checked picks size accepted a low b above

/-- An assignment with one entry a position, each a position of the walk. -/
def Written (s : StackEntry) (assignment : Assignment) : Prop :=
  (assignment.map Prod.fst).Nodup ∧ ∀ entry ∈ assignment, entry.1 < s.size

variable {entry : Nat × RetargetPick} {i : Nat}

theorem Written.getD (written : s.Written assignment) (mem : entry ∈ assignment) :
    (place s.keepAll assignment).getD entry.1 none = entry.2 := by
  have size := s.length_keepAll
  rw [getD_eq_getElem?_getD, place_of_mem written.1 (size ▸ written.2 entry mem) mem]
  rfl

theorem PairsChecked.prunes (checked : s.PairsChecked) {before after : Assignment}
    {pick : RetargetPick} (written : s.Written (before ++ (i, pick) :: after))
    (accepted : s.locallyAccepted (before ++ (i, pick) :: after)) :
    before.all fun other => s.pairAdmissible i pick other.1 other.2 := by
  refine all_eq_true.mpr ?_
  intro other mem
  have isOther : other ∈ before ++ (i, pick) :: after := mem_append_left _ mem
  have isHere : (i, pick) ∈ before ++ (i, pick) :: after :=
    mem_append_right _ mem_cons_self
  have apart : i ≠ other.1 := by
    intro same
    have once := written.1
    rw [map_append, nodup_append] at once
    exact once.2.2 other.1 (mem_map_of_mem mem) i mem_cons_self same.symm
  have admissible := checked.apart ((length_place ..).trans s.length_keepAll) accepted
    (written.2 _ isHere) (written.2 _ isOther) apart
  rwa [written.getD isHere, written.getD isOther] at admissible

/-- The picks fixed at these positions. -/
def fixedPart (positions : List Nat) (fixed : List (Option RetargetPick)) : Assignment :=
  positions.filterMap fun position => (fixedAt fixed position).map fun pick => (position, pick)

def undecided (positions : List Nat) (fixed : List (Option RetargetPick)) : List Nat :=
  positions.filter fun position => (fixedAt fixed position).isNone

theorem mem_fixedPart :
    entry ∈ fixedPart positions fixed ↔
      entry.1 ∈ positions ∧ fixedAt fixed entry.1 = some entry.2 := by
  unfold fixedPart
  rw [mem_filterMap]
  constructor
  · rintro ⟨position, mem, isEntry⟩
    obtain ⟨pick, isFixed, rfl⟩ := Option.map_eq_some_iff.mp isEntry
    exact ⟨mem, isFixed⟩
  · rintro ⟨mem, isFixed⟩
    exact ⟨entry.1, mem, by rw [isFixed]; rfl⟩

theorem mem_undecided : i ∈ undecided positions fixed ↔ i ∈ positions ∧ fixedAt fixed i = none := by
  unfold undecided
  rw [mem_filter, Option.isNone_iff_eq_none]

theorem choices_of_fixed {pick : RetargetPick} (isFixed : fixedAt fixed i = some pick) :
    s.choices fixed i = [pick] := by
  unfold choices
  rw [isFixed]

theorem choices_of_open (isOpen : fixedAt fixed i = none) : s.choices fixed i = s.candidates i := by
  unfold choices
  rw [isOpen]

theorem filling_mem {places : List Nat} {more : Assignment}
    (filling : Backtracking.Filling s.candidates places more) :
    more.map Prod.fst = places ∧ ∀ entry ∈ more, entry.2 ∈ s.candidates entry.1 := by
  induction filling with
  | nil => exact ⟨rfl, nofun⟩
  | @cons i entry places more first filling ih =>
    obtain ⟨rfl, isCandidate⟩ := first
    refine ⟨by rw [map_cons, ih.1], ?_⟩
    rintro other (_ | ⟨_, mem⟩)
    · exact isCandidate
    · exact ih.2 other mem

theorem solveSearch_eq (s : StackEntry) (positions : List Nat)
    (fixed : List (Option RetargetPick)) : s.solveSearch positions fixed =
      (s.search (undecided positions fixed) (fixedPart positions fixed)).map sortByPosition := rfl

theorem fixedPart_keys (positions : List Nat) (fixed : List (Option RetargetPick)) :
    (fixedPart positions fixed).map Prod.fst =
      positions.filter fun position => !(fixedAt fixed position).isNone := by
  unfold fixedPart
  induction positions with
  | nil => rfl
  | cons position positions ih =>
    rw [filterMap_cons, filter_cons]
    cases fixedAt fixed position with
    | none => exact ih
    | some pick => exact congrArg (position :: ·) ih

theorem solveSearch_some (found : s.solveSearch positions fixed = some assignment) :
    s.Fills positions fixed assignment ∧
      (positions.Nodup → s.validate (place s.keepAll assignment)) := by
  rw [solveSearch_eq] at found
  obtain ⟨result, isResult, rfl⟩ := Option.map_eq_some_iff.mp found
  obtain ⟨more, filling, rfl, accepted⟩ := Backtracking.extend_some isResult
  obtain ⟨keys, chosen⟩ := filling_mem filling
  have sorted := sortByPosition_perm (fixedPart positions fixed ++ more)
  refine ⟨⟨?_, ?_⟩, ?_⟩
  · intro i mem
    cases isFixed : fixedAt fixed i with
    | some pick =>
      exact ⟨pick, sorted.mem_iff.mpr (mem_append_left _ (mem_fixedPart.mpr ⟨mem, isFixed⟩))⟩
    | none =>
      have isOpen : i ∈ more.map Prod.fst := by
        rw [keys]
        exact mem_undecided.mpr ⟨mem, isFixed⟩
      obtain ⟨entry, isEntry, rfl⟩ := mem_map.mp isOpen
      exact ⟨entry.2, sorted.mem_iff.mpr (mem_append_right _ isEntry)⟩
  · intro entry mem
    rcases mem_append.mp (sorted.mem_iff.mp mem) with isFixed | isOpen
    · rw [choices_of_fixed (mem_fixedPart.mp isFixed).2]
      exact mem_singleton_self _
    · have here : entry.1 ∈ undecided positions fixed := keys ▸ mem_map_of_mem isOpen
      rw [choices_of_open (mem_undecided.mp here).2]
      exact chosen entry isOpen
  · intro once
    have once' : ((fixedPart positions fixed ++ more).map Prod.fst).Nodup := by
      rw [map_append, keys, fixedPart_keys]
      refine (Perm.nodup_iff ?_).mpr once
      exact perm_append_comm.trans (filter_append_perm _ _)
    rw [place_perm sorted once']
    exact accepted

/-- What a vector has at the positions is what the search starts from and one filling of it. -/
theorem picksOf_perm (given : ∀ i ∈ positions, v.getD i none ∈ s.choices fixed i) :
    (fixedPart positions fixed ++ picksOf v (undecided positions fixed)).Perm
      (picksOf v positions) := by
  have isFixed : fixedPart positions fixed =
      picksOf v (positions.filter fun position => !(fixedAt fixed position).isNone) := by
    rw [← fixedPart_keys]
    unfold picksOf
    rw [map_map]
    refine (map_id _).symm.trans (map_congr_left ?_)
    intro entry mem
    obtain ⟨here, isFixed⟩ := mem_fixedPart.mp mem
    have same := given entry.1 here
    rw [choices_of_fixed isFixed, mem_singleton] at same
    exact Prod.ext rfl same.symm
  rw [isFixed]
  unfold picksOf undecided
  rw [← map_append]
  exact (perm_append_comm.trans (filter_append_perm _ _)).map _

theorem solveSearch_none (checked : s.PairsChecked) (once : positions.Nodup)
    (low : ∀ i ∈ positions, i < s.size) (failed : s.solveSearch positions fixed = none)
    (given : ∀ i ∈ positions, v.getD i none ∈ s.choices fixed i) :
    s.validate (s.restrict positions v) = false := by
  have perm := picksOf_perm given
  rw [← place_picksOf once perm]
  rw [solveSearch_eq, Option.map_eq_none_iff] at failed
  have keys : (picksOf v positions).map Prod.fst = positions := by
    unfold picksOf
    rw [map_map]
    exact map_id _
  refine Backtracking.extend_none s.Written ?_ failed ?_ ?_
  · intro before i pick after written accepted
    exact checked.prunes written accepted
  · unfold Backtracking.Filling picksOf
    rw [forall₂_map_right_iff, forall₂_same]
    intro i mem
    obtain ⟨here, isOpen⟩ := mem_undecided.mp mem
    refine ⟨rfl, ?_⟩
    rw [← choices_of_open isOpen]
    exact given i here
  · refine ⟨?_, ?_⟩
    · rwa [(perm.map Prod.fst).nodup_iff, keys]
    · intro entry mem
      apply low
      rw [← keys]
      exact mem_map_of_mem (perm.mem_iff.mp mem)

end StackEntry

end Phase.Retarget
