import Phase.Retarget.Solvers

/-! The matching of positions to identities: it gives each position something that it may be
given, and it fails only if no such picks have keys of their own. -/
namespace Phase.Retarget
open Augmenting List

section
variable {options : List (RetargetPick × OccurrenceIdentity)} {keys : List OccurrenceIdentity}
  {x y : OccurrenceIdentity}

theorem keysOf_concat (option : RetargetPick × OccurrenceIdentity) :
    keysOf (options ++ [option]) =
      if (keysOf options).any fun key => key.sameObject option.2 then keysOf options
      else keysOf options ++ [option.2] := by
  unfold keysOf
  rw [foldl_append]
  rfl

theorem mem_keysOf (mem : x ∈ keysOf options) : ∃ option ∈ options, option.2 = x := by
  induction options using reverseRecOn with
  | nil => cases mem
  | append_singleton options last ih =>
    rw [keysOf_concat] at mem
    have old : x ∈ keysOf options → ∃ option ∈ options ++ [last], option.2 = x := by
      intro mem
      obtain ⟨option, isOption, same⟩ := ih mem
      exact ⟨option, mem_append_left _ isOption, same⟩
    split at mem
    · exact old mem
    · rcases mem_append.mp mem with mem | new
      · exact old mem
      · exact ⟨last, by simp, (mem_singleton.mp new).symm⟩

/-- Every option has a key. -/
theorem keysOf_covers {option : RetargetPick × OccurrenceIdentity} (mem : option ∈ options) :
    ∃ key ∈ keysOf options, key.sameObject option.2 := by
  induction options using reverseRecOn with
  | nil => cases mem
  | append_singleton options last ih =>
    rw [keysOf_concat]
    rcases mem_append.mp mem with old | new
    · obtain ⟨key, isKey, same⟩ := ih old
      refine ⟨key, ?_, same⟩
      split
      · exact isKey
      · exact mem_append_left _ isKey
    · rw [mem_singleton.mp new]
      split
      · next known => exact any_eq_true.mp known
      · exact ⟨last.2, by simp, by simp⟩

theorem keyOf_lt (covered : ∃ key ∈ keys, key.sameObject x) : keyOf keys x < keys.length :=
  findIdx_lt_length.mpr covered

/-- Two identities with one key are each the same object as it. -/
theorem keyOf_same (covered : ∃ key ∈ keys, key.sameObject x)
    (covered' : ∃ key ∈ keys, key.sameObject y) (same : keyOf keys x = keyOf keys y) :
    ∃ key ∈ keys, key.sameObject x ∧ key.sameObject y := by
  have low : keys.findIdx (fun key => key.sameObject x) < keys.length := keyOf_lt covered
  have low' : keys.findIdx (fun key => key.sameObject y) < keys.length := keyOf_lt covered'
  have isSame : keys.findIdx (fun key => key.sameObject x) =
      keys.findIdx (fun key => key.sameObject y) := same
  refine ⟨keys.get ⟨_, low⟩, get_mem .., ?_, ?_⟩
  · exact findIdx_getElem (w := low)
  · have here := findIdx_getElem (w := low')
    simp only [← isSame] at here
    exact here

end

namespace StackEntry

variable {s : StackEntry} {positions : List Nat} {fixed : List (Option RetargetPick)}
  {options : List (List (RetargetPick × OccurrenceIdentity))} {assignment : Assignment}
  {v : List RetargetPick} {left : Nat}

theorem mem_edges {edge : Nat × Nat} : edge ∈ (edges options).getD left [] ↔
    ∃ option, options[left]? = some option ∧ ∃ entry, option[edge.2]? = some entry ∧
      keyOf (keysOf options.flatten) entry.2 = edge.1 := by
  unfold edges
  rw [getD_eq_getElem?_getD, getElem?_map]
  cases options[left]? with
  | none => simp
  | some option =>
    rw [Option.map_some, Option.getD_some, mem_map]
    constructor
    · rintro ⟨⟨entry, choice⟩, isEntry, rfl⟩
      exact ⟨option, rfl, entry, mem_zipIdx_iff_getElem?.mp isEntry, rfl⟩
    · rintro ⟨_, ⟨⟩, entry, isEntry, isKey⟩
      exact ⟨(entry, edge.2), mem_zipIdx_iff_getElem?.mpr isEntry, Prod.ext isKey rfl⟩

theorem edges_inside {edge : Nat × Nat} (mem : edge ∈ (edges options).getD left []) :
    edge.1 < (keysOf options.flatten).length := by
  obtain ⟨option, isOption, entry, isEntry, isKey⟩ := mem_edges.mp mem
  rw [← isKey]
  exact keyOf_lt (keysOf_covers
    (mem_flatten.mpr ⟨option, mem_of_getElem? isOption, mem_of_getElem? isEntry⟩))

theorem options_getElem? (s : StackEntry) (positions : List Nat)
    (fixed : List (Option RetargetPick)) (left : Nat) :
    (s.options positions fixed)[left]? = positions[left]?.map fun position =>
      (s.choices fixed position).map fun pick => (pick, s.identity position pick) := by
  unfold StackEntry.options
  rw [getElem?_map]

theorem mem_options {i : Nat} {pick : RetargetPick} (mem : i ∈ positions)
    (given : pick ∈ s.choices fixed i) :
    (pick, s.identity i pick) ∈ (s.options positions fixed).flatten :=
  mem_flatten.mpr ⟨_, mem_map_of_mem mem, mem_map_of_mem given⟩

theorem of_mem_options {option : RetargetPick × OccurrenceIdentity}
    (mem : option ∈ (s.options positions fixed).flatten) :
    ∃ i ∈ positions, option.1 ∈ s.choices fixed i ∧ option.2 = s.identity i option.1 := by
  obtain ⟨ofOne, isOne, isOption⟩ := mem_flatten.mp mem
  obtain ⟨i, here, rfl⟩ := mem_map.mp isOne
  obtain ⟨pick, given, rfl⟩ := mem_map.mp isOption
  exact ⟨i, here, given, rfl⟩

theorem chosen_eq_some {held : Option (Nat × Nat)} {entry : Nat × RetargetPick}
    (isChosen : chosen positions (s.options positions fixed) held = some entry) :
    entry.2 ∈ s.choices fixed entry.1 := by
  obtain ⟨⟨left, choice⟩, _, isChosen⟩ := Option.bind_eq_some_iff.mp isChosen
  obtain ⟨position, isPosition, isChosen⟩ := Option.bind_eq_some_iff.mp isChosen
  obtain ⟨option, isOption, isChosen⟩ := Option.bind_eq_some_iff.mp isChosen
  obtain ⟨⟨pick, identity⟩, isPick, isChosen⟩ := Option.bind_eq_some_iff.mp isChosen
  cases isChosen
  rw [options_getElem?, isPosition] at isOption
  cases isOption
  obtain ⟨given, isGiven, isPair⟩ := mem_map.mp (mem_of_getElem? isPick)
  cases isPair
  exact isGiven

theorem solveMatching_some (found : s.solveMatching positions fixed = some assignment) :
    s.Fills positions fixed assignment := by
  obtain ⟨owner, isOwner, rfl⟩ := Option.map_eq_some_iff.mp found
  have matched := @matchEdges_spec _
    (fun left => (edges (s.options positions fixed)).getD left []) positions.length _
    (fun _ _ => edges_inside)
  rw [isOwner] at matched
  have sorted := sortByPosition_perm
    (owner.filterMap (chosen positions (s.options positions fixed)))
  refine ⟨?_, ?_⟩
  · intro i mem
    obtain ⟨left, isLeft⟩ := mem_iff_getElem?.mp mem
    obtain ⟨key, choice, isHeld, isEdge⟩ := matched.holds (List.getElem?_eq_some_iff.mp isLeft).1
    obtain ⟨option, isOption, entry, isEntry, _⟩ := mem_edges.mp isEdge
    refine ⟨entry.1, sorted.mem_iff.mpr (mem_filterMap.mpr
      ⟨some (left, choice), mem_of_getElem? isHeld, ?_⟩)⟩
    unfold chosen
    simp only [Option.bind_eq_bind, Option.bind_some, isLeft, isOption, isEntry]
    rfl
  · intro entry mem
    obtain ⟨held, _, isChosen⟩ := mem_filterMap.mp (sorted.mem_iff.mp mem)
    exact chosen_eq_some isChosen

/-- A vector whose picks have keys of their own is a matching. -/
theorem solveMatching_none (failed : s.solveMatching positions fixed = none)
    (once : positions.Nodup) (given : ∀ i ∈ positions, v.getD i none ∈ s.choices fixed i) :
    ∃ i ∈ positions, ∃ j ∈ positions, i ≠ j ∧
      ∃ key ∈ keysOf (s.options positions fixed).flatten,
        key.sameObject (s.identity i (v.getD i none)) ∧
          key.sameObject (s.identity j (v.getD j none)) := by
  unfold solveMatching at failed
  rw [Option.map_eq_none_iff] at failed
  have unmatched := @matchEdges_spec _
    (fun left => (edges (s.options positions fixed)).getD left []) positions.length _
    (fun _ _ => edges_inside)
  rw [failed] at unmatched
  by_contra own
  have covered : ∀ i ∈ positions, ∃ key ∈ keysOf (s.options positions fixed).flatten,
      key.sameObject (s.identity i (v.getD i none)) :=
    fun i mem => keysOf_covers (mem_options mem (given i mem))
  let key := fun i => keyOf (keysOf (s.options positions fixed).flatten)
    (s.identity i (v.getD i none))
  have distinct : ∀ i ∈ positions, ∀ j ∈ positions, key i = key j → i = j := by
    intro i mem j mem' same
    by_contra apart
    exact own ⟨i, mem, j, mem', apart, keyOf_same (covered i mem) (covered j mem') same⟩
  have at_ : ∀ left < positions.length, ∃ i ∈ positions,
      positions[left]? = some i ∧ positions.getD left 0 = i := by
    intro left low
    refine ⟨positions.get ⟨left, low⟩, get_mem .., getElem?_eq_getElem low, ?_⟩
    exact getD_eq_getElem _ _ low
  refine unmatched (fun left => key (positions.getD left 0)) ⟨?_, ?_⟩
  · intro left low
    obtain ⟨i, mem, isI, eq⟩ := at_ left low
    dsimp only
    rw [eq]
    refine ⟨keyOf_lt (covered i mem), joined_iff.mpr ?_⟩
    obtain ⟨choice, isChoice⟩ := mem_iff_getElem?.mp (given i mem)
    have isEdge : (key i, choice) ∈ (edges (s.options positions fixed)).getD left [] := by
      refine mem_edges.mpr ⟨(s.choices fixed i).map fun pick => (pick, s.identity i pick), ?_,
        (v.getD i none, s.identity i (v.getD i none)), ?_, rfl⟩
      · rw [options_getElem?, isI]
        rfl
      · rw [getElem?_map, isChoice]
        rfl
    exact mem_map_of_mem isEdge
  · intro left low right low' same
    obtain ⟨i, mem, isI, eq⟩ := at_ left low
    obtain ⟨j, mem', isJ, eq'⟩ := at_ right low'
    dsimp only at same
    rw [eq, eq'] at same
    obtain rfl := distinct i mem j mem' same
    exact (getElem?_inj low once).mp (isI.trans isJ.symm)

end StackEntry

end Phase.Retarget
