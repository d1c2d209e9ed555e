import Mathlib.Data.List.Perm.Basic
import Phase.Draft.Barrier

/-! Taking cards out of a pack by name: what leaves, in which order, and what
stays. -/
namespace Phase.Draft
open List
open scoped List

/-- `picked` are the cards the ids name, in that order, and `left` is the rest of
the pack, in pack order. -/
structure Takes (pack : DraftPack) (ids : List String) (left picked : DraftPack) : Prop where
  perm : left ++ picked ~ pack
  kept : left.Sublist pack
  named : picked.map (·.instanceId) = ids

theorem removeEach_perm (pack : DraftPack) (order : List (Nat × Nat)) :
    (removeEach pack order).1 ++ (removeEach pack order).2.map (·.2) ~ pack := by
  induction order generalizing pack with
  | nil => simp [removeEach]
  | cons entry order ih =>
    obtain ⟨slot, index⟩ := entry
    unfold removeEach
    split
    · exact ih pack
    · next card found =>
      obtain ⟨bound, rfl⟩ := List.getElem?_eq_some_iff.mp found
      have rest := ih (pack.eraseIdx index)
      exact perm_middle.trans ((rest.cons _).trans (getElem_cons_eraseIdx_perm bound))

theorem removeEach_sublist (pack : DraftPack) (order : List (Nat × Nat)) :
    (removeEach pack order).1.Sublist pack := by
  induction order generalizing pack with
  | nil => exact Sublist.refl pack
  | cons entry order ih =>
    obtain ⟨slot, index⟩ := entry
    unfold removeEach
    split
    · exact ih pack
    · exact (ih _).trans (eraseIdx_sublist pack index)

variable {pack left : DraftPack} {indices : List Nat} {ids : List String} {seat : Nat}

/-- Descending removal reads every card at its original index. -/
theorem removeEach_taken {order : List (Nat × Nat)}
    (descending : order.Pairwise fun a b => b.2 < a.2)
    (inside : ∀ entry ∈ order, entry.2 < pack.length) :
    (removeEach pack order).2.map (fun taken => (taken.1, some taken.2)) =
      order.map fun entry => (entry.1, pack[entry.2]?) := by
  induction order generalizing pack with
  | nil => rfl
  | cons entry order ih =>
    obtain ⟨slot, index⟩ := entry
    obtain ⟨below, descending⟩ := pairwise_cons.mp descending
    have bound : index < pack.length := inside (slot, index) mem_cons_self
    have rest := @ih (pack.eraseIdx index) descending fun entry mem => by
      have := below entry mem
      rw [length_eraseIdx_of_lt bound]
      omega
    have unshifted : order.map (fun entry => (entry.1, (pack.eraseIdx index)[entry.2]?)) =
        order.map fun entry => (entry.1, pack[entry.2]?) := by
      refine map_congr_left fun entry mem => ?_
      rw [getElem?_eraseIdx_of_lt (below entry mem)]
    simp only [removeEach, getElem?_eq_getElem bound, map_cons, rest, unshifted]

theorem takeIndices_perm (pack : DraftPack) (indices : List Nat) :
    (takeIndices pack indices).1 ++ (takeIndices pack indices).2 ~ pack := by
  refine Perm.trans (Perm.append_left _ ?_) (removeEach_perm pack _)
  exact (perm_insertionSort _ _).map _

theorem takeIndices_sublist (pack : DraftPack) (indices : List Nat) :
    (takeIndices pack indices).1.Sublist pack :=
  removeEach_sublist pack _

theorem takeIndices_picked (distinct : indices.Nodup)
    (inside : ∀ index ∈ indices, index < pack.length) :
    (takeIndices pack indices).2.map some = indices.map fun index => pack[index]? := by
  let listed := indices.zipIdx.map Prod.swap
  let order := listed.insertionSort fun a b => b.2 ≤ a.2
  have orderPerm : order ~ listed := perm_insertionSort _ _
  have listedSnd : listed.map (·.2) = indices := by
    simp [listed, Function.comp_def]
  have orderInside : ∀ entry ∈ order, entry.2 < pack.length := fun entry mem =>
    inside _ (listedSnd ▸ mem_map_of_mem (orderPerm.subset mem))
  have orderDistinct : (order.map (·.2)).Nodup :=
    ((orderPerm.map (·.2)).nodup_iff).mpr (listedSnd ▸ distinct)
  have descending : order.Pairwise fun a b => b.2 < a.2 := by
    have sorted : order.Pairwise fun a b => b.2 ≤ a.2 := pairwise_insertionSort _ _
    refine (sorted.and (pairwise_map.mp orderDistinct)).imp fun {a b} h => ?_
    omega
  have taken := removeEach_taken descending orderInside
  -- Sorting what was taken by slot brings it back to the order of the indices.
  let sortedTaken := (removeEach pack order).2.insertionSort fun a b => a.1 ≤ b.1
  have backPerm : sortedTaken.map (fun t => (t.1, some t.2)) ~
      listed.map fun entry => (entry.1, pack[entry.2]?) :=
    ((perm_insertionSort _ _).map _).trans (taken ▸ orderPerm.map _)
  have slots : (listed.map (·.1)).Pairwise (· < ·) := by
    have : listed.map (·.1) = range' 0 indices.length := by
      simp [listed, Function.comp_def, zipIdx_map_snd]
    rw [this]
    exact pairwise_lt_range'
  have listedSorted : (listed.map fun entry => (entry.1, pack[entry.2]?)).Pairwise
      fun a b => a.1 < b.1 := by
    rw [pairwise_map] at slots ⊢
    exact slots
  have backDistinct : (sortedTaken.map (·.1)).Nodup := by
    have := (backPerm.map (·.1)).nodup_iff.mpr
    simp only [map_map, Function.comp_def] at this
    exact this (slots.imp Nat.ne_of_lt)
  have backSorted : (sortedTaken.map fun t => (t.1, some t.2)).Pairwise fun a b => a.1 < b.1 := by
    have sorted : sortedTaken.Pairwise fun a b => a.1 ≤ b.1 := pairwise_insertionSort _ _
    refine pairwise_map.mpr ((sorted.and (pairwise_map.mp backDistinct)).imp ?_)
    rintro a b ⟨le, ne⟩
    exact Nat.lt_of_le_of_ne le ne
  have equal := Perm.eq_of_pairwise
    (fun a b _ _ (ab : a.1 < b.1) (ba : b.1 < a.1) => absurd ba (Nat.lt_asymm ab))
    backSorted listedSorted backPerm
  have cards := congrArg (map (·.2)) equal
  simp only [map_map, Function.comp_def] at cards
  have picked : (takeIndices pack indices).2 = sortedTaken.map (·.2) := rfl
  rw [picked, map_map]
  refine cards.trans ?_
  conv_rhs => rw [← listedSnd]
  simp [map_map, Function.comp_def]

/-- Every id found its card, and no card twice. -/
theorem resolveIndices_ok {found : List Nat} (h : resolveIndices seat pack ids found = .ok indices)
    (distinct : found.Nodup) :
    ∃ fresh, indices = found ++ fresh ∧ indices.Nodup ∧
      fresh.map some = ids.map fun id => pack.findIdx? fun card => card.instanceId = id := by
  induction ids generalizing found with
  | nil =>
    obtain rfl := Except.ok.inj h
    exact ⟨[], by simp, distinct, rfl⟩
  | cons id ids ih =>
    unfold resolveIndices at h
    split at h
    · cases h
    · next index at_ =>
      split at h
      · cases h
      · next fresh =>
        have distinct' : (found ++ [index]).Nodup := by
          rw [nodup_append]
          exact ⟨distinct, by simp, by grind⟩
        obtain ⟨rest, rfl, nodup, named⟩ := ih h distinct'
        exact ⟨index :: rest, by simp, nodup, by simp [at_, named]⟩

/-- Distinct ids of cards in the pack are never refused. -/
theorem exists_resolveIndices (seat : Nat) {found : List Nat} (distinct : ids.Nodup)
    (present : ∀ id ∈ ids, ∃ card ∈ pack, card.instanceId = id)
    (fresh : ∀ index ∈ found, ∀ id ∈ ids, (pack[index]?).map (·.instanceId) ≠ some id) :
    ∃ indices, resolveIndices seat pack ids found = .ok indices := by
  induction ids generalizing found with
  | nil => exact ⟨found, rfl⟩
  | cons id ids ih =>
    obtain ⟨absent, distinct⟩ := nodup_cons.mp distinct
    unfold resolveIndices
    split
    · next missing =>
      obtain ⟨card, mem, same⟩ := present id mem_cons_self
      have := findIdx?_eq_none_iff.mp missing card mem
      simp [same] at this
    · next index at_ =>
      obtain ⟨bound, same, _⟩ := findIdx?_eq_some_iff_getElem.mp at_
      have same : pack[index].instanceId = id := by simpa using same
      have unread : index ∉ found := fun mem =>
        fresh index mem id mem_cons_self (by simp [getElem?_eq_getElem bound, same])
      rw [if_neg unread]
      refine ih distinct (fun other mem => present other (mem_cons_of_mem id mem)) ?_
      intro read mem other later
      rcases mem_append.mp mem with before | now
      · exact fresh read before other (mem_cons_of_mem id later)
      · obtain rfl : read = index := by simpa using now
        rintro named
        have : id = other := by simpa [getElem?_eq_getElem bound, same] using named
        exact absent (this ▸ later)

theorem nodup_of_resolved (h : resolveIndices seat pack ids [] = .ok indices) : ids.Nodup := by
  obtain ⟨_, rfl, distinct, named⟩ := resolveIndices_ok h nodup_nil
  have : (indices.map some).Nodup := distinct.map (Option.some_injective Nat)
  exact Nodup.of_map _ (named ▸ this)

theorem takes_of_resolved (h : resolveIndices seat pack ids [] = .ok indices) :
    Takes pack ids (takeIndices pack indices).1 (takeIndices pack indices).2 := by
  obtain ⟨_, rfl, distinct, named⟩ := resolveIndices_ok h nodup_nil
  have inside : ∀ index ∈ indices, index < pack.length := by
    intro index mem
    have : some index ∈ ids.map fun id => pack.findIdx? fun card => card.instanceId = id :=
      named ▸ mem_map_of_mem mem
    obtain ⟨id, _, found⟩ := mem_map.mp this
    exact (findIdx?_eq_some_iff_getElem.mp found).1
  have read : indices.map (fun index => (pack[index]?).map (·.instanceId)) = ids.map some := by
    have := congrArg (map (fun found : Option Nat => found.bind fun index =>
      (pack[index]?).map (·.instanceId))) named
    simp only [map_map] at this
    refine this.trans (map_congr_left fun id mem => ?_)
    have listed : (pack.findIdx? fun card => card.instanceId = id) ∈ indices.map some :=
      named ▸ mem_map_of_mem mem
    obtain ⟨index, _, found⟩ := mem_map.mp listed
    obtain ⟨bound, same, _⟩ := findIdx?_eq_some_iff_getElem.mp found.symm
    simpa [← found, getElem?_eq_getElem bound] using same
  refine ⟨takeIndices_perm pack indices, takeIndices_sublist pack indices, ?_⟩
  have picked := congrArg (map (Option.map (·.instanceId))) (takeIndices_picked distinct inside)
  rw [map_map, map_map] at picked
  refine map_injective_iff.mpr (Option.some_injective String) ?_
  rw [map_map]
  exact picked.trans read

theorem Takes.length {taken : DraftPack} (h : Takes pack ids left taken) :
    left.length + ids.length = pack.length := by
  rw [← h.named, length_map, ← length_append]
  exact h.perm.length_eq

theorem takeById_takes {id : String} (present : ∃ card ∈ pack, card.instanceId = id) :
    Takes pack [id] (takeById pack id).1 (takeById pack id).2 := by
  unfold takeById
  split
  · next missing =>
    obtain ⟨card, mem, same⟩ := present
    have := findIdx?_eq_none_iff.mp missing card mem
    simp [same] at this
  · next index found =>
    obtain ⟨bound, same, _⟩ := findIdx?_eq_some_iff_getElem.mp found
    rw [getElem?_eq_getElem bound]
    refine ⟨?_, eraseIdx_sublist pack index, by simpa using same⟩
    exact (perm_append_singleton _ _).trans (getElem_cons_eraseIdx_perm bound)

theorem Takes.cons {pack left rest : DraftPack} {id : String} {ids : List String}
    {one more : DraftPack} (first : Takes pack [id] left one) (then_ : Takes left ids rest more) :
    Takes pack (id :: ids) rest (one ++ more) where
  perm := by
    refine Perm.trans ?_ first.perm
    refine Perm.trans ?_ (then_.perm.append_right one)
    rw [append_assoc]
    exact Perm.append_left rest perm_append_comm
  kept := then_.kept.trans first.kept
  named := by rw [map_append, first.named, then_.named]; rfl

theorem takeByIds_takes {pack : DraftPack} {ids : List String} (distinct : ids.Nodup)
    (present : ∀ id ∈ ids, ∃ card ∈ pack, card.instanceId = id) :
    Takes pack ids (takeByIds pack ids).1 (takeByIds pack ids).2 := by
  induction ids generalizing pack with
  | nil => exact ⟨by simp [takeByIds], Sublist.refl _, rfl⟩
  | cons id ids ih =>
    have first := takeById_takes (present id mem_cons_self)
    refine first.cons (ih (nodup_cons.mp distinct).2 fun other mem => ?_)
    obtain ⟨card, inPack, same⟩ := present other (mem_cons_of_mem id mem)
    refine ⟨card, ?_, same⟩
    have split : card ∈ (takeById pack id).1 ++ (takeById pack id).2 :=
      first.perm.mem_iff.mpr inPack
    rcases mem_append.mp split with stays | taken
    · exact stays
    · have named : card.instanceId ∈ [id] := first.named ▸ mem_map_of_mem taken
      have : other = id := by simpa [same] using named
      exact absurd (this ▸ mem) (nodup_cons.mp distinct).1

/-- The cards the ids do not name, and the cards they name, in their order. -/
def splitNamed (pack : DraftPack) (ids : List String) : DraftPack × List DraftCardInstance :=
  (pack.filter fun card => card.instanceId ∉ ids,
    ids.filterMap fun id => pack.find? fun card => card.instanceId = id)

theorem eq_filter_of_sublist {kept whole : DraftPack} (sub : kept.Sublist whole)
    (distinct : whole.Nodup) : kept = whole.filter (· ∈ kept) := by
  refine Sublist.eq_of_length_le ?_ ?_
  · have := sub.filter (· ∈ kept)
    rwa [filter_eq_self.mpr (by simp)] at this
  · refine Subperm.length_le (subperm_of_subset (distinct.filter _) ?_)
    intro card mem
    simpa using (mem_filter.mp mem).2

theorem find?_of_mem (distinct : (pack.map (·.instanceId)).Nodup) {card : DraftCardInstance}
    (mem : card ∈ pack) :
    (pack.find? fun other => other.instanceId = card.instanceId) = some card := by
  obtain ⟨found, here⟩ : ∃ found,
      (pack.find? fun other => other.instanceId = card.instanceId) = some found := by
    rw [← Option.isSome_iff_exists, find?_isSome]
    exact ⟨card, mem, by simp⟩
  have same : found.instanceId = card.instanceId := by
    simpa using find?_some here
  rw [here, inj_on_of_nodup_map distinct (mem_of_find?_eq_some here) mem same]

/-- With distinct ids there is only one way to take cards by name. -/
theorem Takes.eq_splitNamed {taken : DraftPack} (takes : Takes pack ids left taken)
    (distinct : (pack.map (·.instanceId)).Nodup) : (left, taken) = splitNamed pack ids := by
  have whole : ((left ++ taken).map (·.instanceId)).Nodup :=
    (takes.perm.map _).nodup_iff.mpr distinct
  rw [map_append, takes.named, nodup_append] at whole
  have stays : ∀ card ∈ pack, card ∈ left ↔ card.instanceId ∉ ids := by
    intro card mem
    refine ⟨fun inLeft named => whole.2.2 _ (mem_map_of_mem inLeft) _ named rfl, ?_⟩
    intro unnamed
    rcases mem_append.mp (takes.perm.mem_iff.mpr mem) with inLeft | inTaken
    · exact inLeft
    · exact absurd (takes.named ▸ mem_map_of_mem inTaken) unnamed
  have leftEq : left = pack.filter fun card => card.instanceId ∉ ids := by
    rw [eq_filter_of_sublist takes.kept (Nodup.of_map _ distinct)]
    exact filter_congr fun card mem => decide_eq_decide.mpr (stays card mem)
  have takenEq : taken = ids.filterMap fun id => pack.find? fun card => card.instanceId = id := by
    rw [← takes.named, filterMap_map]
    have each : ∀ card ∈ taken, ((fun id => pack.find? fun card => card.instanceId = id) ∘
        fun card => card.instanceId) card = some card := fun card mem =>
      find?_of_mem distinct (takes.perm.subset (mem_append_right left mem))
    rw [filterMap_congr each, filterMap_some]
  rw [splitNamed, ← leftEq, ← takenEq]

theorem nodup_splitNamed (ids : List String) (distinct : (pack.map (·.instanceId)).Nodup) :
    ((splitNamed pack ids).1.map (·.instanceId)).Nodup :=
  distinct.sublist (filter_sublist.map _)

end Phase.Draft
