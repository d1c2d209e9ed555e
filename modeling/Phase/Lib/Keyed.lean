import Mathlib.Algebra.GroupWithZero.Nat
import Mathlib.Data.List.Perm.Subperm
import Mathlib.Algebra.Order.BigOperators.Group.List
import Mathlib.Data.List.AList

/-! Association lists with distinct keys, as maps: changing one value, and all values. -/
namespace Assoc
open List

variable {α β γ : Type*} [DecidableEq α]

/-- Changes the value under a key, if the key is there. -/
def modify (a : α) (f : β → β) (m : AList fun _ : α => β) : AList fun _ : α => β :=
  match m.lookup a with
  | none => m
  | some b => m.insert a (f b)

def mapValues (f : β → γ) (m : AList fun _ : α => β) : AList fun _ : α => γ where
  entries := m.entries.map (.map id fun _ => f)
  nodupKeys := NodupKeys.map₂ (fun _ => f) m.entries m.nodupKeys

def values (m : AList fun _ : α => β) : List β := m.entries.map (·.2)

theorem lookup_modify (m : AList fun _ : α => β) (a : α) (f : β → β) :
    (modify a f m).lookup a = (m.lookup a).map f := by
  unfold modify
  cases at_ : m.lookup a with
  | none => exact at_
  | some b => exact AList.lookup_insert m

variable {a : α} {b : β}

theorem lookup_modify_ne {a' : α} (other : a' ≠ a) (m : AList fun _ : α => β) (f : β → β) :
    (modify a f m).lookup a' = m.lookup a' := by
  unfold modify
  cases m.lookup a with
  | none => rfl
  | some b => exact AList.lookup_insert_ne other

theorem lookup_mapValues (m : AList fun _ : α => β) (f : β → γ) (a : α) :
    (mapValues f m).lookup a = (m.lookup a).map f :=
  @dlookup_map₂ α _ (fun _ => β) (fun _ => γ) m.entries (fun _ => f) a

variable {m : AList fun _ : α => β}

theorem mem_entries : ⟨a, b⟩ ∈ m.entries ↔ m.lookup a = some b :=
  AList.mem_lookup_iff.symm

theorem mem_values : b ∈ values m ↔ ∃ a, m.lookup a = some b := by
  constructor
  · intro inside
    obtain ⟨⟨a, b'⟩, entry, rfl⟩ := mem_map.mp inside
    exact ⟨a, mem_entries.mp entry⟩
  · rintro ⟨a, found⟩
    exact mem_map_of_mem (f := Sigma.snd) (mem_entries.mpr found)

/-- The sum of the weights of all values. -/
def total (w : β → Nat) (m : AList fun _ : α => β) : Nat := ((values m).map w).sum

theorem total_modify (found : m.lookup a = some b) (w : β → Nat) (f : β → β) :
    total w (modify a f m) + w b = total w m + w (f b) := by
  have inside : a ∈ m.entries.keys := AList.mem_keys.mp (AList.lookup_isSome.mp (by rw [found]; rfl))
  obtain ⟨b', before, after, -, split, erased⟩ := exists_of_kerase inside
  have same : b' = b := by
    have entry : (⟨a, b'⟩ : Sigma fun _ : α => β) ∈ m.entries := by simp [split]
    exact Option.some.inj ((mem_entries.mp entry).symm.trans found)
  have changed : (modify a f m).entries = ⟨a, f b⟩ :: (before ++ after) := by
    simp only [modify, found, AList.entries_insert, erased]
  simp only [total, values, changed, split, map_cons, map_append, sum_cons, sum_append, same]
  omega

end Assoc

/-! Lists whose entries have distinct keys: looking one up, calling them in the order of a roll, and
dealing each key its share one at a time. -/
namespace Keyed

variable {α κ : Type*} [DecidableEq κ] {key : α → κ} {xs : List α}

theorem find?_eq_some (distinct : (xs.map key).Nodup) {k : κ} {x : α} :
    xs.find? (fun x => key x = k) = some x ↔ x ∈ xs ∧ key x = k := by
  constructor
  · intro found
    exact ⟨List.mem_of_find?_eq_some found, by simpa using List.find?_some found⟩
  · rintro ⟨inside, rfl⟩
    cases found : xs.find? (fun y => key y = key x) with
    | none => simpa using List.find?_eq_none.mp found x inside
    | some y =>
      have same : key y = key x := by simpa using List.find?_some found
      rw [List.inj_on_of_nodup_map distinct (List.mem_of_find?_eq_some found) inside same]

/-- Calling a roll that names every key gives the same entries, in the order of the roll. -/
theorem filterMap_find?_perm (distinct : (xs.map key).Nodup) {roll : List κ} (once : roll.Nodup)
    (covers : ∀ x ∈ xs, key x ∈ roll) :
    (roll.filterMap fun k => xs.find? fun x => key x = k).Perm xs := by
  have called : (roll.filterMap fun k => xs.find? fun x => key x = k).Nodup := by
    refine once.filterMap fun k k' x at_ at_' => ?_
    have left := (find?_eq_some distinct).mp (Option.mem_def.mp at_)
    have right := (find?_eq_some distinct).mp (Option.mem_def.mp at_')
    exact left.2.symm.trans right.2
  refine (List.perm_ext_iff_of_nodup called (List.Nodup.of_map key distinct)).mpr fun x => ?_
  rw [List.mem_filterMap]
  constructor
  · rintro ⟨k, -, found⟩
    exact ((find?_eq_some distinct).mp found).1
  · exact fun inside => ⟨key x, covers x inside, (find?_eq_some distinct).mpr ⟨inside, rfl⟩⟩

theorem filterMap_range_getElem? (xs : List α) :
    (List.range xs.length).filterMap (fun i => xs[i]?) = xs := by
  induction xs with
  | nil => rfl
  | cons x xs ih =>
    rw [List.length_cons, List.range_succ_eq_map, List.filterMap_cons, List.filterMap_map]
    exact congrArg (x :: ·) ih

section
variable {deals : List (κ × Nat)}

/-- How many the deal gives to `k`. -/
def share (deals : List (κ × Nat)) (k : κ) : Nat :=
  ((deals.filter fun deal => deal.1 = k).map (·.2)).sum

theorem share_perm {deals' : List (κ × Nat)} (perm : deals.Perm deals') (k : κ) :
    share deals k = share deals' k :=
  ((perm.filter _).map _).sum_eq

theorem share_of_mem (distinct : (deals.map (·.1)).Nodup) {k : κ} {n : Nat}
    (inside : (k, n) ∈ deals) : share deals k = n := by
  induction deals with
  | nil => cases inside
  | cons deal deals ih =>
    obtain ⟨new, distinct⟩ := List.nodup_cons.mp distinct
    rcases List.mem_cons.mp inside with rfl | inside
    · have none_ : deals.filter (fun deal => deal.1 = k) = [] := by
        refine List.filter_eq_nil_iff.mpr fun deal there => ?_
        rintro same
        exact new (List.mem_map.mpr ⟨deal, there, by simpa using same⟩)
      simp [share, none_]
    · have other : deal.1 ≠ k := fun same =>
        new (List.mem_map.mpr ⟨(k, n), inside, same.symm⟩)
      rw [← ih distinct inside, share, share, List.filter_cons_of_neg (by simpa using other)]

theorem share_of_notMem {k : κ} (absent : k ∉ deals.map (·.1)) : share deals k = 0 := by
  have none_ : deals.filter (fun deal => deal.1 = k) = [] := by
    refine List.filter_eq_nil_iff.mpr fun deal there => ?_
    rintro same
    exact absent (List.mem_map.mpr ⟨deal, there, by simpa using same⟩)
  simp [share, none_]

theorem count_flatMap_replicate (deals : List (κ × Nat)) (k : κ) :
    (deals.flatMap fun deal => List.replicate deal.2 deal.1).count k = share deals k := by
  induction deals with
  | nil => rfl
  | cons deal deals ih =>
    rw [List.flatMap_cons, List.count_append, ih, List.count_replicate]
    by_cases same : deal.1 = k <;> simp [share, same]

theorem count_round (deals : List (κ × Nat)) (round : Nat) (k : κ) :
    ((deals.filter fun deal => deal.2 > round).map (·.1)).count k =
      ((deals.filter fun deal => deal.1 = k).map fun deal =>
        if deal.2 > round then 1 else 0).sum := by
  induction deals with
  | nil => rfl
  | cons deal deals ih =>
    by_cases more : deal.2 > round <;> by_cases same : deal.1 = k <;>
      simp [more, same, ih, Nat.add_comm]

/-- Dealt round by round, every key gets what it gets when dealt at once. -/
theorem count_flatMap_rounds {rounds : Nat} (enough : ∀ deal ∈ deals, deal.2 ≤ rounds) (k : κ) :
    ((List.range rounds).flatMap fun round =>
      (deals.filter fun deal => deal.2 > round).map (·.1)).count k = share deals k := by
  rw [List.count_flatMap]
  have swapped : ∀ ds : List (κ × Nat), (∀ deal ∈ ds, deal.2 ≤ rounds) →
      ((List.range rounds).map fun round =>
        (ds.map fun deal => if deal.2 > round then 1 else 0).sum).sum = (ds.map (·.2)).sum := by
    intro ds bound
    induction ds with
    | nil => simp
    | cons deal ds ih =>
      have once : ∀ n : Nat, n ≤ rounds →
          ((List.range rounds).map fun round => if n > round then 1 else 0).sum = n := by
        intro n small
        obtain ⟨more, rfl⟩ := Nat.exists_eq_add_of_le small
        rw [List.range_add, List.map_append, List.map_map]
        have ones : (List.range n).map (fun round => if n > round then 1 else 0) =
            (List.range n).map fun _ => 1 :=
          List.map_congr_left fun round there => if_pos (List.mem_range.mp there)
        have zeros : (List.range more).map ((fun round => if n > round then 1 else 0) ∘ (n + ·)) =
            (List.range more).map fun _ => 0 :=
          List.map_congr_left fun round _ => if_neg (Nat.not_lt.mpr (Nat.le_add_right n round))
        rw [ones, zeros]
        simp
      simp only [List.map_cons, List.sum_cons, List.sum_map_add]
      rw [once _ (bound deal List.mem_cons_self),
        ih fun d there => bound d (List.mem_cons_of_mem _ there)]
  rw [share, ← swapped _ fun deal there => enough deal (List.mem_of_mem_filter there)]
  exact congrArg List.sum (List.map_congr_left fun round _ => count_round deals round k)

end
end Keyed

/-! Lists with one entry for each key, in which what is counted is added to the entry of its key,
or is a new entry at the end. -/
namespace Tally

variable {α κ : Type*} [DecidableEq κ] {key : α → κ}

/-- Adds `new` to the entry with its key, which `more` changes. -/
def add (key : α → κ) (more : α → α) (new : α) : List α → List α
  | [] => [new]
  | x :: xs => if key x = key new then more x :: xs else x :: add key more new xs

section
variable {more : α → α} {new : α} {xs : List α}

theorem keys_add (keeps : ∀ x, key (more x) = key x) : (add key more new xs).map key =
    if key new ∈ xs.map key then xs.map key else xs.map key ++ [key new] := by
  induction xs with
  | nil => rfl
  | cons x xs ih =>
    unfold add
    by_cases here : key x = key new
    · simp [here, keeps]
    · have elsewhere : key new ≠ key x := fun is => here is.symm
      rw [if_neg here, List.map_cons, ih]
      by_cases inside : key new ∈ xs.map key
      · rw [if_pos inside, if_pos (by simpa using .inr (List.mem_map.mp inside))]
        rfl
      · rw [if_neg inside, if_neg]
        · rfl
        · rw [List.map_cons, List.mem_cons, not_or]
          exact ⟨elsewhere, inside⟩

theorem nodup_add (keeps : ∀ x, key (more x) = key x) (once : (xs.map key).Nodup) :
    ((add key more new xs).map key).Nodup := by
  rw [keys_add keeps]
  split
  · exact once
  · next absent =>
    refine List.nodup_append.mpr ⟨once, List.nodup_singleton _, ?_⟩
    rintro k inside _ isNew rfl
    exact absent (List.mem_singleton.mp isNew ▸ inside)

theorem mem_keys_add (keeps : ∀ x, key (more x) = key x) {k : κ} :
    k ∈ (add key more new xs).map key ↔ k ∈ xs.map key ∨ k = key new := by
  rw [keys_add keeps]
  split
  · next inside => exact ⟨.inl, fun is => is.elim id (· ▸ inside)⟩
  · rw [List.mem_append, List.mem_singleton]

/-- The entry with the key of the new one is changed, and the others stay. -/
theorem forall_add {P : α → Prop} (once : (xs.map key).Nodup)
    (others : ∀ x ∈ xs, key x ≠ key new → P x) (here : ∀ x ∈ xs, key x = key new → P (more x))
    (fresh : key new ∉ xs.map key → P new) : ∀ x ∈ add key more new xs, P x := by
  induction xs with
  | nil => exact fun x inside => List.mem_singleton.mp inside ▸ fresh List.not_mem_nil
  | cons y xs ih =>
    rw [List.map_cons, List.nodup_cons] at once
    unfold add
    split
    · next same =>
      rintro x (_ | ⟨_, inside⟩)
      · exact here y List.mem_cons_self same
      · refine others x (List.mem_cons_of_mem _ inside) fun isKey => once.1 ?_
        rw [same, ← isKey]
        exact List.mem_map_of_mem inside
    · next differs =>
      rintro x (_ | ⟨_, inside⟩)
      · exact others y List.mem_cons_self differs
      · refine ih once.2 (fun x inside => others x (List.mem_cons_of_mem _ inside))
          (fun x inside => here x (List.mem_cons_of_mem _ inside)) (fun absent => fresh ?_) x
          inside
        rw [List.map_cons, List.mem_cons, not_or]
        exact ⟨fun is => differs is.symm, absent⟩

end

end Tally
