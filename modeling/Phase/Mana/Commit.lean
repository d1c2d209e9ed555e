import Phase.Mana.SolverSound

/-! Committing a payment: the units selected on a scratch pool are removed from the real one. -/
namespace Phase.Mana
open List

namespace ReferencePool
variable {pool left : ReferencePool} {units : List ManaUnit}

/-- A removal that succeeds takes out exactly the units. -/
theorem removeExact_perm (removed : pool.removeExact units = (.ok (), left)) :
    (left ++ units).Perm pool := by
  induction units generalizing pool with
  | nil => cases removed; rw [append_nil]
  | cons unit units ih =>
    rw [removeExact] at removed
    split at removed
    · next held between found =>
      obtain ⟨same, perm⟩ := swapRemoveWhere_perm found
      obtain rfl := of_decide_eq_true same
      exact (perm_middle.trans ((ih removed).cons held)).trans perm
    · split at removed
      · cases removed
      · cases removed

/-- Units that the pool holds can be removed. -/
theorem removeExact_of_subperm (held : units.Subperm pool) :
    ∃ left, pool.removeExact units = (.ok (), left) := by
  induction units generalizing pool with
  | nil => exact ⟨pool, rfl⟩
  | cons unit units ih =>
    rw [removeExact]
    cases found : pool.swapRemoveWhere fun held => held = unit with
    | none =>
      have absent := swapRemoveWhere_none.mp found unit (held.subset mem_cons_self)
      exact absurd (decide_eq_true rfl) absent
    | some taken =>
      obtain ⟨same, perm⟩ := swapRemoveWhere_perm found
      obtain rfl := of_decide_eq_true same
      exact ih ((subperm_cons taken.1).mp (held.trans perm.symm.subperm))

end ReferencePool

/-- The pips that are not zero are pairwise distinct. -/
def DistinctPips (units : List ManaUnit) : Prop :=
  ((units.map (·.pipId)).filter (· ≠ 0)).Nodup

theorem DistinctPips.subperm {units pool : List ManaUnit} (distinct : DistinctPips pool)
    (part : units.Subperm pool) : DistinctPips units := by
  obtain ⟨same, perm, sub⟩ := part
  unfold DistinctPips at distinct ⊢
  have smaller := distinct.sublist ((sub.map (·.pipId)).filter (· ≠ 0))
  exact (((perm.map (·.pipId)).filter (· ≠ 0)).nodup_iff).mp smaller

theorem firstDuplicatePip_none {seen : List ManaPipId} {units : List ManaUnit}
    (distinct : DistinctPips units) (new : ∀ unit ∈ units, unit.pipId ∉ seen) :
    firstDuplicatePip seen units = none := by
  induction units generalizing seen with
  | nil => rfl
  | cons unit units ih =>
    obtain ⟨here, later⟩ := forall_mem_cons.mp new
    unfold firstDuplicatePip
    by_cases stamped : unit.pipId = 0
    · rw [if_neg (not_not.mpr stamped)]
      have rest : DistinctPips units := by
        simpa [DistinctPips, stamped] using distinct
      exact ih rest later
    · rw [if_pos stamped, if_neg here]
      have isStamped : decide (unit.pipId ≠ 0) = true := decide_eq_true stamped
      rw [DistinctPips, map_cons, filter_cons, if_pos isStamped, nodup_cons] at distinct
      refine ih distinct.2 fun other isOther => ?_
      rw [mem_cons, not_or]
      refine ⟨fun same => distinct.1 (mem_filter.mpr ⟨?_, isStamped⟩), later other isOther⟩
      exact same ▸ mem_map_of_mem isOther

section
variable {pool : ReferencePool} {units : List ManaUnit}

/-- The removal is tried on a copy first, so a refusal leaves the pool as it was. -/
theorem removeExactManaUnits_cases (pool : ReferencePool) (units : List ManaUnit) :
    (∃ error, removeExactManaUnits pool units = (.error error, pool)) ∨
      ∃ left, removeExactManaUnits pool units = (.ok (), left) ∧ (left ++ units).Perm pool := by
  unfold removeExactManaUnits
  split
  · exact .inl ⟨_, rfl⟩
  · split
    · next error refused => exact .inl ⟨error, rfl⟩
    · next done removed =>
      have isRemoved : pool.removeExact units = (.ok (), (pool.removeExact units).2) :=
        Prod.ext removed rfl
      exact .inr ⟨_, isRemoved, ReferencePool.removeExact_perm isRemoved⟩

theorem removeExactManaUnits_of_subperm (distinct : DistinctPips pool)
    (held : units.Subperm pool) : ∃ left, removeExactManaUnits pool units = (.ok (), left) := by
  obtain ⟨left, removed⟩ := ReferencePool.removeExact_of_subperm held
  refine ⟨left, ?_⟩
  rw [removeExactManaUnits, firstDuplicatePip_none (distinct.subperm held) (by simp), removed]

/-- A payment that is refused leaves the pool as it was; one that is made takes out what it
spends; and where the stamped pips differ it is made exactly when it can be selected. -/
theorem payCostWithDemandAndChoices_atomic (pool : ReferencePool) (cost : ManaCost)
    (terms : PaymentTerms) :
    (∀ error, (payCostWithDemandAndChoices pool cost terms).1 = .error error →
      (payCostWithDemandAndChoices pool cost terms).2 = pool) ∧
    (∀ payment, (payCostWithDemandAndChoices pool cost terms).1 = .ok payment →
      ((payCostWithDemandAndChoices pool cost terms).2 ++ payment.spent).Perm pool) ∧
    (DistinctPips pool → ∀ payment,
      (payCostWithDemandAndChoices pool cost terms).1 = .ok payment ↔
        selectManaPayment pool cost terms = .ok payment) := by
  unfold payCostWithDemandAndChoices
  cases selected : selectManaPayment pool cost terms with
  | error error => exact ⟨fun _ _ => rfl, nofun, fun _ _ => ⟨nofun, nofun⟩⟩
  | ok payment =>
    dsimp only
    rcases removeExactManaUnits_cases pool payment.spent with ⟨error, refused⟩ |
      ⟨left, removed, perm⟩
    · rw [refused]
      refine ⟨fun _ _ => rfl, nofun, fun distinct other => ?_⟩
      obtain ⟨left, removed⟩ :=
        removeExactManaUnits_of_subperm distinct (select_subperm selected)
      cases refused.symm.trans removed
    · rw [removed]
      refine ⟨nofun, fun other isOther => ?_, fun _ other => Iff.rfl⟩
      cases isOther
      exact perm

end

end Phase.Mana
