import Phase.Combat.Legality
import Phase.Lib.Keyed

/-! How much damage a creature contributes to a sub-step, in all. -/
namespace Phase.Combat
open List

/-- The damage that is pending from a creature. -/
def dealt (pending : List (ObjectId × DamageAssignment)) (source : ObjectId) : Nat :=
  ((pending.filter (·.1 = source)).map (·.2.amount)).sum

section
variable {pending entries : List (ObjectId × DamageAssignment)} {source : ObjectId}

theorem dealt_append : dealt (pending ++ entries) source = dealt pending source +
    dealt entries source := by
  simp [dealt]

theorem dealt_other (others : ∀ entry ∈ entries, entry.1 ≠ source) : dealt entries source = 0 := by
  have none_ : entries.filter (·.1 = source) = [] :=
    filter_eq_nil_iff.mpr fun entry isEntry => by simpa using others entry isEntry
  rw [dealt, none_]
  rfl

theorem dealt_own (own : ∀ entry ∈ entries, entry.1 = source) :
    dealt entries source = (entries.map (·.2.amount)).sum := by
  rw [dealt, filter_eq_self.mpr fun entry isEntry => by simpa using own entry isEntry]

end

/-- Whether there is anything an attacker may damage, in a mode. -/
def hasRecipient (state : GameState) (combat : CombatState) (info : AttackerInfo)
    (trample : Option TrampleKind) (mode : CombatDamageAssignmentMode) : Bool :=
  let attacked := (info.resolveDamageTarget state (trample = some .overPlaneswalkers)).isSome
  match mode with
  | .asThoughUnblocked => attacked
  | .normal => !(combat.blockersOf info.objectId).isEmpty ||
      ((!info.blocked || trample.isSome) && attacked)

/-- What an attacker that deals damage contributes: its amount, or nothing when there is no
recipient in the mode it is assigned in. -/
def AttackerShare (state : GameState) (combat : CombatState) (info : AttackerInfo)
    (object : GameObject) (total : Nat) : Prop :=
  ∃ mode ∈ combatDamageAssignmentModes object info.blocked
      (!(combat.blockersOf info.objectId).isEmpty) (trampleKind object),
    total = if hasRecipient state combat info (trampleKind object) mode
      then combatDamageAmount object else 0

def total (assignments : List DamageAssignment) : Nat := (assignments.map (·.amount)).sum

section
variable {state base : GameState} {combat : CombatState} {info : AttackerInfo}
variable {object : GameObject} {trample : Option TrampleKind} {now : Progress}

theorem assignTrampleOverPwExcess_total (attacks : info.attacksPlaneswalker) (excess : Nat) :
    total (assignTrampleOverPwExcess state info excess) = excess := by
  cases target : info.attackTarget with
  | planeswalker pw =>
    have resolves : (info.resolveDamageTarget state true).isSome := by
      unfold AttackerInfo.resolveDamageTarget
      rw [attacks]
      split <;> rfl
    obtain ⟨recipient, isRecipient⟩ := Option.isSome_iff_exists.mp resolves
    unfold assignTrampleOverPwExcess
    rw [isRecipient]
    split
    · next none_ => rw [none_]; rfl
    · rw [total, map_append, sum_append]
      have spilled : ∀ n : Nat, ((if n = 0 then []
          else ((some recipient).map fun target => (⟨target, n⟩ : DamageAssignment)).toList).map
            (·.amount)).sum = n := by
        intro n
        split
        · next zero => rw [zero]; rfl
        · rfl
      have rest : ∀ (n : Nat) (player : DamageTarget), ((if n = 0 then []
          else [(⟨player, n⟩ : DamageAssignment)]).map (·.amount)).sum = n := by
        intro n player
        split
        · next zero => rw [zero]; rfl
        · rfl
      rw [spilled, rest]
      omega
  | player _ => rw [AttackerInfo.attacksPlaneswalker, target] at attacks; cases attacks
  | battle _ => rw [AttackerInfo.attacksPlaneswalker, target] at attacks; cases attacks

theorem assignDamageAsThoughUnblocked_total (power : Nat) :
    total (assignDamageAsThoughUnblocked state info power trample) =
      if (info.resolveDamageTarget state (trample = some .overPlaneswalkers)).isSome
        then power else 0 := by
  unfold assignDamageAsThoughUnblocked
  split
  · next target isTarget => rw [isTarget]; rfl
  · next none_ => rw [none_]; rfl

theorem assignExcess_total (kind : TrampleKind) (excess : Nat) :
    total (assignExcess state info kind excess) =
      if (info.resolveDamageTarget state (some kind = some TrampleKind.overPlaneswalkers)).isSome
        then excess else 0 := by
  unfold assignExcess
  split
  · next isOver =>
    rw [Bool.and_eq_true, decide_eq_true_eq] at isOver
    obtain ⟨rfl, attacks⟩ := isOver
    have resolves : (info.resolveDamageTarget state true).isSome := by
      unfold AttackerInfo.resolveDamageTarget
      rw [attacks]
      split <;> rfl
    rw [assignTrampleOverPwExcess_total attacks, if_pos]
    simpa using resolves
  · next notOver =>
    -- The attacker falls back on no player, whatever its trample.
    have same : info.resolveDamageTarget state (some kind = some TrampleKind.overPlaneswalkers) =
        info.resolveDamageTarget state false := by
      unfold AttackerInfo.resolveDamageTarget
      cases kind with
      | standard => rfl
      | overPlaneswalkers =>
        have notAttacks : info.attacksPlaneswalker = false := by simpa using notOver
        rw [notAttacks]
        simp
    rw [same]
    split
    · next target isTarget => rw [isTarget]; rfl
    · next none_ => rw [none_]; rfl

/-- An attacker that is not asked about contributes its amount by itself. -/
theorem assignAttackerDamage_total
    (unasked : ¬needsInteractiveAssignment state info object combat (combatDamageAmount object)
      (object.hasKeyword .deathtouch) (trampleKind object)) :
    total (assignAttackerDamage state info combat (combatDamageAmount object)
        (object.hasKeyword .deathtouch) (trampleKind object)) =
      if hasRecipient state combat info (trampleKind object) .normal
        then combatDamageAmount object else 0 := by
  unfold assignAttackerDamage hasRecipient
  unfold needsInteractiveAssignment at unasked
  cases blockers : combat.blockersOf info.objectId with
  | nil =>
    cases blocked : info.blocked with
    | false =>
      rw [if_neg Bool.false_ne_true, assignDamageAsThoughUnblocked_total]
      simp
    | true =>
      cases trample : trampleKind object with
      | none => rfl
      | some kind =>
        rw [if_pos rfl, assignExcess_total]
        simp
  | cons blocker others =>
    cases others with
    | nil =>
      cases trample : trampleKind object with
      | none => simp [total]
      | some kind =>
        have enough : combatDamageAmount object ≤
            lethalDamageNeeded state blocker (object.hasKeyword .deathtouch) := by
          rw [blockers, trample] at unasked
          by_cases unblocked : object.assignsDamageAsThoughUnblocked && info.blocked
          · rw [if_pos unblocked] at unasked
            simp at unasked
          · rw [if_neg unblocked] at unasked
            simpa using unasked
        dsimp only
        rw [min_eq_left enough]
        simp [total]
    | cons second rest =>
      rw [blockers] at unasked
      split at unasked
      · simp at unasked
      · simp at unasked

theorem autoEntries_own : ∀ entry ∈ autoEntries state info object combat,
    entry.1 = info.objectId := by
  intro entry isEntry
  obtain ⟨assignment, -, rfl⟩ := mem_map.mp isEntry
  rfl

theorem hasRecipient_during (isCombat : base.combat = some combat)
    (mode : CombatDamageAssignmentMode) :
    hasRecipient (base.during combat now) combat info trample mode =
      hasRecipient base combat info trample mode := by
  unfold hasRecipient
  rw [resolveDamageTarget_during isCombat]

/-- An attacker that is not asked about has nothing to choose but the ordinary mode. -/
theorem autoEntries_share (isCombat : base.combat = some combat)
    (unasked : ¬needsInteractiveAssignment base info object combat (combatDamageAmount object)
      (object.hasKeyword .deathtouch) (trampleKind object)) :
    AttackerShare base combat info object
      (dealt (autoEntries (base.during combat now) info object combat) info.objectId) := by
  refine ⟨.normal, ?_, ?_⟩
  · unfold combatDamageAssignmentModes
    split <;> simp
  · rw [dealt_own autoEntries_own, autoEntries, map_map]
    refine (@assignAttackerDamage_total (base.during combat now) _ _ _ unasked).trans ?_
    rw [hasRecipient_during isCombat]

end

/-- From the index `k` on, `base` each and one more below the remainder. -/
theorem divided_sum {α : Type} (entry : α → Nat → ObjectId × DamageAssignment)
    (amount : ∀ a n, (entry a n).2.amount = n) (base remainder : Nat) (xs : List α) (k : Nat) :
    (((xs.zipIdx k).filterMap fun (a, i) =>
      if base + (if i < remainder then 1 else 0) = 0 then none
      else some (entry a (base + if i < remainder then 1 else 0))).map (·.2.amount)).sum +
        min k remainder = xs.length * base + min (k + xs.length) remainder := by
  induction xs generalizing k with
  | nil => simp
  | cons x xs ih =>
    have later := ih (k + 1)
    have one : (if k < remainder then 1 else 0) + min k remainder = min (k + 1) remainder := by
      split <;> omega
    rw [zipIdx_cons, filterMap_cons, length_cons, Nat.succ_mul]
    dsimp only at later ⊢
    generalize (if k < remainder then 1 else 0) = more at one ⊢
    by_cases none_ : base + more = 0
    · rw [if_pos none_]
      dsimp only
      omega
    · rw [if_neg none_]
      rw [map_cons, sum_cons, amount]
      omega

theorem distributeBlockerDamage_own (blocker : ObjectId) (power : Nat) (attackers : List ObjectId) :
    ∀ entry ∈ distributeBlockerDamage blocker power attackers, entry.1 = blocker := by
  unfold distributeBlockerDamage
  intro entry isEntry
  split at isEntry
  · cases isEntry
  · rw [mem_singleton.mp isEntry]
  · obtain ⟨⟨attacker, i⟩, -, is⟩ := mem_filterMap.mp isEntry
    exact congrArg Prod.fst (Option.some_inj.mp (Option.ite_none_left_eq_some.mp is).2).symm

theorem distributeBlockerDamage_total (blocker : ObjectId) (power : Nat) {attackers : List ObjectId}
    (some_ : attackers ≠ []) :
    dealt (distributeBlockerDamage blocker power attackers) blocker = power := by
  rw [dealt_own (distributeBlockerDamage_own blocker power attackers)]
  unfold distributeBlockerDamage
  split
  · exact absurd rfl some_
  · simp
  · have divided := divided_sum (fun attacker n => (blocker, ⟨.object attacker, n⟩))
      (fun _ _ => rfl) (power / attackers.length) (power % attackers.length) attackers 0
    have least := Nat.mod_lt power (length_pos_iff.mpr some_)
    have whole := Nat.div_add_mod power attackers.length
    rw [Nat.zero_add, min_eq_right least.le] at divided
    exact divided.trans whole

section
variable {base state after : GameState} {combat : CombatState} {info : AttackerInfo}
variable {object : GameObject} {answer : CombatDamageAnswer} {now : Progress} {i : Nat}

theorem assignedEntries_own (source : ObjectId) (assignments : List (ObjectId × Nat)) :
    ∀ entry ∈ assignedEntries source assignments, entry.1 = source := by
  intro entry isEntry
  obtain ⟨assignment, -, rfl⟩ := mem_map.mp isEntry
  rfl

theorem assignedEntries_total (source : ObjectId) (assignments : List (ObjectId × Nat)) :
    dealt (assignedEntries source assignments) source = (assignments.map (·.2)).sum := by
  rw [dealt_own (assignedEntries_own source assignments)]
  induction assignments with
  | nil => rfl
  | cons assignment rest ih =>
    unfold assignedEntries at ih ⊢
    by_cases some_ : 0 < assignment.2
    · rw [filter_cons_of_pos (by simpa using some_)]
      simpa using ih
    · rw [filter_cons_of_neg (by simpa using some_), map_cons, sum_cons]
      omega

theorem excessEntry_own (source : ObjectId) (target : Option DamageTarget) (amount : Nat) :
    ∀ entry ∈ excessEntry source target amount, entry.1 = source := by
  unfold excessEntry
  intro entry isEntry
  split at isEntry
  · cases isEntry
  · cases target with
    | none => cases isEntry
    | some target => rw [mem_singleton.mp isEntry]

theorem excessEntry_total (source : ObjectId) {target : Option DamageTarget} {amount : Nat}
    (recipient : 0 < amount → target.isSome) :
    dealt (excessEntry source target amount) source = amount := by
  rw [dealt_own (excessEntry_own source target amount), excessEntry]
  split
  · next zero => rw [zero]; rfl
  · next some_ =>
    obtain ⟨recipient, rfl⟩ := Option.isSome_iff_exists.mp (recipient (Nat.pos_of_ne_zero some_))
    rfl

theorem recordAttacker_during (entries : List (ObjectId × DamageAssignment)) :
    recordAttacker (base.during combat { now with damageStepIndex := some i }) entries =
      base.during combat { now.add entries with damageStepIndex := some (i + 1) } := rfl

theorem attackerInfo_of_mem (attacks : info ∈ combat.attackers) :
    attackerInfo (base.during combat now) info.objectId = some info :=
  (Keyed.find?_eq_some combat.once).mpr ⟨attacks, rfl⟩

theorem expectedTotal_asked
    (asked : needsInteractiveAssignment base info object combat (combatDamageAmount object)
      (object.hasKeyword .deathtouch) (trampleKind object)) :
    expectedTotal (attackerPrompt state info object combat) =
      if hasRecipient base combat info (trampleKind object) .normal
        then combatDamageAmount object else 0 := by
  have isTotal : expectedTotal (attackerPrompt state info object combat) =
      if (combat.blockersOf info.objectId).isEmpty && (trampleKind object).isNone then 0
        else combatDamageAmount object := by
    unfold expectedTotal attackerPrompt
    rw [isEmpty_map]
  rw [isTotal]
  unfold hasRecipient
  unfold needsInteractiveAssignment at asked
  cases blockers : combat.blockersOf info.objectId with
  | cons blocker others => rfl
  | nil =>
    rw [blockers] at asked
    split at asked
    · next asThough =>
      rw [Bool.and_eq_true] at asThough
      have none_ : (trampleKind object).isNone := by simpa using asked
      rw [asThough.2, Option.isNone_iff_eq_none.mp none_]
      rfl
    · simp at asked

/-- An answer that does not wrap divides just what the attacker contributes. -/
theorem handleAssignCombatDamage_share (isCombat : base.combat = some combat)
    (attacks : info ∈ combat.attackers)
    (asked : needsInteractiveAssignment base info object combat (combatDamageAmount object)
      (object.hasKeyword .deathtouch) (trampleKind object))
    (fits : answer.amounts.sum < 2 ^ 32)
    (accepted : handleAssignCombatDamage (base.during combat { now with damageStepIndex := some i })
      (attackerPrompt (base.during combat now) info object combat) answer = .ok after) :
    ∃ entries, (∀ entry ∈ entries, entry.1 = info.objectId) ∧
      AttackerShare base combat info object (dealt entries info.objectId) ∧
      after = base.during combat { now.add entries with damageStepIndex := some (i + 1) } := by
  obtain ⟨allowed, ways⟩ := handleAssignCombatDamage_ok accepted
  rcases ways with ⟨isMode, accepted⟩ | ⟨isMode, accepted⟩
  · obtain ⟨info', isInfo, -, -, -, rfl⟩ := assignAsThoughUnblocked_ok accepted
    have same : info' = info := Option.some_inj.mp (isInfo.symm.trans (attackerInfo_of_mem attacks))
    subst same
    refine ⟨_, ?_, ⟨.asThoughUnblocked, isMode ▸ allowed, ?_⟩, recordAttacker_during _⟩
    · intro entry isEntry
      obtain ⟨assignment, -, rfl⟩ := mem_map.mp isEntry
      rfl
    · rw [dealt_own fun entry isEntry => ?_, map_map]
      · refine (assignDamageAsThoughUnblocked_total _).trans ?_
        rw [resolveDamageTarget_during isCombat]
        rfl
      · obtain ⟨assignment, -, rfl⟩ := mem_map.mp isEntry
        rfl
  · obtain ⟨info', isInfo, checked, rfl⟩ := assignNormally_ok accepted
    have same : info' = info := Option.some_inj.mp (isInfo.symm.trans (attackerInfo_of_mem attacks))
    subst same
    refine ⟨_, ?_, ⟨.normal, isMode ▸ allowed, ?_⟩, recordAttacker_during _⟩
    · intro entry isEntry
      rcases mem_append.mp isEntry with isEntry | isEntry
      · rcases mem_append.mp isEntry with isEntry | isEntry
        · exact assignedEntries_own _ _ entry isEntry
        · exact excessEntry_own _ _ _ entry isEntry
      · exact excessEntry_own _ _ _ entry isEntry
    · have whole : answer.amounts.sum = expectedTotal
          (attackerPrompt (base.during combat now) info' object combat) := by
        rw [← checked.total, wrappingSum_eq fits]
      have divided : answer.amounts.sum = (answer.assignments.map (·.2)).sum +
          answer.trampleDamage + answer.controllerDamage := by
        simp [CombatDamageAnswer.amounts, Nat.add_assoc]
      have own : (attackerPrompt (base.during combat now) info' object combat).attackerId =
          info'.objectId := rfl
      rw [own, dealt_append, dealt_append, assignedEntries_total,
        excessEntry_total _ fun some_ => checked.recipient (hasExcess_iff.mpr (by omega)),
        excessEntry_total _ fun some_ => ?_, ← divided, whole, expectedTotal_asked asked]
      rw [Option.isSome_map]
      exact (checked.controller some_).2.2.1

/-- Nothing stays of a blocker that is asked about but an amount to each attacker. -/
theorem handleAssignBlockerDamage_share {prompt : AssignBlockerDamage}
    {assignments : List (ObjectId × Nat)} (fits : (assignments.map (·.2)).sum < 2 ^ 32)
    (some_ : prompt.totalDamage ≠ 0)
    (accepted : handleAssignBlockerDamage (base.during combat now) prompt assignments =
      .ok after) :
    ∃ entries recorded, (∀ entry ∈ entries, entry.1 = prompt.blockerId) ∧ recorded ≠ [] ∧
      dealt entries prompt.blockerId = prompt.totalDamage ∧
      after = base.during combat ((now.add entries).record prompt.blockerId recorded) := by
  obtain ⟨total, -, rfl⟩ := handleAssignBlockerDamage_ok accepted
  rw [wrappingSum_eq fits] at total
  have all := assignedEntries_total prompt.blockerId assignments
  refine ⟨assignedEntries prompt.blockerId assignments, _, assignedEntries_own _ _, ?_,
    all.trans total, rfl⟩
  intro none_
  rw [map_eq_nil_iff] at none_
  rw [none_] at all
  exact some_ (total.symm.trans all.symm)

end

end Phase.Combat
