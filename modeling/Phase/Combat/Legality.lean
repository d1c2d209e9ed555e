import Phase.Combat.Defender
import Phase.Combat.Progress

/-! Which accepted answers divide the damage legally: those whose amounts fit in a word. Every prompt
can be answered: by giving all the damage to one creature. -/
namespace Phase.Combat

/-- All that is given to a creature. -/
def givenTo (assignments : List (ObjectId × Nat)) (creature : ObjectId) : Nat :=
  ((assignments.filter (·.1 = creature)).map (·.2)).sum

/-- What the answer has to divide: nothing when all the damage is assigned as though the attacker
were unblocked, or when there is nothing to divide it among. -/
def requiredTotal (prompt : AssignCombatDamage) : CombatDamageAssignmentMode → Nat
  | .asThoughUnblocked => 0
  | .normal => if prompt.blockers = [] ∧ prompt.trample = none then 0 else prompt.totalDamage

/-- The planeswalker that is attacked gets its loyalty, with what is assigned to it already. -/
def LoyaltyMet (state : GameState) (attacker : ObjectId) (toPlaneswalker : Nat) : Prop :=
  ∃ combat info pw, state.combat = some combat ∧ attackerInfo state attacker = some info ∧
    info.attackTarget = .planeswalker pw ∧
      ((activeAttackTarget state info).isSome →
        ((state.object pw).bind (·.loyalty)).getD 0 ≤
          toPlaneswalker + (combat.pendingTo (.object pw)).sum)

structure LegalCombatDamage (state : GameState) (prompt : AssignCombatDamage)
    (answer : CombatDamageAnswer) : Prop where
  total : answer.amounts.sum = requiredTotal prompt answer.mode
  targets : ∀ entry ∈ answer.assignments, entry.1 ∈ prompt.blockers.map (·.blockerId)
  excess : 0 < answer.trampleDamage + answer.controllerDamage → prompt.trample.isSome ∧
    ∀ slot ∈ prompt.blockers, slot.lethalMinimum ≤ givenTo answer.assignments slot.blockerId
  controller : 0 < answer.controllerDamage → prompt.trample = some .overPlaneswalkers ∧
    LoyaltyMet state prompt.attackerId answer.trampleDamage

inductive Legal (state : GameState) : DamagePrompt → DamageAnswer → Prop
  | attacker {prompt : AssignCombatDamage} {answer : CombatDamageAnswer}
      (legal : LegalCombatDamage state prompt answer) :
      Legal state (.assignCombatDamage prompt) (.assignCombatDamage answer)
  | blocker {prompt : AssignBlockerDamage} {assignments : List (ObjectId × Nat)}
      (total : (assignments.map (·.2)).sum = prompt.totalDamage)
      (targets : ∀ entry ∈ assignments, entry.1 ∈ prompt.attackers) :
      Legal state (.assignBlockerDamage prompt) (.assignBlockerDamage assignments)

section
variable {state after : GameState} {prompt : AssignCombatDamage} {answer : CombatDamageAnswer}
variable {info : AttackerInfo}

theorem assignedTo_le (assignments : List (ObjectId × Nat)) (creature : ObjectId) :
    assignedTo assignments creature ≤ givenTo assignments creature := by
  unfold assignedTo givenTo
  induction assignments with
  | nil => exact Nat.zero_le _
  | cons entry rest ih =>
    by_cases same : entry.1 = creature
    · simp [same]
    · simpa [same] using ih

theorem requiredTotal_normal : requiredTotal prompt .normal = expectedTotal prompt := by
  unfold requiredTotal expectedTotal
  simp only [Bool.and_eq_true, List.isEmpty_iff, Option.isNone_iff_eq_none]

theorem hasExcess_iff : answer.hasExcess ↔ 0 < answer.trampleDamage + answer.controllerDamage := by
  rw [CombatDamageAnswer.hasExcess, Bool.or_eq_true, decide_eq_true_eq, decide_eq_true_eq]
  omega

theorem attackerInfo_combat {id : ObjectId} (isInfo : attackerInfo state id = some info) :
    ∃ combat, state.combat = some combat ∧ info ∈ combat.attackers ∧ info.objectId = id := by
  obtain ⟨combat, isCombat, found⟩ := Option.bind_eq_some_iff.mp isInfo
  exact ⟨combat, isCombat, List.mem_of_find?_eq_some found, by simpa using List.find?_some found⟩

/-- The threshold counts the damage that is pending, at most as much as there is. -/
theorem loyaltyMet_of_threshold {spilled : Nat}
    (isInfo : attackerInfo state prompt.attackerId = some info)
    (attacks : info.attacksPlaneswalker)
    (enough : (computePwLoyaltyThreshold state info).1.getD 0 ≤ spilled) :
    LoyaltyMet state prompt.attackerId spilled := by
  obtain ⟨combat, isCombat, -, -⟩ := attackerInfo_combat isInfo
  cases target : info.attackTarget with
  | planeswalker pw =>
    refine ⟨combat, info, pw, isCombat, isInfo, target, fun active => ?_⟩
    have isActive : (activeAttackTarget state info).isNone = false := by
      rwa [← Option.not_isSome, Bool.not_eq_false']
    unfold computePwLoyaltyThreshold at enough
    rw [target] at enough
    dsimp only at enough
    rw [isActive, isCombat, if_neg Bool.false_ne_true] at enough
    have least := wrappingSum_le (combat.pendingTo (.object pw))
    simp only [Option.getD_some] at enough
    omega
  | player _ => rw [AttackerInfo.attacksPlaneswalker, target] at attacks; cases attacks
  | battle _ => rw [AttackerInfo.attacksPlaneswalker, target] at attacks; cases attacks

theorem normal_legal_iff (isNormal : answer.mode = .normal)
    (accepted : assignNormally state prompt answer = .ok after) :
    LegalCombatDamage state prompt answer ↔ answer.amounts.sum < 2 ^ 32 := by
  obtain ⟨info, isInfo, checked, -⟩ := assignNormally_ok accepted
  have total := checked.total
  constructor
  · rintro ⟨same, -, -, -⟩
    rw [isNormal, requiredTotal_normal] at same
    rw [same, ← total]
    exact Nat.mod_lt _ (by decide)
  · intro fits
    refine ⟨?_, checked.blockers, fun excess => ?_, fun spills => ?_⟩
    · rw [isNormal, requiredTotal_normal, ← total, wrappingSum_eq fits]
    · have some_ := hasExcess_iff.mpr excess
      exact ⟨checked.tramples some_, fun slot isSlot =>
        (checked.lethal some_ slot isSlot).trans (assignedTo_le _ _)⟩
    · obtain ⟨isOver, attacks, -, enough⟩ := checked.controller spills
      exact ⟨isOver, loyaltyMet_of_threshold isInfo attacks enough⟩

theorem asThoughUnblocked_legal (isUnblocked : answer.mode = .asThoughUnblocked)
    (accepted : assignAsThoughUnblocked state prompt answer = .ok after) :
    LegalCombatDamage state prompt answer ∧ answer.amounts.sum < 2 ^ 32 := by
  obtain ⟨info, -, none_, noTrample, noController, -⟩ := assignAsThoughUnblocked_ok accepted
  have total : answer.amounts.sum = 0 := by
    simp [CombatDamageAnswer.amounts, none_, noTrample, noController]
  refine ⟨⟨?_, ?_, fun some_ => ?_, fun some_ => ?_⟩, total ▸ by decide⟩
  · rw [total, isUnblocked]
    rfl
  · rw [none_]
    exact nofun
  · omega
  · omega

end

/-- An answer that is accepted divides the damage legally exactly when its amounts add up without
wrapping; and the prompt asks for what the creature deals, with its own trample and with what is
lethal to its blockers. -/
theorem accepted_legal_iff (state after : GameState) (prompt : DamagePrompt)
    (answer : DamageAnswer) (accepted : Accepts state after prompt answer) :
    (Legal state prompt answer ↔ answer.amounts.sum < 2 ^ 32) ∧
      ∀ base combat subStep, base.combat = some combat →
        collectDamageAssignments base subStep = (some prompt, state) →
          Describes base combat prompt := by
  refine ⟨?_, fun base combat subStep isCombat asked =>
    collectDamageAssignments_describes isCombat asked⟩
  cases accepted with
  | @attacker prompt answer accepted =>
    have same : Legal state (.assignCombatDamage prompt) (.assignCombatDamage answer) ↔
        LegalCombatDamage state prompt answer :=
      ⟨fun legal => by cases legal with | attacker legal => exact legal, .attacker⟩
    rw [same]
    rcases (handleAssignCombatDamage_ok accepted).2 with ⟨isMode, accepted⟩ | ⟨isMode, accepted⟩
    · exact iff_of_true (asThoughUnblocked_legal isMode accepted).1
        (asThoughUnblocked_legal isMode accepted).2
    · exact normal_legal_iff isMode accepted
  | @blocker prompt assignments accepted =>
    obtain ⟨total, targets, -⟩ := handleAssignBlockerDamage_ok accepted
    constructor
    · rintro ⟨⟩
      next same _ =>
      rw [DamageAnswer.amounts, same, ← total]
      exact Nat.mod_lt _ (by decide)
    · intro fits
      exact .blocker ((wrappingSum_eq fits).symm.trans total) targets

/-! A creature with power three is blocked by two creatures. -/

def doubleBlockCombat : CombatState where
  attackers := [⟨1, 1, .player 1, true⟩]
  blockerAssignments := AList.insert 1 [2, 3] ∅
  blockerToAttacker := AList.insert 2 [1] (AList.insert 3 [1] ∅)
  firstStrikeParticipants := some []

def doubleBlock : GameState where
  objects := [{ id := 1, controller := 0, power := some 3, toughness := some 3 },
    { id := 2, controller := 1, power := some 1, toughness := some 1 },
    { id := 3, controller := 1, power := some 2, toughness := some 2 }]
  players := [{ id := 0 }, { id := 1 }]
  activePlayer := 0
  combat := some doubleBlockCombat

def doubleBlockPrompt : AssignCombatDamage :=
  ⟨0, 1, 3, [⟨2, 1⟩, ⟨3, 2⟩], [.normal], none, 1, .player 1, none, none⟩

def doubleBlockAsked : GameState :=
  doubleBlock.updateCombat fun combat => { combat with damageStepIndex := some 0 }

theorem doubleBlock_asks : collectDamageAssignments doubleBlock .regular =
    (some (.assignCombatDamage doubleBlockPrompt), doubleBlockAsked) := rfl

theorem honest_answer_legal :
    let answer := DamageAnswer.assignCombatDamage { assignments := [(2, 1), (3, 2)] }
    (Legal doubleBlockAsked (.assignCombatDamage doubleBlockPrompt) answer ↔
        answer.amounts.sum < 2 ^ 32) ∧
      ∀ base combat subStep, base.combat = some combat →
        collectDamageAssignments base subStep =
            (some (.assignCombatDamage doubleBlockPrompt), doubleBlockAsked) →
          Describes base combat (.assignCombatDamage doubleBlockPrompt) :=
  accepted_legal_iff doubleBlockAsked
    (recordAttacker doubleBlockAsked [(1, ⟨.object 2, 1⟩), (1, ⟨.object 3, 2⟩)])
    (.assignCombatDamage doubleBlockPrompt) _ (.attacker rfl)

/-- `2^32 - 1` to one blocker and four to the other are accepted as three. -/
theorem wrapping_answer_accepted :
    collectDamageAssignments doubleBlock .regular =
        (some (.assignCombatDamage doubleBlockPrompt), doubleBlockAsked) ∧
      ∃ after, Accepts doubleBlockAsked after (.assignCombatDamage doubleBlockPrompt)
          (.assignCombatDamage { assignments := [(2, 4294967295), (3, 4)] }) ∧
        ¬Legal doubleBlockAsked (.assignCombatDamage doubleBlockPrompt)
          (.assignCombatDamage { assignments := [(2, 4294967295), (3, 4)] }) := by
  refine ⟨doubleBlock_asks, recordAttacker doubleBlockAsked
    [(1, ⟨.object 2, 4294967295⟩), (1, ⟨.object 3, 4⟩)], .attacker rfl, fun legal => ?_⟩
  cases legal with
  | attacker legal => exact absurd legal.total (by decide)

open List

section
variable {state : GameState} {prompt : AssignCombatDamage} {info : AttackerInfo}
include info

/-- All of the damage may go to one of the blockers. -/
theorem handleAssignCombatDamage_one (allowed : .normal ∈ prompt.assignmentModes)
    (isInfo : attackerInfo state prompt.attackerId = some info)
    (fits : prompt.totalDamage < 2 ^ 32) {slot : DamageSlot} (blocks : slot ∈ prompt.blockers) :
    ∃ next, handleAssignCombatDamage state prompt
      { assignments := [(slot.blockerId, prompt.totalDamage)] } = .ok next := by
  have listed : ∃ other ∈ prompt.blockers, other.blockerId = slot.blockerId := ⟨slot, blocks, rfl⟩
  have total : expectedTotal prompt = prompt.totalDamage := by
    rw [expectedTotal, isEmpty_eq_false_iff.mpr (ne_nil_of_mem blocks)]
    rfl
  have small : ¬4294967296 ≤ prompt.totalDamage := not_le.mpr fits
  rw [handleAssignCombatDamage, if_neg (not_not.mpr allowed)]
  show ∃ next, assignNormally _ _ _ = _
  rw [assignNormally, isInfo]
  simp [CombatDamageAnswer.hasExcess, CombatDamageAnswer.amounts, checkTotal, total,
    wrappingSum, small, checkBlockers, listed, checkController, checkLethal, pure, Except.pure,
    bind, Except.bind]

theorem handleAssignCombatDamage_none (allowed : .asThoughUnblocked ∈ prompt.assignmentModes)
    (isInfo : attackerInfo state prompt.attackerId = some info) :
    ∃ next, handleAssignCombatDamage state prompt
      { mode := .asThoughUnblocked, assignments := [] } = .ok next := by
  rw [handleAssignCombatDamage, if_neg (not_not.mpr allowed)]
  show ∃ next, assignAsThoughUnblocked _ _ _ = _
  rw [assignAsThoughUnblocked, isInfo]
  exact ⟨_, rfl⟩

end

theorem handleAssignBlockerDamage_one {state : GameState} {prompt : AssignBlockerDamage}
    (fits : prompt.totalDamage < 2 ^ 32) {attacker : ObjectId}
    (blocks : attacker ∈ prompt.attackers) :
    ∃ next, handleAssignBlockerDamage state prompt [(attacker, prompt.totalDamage)] = .ok next := by
  have total : wrappingSum [prompt.totalDamage] = prompt.totalDamage :=
    wrappingSum_eq (by simpa using fits)
  simp [handleAssignBlockerDamage, total, blocks, pure, Except.pure]

theorem normal_allowed (state : GameState) (info : AttackerInfo) (object : GameObject)
    (combat : CombatState) :
    .normal ∈ (attackerPrompt state info object combat).assignmentModes := by
  unfold attackerPrompt combatDamageAssignmentModes
  dsimp only
  split <;> exact mem_cons_self

/-- A prompt about an attacker that may be assigned as though unblocked allows that, and any other
is about one that is blocked. -/
theorem asks_cases {state : GameState} {info : AttackerInfo} {object : GameObject}
    {combat : CombatState} {power : Nat} {hasDeathtouch : Bool}
    (asks : needsInteractiveAssignment state info object combat power hasDeathtouch
      (trampleKind object)) :
    .asThoughUnblocked ∈ (attackerPrompt state info object combat).assignmentModes ∨
      combat.blockersOf info.objectId ≠ [] := by
  refine or_iff_not_imp_right.mpr fun alone => ?_
  rw [not_not] at alone
  simp only [needsInteractiveAssignment, alone] at asks
  split at asks
  · next unblocked =>
    have plain : trampleKind object = none := by simpa using asks
    simp [attackerPrompt, combatDamageAssignmentModes, alone, unblocked, plain]
  · exact absurd asks (by cases trampleKind object <;> simp)

/-- Whatever is asked about a creature, one answer at least is accepted: all of its damage to the
first creature that it may be given to, or none of it where it may be assigned as though unblocked. -/
theorem prompt_answerable (state after : GameState) (subStep : CombatDamageSubStep)
    (prompt : DamagePrompt) (sized : Sized state)
    (asked : collectDamageAssignments state subStep = (some prompt, after)) :
    ∃ answer next, Accepts after next prompt answer := by
  cases isCombat : state.combat with
  | none => rw [collectDamageAssignments, isCombat] at asked; cases asked
  | some combat =>
    have fits {id : ObjectId} {object : GameObject} (is : state.object id = some object) :
        combatDamageAmount object < 2 ^ 32 := by
      have := sized.amount (mem_of_find?_eq_some is)
      omega
    rw [← during_progress isCombat] at asked
    rcases collectDamageAssignments_during attackerRule_true blockerRule_true trivial
      fun _ _ => trivial with ⟨i, info, object, now, at_, -, deals, asks, is⟩ |
        ⟨blocker, rest, object, now, -, -, blocks, deals, is⟩ | ⟨now, -, is⟩
    · cases asked.symm.trans is
      obtain ⟨found, isFound⟩ : ∃ found, attackerInfo (state.during combat
          { now with damageStepIndex := some i }) info.objectId = some found :=
        Option.isSome_iff_exists.mp (find?_isSome.mpr ⟨info, mem_of_getElem? at_, by simp⟩)
      rcases asks_cases asks with allowed | blocked
      · obtain ⟨next, accepted⟩ := handleAssignCombatDamage_none allowed isFound
        exact ⟨_, next, .attacker accepted⟩
      · obtain ⟨first, blocks⟩ := exists_mem_of_ne_nil _ blocked
        obtain ⟨next, accepted⟩ := handleAssignCombatDamage_one
          (normal_allowed _ info object combat) isFound
          (fits (object_of_dealer deals)) (mem_map_of_mem blocks)
        exact ⟨_, next, .attacker accepted⟩
    · cases asked.symm.trans is
      obtain ⟨first, isFirst⟩ := exists_mem_of_ne_nil _ blocks
      obtain ⟨next, accepted⟩ := @handleAssignBlockerDamage_one
        (state.during combat now) ⟨_, blocker, _, _⟩ (fits (object_of_dealer deals)) _ isFirst
      exact ⟨_, next, .blocker accepted⟩
    · cases asked.symm.trans is

theorem doubleBlock_sized : Sized doubleBlock := by
  intro object there value is
  simp only [doubleBlock, mem_cons, not_mem_nil, or_false] at there
  rcases there with rfl | rfl | rfl <;> rcases is with is | is <;> cases is <;> decide

theorem doubleBlock_answerable : ∃ answer next,
    Accepts doubleBlockAsked next (.assignCombatDamage doubleBlockPrompt) answer :=
  prompt_answerable doubleBlock _ .regular _ doubleBlock_sized doubleBlock_asks

end Phase.Combat
