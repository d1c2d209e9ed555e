import Phase.Combat.Answers

/-! While the damage of a sub-step is assigned, only the progress of the assignment changes. -/
namespace Phase.Combat

/-- What the assignment of a sub-step writes. -/
structure Progress where
  pendingDamage : List (ObjectId × DamageAssignment) := []
  damageStepIndex : Option Nat := none
  damageAssignments : AList fun _ : ObjectId => List DamageAssignment := ∅

def Progress.add (progress : Progress) (entries : List (ObjectId × DamageAssignment)) :
    Progress := { progress with pendingDamage := progress.pendingDamage ++ entries }

def Progress.record (progress : Progress) (blocker : ObjectId)
    (assignments : List DamageAssignment) : Progress :=
  { progress with
    damageAssignments := progress.damageAssignments.insert blocker assignments }

def CombatState.progress (combat : CombatState) : Progress :=
  ⟨combat.pendingDamage, combat.damageStepIndex, combat.damageAssignments⟩

def CombatState.during (combat : CombatState) (progress : Progress) : CombatState :=
  { combat with
    pendingDamage := progress.pendingDamage
    damageStepIndex := progress.damageStepIndex
    damageAssignments := progress.damageAssignments }

def GameState.during (state : GameState) (combat : CombatState) (progress : Progress) :
    GameState :=
  { state with combat := some (combat.during progress) }

/-- The blockers in the order they are asked about. -/
def CombatState.blockers (combat : CombatState) : List ObjectId :=
  combat.blockerToAttacker.keys.insertionSort (· ≤ ·)

def CombatState.participants (combat : CombatState) : List ObjectId :=
  combat.firstStrikeParticipants.getD []

/-- What an attacker assigns by itself. -/
def autoEntries (state : GameState) (info : AttackerInfo) (object : GameObject)
    (combat : CombatState) : List (ObjectId × DamageAssignment) :=
  (assignAttackerDamage state info combat (combatDamageAmount object)
    (object.hasKeyword .deathtouch) (trampleKind object)).map
      fun assignment => (info.objectId, assignment)

section
variable {base : GameState} {combat : CombatState} {progress progress' : Progress}
variable {info : AttackerInfo} {subStep : CombatDamageSubStep} {participants : List ObjectId}

theorem during_progress (isCombat : base.combat = some combat) :
    base.during combat combat.progress = base := by
  obtain ⟨objects, players, activePlayer, _⟩ := base
  cases isCombat
  rfl

theorem dealer_during (id : ObjectId) :
    dealer subStep participants (base.during combat progress) id =
      dealer subStep participants base id := rfl

theorem resolveDamageTarget_during (isCombat : base.combat = some combat) (trampleOverPw : Bool) :
    info.resolveDamageTarget (base.during combat progress) trampleOverPw =
      info.resolveDamageTarget base trampleOverPw := by
  obtain ⟨objects, players, activePlayer, _⟩ := base
  cases isCombat
  rfl

theorem needsInteractiveAssignment_during (object : GameObject) (power : Nat) (deathtouch : Bool)
    (trample : Option TrampleKind) :
    needsInteractiveAssignment (base.during combat progress) info object (combat.during progress')
        power deathtouch trample =
      needsInteractiveAssignment base info object combat power deathtouch trample := rfl

/-- An attacker that deals nothing, one that is asked about, or one that is dealt with. -/
theorem collectAttacker_during (index : Nat) :
    let result := collectAttacker (combat.during progress') subStep participants
      (base.during combat progress) info index
    match dealer subStep participants base info.objectId with
    | none => result = (none, base.during combat progress)
    | some object =>
      if needsInteractiveAssignment base info object combat (combatDamageAmount object)
          (object.hasKeyword .deathtouch) (trampleKind object) then
        result = (some (.assignCombatDamage
            (attackerPrompt (base.during combat progress) info object combat)),
          base.during combat { progress with damageStepIndex := some index })
      else result = (none, base.during combat
        (progress.add (autoEntries (base.during combat progress) info object combat))) := by
  unfold collectAttacker
  rw [dealer_during]
  cases dealer subStep participants base info.objectId with
  | none => rfl
  | some object =>
    dsimp only
    rw [needsInteractiveAssignment_during]
    split
    · rfl
    · rfl

theorem collectBlocker_during (blocker : ObjectId) :
    let result := collectBlocker (combat.during progress') subStep participants
      (base.during combat progress) blocker
    let attackers := (combat.blockerToAttacker.lookup blocker).getD []
    if ((progress'.damageAssignments.lookup blocker).getD []).isEmpty then
      match attackers, dealer subStep participants base blocker with
      | first :: _, some object =>
        result = (some (.assignBlockerDamage
            ⟨base.activePlayer, blocker, combatDamageAmount object, attackers⟩),
          base.during combat progress) ∨
        result = (none, base.during combat ((progress.add
          (distributeBlockerDamage blocker (combatDamageAmount object) attackers)).record blocker
            [⟨.object first, combatDamageAmount object⟩]))
      | _, _ => result = (none, base.during combat progress)
    else result = (none, base.during combat progress) := by
  unfold collectBlocker
  rw [show (combat.during progress').damageAssignments = progress'.damageAssignments from rfl,
    show (combat.during progress').blockerToAttacker = combat.blockerToAttacker from rfl]
  split
  · cases (combat.blockerToAttacker.lookup blocker).getD [] with
    | nil => rfl
    | cons first others =>
      rw [dealer_during]
      cases dealer subStep participants base blocker with
      | none => rfl
      | some object =>
        dsimp only
        split
        · exact .inl rfl
        · exact .inr rfl
  · rfl

/-- What holds at the attacker at the cursor, and is kept past attackers that are dealt with. -/
structure AttackerRule (base : GameState) (combat : CombatState) (subStep : CombatDamageSubStep)
    (participants : List ObjectId) (P : Nat → Progress → Prop) : Prop where
  passed : ∀ i info now, combat.attackers[i]? = some info → P i now →
    dealer subStep participants base info.objectId = none → P (i + 1) now
  assigned : ∀ i info now object, combat.attackers[i]? = some info → P i now →
    dealer subStep participants base info.objectId = some object →
    ¬needsInteractiveAssignment base info object combat (combatDamageAmount object)
      (object.hasKeyword .deathtouch) (trampleKind object) →
    P (i + 1) (now.add (autoEntries (base.during combat now) info object combat))

/-- What holds of the blockers that are left, and is kept past blockers that are dealt with. -/
structure BlockerRule (base : GameState) (combat : CombatState) (subStep : CombatDamageSubStep)
    (participants : List ObjectId) (start : Progress) (P : List ObjectId → Progress → Prop) :
    Prop where
  passed : ∀ blocker rest now, P (blocker :: rest) now →
    (start.damageAssignments.lookup blocker).getD [] ≠ [] ∨
      (combat.blockerToAttacker.lookup blocker).getD [] = [] ∨
        dealer subStep participants base blocker = none → P rest now
  assigned : ∀ blocker rest now object first others, P (blocker :: rest) now →
    (start.damageAssignments.lookup blocker).getD [] = [] →
    (combat.blockerToAttacker.lookup blocker).getD [] = first :: others →
    dealer subStep participants base blocker = some object →
    P rest ((now.add (distributeBlockerDamage blocker (combatDamageAmount object)
      (first :: others))).record blocker [⟨.object first, combatDamageAmount object⟩])

/-- The loop stops at an attacker that is asked about. -/
structure AsksAttacker (base : GameState) (combat : CombatState) (subStep : CombatDamageSubStep)
    (participants : List ObjectId) (P : Nat → Progress → Prop)
    (result : Option DamagePrompt × GameState) (i : Nat) (info : AttackerInfo)
    (object : GameObject) (now : Progress) : Prop where
  at_ : combat.attackers[i]? = some info
  holds : P i now
  deals : dealer subStep participants base info.objectId = some object
  asks : needsInteractiveAssignment base info object combat (combatDamageAmount object)
    (object.hasKeyword .deathtouch) (trampleKind object)
  is : result = (some (.assignCombatDamage
    (attackerPrompt (base.during combat now) info object combat)),
      base.during combat { now with damageStepIndex := some i })

structure AsksBlocker (base : GameState) (combat : CombatState) (subStep : CombatDamageSubStep)
    (participants : List ObjectId) (start : Progress) (P : List ObjectId → Progress → Prop)
    (result : Option DamagePrompt × GameState) (blocker : ObjectId) (rest : List ObjectId)
    (object : GameObject) (now : Progress) : Prop where
  holds : P (blocker :: rest) now
  unrecorded : (start.damageAssignments.lookup blocker).getD [] = []
  blocks : (combat.blockerToAttacker.lookup blocker).getD [] ≠ []
  deals : dealer subStep participants base blocker = some object
  is : result = (some (.assignBlockerDamage ⟨base.activePlayer, blocker,
    combatDamageAmount object, (combat.blockerToAttacker.lookup blocker).getD []⟩),
      base.during combat now)

variable {P : Nat → Progress → Prop}

theorem collectAttackers_during {start : Nat}
    (rule : AttackerRule base combat subStep participants P) (holds : P start progress) :
    let result := collectAttackers (combat.during progress') subStep participants
      (combat.attackers.zipIdx.drop start) (base.during combat progress)
    (∃ i info object now, AsksAttacker base combat subStep participants P result i info object
      now) ∨
    ∃ now, P (max start combat.attackers.length) now ∧
      result = (none, base.during combat now) := by
  generalize isLeft : combat.attackers.length - start = left
  induction left generalizing start progress with
  | zero =>
    have past : combat.attackers.length ≤ start := Nat.sub_eq_zero_iff_le.mp isLeft
    rw [List.drop_eq_nil_of_le (by simpa using past), max_eq_left past]
    exact .inr ⟨progress, holds, rfl⟩
  | succ left ih =>
    have here : start < combat.attackers.length := by omega
    have same : max (start + 1) combat.attackers.length =
        max start combat.attackers.length := by omega
    have at_ : combat.attackers[start]? = some combat.attackers[start] :=
      List.getElem?_eq_getElem here
    have entries : combat.attackers.zipIdx.drop start =
        (combat.attackers[start], start) :: combat.attackers.zipIdx.drop (start + 1) := by
      rw [List.drop_eq_getElem_cons (by simpa using here)]
      simp
    have step := @collectAttacker_during base combat progress progress'
      combat.attackers[start] subStep participants start
    rw [entries, collectAttackers]
    cases isDealer : dealer subStep participants base combat.attackers[start].objectId with
    | none =>
      rw [isDealer] at step
      rw [step]
      exact same ▸ ih (rule.passed _ _ _ at_ holds isDealer) (by omega)
    | some object =>
      rw [isDealer] at step
      dsimp only at step
      split at step
      · next asks =>
        rw [step]
        exact .inl ⟨start, _, object, progress, at_, holds, isDealer, asks, rfl⟩
      · next dealt =>
        rw [step]
        exact same ▸ ih (rule.assigned _ _ _ _ at_ holds isDealer dealt) (by omega)

theorem collectBlockers_during {P : List ObjectId → Progress → Prop} {blockers : List ObjectId}
    (rule : BlockerRule base combat subStep participants progress' P)
    (holds : P blockers progress) :
    let result := collectBlockers (combat.during progress') subStep participants blockers
      (base.during combat progress)
    (∃ blocker rest object now, AsksBlocker base combat subStep participants progress' P result
      blocker rest object now) ∨ ∃ now, P [] now ∧ result = (none, base.during combat now) := by
  induction blockers generalizing progress with
  | nil => exact .inr ⟨progress, holds, rfl⟩
  | cons blocker blockers ih =>
    have step := @collectBlocker_during base combat progress progress' subStep participants blocker
    rw [collectBlockers]
    split at step
    · next unrecorded =>
      have isUnrecorded := List.isEmpty_iff.mp unrecorded
      cases isAttackers : (combat.blockerToAttacker.lookup blocker).getD [] with
      | nil =>
        rw [isAttackers] at step
        rw [step]
        exact ih (rule.passed _ _ _ holds (.inr (.inl isAttackers)))
      | cons first others =>
        rw [isAttackers] at step
        cases isDealer : dealer subStep participants base blocker with
        | none =>
          rw [isDealer] at step
          rw [step]
          exact ih (rule.passed _ _ _ holds (.inr (.inr isDealer)))
        | some object =>
          rw [isDealer] at step
          rcases step with isAsked | isNext
          · rw [isAsked, ← isAttackers]
            refine .inl ⟨blocker, blockers, object, progress, holds, isUnrecorded, ?_,
              isDealer, rfl⟩
            rw [isAttackers]
            exact List.cons_ne_nil _ _
          · rw [isNext]
            exact ih (rule.assigned _ _ _ _ _ _ holds isUnrecorded isAttackers isDealer)
    · next recorded =>
      rw [step]
      refine ih (rule.passed _ _ _ holds (.inl fun none_ => recorded ?_))
      rw [none_]
      rfl

theorem collectDamageAssignments_eq :
    collectDamageAssignments (base.during combat progress) subStep =
      match collectAttackers (combat.during progress) subStep combat.participants
        (combat.attackers.zipIdx.drop (progress.damageStepIndex.getD 0))
          (base.during combat progress) with
      | (some prompt, state) => (some prompt, state)
      | (none, state) =>
        match collectBlockers (combat.during progress) subStep combat.participants
          combat.blockers (state.updateCombat fun combat =>
            { combat with damageStepIndex := some combat.attackers.length }) with
        | (some prompt, state) => (some prompt, state)
        | (none, state) =>
          (none, state.updateCombat fun combat => { combat with damageStepIndex := none }) :=
  rfl

theorem collectDamageAssignments_during {Q : List ObjectId → Progress → Prop}
    (attackers : AttackerRule base combat subStep combat.participants P)
    (blockers : BlockerRule base combat subStep combat.participants progress Q)
    (holds : P (progress.damageStepIndex.getD 0) progress)
    (next : ∀ now, P (max (progress.damageStepIndex.getD 0) combat.attackers.length) now →
      Q combat.blockers { now with damageStepIndex := some combat.attackers.length }) :
    let result := collectDamageAssignments (base.during combat progress) subStep
    (∃ i info object now, AsksAttacker base combat subStep combat.participants P result i info
      object now) ∨
    (∃ blocker rest object now, AsksBlocker base combat subStep combat.participants progress Q
      result blocker rest object now) ∨
    ∃ now, Q [] now ∧ result = (none, base.during combat { now with damageStepIndex := none }) := by
  rw [collectDamageAssignments_eq]
  rcases @collectAttackers_during base combat progress progress subStep combat.participants P _
    attackers holds with asked | ⟨now, holds', isNone⟩
  · obtain ⟨i, info, object, now, at_, holds', deals, asks, is⟩ := asked
    refine .inl ⟨i, info, object, now, at_, holds', deals, asks, ?_⟩
    rw [is]
  · right
    have cursor : (base.during combat now).updateCombat (fun combat =>
        { combat with damageStepIndex := some combat.attackers.length }) =
          base.during combat { now with damageStepIndex := some combat.attackers.length } := rfl
    rw [isNone]
    dsimp only
    rw [cursor]
    rcases @collectBlockers_during base combat { now with
        damageStepIndex := some combat.attackers.length } progress subStep combat.participants Q _
      blockers (next now holds') with asked | ⟨last, holds'', isNone'⟩
    · obtain ⟨blocker, rest, object, last, holds'', unrecorded, blocks, deals, is⟩ := asked
      refine .inl ⟨blocker, rest, object, last, holds'', unrecorded, blocks, deals, ?_⟩
      rw [is]
    · refine .inr ⟨last, holds'', ?_⟩
      rw [isNone']
      rfl

theorem attackerRule_true : AttackerRule base combat subStep participants fun _ _ => True :=
  ⟨fun _ _ _ _ _ _ => trivial, fun _ _ _ _ _ _ _ _ => trivial⟩

theorem blockerRule_true : BlockerRule base combat subStep participants progress fun _ _ => True :=
  ⟨fun _ _ _ _ _ => trivial, fun _ _ _ _ _ _ _ _ _ _ => trivial⟩

/-- Only the assignment of damage changes. -/
theorem collectDamageAssignments_keeps (isCombat : base.combat = some combat) :
    ∃ now, (collectDamageAssignments base subStep).2 = base.during combat now := by
  rw [← during_progress isCombat]
  rcases collectDamageAssignments_during attackerRule_true blockerRule_true trivial
    fun _ _ => trivial with ⟨_, _, _, now, asked⟩ | ⟨_, _, _, now, asked⟩ | ⟨now, -, is⟩
  · exact ⟨_, congrArg Prod.snd asked.is⟩
  · exact ⟨_, congrArg Prod.snd asked.is⟩
  · exact ⟨_, congrArg Prod.snd is⟩

theorem object_of_dealer {id : ObjectId} {object : GameObject}
    (isDealer : dealer subStep participants base id = some object) :
    base.object id = some object := (Option.filter_eq_some_iff.mp isDealer).1

/-- What a prompt says about the creature it asks about. -/
inductive Describes (state : GameState) (combat : CombatState) : DamagePrompt → Prop
  | attacker {info : AttackerInfo} {object : GameObject} {prompt : AssignCombatDamage}
      (attacks : info ∈ combat.attackers) (is : state.object info.objectId = some object)
      (attacker : prompt.attackerId = info.objectId)
      (total : prompt.totalDamage = combatDamageAmount object)
      (trample : prompt.trample = trampleKind object)
      (blockers : prompt.blockers = (combat.blockersOf info.objectId).map fun blocker =>
        ⟨blocker, lethalDamageNeeded state blocker (object.hasKeyword .deathtouch)⟩) :
      Describes state combat (.assignCombatDamage prompt)
  | blocker {object : GameObject} {prompt : AssignBlockerDamage}
      (is : state.object prompt.blockerId = some object)
      (total : prompt.totalDamage = combatDamageAmount object)
      (attackers : prompt.attackers =
        (combat.blockerToAttacker.lookup prompt.blockerId).getD []) :
      Describes state combat (.assignBlockerDamage prompt)

theorem collectDamageAssignments_describes {prompt : DamagePrompt} {after : GameState}
    (isCombat : base.combat = some combat)
    (asked : collectDamageAssignments base subStep = (some prompt, after)) :
    Describes base combat prompt := by
  rw [← during_progress isCombat] at asked
  rcases collectDamageAssignments_during attackerRule_true blockerRule_true trivial
    fun _ _ => trivial with ⟨i, info, object, now, at_, -, deals, -, is⟩ |
      ⟨blocker, rest, object, now, -, -, -, deals, is⟩ | ⟨now, -, is⟩
  · cases asked.symm.trans is
    exact .attacker (List.mem_of_getElem? at_) (object_of_dealer deals) rfl rfl rfl rfl
  · cases asked.symm.trans is
    exact .blocker (object_of_dealer deals) rfl rfl
  · cases asked.symm.trans is

end

end Phase.Combat
