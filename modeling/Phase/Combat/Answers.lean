import Phase.Combat.Collect
import Phase.Lib.Fallible

/-! The answers to the damage prompts: which are accepted, and what they assign. -/
namespace Phase.Combat

inductive EngineError where
  | invalidAction (message : String)
  deriving DecidableEq

/-- What a client sends for an attacker. -/
structure CombatDamageAnswer where
  mode : CombatDamageAssignmentMode := .normal
  assignments : List (ObjectId × Nat)
  trampleDamage : Nat := 0
  controllerDamage : Nat := 0
  deriving DecidableEq

def CombatDamageAnswer.amounts (answer : CombatDamageAnswer) : List Nat :=
  answer.assignments.map (·.2) ++ [answer.trampleDamage, answer.controllerDamage]

def CombatDamageAnswer.hasExcess (answer : CombatDamageAnswer) : Bool :=
  0 < answer.trampleDamage || 0 < answer.controllerDamage

/-- The first amount given for a blocker. -/
def assignedTo (assignments : List (ObjectId × Nat)) (blocker : ObjectId) : Nat :=
  ((assignments.find? (·.1 = blocker)).map (·.2)).getD 0

def debugId (id : ObjectId) : String := s!"ObjectId({id})"

def CombatDamageAssignmentMode.debug : CombatDamageAssignmentMode → String
  | normal => "Normal"
  | asThoughUnblocked => "AsThoughUnblocked"

/-- The assignments to objects that are not zero. -/
def assignedEntries (source : ObjectId) (assignments : List (ObjectId × Nat)) :
    List (ObjectId × DamageAssignment) :=
  (assignments.filter (0 < ·.2)).map fun (target, amount) => (source, ⟨.object target, amount⟩)

def excessEntry (source : ObjectId) (target : Option DamageTarget) (amount : Nat) :
    List (ObjectId × DamageAssignment) :=
  if amount = 0 then [] else (target.map fun target => (source, ⟨target, amount⟩)).toList

/-- Records the damage of an attacker, and goes on to the next. -/
def recordAttacker (state : GameState) (entries : List (ObjectId × DamageAssignment)) :
    GameState :=
  state.updateCombat fun combat =>
    { combat with
      pendingDamage := combat.pendingDamage ++ entries
      damageStepIndex := some (combat.damageStepIndex.getD 0 + 1) }

def expectedTotal (prompt : AssignCombatDamage) : Nat :=
  if prompt.blockers.isEmpty && prompt.trample.isNone then 0 else prompt.totalDamage

def checkTotal (prompt : AssignCombatDamage) (answer : CombatDamageAnswer) :
    Except EngineError Unit :=
  let assignedTotal := wrappingSum answer.amounts
  if assignedTotal ≠ expectedTotal prompt then
    let expected := expectedTotal prompt
    throw (.invalidAction s!"Damage assignment total {assignedTotal} != expected {expected}")
  else return

def checkBlockers (prompt : AssignCombatDamage) (answer : CombatDamageAnswer) :
    Except EngineError Unit :=
  match answer.assignments.find? fun entry => entry.1 ∉ prompt.blockers.map (·.blockerId) with
  | some (blocker, _) =>
    let blocker := debugId blocker
    let attacker := debugId prompt.attackerId
    throw (.invalidAction s!"{blocker} is not a blocker of attacker {attacker}")
  | none => return

def checkController (prompt : AssignCombatDamage) (answer : CombatDamageAnswer)
    (info : AttackerInfo) (pwLoyalty : Option Nat) (pwController : Option PlayerId) :
    Except EngineError Unit :=
  if 0 < answer.controllerDamage then
    if prompt.trample = some .overPlaneswalkers && pwController.isSome && info.attacksPlaneswalker
    then
      let loyaltyThreshold := pwLoyalty.getD 0
      let controllerDamage := answer.controllerDamage
      if answer.trampleDamage < loyaltyThreshold then
        throw (.invalidAction (s!"Trample over planeswalkers: must assign at least " ++
          s!"{loyaltyThreshold} to PW before {controllerDamage} to controller"))
      else return
    else throw (.invalidAction ("Controller damage only allowed with trample over planeswalkers " ++
      "attacking a planeswalker"))
  else return

/-- Only an excess needs lethal damage to every blocker. -/
def checkLethal (prompt : AssignCombatDamage) (answer : CombatDamageAnswer) :
    Except EngineError Unit :=
  if prompt.trample.isSome && answer.hasExcess then
    match prompt.blockers.find? fun slot =>
      assignedTo answer.assignments slot.blockerId < slot.lethalMinimum with
    | some slot =>
      let blocker := debugId slot.blockerId
      let least := slot.lethalMinimum
      throw (.invalidAction (s!"Trample: blocker {blocker} must receive at least {least} " ++
        "lethal damage before excess to player"))
    | none => return
  else return

def attackerInfo (state : GameState) (id : ObjectId) : Option AttackerInfo :=
  state.combat.bind fun combat => combat.attackers.find? (·.objectId = id)

def assignAsThoughUnblocked (state : GameState) (prompt : AssignCombatDamage)
    (answer : CombatDamageAnswer) : Except EngineError GameState :=
  if !answer.assignments.isEmpty || answer.hasExcess then
    throw (.invalidAction "As-though-unblocked assignment does not use blocker or trample splits")
  else
    match attackerInfo state prompt.attackerId with
    | none =>
      let attacker := debugId prompt.attackerId
      throw (.invalidAction s!"Attacker {attacker} not found in combat state")
    | some info =>
      return recordAttacker state
        ((assignDamageAsThoughUnblocked state info prompt.totalDamage prompt.trample).map
          fun assignment => (prompt.attackerId, assignment))

def assignNormally (state : GameState) (prompt : AssignCombatDamage)
    (answer : CombatDamageAnswer) : Except EngineError GameState :=
  match attackerInfo state prompt.attackerId with
  | none => throw (.invalidAction "Attacker no longer in combat")
  | some info =>
    let excessTarget :=
      info.resolveDamageTarget state (prompt.trample = some .overPlaneswalkers)
    let (pwLoyalty, pwController) := computePwLoyaltyThreshold state info
    if answer.hasExcess && excessTarget.isNone then
      throw (.invalidAction "No current recipient for combat damage excess")
    else do
      checkTotal prompt answer
      checkBlockers prompt answer
      if answer.hasExcess && prompt.trample.isNone then
        throw (.invalidAction "Cannot assign trample damage without trample")
      else do
        checkController prompt answer info pwLoyalty pwController
        checkLethal prompt answer
        return recordAttacker state
          (assignedEntries prompt.attackerId answer.assignments ++
            excessEntry prompt.attackerId excessTarget answer.trampleDamage ++
            excessEntry prompt.attackerId (pwController.map .player) answer.controllerDamage)

/-- What is assigned before the damage is resolved further, which refuses nothing. -/
def handleAssignCombatDamage (state : GameState) (prompt : AssignCombatDamage)
    (answer : CombatDamageAnswer) : Except EngineError GameState :=
  if answer.mode ∉ prompt.assignmentModes then
    let mode := answer.mode.debug
    let attacker := debugId prompt.attackerId
    throw (.invalidAction
      s!"Combat damage assignment mode {mode} is not allowed for attacker {attacker}")
  else
    match answer.mode with
    | .asThoughUnblocked => assignAsThoughUnblocked state prompt answer
    | .normal => assignNormally state prompt answer

def handleAssignBlockerDamage (state : GameState) (prompt : AssignBlockerDamage)
    (assignments : List (ObjectId × Nat)) : Except EngineError GameState :=
  let assignedTotal := wrappingSum (assignments.map (·.2))
  let blocker := debugId prompt.blockerId
  let totalDamage := prompt.totalDamage
  if assignedTotal ≠ totalDamage then
    throw (.invalidAction (s!"Blocker {blocker} damage assignment total {assignedTotal} " ++
      s!"!= combat power {totalDamage}"))
  else
    match assignments.find? fun entry => entry.1 ∉ prompt.attackers with
    | some (attacker, _) =>
      let attacker := debugId attacker
      throw (.invalidAction s!"{attacker} is not an attacker blocked by {blocker}")
    | none =>
      let recorded := assignedEntries prompt.blockerId assignments
      return state.updateCombat fun combat =>
        { combat with
          pendingDamage := combat.pendingDamage ++ recorded
          damageAssignments :=
            combat.damageAssignments.insert prompt.blockerId (recorded.map (·.2)) }

section
variable {state after : GameState} {prompt : AssignCombatDamage} {answer : CombatDamageAnswer}
variable {info : AttackerInfo}

/-- What the checks of an ordinary assignment let through. -/
structure Checked (state : GameState) (prompt : AssignCombatDamage) (answer : CombatDamageAnswer)
    (info : AttackerInfo) : Prop where
  total : wrappingSum answer.amounts = expectedTotal prompt
  blockers : ∀ entry ∈ answer.assignments, entry.1 ∈ prompt.blockers.map (·.blockerId)
  recipient : answer.hasExcess →
    (info.resolveDamageTarget state (prompt.trample = some .overPlaneswalkers)).isSome
  tramples : answer.hasExcess → prompt.trample.isSome
  lethal : answer.hasExcess → ∀ slot ∈ prompt.blockers,
    slot.lethalMinimum ≤ assignedTo answer.assignments slot.blockerId
  controller : 0 < answer.controllerDamage → prompt.trample = some .overPlaneswalkers ∧
    info.attacksPlaneswalker ∧ (computePwLoyaltyThreshold state info).2.isSome ∧
      (computePwLoyaltyThreshold state info).1.getD 0 ≤ answer.trampleDamage

theorem checkTotal_ok (passed : checkTotal prompt answer = .ok ()) :
    wrappingSum answer.amounts = expectedTotal prompt := by
  unfold checkTotal at passed
  dsimp only at passed
  split at passed
  · cases passed
  · next same => exact not_not.mp same

theorem checkBlockers_ok (passed : checkBlockers prompt answer = .ok ()) :
    ∀ entry ∈ answer.assignments, entry.1 ∈ prompt.blockers.map (·.blockerId) := by
  unfold checkBlockers at passed
  split at passed
  · cases passed
  · next none_ =>
    intro entry isEntry
    simpa using List.find?_eq_none.mp none_ entry isEntry

theorem checkController_ok {pwLoyalty : Option Nat} {pwController : Option PlayerId}
    (passed : checkController prompt answer info pwLoyalty pwController = .ok ())
    (spills : 0 < answer.controllerDamage) : prompt.trample = some .overPlaneswalkers ∧
      info.attacksPlaneswalker ∧ pwController.isSome ∧ pwLoyalty.getD 0 ≤ answer.trampleDamage := by
  unfold checkController at passed
  rw [if_pos spills] at passed
  split at passed
  · next valid =>
    dsimp only at passed
    split at passed
    · cases passed
    · next enough =>
      simp only [Bool.and_eq_true, decide_eq_true_eq] at valid
      exact ⟨valid.1.1, valid.2, valid.1.2, Nat.le_of_not_lt enough⟩
  · cases passed

theorem checkLethal_ok (passed : checkLethal prompt answer = .ok ())
    (tramples : prompt.trample.isSome) (excess : answer.hasExcess) : ∀ slot ∈ prompt.blockers,
      slot.lethalMinimum ≤ assignedTo answer.assignments slot.blockerId := by
  unfold checkLethal at passed
  rw [tramples, excess, Bool.and_self, if_pos rfl] at passed
  split at passed
  · cases passed
  · next none_ =>
    intro slot isSlot
    simpa using List.find?_eq_none.mp none_ slot isSlot

theorem assignNormally_ok (accepted : assignNormally state prompt answer = .ok after) :
    ∃ info, attackerInfo state prompt.attackerId = some info ∧ Checked state prompt answer info ∧
      after = recordAttacker state (assignedEntries prompt.attackerId answer.assignments ++
        excessEntry prompt.attackerId
          (info.resolveDamageTarget state (prompt.trample = some .overPlaneswalkers))
          answer.trampleDamage ++
        excessEntry prompt.attackerId ((computePwLoyaltyThreshold state info).2.map .player)
          answer.controllerDamage) := by
  unfold assignNormally at accepted
  split at accepted
  · cases accepted
  · next info isInfo =>
    refine ⟨info, isInfo, ?_⟩
    dsimp only at accepted
    split at accepted
    · cases accepted
    · next target =>
      obtain ⟨⟨⟩, total, accepted⟩ := Fallible.bind_eq_ok.mp accepted
      obtain ⟨⟨⟩, blockers, accepted⟩ := Fallible.bind_eq_ok.mp accepted
      split at accepted
      · cases accepted
      · next tramples =>
        obtain ⟨⟨⟩, controller, accepted⟩ := Fallible.bind_eq_ok.mp accepted
        obtain ⟨⟨⟩, lethal, accepted⟩ := Fallible.bind_eq_ok.mp accepted
        cases accepted
        have isTrampler : answer.hasExcess → prompt.trample.isSome := fun excess => by
          rw [excess, Bool.true_and, Option.isNone_iff_eq_none] at tramples
          exact Option.isSome_iff_ne_none.mpr tramples
        have isTarget : answer.hasExcess → (info.resolveDamageTarget state
            (prompt.trample = some .overPlaneswalkers)).isSome := fun excess => by
          rw [excess, Bool.true_and, Option.isNone_iff_eq_none] at target
          exact Option.isSome_iff_ne_none.mpr target
        exact ⟨{
          total := checkTotal_ok total
          blockers := checkBlockers_ok blockers
          recipient := isTarget
          tramples := isTrampler
          lethal := fun excess => checkLethal_ok lethal (isTrampler excess) excess
          controller := checkController_ok controller }, rfl⟩

theorem assignAsThoughUnblocked_ok
    (accepted : assignAsThoughUnblocked state prompt answer = .ok after) :
    ∃ info, attackerInfo state prompt.attackerId = some info ∧ answer.assignments = [] ∧
      answer.trampleDamage = 0 ∧ answer.controllerDamage = 0 ∧
      after = recordAttacker state
        ((assignDamageAsThoughUnblocked state info prompt.totalDamage prompt.trample).map
          fun assignment => (prompt.attackerId, assignment)) := by
  unfold assignAsThoughUnblocked at accepted
  split at accepted
  · cases accepted
  · next none_ =>
    split at accepted
    · cases accepted
    · next info isInfo =>
      cases accepted
      simp only [CombatDamageAnswer.hasExcess, Bool.or_eq_true, Bool.not_eq_true',
        decide_eq_true_eq, not_or, List.isEmpty_eq_false_iff, not_not, Nat.not_lt,
        Nat.le_zero] at none_
      exact ⟨info, isInfo, none_.1, none_.2.1, none_.2.2, rfl⟩

theorem handleAssignCombatDamage_ok
    (accepted : handleAssignCombatDamage state prompt answer = .ok after) :
    answer.mode ∈ prompt.assignmentModes ∧
      (answer.mode = .asThoughUnblocked ∧ assignAsThoughUnblocked state prompt answer = .ok after ∨
        answer.mode = .normal ∧ assignNormally state prompt answer = .ok after) := by
  unfold handleAssignCombatDamage at accepted
  split at accepted
  · cases accepted
  · next allowed =>
    refine ⟨not_not.mp allowed, ?_⟩
    cases isMode : answer.mode with
    | asThoughUnblocked => rw [isMode] at accepted; exact .inl ⟨rfl, accepted⟩
    | normal => rw [isMode] at accepted; exact .inr ⟨rfl, accepted⟩

theorem handleAssignBlockerDamage_ok {prompt : AssignBlockerDamage}
    {assignments : List (ObjectId × Nat)}
    (accepted : handleAssignBlockerDamage state prompt assignments = .ok after) :
    wrappingSum (assignments.map (·.2)) = prompt.totalDamage ∧
      (∀ entry ∈ assignments, entry.1 ∈ prompt.attackers) ∧
      after = state.updateCombat fun combat =>
        { combat with
          pendingDamage := combat.pendingDamage ++ assignedEntries prompt.blockerId assignments
          damageAssignments := combat.damageAssignments.insert prompt.blockerId
            ((assignedEntries prompt.blockerId assignments).map (·.2)) } := by
  unfold handleAssignBlockerDamage at accepted
  dsimp only at accepted
  split at accepted
  · cases accepted
  · next same =>
    split at accepted
    · cases accepted
    · next none_ =>
      cases accepted
      refine ⟨not_not.mp same, fun entry isEntry => ?_, rfl⟩
      simpa using List.find?_eq_none.mp none_ entry isEntry

end

inductive DamageAnswer where
  | assignCombatDamage (answer : CombatDamageAnswer)
  | assignBlockerDamage (assignments : List (ObjectId × Nat))
  deriving DecidableEq

def DamageAnswer.amounts : DamageAnswer → List Nat
  | assignCombatDamage answer => answer.amounts
  | assignBlockerDamage assignments => assignments.map (·.2)

/-- An answer to a prompt of its own kind, which the handler accepts. -/
inductive Accepts (state after : GameState) : DamagePrompt → DamageAnswer → Prop
  | attacker {prompt : AssignCombatDamage} {answer : CombatDamageAnswer}
      (accepted : handleAssignCombatDamage state prompt answer = .ok after) :
      Accepts state after (.assignCombatDamage prompt) (.assignCombatDamage answer)
  | blocker {prompt : AssignBlockerDamage} {assignments : List (ObjectId × Nat)}
      (accepted : handleAssignBlockerDamage state prompt assignments = .ok after) :
      Accepts state after (.assignBlockerDamage prompt) (.assignBlockerDamage assignments)

end Phase.Combat
