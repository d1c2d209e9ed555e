import Phase.Combat.State

/-! How the damage of a sub-step is assigned: by itself where there is nothing to choose, and by a
prompt where there is. -/
namespace Phase.Combat

structure DamageSlot where
  blockerId : ObjectId
  lethalMinimum : Nat
  deriving DecidableEq

inductive CombatDamageAssignmentMode where
  | normal
  | asThoughUnblocked
  deriving DecidableEq

structure AssignCombatDamage where
  player : PlayerId
  attackerId : ObjectId
  totalDamage : Nat
  blockers : List DamageSlot
  assignmentModes : List CombatDamageAssignmentMode
  trample : Option TrampleKind
  defendingPlayer : PlayerId
  attackTarget : AttackTarget
  pwLoyalty : Option Nat
  pwController : Option PlayerId
  deriving DecidableEq

structure AssignBlockerDamage where
  player : PlayerId
  blockerId : ObjectId
  totalDamage : Nat
  attackers : List ObjectId
  deriving DecidableEq

inductive DamagePrompt where
  | assignCombatDamage (prompt : AssignCombatDamage)
  | assignBlockerDamage (prompt : AssignBlockerDamage)
  deriving DecidableEq

def CombatState.blockersOf (combat : CombatState) (attacker : ObjectId) : List ObjectId :=
  (combat.blockerAssignments.lookup attacker).getD []

def CombatState.pendingTo (combat : CombatState) (target : DamageTarget) : List Nat :=
  (combat.pendingDamage.filter fun entry => entry.2.target = target).map (·.2.amount)

section
variable (state : GameState) (info : AttackerInfo)

/-- The loyalty that is still to be assigned, and whose the planeswalker is. -/
def computePwLoyaltyThreshold : Option Nat × Option PlayerId :=
  match info.attackTarget with
  | .planeswalker pw =>
    if (activeAttackTarget state info).isNone then (none, some info.defendingPlayer)
    else
      let baseLoyalty := ((state.object pw).bind (·.loyalty)).getD 0
      let pendingToPw := match state.combat with
        | some combat => wrappingSum (combat.pendingTo (.object pw))
        | none => 0
      (some (baseLoyalty - pendingToPw), (state.object pw).map (·.controller))
  | _ => (none, none)

def assignTrampleOverPwExcess (excess : Nat) : List DamageAssignment :=
  if excess = 0 then []
  else
    let (pwLoyalty, pwController) := computePwLoyaltyThreshold state info
    let toPw := min excess (pwLoyalty.getD 0)
    let toController := excess - toPw
    let spilled := if toPw = 0 then []
      else ((info.resolveDamageTarget state true).map fun target => ⟨target, toPw⟩).toList
    let rest := if toController = 0 then []
      else [⟨.player (pwController.getD info.defendingPlayer), toController⟩]
    spilled ++ rest

def needsInteractiveAssignment (object : GameObject) (combat : CombatState) (power : Nat)
    (hasDeathtouch : Bool) (trample : Option TrampleKind) : Bool :=
  let blockers := combat.blockersOf info.objectId
  if object.assignsDamageAsThoughUnblocked && info.blocked then
    0 < blockers.length || (trampleKind object).isNone
  else
    match trample, blockers with
    | some _, [blocker] => lethalDamageNeeded state blocker hasDeathtouch < power
    | _, _ => 2 ≤ blockers.length

def combatDamageAssignmentModes (object : GameObject) (blocked hasBlockers : Bool)
    (trample : Option TrampleKind) : List CombatDamageAssignmentMode :=
  if object.assignsDamageAsThoughUnblocked && blocked && (hasBlockers || trample.isNone) then
    [.normal, .asThoughUnblocked]
  else [.normal]

def assignDamageAsThoughUnblocked (power : Nat) (trample : Option TrampleKind) :
    List DamageAssignment :=
  match info.resolveDamageTarget state (trample = some .overPlaneswalkers) with
  | some target => [⟨target, power⟩]
  | none => []

/-- What a trampler assigns beyond its blockers. -/
def assignExcess (trample : TrampleKind) (excess : Nat) : List DamageAssignment :=
  if trample = .overPlaneswalkers && info.attacksPlaneswalker then
    assignTrampleOverPwExcess state info excess
  else
    match info.resolveDamageTarget state false with
    | some target => [⟨target, excess⟩]
    | none => []

def assignAttackerDamage (combat : CombatState) (power : Nat) (hasDeathtouch : Bool)
    (trample : Option TrampleKind) : List DamageAssignment :=
  match combat.blockersOf info.objectId with
  | [] =>
    if info.blocked then
      match trample with
      | some kind => assignExcess state info kind power
      | none => []
    else assignDamageAsThoughUnblocked state info power trample
  | [blocker] =>
    match trample with
    | some kind =>
      let toBlocker := min power (lethalDamageNeeded state blocker hasDeathtouch)
      let excess := power - toBlocker
      ⟨.object blocker, toBlocker⟩ ::
        (if excess = 0 then [] else assignExcess state info kind excess)
    | none => [⟨.object blocker, power⟩]
  -- Two or more blockers are a prompt.
  | _ :: _ :: _ => []

def attackerPrompt (object : GameObject) (combat : CombatState) : AssignCombatDamage :=
  let blockers := combat.blockersOf info.objectId
  let trample := trampleKind object
  let blockedByBanding := blockers.any (hasBanding state) ||
    hasBandsWithOtherDamageAssignmentGroup state blockers
  let (pwLoyalty, pwController) := if trample = some .overPlaneswalkers
    then computePwLoyaltyThreshold state info else (none, none)
  { player := if blockedByBanding then info.defendingPlayer else object.controller
    attackerId := info.objectId
    totalDamage := combatDamageAmount object
    blockers := blockers.map fun blocker =>
      ⟨blocker, lethalDamageNeeded state blocker (object.hasKeyword .deathtouch)⟩
    assignmentModes := combatDamageAssignmentModes object info.blocked (!blockers.isEmpty) trample
    trample
    defendingPlayer := info.defendingPlayer
    attackTarget := info.attackTarget
    pwLoyalty
    pwController }

end

section
variable (combat : CombatState) (subStep : CombatDamageSubStep)
  (firstStrikeParticipants : List ObjectId)

/-- The object that deals damage now: on the battlefield, in this sub-step, and not none. -/
def dealer (state : GameState) (id : ObjectId) : Option GameObject :=
  (state.object id).filter fun object =>
    object.zone = .battlefield && dealsInSubstep object subStep firstStrikeParticipants &&
      combatDamageAmount object ≠ 0

def addPending (state : GameState) (entries : List (ObjectId × DamageAssignment)) : GameState :=
  state.updateCombat fun combat =>
    { combat with pendingDamage := combat.pendingDamage ++ entries }

def collectAttacker (state : GameState) (info : AttackerInfo) (index : Nat) :
    Option DamagePrompt × GameState :=
  match dealer subStep firstStrikeParticipants state info.objectId with
  | none => (none, state)
  | some object =>
    let power := combatDamageAmount object
    let hasDeathtouch := object.hasKeyword .deathtouch
    let trample := trampleKind object
    if needsInteractiveAssignment state info object combat power hasDeathtouch trample then
      (some (.assignCombatDamage (attackerPrompt state info object combat)),
        state.updateCombat fun combat => { combat with damageStepIndex := some index })
    else
      (none, addPending state
        ((assignAttackerDamage state info combat power hasDeathtouch trample).map
          fun assignment => (info.objectId, assignment)))

def collectAttackers : List (AttackerInfo × Nat) → GameState → Option DamagePrompt × GameState
  | [], state => (none, state)
  | (info, index) :: rest, state =>
    match collectAttacker combat subStep firstStrikeParticipants state info index with
    | (some prompt, state) => (some prompt, state)
    | (none, state) => collectAttackers rest state

/-- The first attackers get one more each until the remainder is used up. -/
def distributeBlockerDamage (blocker : ObjectId) (power : Nat) (attackers : List ObjectId) :
    List (ObjectId × DamageAssignment) :=
  match attackers with
  | [] => []
  | [attacker] => [(blocker, ⟨.object attacker, power⟩)]
  | attackers =>
    let base := power / attackers.length
    let remainder := power % attackers.length
    attackers.zipIdx.filterMap fun (attacker, i) =>
      let amount := base + if i < remainder then 1 else 0
      if amount = 0 then none else some (blocker, ⟨.object attacker, amount⟩)

def collectBlocker (state : GameState) (blocker : ObjectId) : Option DamagePrompt × GameState :=
  if ((combat.damageAssignments.lookup blocker).getD []).isEmpty then
    match (combat.blockerToAttacker.lookup blocker).getD [] with
    | [] => (none, state)
    | first :: others =>
      let attackers := first :: others
      match dealer subStep firstStrikeParticipants state blocker with
      | none => (none, state)
      | some object =>
        let power := combatDamageAmount object
        let activePlayerDivides := 2 ≤ attackers.length && (attackers.any (hasBanding state) ||
          hasBandsWithOtherDamageAssignmentGroup state attackers)
        if activePlayerDivides then
          (some (.assignBlockerDamage ⟨state.activePlayer, blocker, power, attackers⟩), state)
        else
          (none, (addPending state (distributeBlockerDamage blocker power attackers)).updateCombat
            fun combat => { combat with damageAssignments :=
              combat.damageAssignments.insert blocker [⟨.object first, power⟩] })
  else (none, state)

def collectBlockers : List ObjectId → GameState → Option DamagePrompt × GameState
  | [], state => (none, state)
  | blocker :: rest, state =>
    match collectBlocker combat subStep firstStrikeParticipants state blocker with
    | (some prompt, state) => (some prompt, state)
    | (none, state) => collectBlockers rest state

end

/-- The attackers from the cursor on, and then the blockers in the order of their ids. -/
def collectDamageAssignments (state : GameState) (subStep : CombatDamageSubStep) :
    Option DamagePrompt × GameState :=
  match state.combat with
  | none => (none, state)
  | some combat =>
    -- The snapshot was taken when the damage began.
    let participants := combat.firstStrikeParticipants.getD []
    let start := combat.damageStepIndex.getD 0
    match collectAttackers combat subStep participants (combat.attackers.zipIdx.drop start)
        state with
    | (some prompt, state) => (some prompt, state)
    | (none, state) =>
      let state := state.updateCombat fun combat =>
        { combat with damageStepIndex := some combat.attackers.length }
      match collectBlockers combat subStep participants
          (combat.blockerToAttacker.keys.insertionSort (· ≤ ·)) state with
      | (some prompt, state) => (some prompt, state)
      | (none, state) =>
        (none, state.updateCombat fun combat => { combat with damageStepIndex := none })

end Phase.Combat
