import Mathlib.Algebra.GroupWithZero.Nat
import Mathlib.Data.List.AList
import Mathlib.Data.List.Sort

/-! Combat damage: the creatures in combat, what they attack and block, and how much damage each
assigns. -/
namespace Phase.Combat

abbrev PlayerId := Nat
abbrev ObjectId := Nat

inductive Zone where
  | library
  | hand
  | battlefield
  | graveyard
  | stack
  | exile
  | command
  deriving DecidableEq

inductive CoreType where
  | creature
  | planeswalker
  | battle
  | other (name : String)
  deriving DecidableEq

inductive Keyword where
  | firstStrike
  | doubleStrike
  | deathtouch
  | trample
  | trampleOverPlaneswalkers
  | banding
  | bandsWithOther (quality : String)
  | other (name : String)
  deriving DecidableEq

structure GameObject where
  id : ObjectId
  controller : PlayerId
  zone : Zone := .battlefield
  incarnation : Nat := 0
  isPhasedOut : Bool := false
  coreTypes : List CoreType := [.creature]
  isLegendary : Bool := false
  subtypes : List String := []
  keywords : List Keyword := []
  power : Option Int := none
  toughness : Option Int := none
  loyalty : Option Nat := none
  damageMarked : Nat := 0
  assignsNoCombatDamage : Bool := false
  assignsDamageFromToughness : Bool := false
  assignsDamageAsThoughUnblocked : Bool := false
  deriving DecidableEq

structure Player where
  id : PlayerId
  isEliminated : Bool := false
  deriving DecidableEq

structure ObjectIncarnationRef where
  objectId : ObjectId
  incarnation : Nat
  deriving DecidableEq

inductive AttackTarget where
  | player (player : PlayerId)
  | planeswalker (object : ObjectId)
  | battle (object : ObjectId)
  deriving DecidableEq

inductive TrampleKind where
  | standard
  | overPlaneswalkers
  deriving DecidableEq

structure AttackerInfo where
  objectId : ObjectId
  defendingPlayer : PlayerId
  attackTarget : AttackTarget
  blocked : Bool := false
  deriving DecidableEq

inductive DamageTarget where
  | object (object : ObjectId)
  | player (player : PlayerId)
  deriving DecidableEq

structure DamageAssignment where
  target : DamageTarget
  amount : Nat
  deriving DecidableEq

inductive CombatDamageSubStep where
  | firstStrike
  | regular
  deriving DecidableEq

/-- A creature attacks once, and no attacking creature blocks. -/
structure CombatState where
  attackers : List AttackerInfo := []
  attackedPermanents : AList fun _ : ObjectId => ObjectIncarnationRef := ∅
  blockerAssignments : AList fun _ : ObjectId => List ObjectId := ∅
  blockerToAttacker : AList fun _ : ObjectId => List ObjectId := ∅
  damageAssignments : AList fun _ : ObjectId => List DamageAssignment := ∅
  firstStrikeDone : Bool := false
  firstStrikeParticipants : Option (List ObjectId) := none
  damageStepIndex : Option Nat := none
  pendingDamage : List (ObjectId × DamageAssignment) := []
  regularDamageDone : Bool := false
  once : (attackers.map (·.objectId)).Nodup := by decide
  apart : ∀ id ∈ attackers.map (·.objectId), id ∉ blockerToAttacker.keys := by decide

structure GameState where
  objects : List GameObject
  players : List Player
  activePlayer : PlayerId
  combat : Option CombatState

def GameState.object (state : GameState) (id : ObjectId) : Option GameObject :=
  state.objects.find? (·.id = id)

def GameState.updateCombat (state : GameState) (update : CombatState → CombatState) : GameState :=
  { state with combat := state.combat.map update }

def GameObject.hasKeyword (object : GameObject) (keyword : Keyword) : Bool :=
  keyword ∈ object.keywords

/-- A negative characteristic counts as zero. -/
def unsigned (value : Option Int) : Nat := (value.getD 0).toNat

def combatDamageAmount (object : GameObject) : Nat :=
  if object.assignsNoCombatDamage then 0
  else if object.assignsDamageFromToughness then unsigned object.toughness
  else unsigned object.power

/-- Trample over planeswalkers takes precedence. -/
def trampleKind (object : GameObject) : Option TrampleKind :=
  if object.hasKeyword .trampleOverPlaneswalkers then some .overPlaneswalkers
  else if object.hasKeyword .trample then some .standard
  else none

def lethalDamageNeeded (state : GameState) (id : ObjectId) (sourceHasDeathtouch : Bool) : Nat :=
  if sourceHasDeathtouch then 1
  else
    match state.object id with
    | some object => unsigned object.toughness - object.damageMarked
    | none => 1

def combatFirstStrikeParticipants (state : GameState) (combat : CombatState) : List ObjectId :=
  (combat.attackers.map (·.objectId) ++ combat.blockerToAttacker.keys).filter fun id =>
    (state.object id).any fun object =>
      object.hasKeyword .firstStrike || object.hasKeyword .doubleStrike

def dealsInSubstep (object : GameObject) (subStep : CombatDamageSubStep)
    (firstStrikeParticipants : List ObjectId) : Bool :=
  match subStep with
  | .firstStrike => object.id ∈ firstStrikeParticipants
  | .regular => object.id ∉ firstStrikeParticipants || object.hasKeyword .doubleStrike

def hasBanding (state : GameState) (id : ObjectId) : Bool :=
  (state.object id).any (·.hasKeyword .banding)

def bandsWithOtherQualities (state : GameState) (id : ObjectId) : List String :=
  match state.object id with
  | some object => object.keywords.filterMap fun
      | .bandsWithOther quality => some quality
      | _ => none
  | none => []

def eqIgnoreAsciiCase (a b : String) : Bool :=
  a.toList.map Char.toLower = b.toList.map Char.toLower

def objectMatchesBandsWithOtherQuality (state : GameState) (id : ObjectId) (quality : String) :
    Bool :=
  match state.object id with
  | none => false
  | some object =>
    if eqIgnoreAsciiCase quality "legend" then object.isLegendary
    else object.subtypes.any (eqIgnoreAsciiCase · quality)

def hasBandsWithOtherDamageAssignmentGroup (state : GameState) (creatures : List ObjectId) :
    Bool :=
  creatures.any fun holder =>
    (bandsWithOtherQualities state holder).any fun quality =>
      objectMatchesBandsWithOtherQuality state holder quality && creatures.any fun other =>
        other ≠ holder && objectMatchesBandsWithOtherQuality state other quality

def isAlive (state : GameState) (player : PlayerId) : Bool :=
  state.players.any fun p => p.id = player && !p.isEliminated

def GameObject.reference (object : GameObject) : ObjectIncarnationRef :=
  ⟨object.id, object.incarnation⟩

def relatedAttackPermanent (state : GameState) (id : ObjectId) : Option GameObject :=
  (state.object id).filter fun object =>
    object.zone = .battlefield && (.planeswalker ∈ object.coreTypes || .battle ∈ object.coreTypes)

/-- What is still attacked: a player in the game, or the very permanent that was chosen. -/
def activeAttackTarget (state : GameState) (info : AttackerInfo) : Option AttackTarget :=
  match info.attackTarget with
  | .player player => if isAlive state player then some (.player player) else none
  | .planeswalker id | .battle id => do
      let combat ← state.combat
      let pin ← combat.attackedPermanents.lookup info.objectId
      let object ← (relatedAttackPermanent state id).filter (!·.isPhasedOut)
      if object.reference = pin then some info.attackTarget else none

def AttackerInfo.attacksPlaneswalker (info : AttackerInfo) : Bool :=
  match info.attackTarget with
  | .planeswalker _ => true
  | _ => false

def AttackerInfo.resolveDamageTarget (info : AttackerInfo) (state : GameState)
    (trampleOverPw : Bool) : Option DamageTarget :=
  match activeAttackTarget state info with
  | some (.player player) => some (.player player)
  | some (.planeswalker id) | some (.battle id) => some (.object id)
  | none =>
    if trampleOverPw && info.attacksPlaneswalker then some (.player info.defendingPlayer)
    else none

/-- A sum of 32-bit words as the machine computes it. -/
def wrappingSum (amounts : List Nat) : Nat := amounts.sum % 2 ^ 32

theorem wrappingSum_eq {amounts : List Nat} (fits : amounts.sum < 2 ^ 32) :
    wrappingSum amounts = amounts.sum := Nat.mod_eq_of_lt fits

theorem wrappingSum_le (amounts : List Nat) : wrappingSum amounts ≤ amounts.sum := Nat.mod_le _ _

end Phase.Combat
