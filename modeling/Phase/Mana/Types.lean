import Mathlib.Algebra.GroupWithZero.Nat
import Mathlib.Data.List.Basic

/-! Mana: its types, the restrictions that ride on it and the payments it may go to. -/
namespace Phase.Mana

inductive ManaColor where
  | white | blue | black | red | green
  deriving DecidableEq

inductive ManaType where
  | white | blue | black | red | green | colorless
  deriving DecidableEq

def ManaColor.toManaType : ManaColor → ManaType
  | .white => .white
  | .blue => .blue
  | .black => .black
  | .red => .red
  | .green => .green

abbrev ObjectId := Nat

inductive Zone where
  | library | hand | battlefield | graveyard | stack | exile | command
  deriving DecidableEq

inductive AbilityTag where
  | boast | evolve | exhaust | outlast | cycling | backup | powerUp | equip | augment
  deriving DecidableEq

/-- A class of keywords, by its discriminant; here it is only ever compared. -/
structure KeywordKind where
  discriminant : Nat
  deriving DecidableEq

inductive Comparator where
  | gt | lt | ge | le | eq | ne
  deriving DecidableEq

def Comparator.evaluate : Comparator → Int → Int → Bool
  | .gt, lhs, rhs => lhs > rhs
  | .lt, lhs, rhs => lhs < rhs
  | .ge, lhs, rhs => lhs ≥ rhs
  | .le, lhs, rhs => lhs ≤ rhs
  | .eq, lhs, rhs => lhs = rhs
  | .ne, lhs, rhs => lhs ≠ rhs

/-- A `u32` read as an `i32`. -/
def asI32 (value : Nat) : Int := (BitVec.ofNat 32 value).toInt

/-- What the restrictions ask of the spell being paid for. -/
structure SpellMeta where
  types : List String := []
  subtypes : List String := []
  keywordKinds : List KeywordKind := []
  castFromZone : Option Zone := none
  manaValue : Option Nat := none
  colorCount : Option Nat := none
  colors : List ManaColor := []
  hasXInCost : Bool := false
  isFaceDown : Bool := false
  cantSpendMana : Bool := false
  spendOnlyOnXColors : Option (List ManaColor) := none
  spendOnlyOnXGenericCount : Nat := 0
  deriving DecidableEq

inductive SpecialAction where
  | companionToHand | unlockDoor | plot | turnFaceUp | rollPlanarDie | endContinuousEffect
  | foretell
  deriving DecidableEq

inductive ActivationManaColorConstraint where
  | unrestricted
  | only (color : ManaColor)
  | impossible
  deriving DecidableEq

def ActivationManaColorConstraint.permits : ActivationManaColorConstraint → ManaType → Bool
  | .unrestricted, _ => true
  | .only color, manaType => manaType = color.toManaType
  | .impossible, _ => false

inductive PaymentContext where
  | spell (spell : SpellMeta)
  | activation (sourceTypes sourceSubtypes : List String) (abilityTag : Option AbilityTag)
      (manaColorConstraint : ActivationManaColorConstraint)
  | effect
  | specialAction (action : SpecialAction)
  deriving DecidableEq

/-- An ability's own rider constrains the mana actually paid, whatever the mana's
restrictions say. -/
def PaymentContext.permitsActualManaType : PaymentContext → ManaType → Bool
  | .activation _ _ _ constraint, manaType => constraint.permits manaType
  | .spell _, _ | .effect, _ | .specialAction _, _ => true

inductive AbilityActivationScope where
  | ofSpellType
  | any
  deriving DecidableEq

inductive ZoneSpendPolarity where
  | fromZone
  | notFromZone
  deriving DecidableEq

structure ZoneSpend where
  zone : Zone
  polarity : ZoneSpendPolarity
  deriving DecidableEq

inductive SpellCostCriterion where
  | manaValue (comparator : Comparator) (value : Nat)
  | hasXInCost
  deriving DecidableEq

/-- The restrictions that do not contain others. -/
inductive PlainRestriction where
  | onlyForSpell
  | onlyForSpellType (requiredType : String)
  | onlyForCreatureType (requiredSubtype : String)
  | onlyForTypeSpellsOrAbilities (spellType : String) (ability : AbilityActivationScope)
  | onlyForActivation
  | onlyForTaggedActivation (tag : AbilityTag)
  | onlyForXCosts
  | onlyForSpellWithKeywordKind (kind : KeywordKind)
  | onlyForSpellWithKeywordKindFromZone (kind : KeywordKind) (zone : Zone)
  | onlyForSpellWithManaValue (comparator : Comparator) (value : Nat)
  | onlyForSpellMatchingCostCriteria (spellType : Option String)
      (criteria : List SpellCostCriterion)
  | onlyForSpellWithColorCount (comparator : Comparator) (count : Nat)
  | onlyForSpellColor (color : ManaColor)
  | onlyForSpellFromZone (spend : ZoneSpend)
  | cannotCastSpellFromZone (zone : Zone)
  | onlyForFaceDownSpell
  | onlyForSpecialAction (action : SpecialAction)
  | impossible
  | convokePayment
  deriving DecidableEq

inductive ManaRestriction where
  | plain (restriction : PlainRestriction)
  | onlyForAny (restrictions : List ManaRestriction)

namespace ManaRestriction

mutual

def decEq : (a b : ManaRestriction) → Decidable (a = b)
  | .plain a, .plain b =>
    if h : a = b then isTrue (by rw [h]) else isFalse fun same => h (plain.inj same)
  | .onlyForAny as, .onlyForAny bs =>
    match decEqList as bs with
    | isTrue h => isTrue (by rw [h])
    | isFalse h => isFalse fun same => h (onlyForAny.inj same)
  | .plain _, .onlyForAny _ => isFalse nofun
  | .onlyForAny _, .plain _ => isFalse nofun

def decEqList : (as bs : List ManaRestriction) → Decidable (as = bs)
  | [], [] => isTrue rfl
  | a :: as, b :: bs =>
    match decEq a b, decEqList as bs with
    | isTrue h, isTrue hs => isTrue (by rw [h, hs])
    | isFalse h, _ => isFalse fun same => h (List.cons.inj same).1
    | _, isFalse hs => isFalse fun same => hs (List.cons.inj same).2
  | [], _ :: _ => isFalse nofun
  | _ :: _, [] => isFalse nofun

end

instance : DecidableEq ManaRestriction := decEq

end ManaRestriction

def eqIgnoreAsciiCase (a b : String) : Bool := a.toLower = b.toLower

/-- `char::is_whitespace`: the Unicode property White_Space. -/
def isWhitespace (c : Char) : Bool :=
  (9 ≤ c.toNat && c.toNat ≤ 13) || c.toNat ∈ [0x20, 0x85, 0xa0, 0x1680, 0x2028, 0x2029, 0x202f,
    0x205f, 0x3000] || (0x2000 ≤ c.toNat && c.toNat ≤ 0x200a)

def splitWhitespace (text : String) : List String :=
  ((text.toList.splitOnP isWhitespace).filter fun word => !word.isEmpty).map String.ofList

/-- A type phrase lists alternatives; each alternative must match word by word. -/
def matchesRequiredQuality (required : String) (qualities : List String) : Bool :=
  ((required.splitOn " or ").flatMap fun clause => clause.splitOn " and ").any fun alternative =>
    (splitWhitespace alternative).all fun part =>
      qualities.any fun quality => eqIgnoreAsciiCase quality part

def SpellCostCriterion.matchesSpell (spell : SpellMeta) : SpellCostCriterion → Bool
  | .manaValue comparator value =>
    spell.manaValue.any fun held => comparator.evaluate (asI32 held) (asI32 value)
  | .hasXInCost => spell.hasXInCost

namespace PlainRestriction

def allowsSpell (spell : SpellMeta) : PlainRestriction → Bool
  | onlyForSpell => true
  | onlyForSpellType requiredType =>
    matchesRequiredQuality requiredType (spell.types ++ spell.subtypes)
  | onlyForCreatureType requiredSubtype =>
    (spell.types.any fun name => eqIgnoreAsciiCase name "Creature") &&
      spell.subtypes.any fun name => eqIgnoreAsciiCase name requiredSubtype
  | onlyForTypeSpellsOrAbilities spellType _ =>
    matchesRequiredQuality spellType (spell.types ++ spell.subtypes)
  | onlyForActivation => false
  | onlyForTaggedActivation _ => false
  | onlyForXCosts => spell.hasXInCost
  | onlyForSpellWithKeywordKind kind => kind ∈ spell.keywordKinds
  | onlyForSpellWithKeywordKindFromZone kind zone =>
    kind ∈ spell.keywordKinds && spell.castFromZone = some zone
  | onlyForSpellWithManaValue comparator value =>
    spell.manaValue.any fun held => comparator.evaluate (asI32 held) (asI32 value)
  | onlyForSpellMatchingCostCriteria spellType criteria =>
    (spellType.all fun required =>
      matchesRequiredQuality required (spell.types ++ spell.subtypes)) &&
      criteria.any fun criterion => criterion.matchesSpell spell
  | onlyForSpellWithColorCount comparator count =>
    spell.colorCount.any fun held => comparator.evaluate (asI32 held) (asI32 count)
  | onlyForSpellColor color => color ∈ spell.colors
  | onlyForSpellFromZone spend =>
    match spend.polarity with
    | .fromZone => spell.castFromZone = some spend.zone
    | .notFromZone => spell.castFromZone.any fun zone => zone ≠ spend.zone
  | cannotCastSpellFromZone zone => spell.castFromZone.any fun held => held ≠ zone
  | onlyForFaceDownSpell => spell.isFaceDown
  | onlyForSpecialAction _ => false
  | impossible => false
  | convokePayment => true

def allowsActivation (sourceTypes sourceSubtypes : List String) (abilityTag : Option AbilityTag) :
    PlainRestriction → Bool
  | cannotCastSpellFromZone _ => true
  | onlyForTypeSpellsOrAbilities spellType ability =>
    match ability with
    | .ofSpellType => matchesRequiredQuality spellType (sourceTypes ++ sourceSubtypes)
    | .any => true
  | onlyForActivation => true
  | onlyForTaggedActivation tag => abilityTag = some tag
  | _ => false

def allowsSpecialAction (action : SpecialAction) : PlainRestriction → Bool
  | onlyForSpecialAction allowed => allowed = action
  | cannotCastSpellFromZone _ => true
  | _ => false

def allows (ctx : PaymentContext) (restriction : PlainRestriction) : Bool :=
  match ctx with
  | .spell spell => restriction.allowsSpell spell
  | .activation sourceTypes sourceSubtypes abilityTag _ =>
    restriction.allowsActivation sourceTypes sourceSubtypes abilityTag
  | .effect =>
    match restriction with
    | cannotCastSpellFromZone _ => true
    | _ => false
  | .specialAction action => restriction.allowsSpecialAction action

end PlainRestriction

namespace ManaRestriction

mutual

/-- A disjunction allows what one of its branches allows, in every context. -/
def allows (ctx : PaymentContext) : ManaRestriction → Bool
  | plain restriction => restriction.allows ctx
  | onlyForAny restrictions => anyAllows ctx restrictions

def anyAllows (ctx : PaymentContext) : List ManaRestriction → Bool
  | [] => false
  | restriction :: restrictions => restriction.allows ctx || anyAllows ctx restrictions

end

end ManaRestriction

inductive ManaSupertype where
  | snow
  deriving DecidableEq

inductive ManaExpiry where
  | endOfTurn | endOfCombat | endOfPhaseGroup
  deriving DecidableEq

/-- What the mana does for the spell it is spent on, by identity; the pool only ever
compares it. -/
structure ManaSpellGrant where
  identity : Nat
  deriving DecidableEq

/-- `0` marks a unit that has not been stamped. -/
abbrev ManaPipId := Nat

/-- A mana unit without its pip. -/
structure ManaShape where
  color : ManaType
  sourceId : ObjectId
  supertype : Option ManaSupertype := none
  sourceCouldProduceTwoOrMoreColors : Bool := false
  restrictions : List ManaRestriction := []
  grants : List ManaSpellGrant := []
  expiry : Option ManaExpiry := none
  deriving DecidableEq

structure ManaUnit extends ManaShape where
  pipId : ManaPipId
  deriving DecidableEq

def ManaShape.withPip (shape : ManaShape) (pipId : ManaPipId) : ManaUnit := { shape with pipId }

def ManaShape.isSnow (shape : ManaShape) : Bool := shape.supertype = some .snow

def ManaShape.isConvokePayment (shape : ManaShape) : Bool :=
  .plain .convokePayment ∈ shape.restrictions

@[simp] theorem ManaShape.toManaShape_withPip (shape : ManaShape) (pip : ManaPipId) :
    (shape.withPip pip).toManaShape = shape := rfl

@[simp] theorem ManaShape.pipId_withPip (shape : ManaShape) (pip : ManaPipId) :
    (shape.withPip pip).pipId = pip := rfl

@[simp] theorem ManaUnit.withPip_eta (unit : ManaUnit) :
    unit.toManaShape.withPip unit.pipId = unit := rfl

end Phase.Mana
