import Phase.Lib.Encoding
import Phase.Mana.Types

/-! The stable order of mana-source selections on the wire. -/
namespace Phase.Mana
open Encoding ManaRestriction

structure ObjectIncarnationRef where
  objectId : ObjectId
  incarnation : Nat
  deriving DecidableEq

inductive ManaSourceQuantity where
  | fixed (amount : Nat)
  | variable
  deriving DecidableEq

inductive ManaSourceOutput where
  | concrete (manaType : ManaType)
  | deferredColorChoice (quantity : ManaSourceQuantity)
  deriving DecidableEq

inductive ManaSourcePenalty where
  | none | hasIrreversibleContinuation
  | dealsDamageOnResolution (fixedAmount : Option Nat)
  | paysLifeOnActivation (fixedAmount : Option Nat)
  | sacrifices
  deriving DecidableEq

inductive ProductionOverride where
  | singleColor (manaType : ManaType)
  | combination (manaTypes : List ManaType)
  deriving DecidableEq

structure CopyEffectInstanceRef where
  continuousEffectId : Nat
  modificationIndex : Nat
  deriving DecidableEq

structure PrintedCardRef where
  oracleId : String
  faceName : String
  deriving DecidableEq

structure TriggerPrintedOrigin where
  printedRef : PrintedCardRef
  printedOccurrence : Nat
  deriving DecidableEq

/-- The provider of an expanded grant is a source with an occurrence of its own. -/
inductive TriggerDefinitionOccurrenceRef where
  | printed (baseSet printedIndex : Nat)
  | copiedValue (copyEffect : CopyEffectInstanceRef) (copiedSlot : Nat)
      (printedOrigin : Option TriggerPrintedOrigin)
  | keywordCompanion (grantInstance companionIndex : Nat)
  | copyRetained (grantInstance sourceBaseSet sourcePrintedIndex : Nat)
  | granted (grantInstance : Nat)
  | expandedGrant (grantInstance : Nat) (source : ObjectIncarnationRef)
      (occurrence : TriggerDefinitionOccurrenceRef) (providerOutputIndex : Nat)
  | unmaterialized
  deriving DecidableEq

structure TapsForManaSelection where
  source : ObjectIncarnationRef
  occurrence : TriggerDefinitionOccurrenceRef
  productionOverride : ProductionOverride
  deriving DecidableEq

structure ManaSourceSelection where
  source : ObjectIncarnationRef
  abilityIndex : Option Nat
  manaType : ManaType
  output : ManaSourceOutput
  atomicCombination : Option (List ManaType)
  restrictions : List ManaRestriction
  penalty : ManaSourcePenalty
  tapsForMana : List TapsForManaSelection
  deriving DecidableEq

/-! ## Derived orders

Enumerations are ordered by their discriminants, structures field by field, and values of several
shapes by the discriminant of the shape first. -/

instance : Ord ManaColor := ⟨compareOn (·.ctorIdx)⟩

instance : Ord ManaType := ⟨compareOn (·.ctorIdx)⟩

instance : Ord Zone := ⟨compareOn (·.ctorIdx)⟩

instance : Ord KeywordKind := ⟨compareOn (·.discriminant)⟩

instance : Ord ObjectIncarnationRef :=
  ⟨compareLex (compareOn (·.objectId)) (compareOn (·.incarnation))⟩

instance : Ord ManaSourceQuantity where
  compare
    | .fixed a, .fixed b => compare a b
    | a, b => compare a.ctorIdx b.ctorIdx

instance : Ord CopyEffectInstanceRef :=
  ⟨compareLex (compareOn (·.continuousEffectId)) (compareOn (·.modificationIndex))⟩

instance : Ord PrintedCardRef := ⟨compareLex (compareOn (·.oracleId)) (compareOn (·.faceName))⟩

instance : Ord TriggerPrintedOrigin :=
  ⟨compareLex (compareOn (·.printedRef)) (compareOn (·.printedOccurrence))⟩

def TriggerDefinitionOccurrenceRef.cmp :
    TriggerDefinitionOccurrenceRef → TriggerDefinitionOccurrenceRef → Ordering
  | .printed a i, .printed b j => (compare a b).then (compare i j)
  | .copiedValue a s o, .copiedValue b t p =>
    (compare a b).then ((compare s t).then (compare o p))
  | .keywordCompanion a i, .keywordCompanion b j => (compare a b).then (compare i j)
  | .copyRetained a s i, .copyRetained b t j => (compare a b).then ((compare s t).then (compare i j))
  | .granted a, .granted b => compare a b
  | .expandedGrant a s o i, .expandedGrant b t p j =>
    (compare a b).then ((compare s t).then ((o.cmp p).then (compare i j)))
  | a, b => compare a.ctorIdx b.ctorIdx

def cmpSliceBy {α : Type} (cmp : α → α → Ordering) (left right : List α) : Ordering :=
  (((left.zip right).map fun (a, b) => cmp a b).find? fun ordering => !ordering.isEq).getD
    (compare left.length right.length)

def cmpManaSourceOutput : ManaSourceOutput → ManaSourceOutput → Ordering
  | .concrete a, .concrete b => compare a b
  | .deferredColorChoice a, .deferredColorChoice b => compare a b
  | .concrete _, .deferredColorChoice _ => .lt
  | .deferredColorChoice _, .concrete _ => .gt

def cmpProductionOverride : ProductionOverride → ProductionOverride → Ordering
  | .singleColor a, .singleColor b => compare a b
  | .combination a, .combination b => compare a b
  | .singleColor _, .combination _ => .lt
  | .combination _, .singleColor _ => .gt

def cmpTapsForMana (a b : TapsForManaSelection) : Ordering :=
  (compare a.source b.source).then <| (a.occurrence.cmp b.occurrence).then <|
    cmpProductionOverride a.productionOverride b.productionOverride

def ManaSourcePenalty.rank : ManaSourcePenalty → Nat
  | none => 0
  | hasIrreversibleContinuation => 1
  | dealsDamageOnResolution _ => 2
  | paysLifeOnActivation _ => 3
  | sacrifices => 4

def cmpManaSourcePenalty (left right : ManaSourcePenalty) : Ordering :=
  (compare left.rank right.rank).then <|
    match left, right with
    | .dealsDamageOnResolution a, .dealsDamageOnResolution b
    | .paysLifeOnActivation a, .paysLifeOnActivation b => compare a b
    | _, _ => .eq

def comparatorRank : Comparator → Nat
  | .gt => 0
  | .lt => 1
  | .ge => 2
  | .le => 3
  | .eq => 4
  | .ne => 5

def abilityActivationScopeRank : AbilityActivationScope → Nat
  | .ofSpellType => 0
  | .any => 1

def abilityTagRank : AbilityTag → Nat
  | .boast => 0
  | .evolve => 1
  | .exhaust => 2
  | .outlast => 3
  | .cycling => 4
  | .backup => 5
  | .powerUp => 6
  | .equip => 7
  | .augment => 8

def zoneSpendPolarityRank : ZoneSpendPolarity → Nat
  | .fromZone => 0
  | .notFromZone => 1

def specialActionRank : SpecialAction → Nat
  | .companionToHand => 0
  | .unlockDoor => 1
  | .plot => 2
  | .turnFaceUp => 3
  | .rollPlanarDie => 4
  | .endContinuousEffect => 5
  | .foretell => 6

def cmpSpellCostCriterion : SpellCostCriterion → SpellCostCriterion → Ordering
  | .manaValue aCmp a, .manaValue bCmp b =>
    (compare (comparatorRank aCmp) (comparatorRank bCmp)).then (compare a b)
  | .hasXInCost, .hasXInCost => .eq
  | .manaValue _ _, .hasXInCost => .lt
  | .hasXInCost, .manaValue _ _ => .gt

def PlainRestriction.rank : PlainRestriction → Nat
  | onlyForSpell => 0
  | onlyForSpellType _ => 1
  | onlyForCreatureType _ => 2
  | onlyForTypeSpellsOrAbilities _ _ => 3
  | onlyForActivation => 4
  | onlyForTaggedActivation _ => 5
  | onlyForXCosts => 6
  | onlyForSpellWithKeywordKind _ => 7
  | onlyForSpellWithKeywordKindFromZone _ _ => 8
  | onlyForSpellWithManaValue _ _ => 9
  | onlyForSpellMatchingCostCriteria _ _ => 10
  | onlyForSpellWithColorCount _ _ => 11
  | onlyForSpellColor _ => 12
  | onlyForSpellFromZone _ => 13
  | cannotCastSpellFromZone _ => 14
  | onlyForFaceDownSpell => 15
  | onlyForSpecialAction _ => 17
  | impossible => 18
  | convokePayment => 19

def ManaRestriction.rank : ManaRestriction → Nat
  | plain restriction => restriction.rank
  | onlyForAny _ => 16

/-- What is compared of two restrictions of one rank that contain no others. -/
def PlainRestriction.cmpPayload : PlainRestriction → PlainRestriction → Ordering
  | onlyForSpellType a, onlyForSpellType b | onlyForCreatureType a, onlyForCreatureType b =>
    compare a b
  | onlyForTypeSpellsOrAbilities aType a, onlyForTypeSpellsOrAbilities bType b =>
    (compare aType bType).then
      (compare (abilityActivationScopeRank a) (abilityActivationScopeRank b))
  | onlyForTaggedActivation a, onlyForTaggedActivation b =>
    compare (abilityTagRank a) (abilityTagRank b)
  | onlyForSpellWithKeywordKind a, onlyForSpellWithKeywordKind b => compare a b
  | onlyForSpellWithKeywordKindFromZone aKind a, onlyForSpellWithKeywordKindFromZone bKind b =>
    (compare aKind bKind).then (compare a b)
  | onlyForSpellWithManaValue aCmp a, onlyForSpellWithManaValue bCmp b
  | onlyForSpellWithColorCount aCmp a, onlyForSpellWithColorCount bCmp b =>
    (compare (comparatorRank aCmp) (comparatorRank bCmp)).then (compare a b)
  | onlyForSpellMatchingCostCriteria aType a, onlyForSpellMatchingCostCriteria bType b =>
    (compare aType bType).then (cmpSliceBy cmpSpellCostCriterion a b)
  | onlyForSpellColor a, onlyForSpellColor b => compare a b
  | onlyForSpellFromZone a, onlyForSpellFromZone b =>
    (compare a.zone b.zone).then
      (compare (zoneSpendPolarityRank a.polarity) (zoneSpendPolarityRank b.polarity))
  | cannotCastSpellFromZone a, cannotCastSpellFromZone b => compare a b
  | onlyForSpecialAction a, onlyForSpecialAction b =>
    compare (specialActionRank a) (specialActionRank b)
  | _, _ => .eq

mutual

def cmpManaRestriction (left right : ManaRestriction) : Ordering :=
  (compare left.rank right.rank).then <|
    match left, right with
    | .plain a, .plain b => a.cmpPayload b
    | .onlyForAny a, .onlyForAny b => cmpManaRestrictionSlices a b
    | _, _ => .eq

/-- `cmpSliceBy` of the comparison above. -/
def cmpManaRestrictionSlices : List ManaRestriction → List ManaRestriction → Ordering
  | a :: left, b :: right => (cmpManaRestriction a b).then (cmpManaRestrictionSlices left right)
  | left, right => compare left.length right.length

end

def ManaSourceSelection.cmpStable (a b : ManaSourceSelection) : Ordering :=
  (compare a.source b.source).then <| (compare a.abilityIndex b.abilityIndex).then <|
  (compare a.manaType b.manaType).then <| (cmpManaSourceOutput a.output b.output).then <|
  (compare a.atomicCombination b.atomicCombination).then <|
  (cmpManaRestrictionSlices a.restrictions b.restrictions).then <|
  (cmpManaSourcePenalty a.penalty b.penalty).then <|
  cmpSliceBy cmpTapsForMana a.tapsForMana b.tapsForMana

theorem cmpSliceBy_eq {α : Type} (cmp : α → α → Ordering) :
    cmpSliceBy cmp = List.compareLex cmp := by
  funext left right
  induction left generalizing right with
  | nil => cases right <;> rfl
  | cons a left ih =>
    cases right with
    | nil => rfl
    | cons b right =>
      have longer : compare (left.length + 1) (right.length + 1) =
          compare left.length right.length := by simp [compare, compareOfLessAndEq]
      rw [List.compareLex_cons_cons, ← ih]
      simp only [cmpSliceBy, List.zip_cons_cons, List.map_cons, List.find?_cons, List.length_cons,
        longer]
      cases cmp a b <;> rfl

theorem cmpManaRestrictionSlices_eq : cmpManaRestrictionSlices = cmpSliceBy cmpManaRestriction := by
  rw [cmpSliceBy_eq]
  funext left right
  induction left generalizing right with
  | nil => cases right <;> rfl
  | cons a left ih =>
    cases right with
    | nil => rfl
    | cons b right => rw [cmpManaRestrictionSlices, List.compareLex_cons_cons, ih]

theorem reads_slice {α : Type} {code : α → Code} {cmp : α → α → Ordering}
    (reads : ∀ a, Reads code cmp a) (as : List α) : Reads (each code) (cmpSliceBy cmp) as := by
  rw [cmpSliceBy_eq]
  exact reads_each reads as

theorem ManaType.reads : ∀ a, Reads (number ∘ ManaType.ctorIdx) compare a :=
  reads_rank _ fun a b => by cases a <;> cases b <;> decide

theorem ManaColor.reads : ∀ a, Reads (number ∘ ManaColor.ctorIdx) compare a :=
  reads_rank _ fun a b => by cases a <;> cases b <;> decide

theorem Zone.reads : ∀ a, Reads (number ∘ Zone.ctorIdx) compare a :=
  reads_rank _ fun a b => by cases a <;> cases b <;> decide

theorem KeywordKind.reads : ∀ a, Reads (number ∘ KeywordKind.discriminant) compare a :=
  reads_rank _ fun ⟨_⟩ ⟨_⟩ => congrArg mk

theorem reads_comparator : ∀ a, Reads (number ∘ comparatorRank) (compareOn comparatorRank) a :=
  reads_rank _ fun a b => by cases a <;> cases b <;> decide

theorem reads_abilityActivationScope :
    ∀ a, Reads (number ∘ abilityActivationScopeRank) (compareOn abilityActivationScopeRank) a :=
  reads_rank _ fun a b => by cases a <;> cases b <;> decide

theorem reads_abilityTag : ∀ a, Reads (number ∘ abilityTagRank) (compareOn abilityTagRank) a :=
  reads_rank _ fun a b => by cases a <;> cases b <;> decide

theorem reads_zoneSpendPolarity :
    ∀ a, Reads (number ∘ zoneSpendPolarityRank) (compareOn zoneSpendPolarityRank) a :=
  reads_rank _ fun a b => by cases a <;> cases b <;> decide

theorem reads_specialAction :
    ∀ a, Reads (number ∘ specialActionRank) (compareOn specialActionRank) a :=
  reads_rank _ fun a b => by cases a <;> cases b <;> decide

def ObjectIncarnationRef.code (ref : ObjectIncarnationRef) : Code :=
  number ref.objectId ∘ number ref.incarnation

theorem ObjectIncarnationRef.reads (a : ObjectIncarnationRef) : Reads code compare a :=
  fun _ => ((reads_number _ _).append (reads_number _ _)).imp (mk.injEq .. ▸ ·)

def ManaSourceOutput.code : ManaSourceOutput → Code
  | concrete manaType => number 0 ∘ number manaType.ctorIdx
  | deferredColorChoice (.fixed amount) => number 1 ∘ number amount
  | deferredColorChoice .variable => number 2

theorem ManaSourceOutput.reads : ∀ a, Reads code cmpManaSourceOutput a
  | concrete a, concrete b => (a.reads b).under 0 (congrArg concrete)
  | deferredColorChoice (.fixed a), deferredColorChoice (.fixed b) =>
    (reads_number a b).under 1 fun same => by rw [same]
  | deferredColorChoice .variable, deferredColorChoice .variable => ⟨fun _ _ => rfl, fun _ => rfl⟩
  | deferredColorChoice .variable, deferredColorChoice (.fixed _)
  | deferredColorChoice (.fixed _), deferredColorChoice .variable
  | concrete _, deferredColorChoice (.fixed _) | concrete _, deferredColorChoice .variable
  | deferredColorChoice (.fixed _), concrete _ | deferredColorChoice .variable, concrete _ =>
    ⟨fun _ _ => rfl, by rintro ⟨⟩⟩

def ManaSourcePenalty.code : ManaSourcePenalty → Code
  | none => number 0
  | hasIrreversibleContinuation => number 1
  | dealsDamageOnResolution amount => number 2 ∘ optional number amount
  | paysLifeOnActivation amount => number 3 ∘ optional number amount
  | sacrifices => number 4

theorem ManaSourcePenalty.reads (a : ManaSourcePenalty) : Reads code cmpManaSourcePenalty a := by
  intro b
  cases a <;> cases b
  case dealsDamageOnResolution.dealsDamageOnResolution =>
    exact (reads_optional reads_number _ _).under 2 (congrArg _)
  case paysLifeOnActivation.paysLifeOnActivation =>
    exact (reads_optional reads_number _ _).under 3 (congrArg _)
  all_goals first
    | exact ⟨fun _ _ => rfl, fun _ => rfl⟩
    | exact ⟨fun _ _ => rfl, nofun⟩

def ProductionOverride.code : ProductionOverride → Code
  | singleColor manaType => number 0 ∘ number manaType.ctorIdx
  | combination manaTypes => number 1 ∘ each (number ∘ ManaType.ctorIdx) manaTypes

theorem ProductionOverride.reads : ∀ a, Reads code cmpProductionOverride a
  | singleColor a, singleColor b => (a.reads b).under 0 (congrArg _)
  | combination a, combination b => (reads_each ManaType.reads a b).under 1 (congrArg _)
  | singleColor _, combination _ | combination _, singleColor _ => ⟨fun _ _ => rfl, nofun⟩

def CopyEffectInstanceRef.code (ref : CopyEffectInstanceRef) : Code :=
  number ref.continuousEffectId ∘ number ref.modificationIndex

theorem CopyEffectInstanceRef.reads (a : CopyEffectInstanceRef) : Reads code compare a :=
  fun _ => ((reads_number _ _).append (reads_number _ _)).imp (mk.injEq .. ▸ ·)

def PrintedCardRef.code (ref : PrintedCardRef) : Code := text ref.oracleId ∘ text ref.faceName

def TriggerPrintedOrigin.code (origin : TriggerPrintedOrigin) : Code :=
  origin.printedRef.code ∘ number origin.printedOccurrence

theorem TriggerPrintedOrigin.reads : ∀ a : TriggerPrintedOrigin, Reads code compare a
  | ⟨⟨a, a'⟩, _⟩, ⟨⟨b, b'⟩, _⟩ =>
    (((reads_text a b).append (reads_text a' b')).append (reads_number _ _)).imp (by simp)

def TriggerDefinitionOccurrenceRef.code : TriggerDefinitionOccurrenceRef → Code
  | printed baseSet index => number 0 ∘ number baseSet ∘ number index
  | copiedValue effect slot origin =>
    number 1 ∘ effect.code ∘ number slot ∘ optional TriggerPrintedOrigin.code origin
  | keywordCompanion grant index => number 2 ∘ number grant ∘ number index
  | copyRetained grant baseSet index => number 3 ∘ number grant ∘ number baseSet ∘ number index
  | granted grant => number 4 ∘ number grant
  | expandedGrant grant source occurrence index =>
    number 5 ∘ number grant ∘ source.code ∘ occurrence.code ∘ number index
  | unmaterialized => number 6

theorem TriggerDefinitionOccurrenceRef.reads (a : TriggerDefinitionOccurrenceRef) :
    Reads code cmp a := by
  induction a <;> intro b <;> cases b
  case printed.printed | keywordCompanion.keywordCompanion =>
    exact ((reads_number _ _).append (reads_number _ _)).under _ (by simp)
  case copiedValue.copiedValue =>
    exact ((CopyEffectInstanceRef.reads _ _).append ((reads_number _ _).append
      (reads_optional TriggerPrintedOrigin.reads _ _))).under 1 (by simp)
  case copyRetained.copyRetained =>
    exact ((reads_number _ _).append ((reads_number _ _).append (reads_number _ _))).under 3
      (by simp)
  case granted.granted => exact (reads_number _ _).under 4 (congrArg _)
  case expandedGrant.expandedGrant reads _ _ _ _ =>
    exact ((reads_number _ _).append ((ObjectIncarnationRef.reads _ _).append
      ((reads _).append (reads_number _ _)))).under 5 (by simp)
  all_goals first
    | exact ⟨fun _ _ => rfl, fun _ => rfl⟩
    | exact ⟨fun _ _ => rfl, nofun⟩

def TapsForManaSelection.code (selection : TapsForManaSelection) : Code :=
  selection.source.code ∘ selection.occurrence.code ∘ selection.productionOverride.code

theorem TapsForManaSelection.reads (a : TapsForManaSelection) : Reads code cmpTapsForMana a :=
  fun _ => ((a.source.reads _).append ((a.occurrence.reads _).append
    (a.productionOverride.reads _))).imp (mk.injEq .. ▸ ·)

def SpellCostCriterion.code : SpellCostCriterion → Code
  | manaValue comparator value => number 0 ∘ number (comparatorRank comparator) ∘ number value
  | hasXInCost => number 1

theorem SpellCostCriterion.reads : ∀ a, Reads code cmpSpellCostCriterion a
  | manaValue a _, manaValue b _ =>
    ((reads_comparator a b).append (reads_number _ _)).under 0 (by simp)
  | hasXInCost, hasXInCost => ⟨fun _ _ => rfl, fun _ => rfl⟩
  | manaValue _ _, hasXInCost | hasXInCost, manaValue _ _ => ⟨fun _ _ => rfl, nofun⟩

def PlainRestriction.payload : PlainRestriction → Code
  | onlyForSpellType value | onlyForCreatureType value => text value
  | onlyForTypeSpellsOrAbilities spellType ability =>
    text spellType ∘ number (abilityActivationScopeRank ability)
  | onlyForTaggedActivation tag => number (abilityTagRank tag)
  | onlyForSpellWithKeywordKind kind => number kind.discriminant
  | onlyForSpellWithKeywordKindFromZone kind zone =>
    number kind.discriminant ∘ number zone.ctorIdx
  | onlyForSpellWithManaValue comparator value | onlyForSpellWithColorCount comparator value =>
    number (comparatorRank comparator) ∘ number value
  | onlyForSpellMatchingCostCriteria spellType criteria =>
    optional text spellType ∘ each SpellCostCriterion.code criteria
  | onlyForSpellColor color => number color.ctorIdx
  | onlyForSpellFromZone spend =>
    number spend.zone.ctorIdx ∘ number (zoneSpendPolarityRank spend.polarity)
  | cannotCastSpellFromZone zone => number zone.ctorIdx
  | onlyForSpecialAction action => number (specialActionRank action)
  | onlyForSpell | onlyForActivation | onlyForXCosts | onlyForFaceDownSpell | impossible
  | convokePayment => id

def PlainRestriction.code (restriction : PlainRestriction) : Code :=
  number restriction.rank ∘ restriction.payload

theorem PlainRestriction.reads (a b : PlainRestriction) : Agree a.code b.code
    ((compare a.rank b.rank).then (a.cmpPayload b)) (a = b) := by
  cases a <;> cases b
  case onlyForSpellType.onlyForSpellType | onlyForCreatureType.onlyForCreatureType =>
    exact (reads_text _ _).under _ (congrArg _)
  case onlyForTypeSpellsOrAbilities.onlyForTypeSpellsOrAbilities =>
    exact ((reads_text _ _).append (reads_abilityActivationScope _ _)).under 3 (by simp)
  case onlyForTaggedActivation.onlyForTaggedActivation =>
    exact (reads_abilityTag _ _).under 5 (congrArg _)
  case onlyForSpellWithKeywordKind.onlyForSpellWithKeywordKind =>
    exact (KeywordKind.reads _ _).under 7 (congrArg _)
  case onlyForSpellWithKeywordKindFromZone.onlyForSpellWithKeywordKindFromZone =>
    exact ((KeywordKind.reads _ _).append (Zone.reads _ _)).under 8 (by simp)
  case onlyForSpellWithManaValue.onlyForSpellWithManaValue
      | onlyForSpellWithColorCount.onlyForSpellWithColorCount =>
    exact ((reads_comparator _ _).append (reads_number _ _)).under _ (by simp)
  case onlyForSpellMatchingCostCriteria.onlyForSpellMatchingCostCriteria =>
    exact ((reads_optional reads_text _ _).append
      (reads_slice SpellCostCriterion.reads _ _)).under 10 (by simp)
  case onlyForSpellColor.onlyForSpellColor => exact (ManaColor.reads _ _).under 12 (congrArg _)
  case onlyForSpellFromZone.onlyForSpellFromZone a b =>
    exact ((Zone.reads a.zone b.zone).append (reads_zoneSpendPolarity _ _)).under 13
      fun same => congrArg _ (ZoneSpend.mk.injEq .. ▸ same)
  case cannotCastSpellFromZone.cannotCastSpellFromZone =>
    exact (Zone.reads _ _).under 14 (congrArg _)
  case onlyForSpecialAction.onlyForSpecialAction =>
    exact (reads_specialAction _ _).under 17 (congrArg _)
  all_goals first
    | exact ⟨fun _ _ => rfl, fun _ => rfl⟩
    | exact ⟨fun _ _ => rfl, nofun⟩

mutual

def ManaRestriction.code : ManaRestriction → Code
  | plain restriction => restriction.code
  | onlyForAny restrictions => number 16 ∘ codes restrictions

def ManaRestriction.codes : List ManaRestriction → Code
  | [] => number 0
  | restriction :: restrictions => number 1 ∘ restriction.code ∘ codes restrictions

end

mutual

theorem ManaRestriction.reads : ∀ a, Reads code cmpManaRestriction a
  | .plain a, .plain b => by
    rw [code, code, cmpManaRestriction]
    exact (a.reads b).imp (congrArg _)
  | .onlyForAny as, .onlyForAny bs => by
    rw [code, code, cmpManaRestriction]
    exact (reads_restrictions as bs).under 16 (congrArg _)
  | .plain a, .onlyForAny _ => by
    rw [code, code, cmpManaRestriction.eq_def]
    cases a <;> exact ⟨fun _ _ => rfl, nofun⟩
  | .onlyForAny _, .plain b => by
    rw [code, code, cmpManaRestriction.eq_def]
    cases b <;> exact ⟨fun _ _ => rfl, nofun⟩

theorem reads_restrictions : ∀ as, Reads codes cmpManaRestrictionSlices as
  | [], [] => ⟨fun _ _ => rfl, fun _ => rfl⟩
  | a :: as, b :: bs => by
    rw [codes, codes, cmpManaRestrictionSlices]
    exact ((a.reads b).append (reads_restrictions as bs)).under 1 (by simp)
  | [], _ :: _ | _ :: _, [] => by
    rw [codes, codes, cmpManaRestrictionSlices.eq_def]
    exact ⟨fun _ _ => rfl, nofun⟩

end

def ManaSourceSelection.code (selection : ManaSourceSelection) : Code :=
  selection.source.code ∘ optional number selection.abilityIndex ∘
  number selection.manaType.ctorIdx ∘ selection.output.code ∘
  optional (each (number ∘ ManaType.ctorIdx)) selection.atomicCombination ∘
  codes selection.restrictions ∘ selection.penalty.code ∘
  each TapsForManaSelection.code selection.tapsForMana

theorem ManaSourceSelection.reads (a : ManaSourceSelection) : Reads code cmpStable a :=
  fun _ => ((a.source.reads _).append <| (reads_optional reads_number _ _).append <|
    (a.manaType.reads _).append <| (a.output.reads _).append <|
    (reads_optional (reads_each ManaType.reads) _ _).append <|
    (reads_restrictions _ _).append <| (a.penalty.reads _).append <|
    reads_slice TapsForManaSelection.reads _ _).imp (mk.injEq .. ▸ ·)

/-- The order of the selections on the wire is total, and only the selection itself is equal to a
selection, however deep the restrictions that it carries are nested. -/
theorem ManaSourceSelection.cmpStable_total (a b c : ManaSourceSelection) :
    b.cmpStable a = (a.cmpStable b).swap ∧
      ((a.cmpStable b).isLE = true → (b.cmpStable c).isLE = true → (a.cmpStable c).isLE = true) ∧
      (a.cmpStable b = .eq ↔ a = b) :=
  total reads a b c

end Phase.Mana
