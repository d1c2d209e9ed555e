import Mathlib.Data.List.Basic

/-! What the legality of a target reads of the other targets of its ability, from the filter that
governs it. -/
namespace Phase.Retarget

/-- What a retarget position's legality reads of the other positions. -/
inductive RetargetDeps where
  | independent
  | slots (read : List Nat)
  | allPositions
  deriving DecidableEq

namespace RetargetDeps

/-- The slots of `b` come after those of `a`, but for those that are among them. -/
def mergeSlots (a b : List Nat) : List Nat :=
  b.foldl (fun a slot => if a.contains slot then a else a ++ [slot]) a

def or : RetargetDeps → RetargetDeps → RetargetDeps
  | allPositions, _ => allPositions
  | _, allPositions => allPositions
  | independent, other => other
  | other, independent => other
  | slots a, slots b => slots (mergeSlots a b)

def all (deps : List RetargetDeps) : RetargetDeps := deps.foldl or independent

end RetargetDeps

inductive TypeFilter where
  | non (inner : TypeFilter)
  | anyOf (inner : List TypeFilter)
  | creature | land | artifact | enchantment | instant | sorcery | planeswalker | battle | kindred
  | permanent | card | any | subtype

inductive ControllerRef where
  | targetPlayer | targetOpponent | declaredPlayer | parentTargetController | parentTargetOwner
  | you | opponent | scopedPlayer | eventTargetController | defendingPlayer | chosenPlayer
  | sourceChosenPlayer | triggeringPlayer | enchantedPlayer | activePlayer | specificPlayer
  deriving DecidableEq

inductive QuantityExpr where
  | fixed
  | ref
  | divideRounded (inner : QuantityExpr)
  | offset (inner : QuantityExpr)
  | clampMin (inner : QuantityExpr)
  | multiply (inner : QuantityExpr)
  | upTo (max : QuantityExpr)
  | power (exponent : QuantityExpr)
  | difference (left right : QuantityExpr)
  | sum (exprs : List QuantityExpr)
  | max (exprs : List QuantityExpr)

inductive AttachmentReferent where
  | declaredTarget (slot : Nat)
  | player (player : ControllerRef)
  | host
  | source
  | recipient
  deriving DecidableEq

inductive CombatRelationSubject where
  | parentTarget
  | source
  deriving DecidableEq

mutual

/-- Of each variant the parts that tell what it reads. -/
inductive TargetFilter where
  | typed (typed : TypedFilter)
  | not (filter : TargetFilter)
  | or (filters : List TargetFilter)
  | and (filters : List TargetFilter)
  | stackAbility (controller : Option ControllerRef)
  | trackedSetFiltered (filter : TargetFilter)
  | chosenDamageSource (filter : Option TargetFilter)
  | playerMatching | parentTarget | parentTargetSlot | declaredPlayer | parentTargetController
  | parentTargetOwner | affectedObjectOwner
  | none | any | player | controller | sourceController | controllerAndControlledPermanents
  | opponent | selfRef | grantingObject | sourceOrPaired | stackSpell | specificObject
  | specificPlayer | playerWhoChoseLabel | neighbor | scopedPlayer | attachedTo | lastCreated
  | lastRevealed | lastZoneChanged | costPaidObject | amassedArmy | chosenCard | trackedSet
  | exiledBySource | exiledCardByIndex | triggeringSpellController | triggeringSpellOwner
  | triggeringPlayer | triggeringSource | castingSpell | eventTarget | triggeringSourceController
  | eventTargetController | sourceChosenPlayer | originalController | originalSource
  | postReplacementSourceController | postReplacementDamageSource | postReplacementDamageTarget
  | postReplacementDamageTargetOwner | defendingPlayer | attackedPlayerOrPlaneswalker
  | hasChosenName | named | owner | allPlayers

inductive TypedFilter where
  | mk (typeFilters : List TypeFilter) (controller : Option ControllerRef)
      (properties : List FilterProp)

inductive FilterProp where
  | attachedTo (referent : AttachmentReferent)
  | combatRelation (subject : CombatRelationSubject)
  | attacking (defender : Option ControllerRef)
  | protectorMatches (controller : ControllerRef)
  | owned (controller : ControllerRef)
  | hasAttachment (controller : Option ControllerRef)
  | canEnchant (target : TargetFilter)
  | counters (count : QuantityExpr)
  | cmc (value : QuantityExpr)
  | controllerMatches
  | hasAnyAttachmentOf (controller : Option ControllerRef)
  | attackedThisTurn (defender : Option ControllerRef)
  | nameMatchesAnyPermanent (controller : Option ControllerRef)
  | mostPrevalentCreatureTypeIn (scope : ControllerRef)
  | ptComparison (value : QuantityExpr)
  | anyOf (props : List FilterProp)
  | not (prop : FilterProp)
  | differentNameFrom (filter : TargetFilter)
  | targetsOnly (filter : TargetFilter)
  | targets (filter : TargetFilter)
  | distinctFrom (reference : TargetFilter)
  | sharesQuality
  | sameNameAsParentTarget
  | dealtDamageThisTurn (hasRecipient : Bool)
  | other
  | another | unpaired | otherThanTriggerObject | hasColor | notColor | powerGTSource | colorCount
  | manaSymbolCount | hasSupertype | notSupertype | isChosenCreatureType | isChosenColor
  | isChosenCardType | matchesLastChosenCardPredicate | hasSingleTarget | modal | prepareSpell
  | suspected | prepared | renowned | goaded | toughnessGTPower | powerExceedsBase | inTrackedSet
  | modified | historic | notHistoric | inAnyZone | wasDealtDamageThisTurn | enteredThisTurn
  | controlledContinuouslySinceTurnBegan | zoneChangedThisTurn | blockedThisTurn
  | attackedOrBlockedThisTurn | countersPutOnThisTurn | faceDown | transformed
  | couldBeTargetedByTriggeringSpell | hasXInManaCost | hasXInActivationCost | wasKicked
  | hasManaAbility | hasNoAbilities | named | sameName | sameNameAsExiledBySource | isCommander
  | sharesCreatureTypeWithCommander | token | nonToken | representedByCard | controllerChoseLabel
  | wasPlayed | blocking | blockingSource | blockStatus | attackingAlone | blockingAlone | tapped
  | untapped | isSaddled | saddledSource | crewedThisTurn | convokedSource
  | hasHasteOrControlledSinceTurnBegan | withKeyword | hasKeywordKind | withoutKeyword
  | withoutKeywordKind | manaValueParity | manaCostIn | inZone | foretold | hasAdventure
  | enchantedBy | equippedBy

end

open RetargetDeps

mutual

def typeFilterDeps : TypeFilter → RetargetDeps
  | .non inner => typeFilterDeps inner
  | .anyOf inner => all (typeFiltersDeps inner)
  | .creature | .land | .artifact | .enchantment | .instant | .sorcery | .planeswalker | .battle
  | .kindred | .permanent | .card | .any | .subtype =>
    independent

def typeFiltersDeps : List TypeFilter → List RetargetDeps
  | [] => []
  | filter :: filters => typeFilterDeps filter :: typeFiltersDeps filters

end

/-- One that names the target player, or the controller or the owner of a target, reads another
target. -/
def controllerDeps : ControllerRef → RetargetDeps
  | .targetPlayer | .targetOpponent | .declaredPlayer | .parentTargetController
  | .parentTargetOwner =>
    allPositions
  | .you | .opponent | .scopedPlayer | .eventTargetController | .defendingPlayer | .chosenPlayer
  | .sourceChosenPlayer | .triggeringPlayer | .enchantedPlayer | .activePlayer | .specificPlayer =>
    independent

def optionalControllerDeps (controller : Option ControllerRef) : RetargetDeps :=
  (controller.map controllerDeps).getD independent

mutual

def quantityDeps : QuantityExpr → RetargetDeps
  | .fixed => independent
  | .ref => allPositions
  | .divideRounded inner | .offset inner | .clampMin inner | .multiply inner => quantityDeps inner
  | .upTo max => quantityDeps max
  | .power exponent => quantityDeps exponent
  | .difference left right => (quantityDeps left).or (quantityDeps right)
  | .sum exprs | .max exprs => all (quantitiesDeps exprs)

def quantitiesDeps : List QuantityExpr → List RetargetDeps
  | [] => []
  | expr :: exprs => quantityDeps expr :: quantitiesDeps exprs

end

mutual

def retargetDependencies : TargetFilter → RetargetDeps
  | .typed typed => typedFilterDeps typed
  | .not filter => retargetDependencies filter
  | .or filters | .and filters => all (filtersDeps filters)
  | .stackAbility controller => optionalControllerDeps controller
  | .trackedSetFiltered filter => retargetDependencies filter
  | .chosenDamageSource (some filter) => retargetDependencies filter
  | .chosenDamageSource none => independent
  | .playerMatching | .parentTarget | .parentTargetSlot | .declaredPlayer
  | .parentTargetController | .parentTargetOwner | .affectedObjectOwner => allPositions
  | .none | .any | .player | .controller | .sourceController | .controllerAndControlledPermanents
  | .opponent | .selfRef | .grantingObject | .sourceOrPaired | .stackSpell | .specificObject
  | .specificPlayer | .playerWhoChoseLabel | .neighbor | .scopedPlayer | .attachedTo
  | .lastCreated | .lastRevealed | .lastZoneChanged | .costPaidObject | .amassedArmy | .chosenCard
  | .trackedSet | .exiledBySource | .exiledCardByIndex | .triggeringSpellController
  | .triggeringSpellOwner | .triggeringPlayer | .triggeringSource | .castingSpell | .eventTarget
  | .triggeringSourceController | .eventTargetController | .sourceChosenPlayer
  | .originalController | .originalSource | .postReplacementSourceController
  | .postReplacementDamageSource | .postReplacementDamageTarget
  | .postReplacementDamageTargetOwner | .defendingPlayer | .attackedPlayerOrPlaneswalker
  | .hasChosenName | .named | .owner | .allPlayers => independent

def filtersDeps : List TargetFilter → List RetargetDeps
  | [] => []
  | filter :: filters => retargetDependencies filter :: filtersDeps filters

def typedFilterDeps : TypedFilter → RetargetDeps
  | .mk typeFilters controller properties =>
    all (typeFiltersDeps typeFilters ++ (controller.map controllerDeps).toList ++
      filterPropsDeps properties)

def filterPropDeps : FilterProp → RetargetDeps
  | .attachedTo referent =>
    match referent with
    | .declaredTarget slot => slots [slot]
    | .player player => controllerDeps player
    | .host => allPositions
    | .source | .recipient => independent
  | .combatRelation subject =>
    match subject with
    | .parentTarget => allPositions
    | .source => independent
  | .attacking defender => optionalControllerDeps defender
  | .protectorMatches controller | .owned controller => controllerDeps controller
  | .hasAttachment controller => optionalControllerDeps controller
  | .canEnchant target => retargetDependencies target
  | .counters count => quantityDeps count
  | .cmc value => quantityDeps value
  | .controllerMatches => allPositions
  | .hasAnyAttachmentOf controller | .attackedThisTurn controller
  | .nameMatchesAnyPermanent controller => optionalControllerDeps controller
  | .mostPrevalentCreatureTypeIn scope => controllerDeps scope
  | .ptComparison value => quantityDeps value
  | .anyOf props => all (filterPropsDeps props)
  | .not prop => filterPropDeps prop
  | .differentNameFrom filter | .targetsOnly filter | .targets filter =>
    retargetDependencies filter
  | .distinctFrom reference => retargetDependencies reference
  | .sharesQuality | .sameNameAsParentTarget => allPositions
  | .dealtDamageThisTurn hasRecipient => if hasRecipient then allPositions else independent
  | .other => allPositions
  | .another | .unpaired | .otherThanTriggerObject | .hasColor | .notColor | .powerGTSource
  | .colorCount | .manaSymbolCount | .hasSupertype | .notSupertype | .isChosenCreatureType
  | .isChosenColor | .isChosenCardType | .matchesLastChosenCardPredicate | .hasSingleTarget
  | .modal | .prepareSpell | .suspected | .prepared | .renowned | .goaded | .toughnessGTPower
  | .powerExceedsBase | .inTrackedSet | .modified | .historic | .notHistoric | .inAnyZone
  | .wasDealtDamageThisTurn | .enteredThisTurn | .controlledContinuouslySinceTurnBegan
  | .zoneChangedThisTurn | .blockedThisTurn | .attackedOrBlockedThisTurn | .countersPutOnThisTurn
  | .faceDown | .transformed | .couldBeTargetedByTriggeringSpell | .hasXInManaCost
  | .hasXInActivationCost | .wasKicked | .hasManaAbility | .hasNoAbilities | .named | .sameName
  | .sameNameAsExiledBySource | .isCommander | .sharesCreatureTypeWithCommander | .token
  | .nonToken | .representedByCard | .controllerChoseLabel | .wasPlayed | .blocking
  | .blockingSource | .blockStatus | .attackingAlone | .blockingAlone | .tapped | .untapped
  | .isSaddled | .saddledSource | .crewedThisTurn | .convokedSource
  | .hasHasteOrControlledSinceTurnBegan | .withKeyword | .hasKeywordKind | .withoutKeyword
  | .withoutKeywordKind | .manaValueParity | .manaCostIn | .inZone | .foretold | .hasAdventure
  | .enchantedBy | .equippedBy => independent

def filterPropsDeps : List FilterProp → List RetargetDeps
  | [] => []
  | prop :: props => filterPropDeps prop :: filterPropsDeps props

end

end Phase.Retarget
