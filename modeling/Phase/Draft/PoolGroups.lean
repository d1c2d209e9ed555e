import Mathlib.Data.List.Infix
import Mathlib.Data.List.Sort
import Phase.Draft.Types

/-! How a player's pool is grouped for display. -/
namespace Phase.Draft

inductive DraftPoolGroupKind where
  | white | blue | black | red | green | multicolor | colorless
  | creature | instant | sorcery | enchantment | artifact | planeswalker | land | other
  | mythic | rare | uncommon | common | rarityOther
  | manaValue0 | manaValue1 | manaValue2 | manaValue3 | manaValue4 | manaValue5 | manaValue6Plus
  deriving DecidableEq

inductive DraftRarityGroupKind where
  | mythic | rare | uncommon | common | rarityOther
  deriving DecidableEq

/-- The copies of one card in a group, with the ids of all of them. -/
structure DraftPoolEntry where
  card : DraftCardInstance
  count : Nat
  instanceIds : List String
  deriving DecidableEq

structure DraftPoolGroup where
  kind : DraftPoolGroupKind
  total : Nat
  cards : List DraftPoolEntry
  deriving DecidableEq

structure DraftPoolColorCounts where
  white : Nat
  blue : Nat
  black : Nat
  red : Nat
  green : Nat
  deriving DecidableEq

structure DraftPoolGroups where
  colorGroups : List DraftPoolGroup
  typeGroups : List DraftPoolGroup
  cmcGroups : List DraftPoolGroup
  rarityGroups : List DraftPoolGroup
  typeFilterOptions : List DraftPoolGroupKind
  colorFilterOptions : List DraftPoolGroupKind
  colorCounts : DraftPoolColorCounts
  rarityGroupOrder : Option (List DraftRarityGroupKind)
  creatureInstanceIds : List String
  noncreatureInstanceIds : List String
  deriving DecidableEq

namespace PoolGroups

def colorGroupOrder : List DraftPoolGroupKind :=
  [.white, .blue, .black, .red, .green, .multicolor, .colorless]

def typeGroupOrder : List DraftPoolGroupKind :=
  [.creature, .instant, .sorcery, .enchantment, .artifact, .planeswalker, .land, .other]

def rarityGroupOrder : List DraftPoolGroupKind := [.mythic, .rare, .uncommon, .common, .rarityOther]

def rarityCapabilityOrder : List DraftRarityGroupKind :=
  [.mythic, .rare, .uncommon, .common, .rarityOther]

def cmcGroupOrder : List DraftPoolGroupKind :=
  [.manaValue0, .manaValue1, .manaValue2, .manaValue3, .manaValue4, .manaValue5, .manaValue6Plus]

def colorGroup (card : DraftCardInstance) : DraftPoolGroupKind :=
  match card.colors with
  | [] => .colorless
  | _ :: _ :: _ => .multicolor
  | ["W"] => .white
  | ["U"] => .blue
  | ["B"] => .black
  | ["R"] => .red
  | ["G"] => .green
  | [_] => .colorless

/-- Every color bucket of a card; the group is the one it is displayed in. -/
def colorMemberships (card : DraftCardInstance) : List DraftPoolGroupKind :=
  if card.colors.isEmpty then [.colorless]
  else
    let symbols : List (DraftPoolGroupKind × String) :=
      [(.white, "W"), (.blue, "U"), (.black, "B"), (.red, "R"), (.green, "G")]
    let memberships := (symbols.filter fun symbol => symbol.2 ∈ card.colors).map Prod.fst ++
      if 2 ≤ card.colors.length then [.multicolor] else []
    if memberships.isEmpty then [.colorless] else memberships

def typeMemberships (card : DraftCardInstance) : List DraftPoolGroupKind :=
  let typeLine := card.typeLine.toLower.toList
  let needles : List (DraftPoolGroupKind × String) :=
    [(.creature, "creature"), (.instant, "instant"), (.sorcery, "sorcery"),
      (.enchantment, "enchantment"), (.artifact, "artifact"), (.planeswalker, "planeswalker"),
      (.land, "land")]
  let memberships := (needles.filter fun needle => needle.2.toList <:+: typeLine).map Prod.fst
  if memberships.isEmpty then [.other] else memberships

def typeGroup (card : DraftCardInstance) : DraftPoolGroupKind := (typeMemberships card).headD .other

def rarityGroup (card : DraftCardInstance) : DraftPoolGroupKind :=
  match card.rarity.toLower with
  | "mythic" => .mythic
  | "rare" => .rare
  | "uncommon" => .uncommon
  | "common" => .common
  | _ => .rarityOther

def manaValueGroup (card : DraftCardInstance) : DraftPoolGroupKind :=
  match card.cmc with
  | 0 => .manaValue0
  | 1 => .manaValue1
  | 2 => .manaValue2
  | 3 => .manaValue3
  | 4 => .manaValue4
  | 5 => .manaValue5
  | _ => .manaValue6Plus

/-- Neighbours of the same name are one entry, represented by the first of them. -/
def sourceOrderEntries (cards : List DraftCardInstance) : List DraftPoolEntry :=
  (cards.splitBy fun left right => left.name == right.name).filterMap fun copies =>
    copies.head?.map fun card =>
      { card, count := copies.length, instanceIds := copies.map (·.instanceId) }

def sortedEntries (cards : List DraftCardInstance) (sortByCmc : Bool) : List DraftPoolEntry :=
  sourceOrderEntries (cards.insertionSort fun left right =>
    if sortByCmc then left.cmc < right.cmc ∨ left.cmc = right.cmc ∧ left.name ≤ right.name
    else left.name ≤ right.name)

/-- The nonempty groups of a classification, in order. -/
def groupsBy (entries : List DraftCardInstance → List DraftPoolEntry)
    (pool : List DraftCardInstance) (order : List DraftPoolGroupKind)
    (classify : DraftCardInstance → DraftPoolGroupKind) : List DraftPoolGroup :=
  order.filterMap fun kind =>
    let cards := pool.filter fun card => classify card = kind
    if cards.isEmpty then none else some { kind, total := cards.length, cards := entries cards }

def groupsFor (pool : List DraftCardInstance) (order : List DraftPoolGroupKind)
    (classify : DraftCardInstance → DraftPoolGroupKind) (sortByCmc : Bool) : List DraftPoolGroup :=
  groupsBy (sortedEntries · sortByCmc) pool order classify

def sourceOrderGroupsFor : List DraftCardInstance → List DraftPoolGroupKind →
    (DraftCardInstance → DraftPoolGroupKind) → List DraftPoolGroup :=
  groupsBy sourceOrderEntries

def colorFilterOptions (pool : List DraftCardInstance) : List DraftPoolGroupKind :=
  colorGroupOrder.filter fun kind => pool.any fun card => kind ∈ colorMemberships card

def typeFilterOptions (pool : List DraftCardInstance) : List DraftPoolGroupKind :=
  typeGroupOrder.filter fun kind => pool.any fun card => kind ∈ typeMemberships card

def colorCounts (pool : List DraftCardInstance) : DraftPoolColorCounts :=
  let colors := pool.flatMap (·.colors)
  { white := colors.count "W", blue := colors.count "U", black := colors.count "B",
    red := colors.count "R", green := colors.count "G" }

end PoolGroups

/-- Of the source it only matters whether it is a cube. -/
def DraftPoolGroups.fromPool (pool : List DraftCardInstance) (source : DraftSource) :
    DraftPoolGroups where
  colorGroups := PoolGroups.groupsFor pool PoolGroups.colorGroupOrder PoolGroups.colorGroup true
  typeGroups := PoolGroups.groupsFor pool PoolGroups.typeGroupOrder PoolGroups.typeGroup true
  cmcGroups := PoolGroups.groupsFor pool PoolGroups.cmcGroupOrder PoolGroups.manaValueGroup false
  rarityGroups :=
    if source.isCube then []
    else PoolGroups.sourceOrderGroupsFor pool PoolGroups.rarityGroupOrder PoolGroups.rarityGroup
  typeFilterOptions := PoolGroups.typeFilterOptions pool
  colorFilterOptions := PoolGroups.colorFilterOptions pool
  colorCounts := PoolGroups.colorCounts pool
  rarityGroupOrder := if source.isCube then none else some PoolGroups.rarityCapabilityOrder
  creatureInstanceIds :=
    (pool.filter fun card => .creature ∈ PoolGroups.typeMemberships card).map (·.instanceId)
  noncreatureInstanceIds :=
    (pool.filter fun card => .creature ∉ PoolGroups.typeMemberships card).map (·.instanceId)

def setPackInRarityOrder (pack : DraftPack) : DraftPack :=
  PoolGroups.rarityGroupOrder.flatMap fun kind =>
    pack.filter fun card => PoolGroups.rarityGroup card = kind

end Phase.Draft
