import Phase.Draft.Types
import Phase.Lib.Drawing
import Phase.Lib.Slotted
import Mathlib.Data.Rat.Floor

/-! Set pools taken from set data, and the boosters opened from them. -/
namespace Phase.Draft
open Drawing (Draw)

inductive Rarity where
  | common
  | uncommon
  | rare
  | mythic
  | special
  | bonus
  deriving DecidableEq

structure WeightedSheetChoice where
  sheet : String
  weight : Nat
  deriving DecidableEq

structure PackSlot where
  slot : String
  count : Nat
  choices : List WeightedSheetChoice
  deriving DecidableEq

structure SheetCard where
  name : String
  setCode : String
  collectorNumber : String
  rarity : Rarity
  weight : Nat
  colors : List String := []
  cmc : Nat := 0
  typeLine : String := ""
  draftEffect : Option DraftEffect := none
  deriving DecidableEq

structure SheetDefinition where
  cards : List SheetCard := []
  totalWeight : Nat := 0
  allowDuplicates : Bool := false
  fixed : Bool := false
  foil : Bool := false
  balanceColors : Bool := false
  deriving DecidableEq

structure PackVariant where
  contents : List PackSlot
  weight : Nat
  deriving DecidableEq

structure LimitedSetPool where
  code : String
  name : String
  releaseDate : Option String
  packVariants : List PackVariant
  packVariantsTotalWeight : Nat
  sheets : List (String × SheetDefinition)
  deriving DecidableEq

def normalizePackVariants (setCode : String) (packVariants : List PackVariant) : List PackVariant :=
  if eqIgnoreAsciiCase setCode "UGL" then
    packVariants.map fun variant =>
      { variant with
        contents := variant.contents.map fun slot =>
          if slot.slot = "uncommon" ∧ slot.count < 2 then { slot with count := 2 } else slot }
  else packVariants

/-! ## Extraction

An object of the set data is the list of its entries, in the order in which they come up. -/

structure MtgjsonCard where
  uuid : String
  name : String
  rarity : String
  number : String
  setCode : String
  colors : List String := []
  manaValue : Rat := 0
  typeLine : String := ""
  text : Option String := none
  deriving DecidableEq

structure MtgjsonSheet where
  cards : List (String × Nat)
  totalWeight : Nat
  allowDuplicates : Bool := false
  fixed : Bool := false
  foil : Bool := false
  balanceColors : Bool := false
  deriving DecidableEq

structure MtgjsonBoosterVariant where
  contents : List (String × Nat)
  weight : Nat
  deriving DecidableEq

structure MtgjsonBoosterConfig where
  sheets : List (String × MtgjsonSheet)
  boosters : List MtgjsonBoosterVariant
  boostersTotalWeight : Nat
  deriving DecidableEq

structure MtgjsonBooster where
  play : Option MtgjsonBoosterConfig := none
  draft : Option MtgjsonBoosterConfig := none
  default : Option MtgjsonBoosterConfig := none
  deriving DecidableEq

structure MtgjsonSetData where
  code : String
  name : String
  releaseDate : Option String
  booster : Option MtgjsonBooster
  cards : List MtgjsonCard
  deriving DecidableEq

def MtgjsonBooster.draftable (booster : MtgjsonBooster) : Option MtgjsonBoosterConfig :=
  booster.play.or (booster.draft.or booster.default)

def parseRarity : String → Rarity
  | "common" => .common
  | "uncommon" => .uncommon
  | "rare" => .rare
  | "mythic" => .mythic
  | "special" => .special
  | "bonus" => .bonus
  | _ => .special

/-- Of two cards with one UUID the later one is kept. -/
def buildCardIndex (sets : List MtgjsonSetData) (uuid : String) : Option MtgjsonCard :=
  (sets.flatMap (·.cards)).reverse.find? fun card => card.uuid = uuid

/-- `f64 as u8`. -/
def floatAsU8 (value : Rat) : Nat := min 255 value.floor.toNat

section
variable (draftEffectFromOracleText : String → Option DraftEffect)
  (cardIndex : String → Option MtgjsonCard)

def sheetCard (card : MtgjsonCard) (weight : Nat) : SheetCard where
  name := card.name
  setCode := card.setCode
  collectorNumber := card.number
  rarity := parseRarity card.rarity
  weight
  colors := card.colors
  cmc := floatAsU8 card.manaValue
  typeLine := card.typeLine
  draftEffect := card.text.bind draftEffectFromOracleText

/-- The cards whose UUID is in the index; the total weight is the one the sheet had with all. -/
def extractSheet (sheet : MtgjsonSheet) : SheetDefinition where
  cards := (sheet.cards.filterMap fun (uuid, weight) =>
    (cardIndex uuid).map fun card => sheetCard draftEffectFromOracleText card weight).insertionSort
      fun a b => a.name ≤ b.name
  totalWeight := sheet.totalWeight
  allowDuplicates := sheet.allowDuplicates
  fixed := sheet.fixed
  foil := sheet.foil
  balanceColors := sheet.balanceColors

def extractVariant (variant : MtgjsonBoosterVariant) : PackVariant where
  contents := (variant.contents.map fun (sheetName, count) =>
    { slot := sheetName, count, choices := [{ sheet := sheetName, weight := 1 }] :
      PackSlot }).insertionSort fun a b => a.slot ≤ b.slot
  weight := variant.weight

def extractSetPoolIndexed (data : MtgjsonSetData) : Option LimitedSetPool := do
  let booster ← data.booster.bind MtgjsonBooster.draftable
  return {
    code := data.code
    name := data.name
    releaseDate := data.releaseDate
    packVariants := normalizePackVariants data.code (booster.boosters.map extractVariant)
    packVariantsTotalWeight := booster.boostersTotalWeight
    sheets := booster.sheets.map fun (name, sheet) =>
      (name, extractSheet draftEffectFromOracleText cardIndex sheet) }

end

/-- Additions of 64-bit weights, with the overflow check. -/
def checkedAdd (a b : Nat) : Option Nat := if a + b < 2 ^ 64 then some (a + b) else none

def checkedSub (a b : Nat) : Option Nat := if b ≤ a then some (a - b) else none

def checkedSum : Nat → List Nat → Option Nat
  | sum, [] => some sum
  | sum, weight :: weights => do checkedSum (← checkedAdd sum weight) weights

/-- The loop over the cumulative weights, from `cumulative` on; `0` when the roll is past them. -/
def landing (roll : Nat) : Nat → List (Nat × Nat) → Option Nat
  | _, [] => some 0
  | cumulative, (idx, weight) :: weights => do
      let cumulative ← checkedAdd cumulative weight
      if roll < cumulative then return idx else landing roll cumulative weights

def weightedSelect (totalWeight : Nat) (weights : List (Nat × Nat)) : Draw Nat := do
  let roll ← Drawing.below totalWeight
  landing roll 0 weights

def enumerated (weights : List Nat) : List (Nat × Nat) :=
  weights.zipIdx.map fun (weight, idx) => (idx, weight)

/-- The draws without replacement from `pool`, whose weights sum up to `total`. -/
def drawDistinct (pool : List (Nat × Nat)) (total : Nat) : Nat → Draw (List Nat)
  | 0 => pure []
  | count + 1 => do
      let roll ← Drawing.below total
      let pickPos ← liftM (landing roll 0 (enumerated (pool.map (·.2))))
      let ((origIdx, weight), pool) ← liftM (Slotted.swapRemove pool pickPos)
      let total ← liftM (checkedSub total weight)
      let result ← drawDistinct pool total count
      return origIdx :: result

namespace SheetCard

/-- What a printing is known by. -/
def printing (card : SheetCard) : String × String := (card.setCode, card.collectorNumber)

end SheetCard

namespace SheetDefinition
variable (sheet : SheetDefinition)

/-- The positions of the cards whose printing is not excluded, with their weights. -/
def eligible (exclude : List (String × String)) : List (Nat × Nat) :=
  (sheet.cards.zipIdx.filter fun (card, _) => card.printing ∉ exclude).map fun (card, idx) =>
    (idx, card.weight)

def weightedSelectNExcluding (count : Nat) (exclude : List (String × String)) :
    Draw (List Nat) := do
  let pool := sheet.eligible exclude
  let total ← liftM (checkedSum 0 (pool.map (·.2)))
  drawDistinct pool total (min count pool.length)

def weightedSelectN (count : Nat) : Draw (List Nat) := sheet.weightedSelectNExcluding count []

def selectSheetCards (count : Nat) : Draw (List Nat) :=
  if sheet.fixed then
    return sheet.cards.zipIdx.flatMap fun (card, index) => List.replicate card.weight index
  else if sheet.allowDuplicates then
    Drawing.repeated (weightedSelect sheet.totalWeight
      (enumerated (sheet.cards.map (·.weight)))) count
  else sheet.weightedSelectN count

/-- The cards at the positions; a position past the end fails. -/
def pick (indices : List Nat) : Option (List SheetCard) := indices.mapM fun idx => sheet.cards[idx]?

end SheetDefinition

def resolveSheetName (choices : List WeightedSheetChoice) : Draw String := do
  if choices.length = 1 then
    return (← liftM choices[0]?).sheet
  else do
    let total ← liftM (checkedSum 0 (choices.map (·.weight)))
    let idx ← weightedSelect total (enumerated (choices.map (·.weight)))
    return (← liftM choices[idx]?).sheet

def PackVariant.targetSize (variant : PackVariant) : Nat := (variant.contents.map (·.count)).sum

namespace LimitedSetPool
variable (pool : LimitedSetPool)

def sheet (name : String) : Option SheetDefinition := pool.sheets.lookup name

def selectVariant : Draw PackVariant := do
  let idx ← weightedSelect pool.packVariantsTotalWeight
    (enumerated (pool.packVariants.map (·.weight)))
  liftM pool.packVariants[idx]?

/-- The cards of one slot; none when its sheet is not in the pool. -/
def openSlot (slot : PackSlot) : Draw (List SheetCard) := do
  match pool.sheet (← resolveSheetName slot.choices) with
  | none => return []
  | some sheet => do
      let indices ← sheet.selectSheetCards slot.count
      liftM (sheet.pick indices)

def openSlots : List PackSlot → Draw (List SheetCard)
  | [] => pure []
  | slot :: slots => do
      let picks ← pool.openSlot slot
      let others ← openSlots slots
      return picks ++ others

/-- The last of the largest sheets that a replacement card can come from. -/
def backfillSheet (variant : PackVariant) : Option SheetDefinition :=
  let sheets := (variant.contents.flatMap (·.choices)).filterMap fun choice =>
    pool.sheet choice.sheet
  (sheets.filter fun sheet => !sheet.foil && !sheet.cards.isEmpty).foldl (fun largest sheet =>
    match largest with
    | none => some sheet
    | some other => if other.cards.length ≤ sheet.cards.length then some sheet else some other) none

def backfill (variant : PackVariant) (picks : List SheetCard) : Draw (List SheetCard) :=
  if picks.length < variant.targetSize then
    match pool.backfillSheet variant with
    | none => return picks
    | some sheet => do
        let shortfall := variant.targetSize - picks.length
        let extra ← sheet.weightedSelectNExcluding shortfall (picks.map (·.printing))
        return picks ++ (← liftM (sheet.pick extra))
  else return picks

end LimitedSetPool

/-- `format!("{:?}")`. -/
def Rarity.debug : Rarity → String
  | common => "Common"
  | uncommon => "Uncommon"
  | rare => "Rare"
  | mythic => "Mythic"
  | special => "Special"
  | bonus => "Bonus"

/-- The cards picked, as they enter the draft. -/
def LimitedSetPool.instances (pool : LimitedSetPool) (seat packNumber : Nat)
    (picks : List SheetCard) : DraftPack :=
  picks.zipIdx.map fun (card, cardIndex) =>
    { instanceId := s!"{pool.code}-{seat}-{packNumber}-{cardIndex}"
      name := card.name
      setCode := card.setCode
      collectorNumber := card.collectorNumber
      rarity := card.rarity.debug.toLower
      colors := card.colors
      cmc := card.cmc
      typeLine := card.typeLine
      draftEffect := card.draftEffect }

inductive GeneratorLayout where
  | uniformByRound (sequence : List Nat)
  | chaos (assignments : List (List Nat))
  deriving DecidableEq

structure PackGenerator where
  pools : List LimitedSetPool
  layout : GeneratorLayout
  deriving DecidableEq

namespace PackGenerator

def new (setPool : LimitedSetPool) : PackGenerator where
  pools := [{ setPool with
    packVariants := normalizePackVariants setPool.code setPool.packVariants }]
  layout := .uniformByRound [0]

variable (generator : PackGenerator)

def poolForPack (seat packNumber : Nat) : Option LimitedSetPool := do
  let index ← match generator.layout with
    | .uniformByRound sequence => entryForPack sequence packNumber
    | .chaos assignments => do (← assignments[seat]?)[packNumber]?
  generator.pools[index]?

def generatePack (seat packNumber : Nat) : Draw DraftPack := do
  let pool ← liftM (generator.poolForPack seat packNumber)
  let variant ← pool.selectVariant
  let picks ← pool.openSlots variant.contents
  let picks ← pool.backfill variant picks
  return pool.instances seat packNumber picks

end PackGenerator

end Phase.Draft
