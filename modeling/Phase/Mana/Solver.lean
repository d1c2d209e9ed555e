import Phase.Mana.Cost
import Phase.Mana.Spend

/-! Which units pay a mana cost: the passes over its symbols, the choice for each Phyrexian
symbol, and the payment that is committed. -/
namespace Phase.Mana

/-- A bitmask over the colors. -/
structure LifePaymentColors where
  bits : BitVec 8 := 0
  deriving DecidableEq

def LifePaymentColors.contains (colors : LifePaymentColors) (color : ManaColor) : Bool :=
  colors.bits &&& (1#8 <<< color.toManaType.index) ≠ 0

def LifePaymentColors.isEmpty (colors : LifePaymentColors) : Bool := colors.bits = 0

def manaTypeToColor : ManaType → Option ManaColor
  | .white => some .white
  | .blue => some .blue
  | .black => some .black
  | .red => some .red
  | .green => some .green
  | .colorless => none

/-- A symbol whose color may be paid with life is Phyrexian for this payment. -/
def effectiveShardRequirement (requirement : ShardRequirement) (lifeColors : LifePaymentColors) :
    ShardRequirement :=
  if lifeColors.isEmpty then requirement
  else
    let granted := fun manaType => (manaTypeToColor manaType).any lifeColors.contains
    match requirement with
    | .single color => if granted color then .phyrexian color else requirement
    | .hybrid a b => if granted a || granted b then .hybridPhyrexian a b else requirement
    | .twoGenericHybrid color =>
      if granted color then .twoGenericHybridPhyrexian color else requirement
    | .phyrexian _ | .hybridPhyrexian _ _ | .colorlessHybrid _ | .snow | .x
    | .twoOrMoreColorSource | .twoGenericHybridPhyrexian _ => requirement

def isPhyrexianRequirement : ShardRequirement → Bool
  | .phyrexian _ | .hybridPhyrexian _ _ | .twoGenericHybridPhyrexian _ => true
  | _ => false

def ManaCostShard.isPhyrexianUnder (lifeColors : LifePaymentColors) (shard : ManaCostShard) :
    Bool :=
  isPhyrexianRequirement (effectiveShardRequirement shard.toRequirement lifeColors)

/-- The symbols with their indices, the Phyrexian ones last. -/
def phyrexianDeferredOrder (shards : List ManaCostShard) (lifeColors : LifePaymentColors) :
    List (ManaCostShard × Nat) :=
  (shards.zipIdx.filter fun entry => !entry.1.isPhyrexianUnder lifeColors) ++
    shards.zipIdx.filter fun entry => entry.1.isPhyrexianUnder lifeColors

/-- The half that pays the hybrid symbols of two colors. -/
structure PreferredHybrid where
  first : ManaType
  second : ManaType
  color : ManaType
  isHalf : color = first ∨ color = second
  deriving DecidableEq

def demandIndex (manaType : ManaType) : Nat := if manaType = .colorless then 0 else manaType.index

def canonicalHybridKey (a b : ManaType) : ManaType × ManaType :=
  if demandIndex a ≤ demandIndex b then (a, b) else (b, a)

def PreferredHybrid.isFor (entry : PreferredHybrid) (key : ManaType × ManaType) : Bool :=
  entry.first = key.1 && entry.second = key.2

/-- The color the hand needs less, if it needs one less. -/
def lessDemanded (demand : ColorDemand) (a b : ManaType) : Option ManaType :=
  let demandA := (demand.of a).getD 0
  let demandB := (demand.of b).getD 0
  if demandA = demandB then none else some (if demandA < demandB then a else b)

def autoPayHybrid (pool : ReferencePool) (a b : ManaType) (demand : Option ColorDemand)
    (remaining : Nat) : ManaType :=
  let countA := pool.countColor a
  let countB := pool.countColor b
  if countA = 0 then b
  else if countB = 0 then a
  else
    match demand.bind fun demand => lessDemanded demand a b with
    | some color => color
    | none =>
      if remaining ≤ countA && remaining ≤ countB then if countB ≤ countA then a else b
      else if remaining ≤ countA then a
      else if remaining ≤ countB then b
      else if countB ≤ countA then a
      else b

theorem autoPayHybrid_half (pool : ReferencePool) (a b : ManaType) (demand : Option ColorDemand)
    (remaining : Nat) : autoPayHybrid pool a b demand remaining = a ∨
      autoPayHybrid pool a b demand remaining = b := by
  have less : ∀ demand color, lessDemanded demand a b = some color → color = a ∨ color = b := by
    intro demand color isLess
    unfold lessDemanded at isLess
    dsimp only at isLess
    split at isLess
    · cases isLess
    · cases isLess
      split
      · exact .inl rfl
      · exact .inr rfl
  unfold autoPayHybrid
  dsimp only
  split
  · exact .inr rfl
  · split
    · exact .inl rfl
    · cases isLess : demand.bind fun demand => lessDemanded demand a b with
      | some color =>
        obtain ⟨demand, -, isLess⟩ := Option.bind_eq_some_iff.mp isLess
        exact less demand color isLess
      | none => split_ifs <;> simp

theorem canonicalHybridKey_half {a b color : ManaType} :
    color = (canonicalHybridKey a b).1 ∨ color = (canonicalHybridKey a b).2 ↔
      color = a ∨ color = b := by
  unfold canonicalHybridKey
  split
  · exact Iff.rfl
  · exact Or.comm

def selectHybridPaymentColor (pool : ReferencePool) (a b : ManaType)
    (demand : Option ColorDemand) (remaining : Nat) (preferred : List PreferredHybrid) :
    ManaType × List PreferredHybrid :=
  let key := canonicalHybridKey a b
  match preferred.find? fun entry => entry.isFor key && 0 < pool.countColor entry.color with
  | some entry => (entry.color, preferred)
  | none =>
    let color := autoPayHybrid pool a b demand remaining
    let chosen := ⟨key.1, key.2, color,
      canonicalHybridKey_half.mpr (autoPayHybrid_half pool a b demand remaining)⟩
    match preferred.findIdx? (·.isFor key) with
    | some at_ => (color, preferred.set at_ chosen)
    | none => (color, preferred ++ [chosen])

theorem selectHybridPaymentColor_half (pool : ReferencePool) (a b : ManaType)
    (demand : Option ColorDemand) (remaining : Nat) (preferred : List PreferredHybrid) :
    (selectHybridPaymentColor pool a b demand remaining preferred).1 = a ∨
      (selectHybridPaymentColor pool a b demand remaining preferred).1 = b := by
  unfold selectHybridPaymentColor
  dsimp only
  split
  · next entry found =>
    have isOne := List.find?_some found
    simp only [PreferredHybrid.isFor, Bool.and_eq_true, decide_eq_true_eq] at isOne
    have half := entry.isHalf
    rw [isOne.1.1, isOne.1.2] at half
    exact canonicalHybridKey_half.mp half
  · have half := autoPayHybrid_half pool a b demand remaining
    split
    · exact half
    · exact half

def countRemainingHybridShards (shards : List ManaCostShard) (start : Nat) (a b : ManaType) :
    Nat :=
  (shards.drop start).countP fun shard =>
    match shard.toRequirement with
    | .hybrid x y | .hybridPhyrexian x y => (x = a && y = b) || (x = b && y = a)
    | _ => false

inductive PaymentError where
  | insufficientMana
  | invalidCost
  deriving DecidableEq

inductive ShardChoice where
  | payMana
  | payLife
  deriving DecidableEq

structure LifePayment where
  amount : Int
  deriving DecidableEq

/-- What a payment is made under: the arguments that every pass hands on. -/
structure PaymentTerms where
  handDemand : Option ColorDemand := none
  spell : Option PaymentContext := none
  manaSpendPermission : Option ManaSpendPermission := none
  phyrexianChoices : Option (List ShardChoice) := none
  lifeColors : LifePaymentColors := {}
  pins : List ManaPipId := []
  deriving DecidableEq

def PaymentTerms.anyColor (terms : PaymentTerms) : Bool := terms.manaSpendPermission.isSome

/-- The scratch pool and what the passes remember between symbols. -/
structure Solver where
  pool : ReferencePool
  choiceCursor : Nat := 0
  preferredHybridColors : List PreferredHybrid := []
  deriving DecidableEq

/-- A way to pay a symbol with mana. -/
abbrev Route := Solver → Option (List ManaUnit) × Solver

def spending (spend : Spend) : Route := fun s =>
  match spend s.pool with
  | some (unit, pool) => (some [unit], { s with pool })
  | none => (none, s)

def Route.orElse (first next : Route) : Route := fun s =>
  match first s with
  | (some units, after) => (some units, after)
  | (none, after) => next after

section
variable (terms : PaymentTerms)

/-- Mana of one of these types; any mana where the permission covers them. -/
def anyForRequired (colors : List ManaType) : Route :=
  spending (spendAnyForRequiredColors terms.spell terms.pins colors none)

def eligible (color : ManaType) : Route := spending (spendEligible terms.spell terms.pins color)

/-- Both units, or the pool as it was. -/
def twoGeneric : Route := fun s =>
  let spend := spendGenericEligible terms.spell terms.pins none
  match spend s.pool with
  | none => (none, s)
  | some (first, pool) =>
    match spend pool with
    | none => (none, s)
    | some (second, pool) => (some [first, second], { s with pool })

def payHybrid (shards : List ManaCostShard) (idx : Nat) (a b : ManaType) : Route := fun s =>
  if terms.anyColor then anyForRequired terms [a, b] s
  else
    let (color, preferredHybridColors) := selectHybridPaymentColor s.pool a b terms.handDemand
      (countRemainingHybridShards shards idx a b) s.preferredHybridColors
    eligible terms color { s with preferredHybridColors }

def payColor (color : ManaType) : Route :=
  if terms.anyColor then anyForRequired terms [color] else eligible terms color

def payTwoGenericHybrid (color : ManaType) : Route :=
  if terms.anyColor then anyForRequired terms [color]
  else Route.orElse (eligible terms color) (twoGeneric terms)

/-- How a symbol is paid with mana. -/
def manaRoute (shards : List ManaCostShard) (idx : Nat) : ShardRequirement → Route
  | .single color =>
    if terms.manaSpendPermission.any (·.allowsPaymentAs color) then anyForRequired terms [color]
    else eligible terms color
  | .hybrid a b | .hybridPhyrexian a b => payHybrid terms shards idx a b
  | .phyrexian color => payColor terms color
  | .twoGenericHybrid color | .twoGenericHybridPhyrexian color => payTwoGenericHybrid terms color
  | .snow => spending (spendSnowUnit terms.spell terms.pins)
  | .twoOrMoreColorSource => spending (spendTwoOrMoreColorSourceEligible terms.spell terms.pins)
  | .x => fun s => (some [], s)
  | .colorlessHybrid color =>
    if terms.anyColor then anyForRequired terms [.colorless, color]
    else Route.orElse (eligible terms .colorless) (eligible terms color)

end

/-- What was pushed to the two vectors of the payment for the symbol at an index. -/
structure SymbolPayment where
  index : Nat
  units : List ManaUnit
  life : List LifePayment
  deriving DecidableEq

def SymbolPayment.withMana (index : Nat) (units : List ManaUnit) : SymbolPayment :=
  ⟨index, units, []⟩

def SymbolPayment.withLife (index : Nat) : SymbolPayment := ⟨index, [], [⟨2⟩]⟩

def payStrict (idx : Nat) (route : Route) (s : Solver) :
    Except PaymentError (SymbolPayment × Solver) :=
  match route s with
  | (some units, after) => return (.withMana idx units, after)
  | (none, _) => throw .insufficientMana

/-- An explicit choice is followed; without one, mana is preferred as long as the generic part
is not starved. -/
def payPhyrexian (terms : PaymentTerms) (generic idx : Nat) (route : Route) (s : Solver) :
    Except PaymentError (SymbolPayment × Solver) :=
  match terms.phyrexianChoices.bind (·[s.choiceCursor]?) with
  | some choice =>
    let s := { s with choiceCursor := s.choiceCursor + 1 }
    match choice with
    | .payLife => return (.withLife idx, s)
    | .payMana => payStrict idx route s
  | none =>
    if generic < s.pool.length then
      match route s with
      | (some units, after) => return (.withMana idx units, after)
      | (none, after) => return (.withLife idx, after)
    else return (.withLife idx, s)

def payShard (terms : PaymentTerms) (shards : List ManaCostShard) (generic : Nat)
    (entry : ManaCostShard × Nat) (s : Solver) : Except PaymentError (SymbolPayment × Solver) :=
  let requirement := effectiveShardRequirement entry.1.toRequirement terms.lifeColors
  let route := manaRoute terms shards entry.2 requirement
  if isPhyrexianRequirement requirement then payPhyrexian terms generic entry.2 route s
  else payStrict entry.2 route s

def payShards (terms : PaymentTerms) (shards : List ManaCostShard) (generic : Nat) :
    List (ManaCostShard × Nat) → Solver → Except PaymentError (List SymbolPayment × Solver)
  | [], s => return ([], s)
  | entry :: entries, s => do
      let (payment, s) ← payShard terms shards generic entry s
      let (payments, s) ← payShards terms shards generic entries s
      return (payment :: payments, s)

def spendTimes (spend : Spend) : Nat → ReferencePool →
    Except PaymentError (List ManaUnit × ReferencePool)
  | 0, pool => return ([], pool)
  | count + 1, pool =>
    match spend pool with
    | none => throw .insufficientMana
    | some (unit, pool) => do
        let (units, pool) ← spendTimes spend count pool
        return (unit :: units, pool)

/-- The colors that may pay for X, and how much of the generic part is X. -/
def restrictedX (terms : PaymentTerms) (generic : Nat) : List ManaType × Nat :=
  match terms.spell with
  | some (.spell spell) =>
    match spell.spendOnlyOnXColors with
    | some colors => (colors.map (·.toManaType), min generic spell.spendOnlyOnXGenericCount)
    | none => ([], 0)
  | _ => ([], 0)

/-- The payment with the symbol each push was for. -/
structure ManaPayment where
  symbols : List SymbolPayment := []
  generic : List ManaUnit := []
  deriving DecidableEq

def ManaPayment.spent (payment : ManaPayment) : List ManaUnit :=
  payment.symbols.flatMap (·.units) ++ payment.generic

def ManaPayment.lifePayments (payment : ManaPayment) : List LifePayment :=
  payment.symbols.flatMap (·.life)

def payGeneric (terms : PaymentTerms) (generic : Nat) (pool : ReferencePool) :
    Except PaymentError (List ManaUnit × ReferencePool) := do
  let (types, count) := restrictedX terms generic
  let (forX, pool) ← spendTimes (spendRestrictedXGenericEligible terms.spell terms.pins types
    terms.anyColor terms.handDemand) count pool
  let (rest, pool) ← spendTimes (spendGenericEligible terms.spell terms.pins terms.handDemand)
    (generic - count) pool
  return (forX ++ rest, pool)

def payCostWithDemandAndChoicesOnce (pool : ReferencePool) (cost : ManaCost)
    (terms : PaymentTerms) : Except PaymentError (ManaPayment × ReferencePool) :=
  match cost with
  | .noCost | .selfManaCost | .selfManaValue | .selfManaCostReduced _ => return ({}, pool)
  | .cost shards generic => do
      let (symbols, s) ← payShards terms shards generic
        (phyrexianDeferredOrder shards terms.lifeColors) { pool }
      let (units, pool) ← payGeneric terms generic s.pool
      return (⟨symbols, units⟩, pool)

/-- The scratch pool is dropped; without the hand's demand the payment is tried again. -/
def selectManaPayment (pool : ReferencePool) (cost : ManaCost) (terms : PaymentTerms) :
    Except PaymentError ManaPayment :=
  match payCostWithDemandAndChoicesOnce pool cost terms with
  | .ok (payment, _) => return payment
  | .error .insufficientMana =>
    if terms.handDemand.isSome then
      (payCostWithDemandAndChoicesOnce pool cost { terms with handDemand := none }).map Prod.fst
    else throw .insufficientMana
  | .error error => throw error

def firstDuplicatePip (seen : List ManaPipId) : List ManaUnit → Option ManaPipId
  | [] => none
  | unit :: units =>
    if unit.pipId ≠ 0 then
      if unit.pipId ∈ seen then some unit.pipId
      else firstDuplicatePip (unit.pipId :: seen) units
    else firstDuplicatePip seen units

def removeExactManaUnits (pool : ReferencePool) (units : List ManaUnit) :
    Except ExactManaRemovalError Unit × ReferencePool :=
  match firstDuplicatePip [] units with
  | some pip => (throw (.duplicatePip pip), pool)
  | none =>
    match (pool.removeExact units).1 with
    | .error error => (throw error, pool)
    | .ok _ => pool.removeExact units

/-- The payment, and the pool it leaves. -/
def payCostWithDemandAndChoices (pool : ReferencePool) (cost : ManaCost) (terms : PaymentTerms) :
    Except PaymentError ManaPayment × ReferencePool :=
  match selectManaPayment pool cost terms with
  | .error error => (throw error, pool)
  | .ok payment =>
    match removeExactManaUnits pool payment.spent with
    | (.error _, pool) => (throw .insufficientMana, pool)
    | (.ok _, pool) => (return payment, pool)

structure CostPermissionContext where
  manaSpendPermission : Option ManaSpendPermission := none
  maxLife : Nat := 0
  lifeColors : LifePaymentColors := {}
  deriving DecidableEq

/-- The terms of a payment that is only previewed. -/
def CostPermissionContext.terms (permissions : CostPermissionContext)
    (spell : Option PaymentContext) : PaymentTerms :=
  { spell, manaSpendPermission := permissions.manaSpendPermission,
    lifeColors := permissions.lifeColors }

def canPayForSpell (pool : ReferencePool) (cost : ManaCost) (spell : Option PaymentContext)
    (permissions : CostPermissionContext) : Bool :=
  match selectManaPayment pool cost (permissions.terms spell) with
  | .ok payment => payment.lifePayments.length ≤ permissions.maxLife
  | .error _ => false

end Phase.Mana
