import Mathlib.Data.List.MinMax
import Mathlib.Data.List.Sort
import Mathlib.Tactic.Linarith
import Phase.Lib.Fallible
import Phase.Mana.Types

/-! The mana pool as the engine holds it: units grouped by shape, ordered by slot, indexed
by pip. A panic is an error that carries the panic's message. -/
namespace Phase.Mana

open Fallible (expect)

inductive PhaseGroup where
  | beginning | preCombatMain | combat | postCombatMain | ending
  deriving DecidableEq

inductive TurnPhase where
  | untap | upkeep | draw | preCombatMain | beginCombat | declareAttackers | declareBlockers
  | combatDamage | endCombat | postCombatMain | endStep | cleanup
  deriving DecidableEq

def TurnPhase.group : TurnPhase → PhaseGroup
  | .untap | .upkeep | .draw => .beginning
  | .preCombatMain => .preCombatMain
  | .beginCombat | .declareAttackers | .declareBlockers | .combatDamage | .endCombat => .combat
  | .postCombatMain => .postCombatMain
  | .endStep | .cleanup => .ending

def TurnPhase.isCombat (phase : TurnPhase) : Bool := phase.group = .combat

/-- The source's slots are `u64`; they only ever count up, one per unit produced. -/
abbrev PoolSlot := Nat

/-- Every unit of one shape in a pool, keyed by slot and by pip. -/
structure PoolEntry where
  shape : ManaShape
  slots : Std.TreeMap PoolSlot ManaPipId := {}
  byPip : Std.TreeMap ManaPipId (Std.TreeSet PoolSlot) := {}

namespace PoolEntry

def firstSlot (entry : PoolEntry) : Except String PoolSlot :=
  expect "a pool entry is never empty" entry.slots.minKey?

def firstSlotOf (entry : PoolEntry) (pip : ManaPipId) : Option PoolSlot :=
  entry.byPip[pip]?.bind fun slots => slots.min?

def insert (entry : PoolEntry) (slot : PoolSlot) (pip : ManaPipId) : PoolEntry :=
  { entry with
    slots := entry.slots.insert slot pip
    byPip := entry.byPip.insert pip ((entry.byPip.getD pip {}).insert slot) }

def remove (entry : PoolEntry) (slot : PoolSlot) : Option (ManaPipId × PoolEntry) := do
  let pip ← entry.slots[slot]?
  let byPip :=
    match entry.byPip[pip]? with
    | none => entry.byPip
    | some held =>
      if (held.erase slot).isEmpty then entry.byPip.erase pip
      else entry.byPip.insert pip (held.erase slot)
  return (pip, { entry with slots := entry.slots.erase slot, byPip })

end PoolEntry

/-- Whether every unit's pip is known nonzero, unique in the pool, and journaled. -/
inductive PoolProvenance where
  | verified
  | unverified
  deriving DecidableEq

structure ManaPool where
  entries : List PoolEntry := []
  nextSlot : PoolSlot := 0
  provenance : PoolProvenance := .verified

inductive ExactManaRemovalError where
  | missingPip (pip : ManaPipId)
  | mismatchedUnit (pip : ManaPipId)
  | duplicatePip (pip : ManaPipId)
  deriving DecidableEq

namespace ManaPool

/-- Every (slot, entry index, pip) in slot order. -/
def ordered (pool : ManaPool) : List (PoolSlot × Nat × ManaPipId) :=
  (pool.entries.zipIdx.flatMap fun (entry, index) =>
    entry.slots.toList.map fun (slot, pip) => (slot, index, pip)).insertionSort fun a b => a.1 ≤ b.1

def entryOfSlot (pool : ManaPool) (slot : PoolSlot) : Option Nat :=
  pool.entries.findIdx? fun entry => entry.slots.contains slot

def nthSlot (pool : ManaPool) (index : Nat) : Option PoolSlot :=
  pool.ordered[index]?.map fun (slot, _, _) => slot

def unitOf (pool : ManaPool) : PoolSlot × Nat × ManaPipId → Option ManaUnit
  | (_, index, pip) => pool.entries[index]?.map fun entry => entry.shape.withPip pip

/-- Every unit in pool order, with its slot. -/
def slottedUnits (pool : ManaPool) : List (PoolSlot × ManaUnit) :=
  pool.ordered.filterMap fun item => (pool.unitOf item).map fun unit => (item.1, unit)

def units (pool : ManaPool) : List ManaUnit := pool.slottedUnits.map Prod.snd

/-- Each distinct shape with its unit count, in the order the entries were created. -/
def shapes (pool : ManaPool) : List (ManaShape × Nat) :=
  pool.entries.map fun entry => (entry.shape, entry.slots.size)

def countWhere (pool : ManaPool) (pred : ManaShape → Bool) : Nat :=
  ((pool.shapes.filter fun (shape, _) => pred shape).map Prod.snd).sum

def countColor (pool : ManaPool) (color : ManaType) : Nat :=
  pool.countWhere fun shape => shape.color = color

def total (pool : ManaPool) : Nat := pool.countWhere fun _ => true

def isEmpty (pool : ManaPool) : Bool := pool.entries.isEmpty

def containsPip (pool : ManaPool) (pip : ManaPipId) : Bool :=
  pool.entries.any fun entry => entry.byPip.contains pip

/-- The shape of the unit holding `pip`, at its minimum slot. -/
def shapeOfPip (pool : ManaPool) (pip : ManaPipId) : Option ManaShape :=
  ((pool.entries.filterMap fun entry =>
    (entry.firstSlotOf pip).map fun slot => (slot, entry.shape)).argmin Prod.fst).map Prod.snd

def unitByPip (pool : ManaPool) (pip : ManaPipId) : Option ManaUnit :=
  (pool.shapeOfPip pip).map fun shape => shape.withPip pip

/-- The minimum slot whose unit's shape satisfies `pred`. -/
def firstWhere (pool : ManaPool) (pred : ManaShape → Bool) :
    Except String (Option (PoolSlot × ManaShape)) := do
  let found ← (pool.entries.filter fun entry => pred entry.shape).mapM fun entry => do
    return (← entry.firstSlot, entry.shape)
  return found.argmin Prod.fst

/-- The minimum slot holding one of `pins` whose unit's shape satisfies `pred`. -/
def firstPinnedWhere (pool : ManaPool) (pins : List ManaPipId) (pred : ManaShape → Bool) :
    Option (PoolSlot × ManaShape) :=
  if pins.isEmpty then none
  else
    ((pool.entries.filter fun entry => pred entry.shape).filterMap fun entry =>
      (pins.filterMap entry.firstSlotOf).min?.map fun slot => (slot, entry.shape)).argmin Prod.fst

def unitAt (pool : ManaPool) (index : Nat) : Option ManaUnit :=
  pool.ordered[index]?.bind pool.unitOf

def insertAt (pool : ManaPool) (slot : PoolSlot) (shape : ManaShape) (pip : ManaPipId) :
    ManaPool :=
  let (entries, index) :=
    match pool.entries.findIdx? fun entry => entry.shape = shape with
    | some index => (pool.entries, index)
    | none => (pool.entries ++ [PoolEntry.mk shape {} {}], pool.entries.length)
  { pool with entries := entries.modify index fun entry => entry.insert slot pip }

def pushMerged (pool : ManaPool) (unit : ManaUnit) : ManaPool :=
  insertAt { pool with nextSlot := pool.nextSlot + 1 } pool.nextSlot unit.toManaShape unit.pipId

/-- A pool holding `units` in order; a non-empty pool's pips are unverified. -/
def fromUnits (units : List ManaUnit) : ManaPool :=
  let pool := units.foldl pushMerged {}
  if pool.isEmpty then pool else { pool with provenance := .unverified }

/-- Pushes a unit with no journal record. -/
def add (pool : ManaPool) (unit : ManaUnit) : ManaPool :=
  { pool.pushMerged unit with provenance := .unverified }

/-- Pushes a unit whose producer is in the owning state's journal. -/
def insertJournaled (pool : ManaPool) (unit : ManaUnit) : ManaPool := pool.pushMerged unit

/-- Deletes `slot`, dropping its entry once empty, and returns its unit. -/
def takeSlot (pool : ManaPool) (slot : PoolSlot) : Option (ManaUnit × ManaPool) := do
  let index ← pool.entryOfSlot slot
  let entry ← pool.entries[index]?
  let (pip, left) ← entry.remove slot
  let entries :=
    if left.slots.isEmpty then pool.entries.eraseIdx index else pool.entries.set index left
  return (entry.shape.withPip pip, { pool with entries })

/-- Removes the unit at `slot` as `Vec::swap_remove` would: the unit at the last slot takes
its place. -/
def swapRemove (pool : ManaPool) (slot : PoolSlot) : Except String (ManaUnit × ManaPool) := do
  let lasts ← pool.entries.mapM fun entry =>
    expect "a pool entry is never empty" entry.slots.maxKey?
  let last ← expect "swap_remove on an empty pool" lasts.max?
  let (unit, pool) ← expect "swap_remove of a slot the pool holds" (pool.takeSlot slot)
  if last = slot then
    return (unit, pool)
  let index ← expect "the last slot is held by an entry" (pool.entryOfSlot last)
  let (pip, left) ← expect "the last slot is held by its entry"
    (pool.entries[index]?.bind fun entry => entry.remove last)
  return (unit, { pool with entries := pool.entries.set index (left.insert slot pip) })

def removeAt (pool : ManaPool) (index : Nat) : Option (ManaUnit × ManaPool) := do
  let slot ← pool.nthSlot index
  pool.takeSlot slot

/-- Recolors the unit at `index` in pool order, keeping its slot, and returns its previous
color. -/
def recolorAt (pool : ManaPool) (index : Nat) (color : ManaType) :
    Option (ManaType × ManaPool) := do
  let slot ← pool.nthSlot index
  let (unit, pool) ← pool.takeSlot slot
  return (unit.color, pool.insertAt slot { unit.toManaShape with color } unit.pipId)

/-- Rewrites the pip at `slot`; a rewritten pip has no proven producer. -/
def setPipAt (pool : ManaPool) (slot : PoolSlot) (pip : ManaPipId) : Except String ManaPool := do
  let index ← expect "set_pip_at of a slot the pool holds" (pool.entryOfSlot slot)
  let rewrite entry := (((PoolEntry.remove entry slot).map Prod.snd).getD entry).insert slot pip
  return { pool with entries := pool.entries.modify index rewrite, provenance := .unverified }

/-- Adds an entry to those already merged: to the one of its shape, if there is one. -/
def mergeEntry (merged : List PoolEntry) (entry : PoolEntry) : List PoolEntry :=
  match merged.findIdx? fun kept => kept.shape = entry.shape with
  | some index =>
    merged.modify index fun kept =>
      entry.slots.toList.foldl (fun kept (slot, pip) => kept.insert slot pip) kept
  | none => merged ++ [entry]

/-- Replaces each entry's shape by `edit`, merging entries that become equal and keeping
every slot and pip. -/
def editShapes (pool : ManaPool) (edit : ManaShape → Option ManaShape) : ManaPool :=
  if !(pool.entries.any fun entry => (edit entry.shape).isSome) then pool
  else
    { pool with
      entries := pool.entries.foldl (fun merged entry =>
        mergeEntry merged { entry with shape := (edit entry.shape).getD entry.shape }) [] }

def retainShapes (pool : ManaPool) (keep : ManaShape → Bool) : ManaPool :=
  { pool with entries := pool.entries.filter fun entry => keep entry.shape }

/-- Removes each of `units` by pip and shape, at the pip's minimum slot; what was removed
before a refusal stays removed. -/
def removeExact (pool : ManaPool) :
    List ManaUnit → Except String (Except ExactManaRemovalError Unit × ManaPool)
  | [] => return (.ok (), pool)
  | unit :: units => do
      let slot := (pool.entries.filter fun entry => entry.shape = unit.toManaShape).findSome?
        fun entry => entry.firstSlotOf unit.pipId
      match slot with
      | some slot =>
        let (_, pool) ← pool.swapRemove slot
        pool.removeExact units
      | none =>
        if pool.containsPip unit.pipId then return (.error (.mismatchedUnit unit.pipId), pool)
        else return (.error (.missingPip unit.pipId), pool)

def markUnverified (pool : ManaPool) : ManaPool := { pool with provenance := .unverified }

def markVerified (pool : ManaPool) : ManaPool := { pool with provenance := .verified }

def clear (pool : ManaPool) : ManaPool := { pool with entries := [] }

def leavingPhaseGroup (start : Option TurnPhase) (next : TurnPhase) : Bool :=
  start.any fun start => start.group ≠ next.group

/-- The markers that the step from `start` to `next` reaches; the mana itself stays. -/
def clearExpired (start : Option TurnPhase) (next : TurnPhase) (shape : ManaShape) :
    Option ManaShape :=
  let expired :=
    match shape.expiry with
    | some .endOfCombat => !next.isCombat
    | some .endOfPhaseGroup => leavingPhaseGroup start next
    | some .endOfTurn => false
    | none => false
  if expired then some { shape with expiry := none } else none

def clearExpiredRetentionMarkers (pool : ManaPool) (start : Option TurnPhase)
    (next : TurnPhase) : ManaPool :=
  pool.editShapes (clearExpired start next)

def retainToPhaseGroup (shape : ManaShape) : Option ManaShape :=
  if shape.expiry.isNone then some { shape with expiry := some .endOfPhaseGroup } else none

/-- Mana burn: unspent mana is held across the steps inside one phase. -/
def retainAcrossPhaseGroupSteps (pool : ManaPool) (start : Option TurnPhase) (next : TurnPhase) :
    ManaPool :=
  if leavingPhaseGroup start next then pool else pool.editShapes retainToPhaseGroup

def clearEndOfTurn (shape : ManaShape) : Option ManaShape :=
  if shape.expiry = some .endOfTurn then some { shape with expiry := none } else none

def clearExpiredEndOfTurnRetentionMarkers (pool : ManaPool) : ManaPool :=
  pool.editShapes clearEndOfTurn

def removeFromSource (pool : ManaPool) (sourceId : ObjectId) : Nat × ManaPool :=
  let left := pool.retainShapes fun shape => shape.sourceId ≠ sourceId
  (pool.total - left.total, left)

/-- Removes `count` unrestricted units, the oldest first; refuses when there are fewer. -/
def spendGeneric (pool : ManaPool) (count : Nat) : Bool × ManaPool :=
  if pool.countWhere (fun shape => shape.restrictions.isEmpty) < count then (false, pool)
  else
    let unrestricted := ((pool.entries.filter fun entry =>
      entry.shape.restrictions.isEmpty).flatMap fun entry =>
        entry.slots.keys).insertionSort (· ≤ ·)
    (true, (unrestricted.take count).foldl (fun pool slot =>
      ((pool.takeSlot slot).map Prod.snd).getD pool) pool)

def spend (pool : ManaPool) (color : ManaType) : Except String (Option ManaUnit × ManaPool) := do
  match ← pool.firstWhere fun shape => shape.color = color with
  | none => return (none, pool)
  | some (slot, _) =>
    let (unit, pool) ← pool.swapRemove slot
    return (some unit, pool)

def unrestrictedFor (color : ManaType) (ctx : PaymentContext) (shape : ManaShape) : Bool :=
  shape.color = color && ctx.permitsActualManaType shape.color && shape.restrictions.isEmpty

def restrictedFor (color : ManaType) (ctx : PaymentContext) (shape : ManaShape) : Bool :=
  shape.color = color && ctx.permitsActualManaType shape.color && !shape.restrictions.isEmpty &&
    shape.restrictions.all fun restriction => restriction.allows ctx

/-- Unrestricted mana first, then restricted mana that allows the payment. -/
def spendFor (pool : ManaPool) (color : ManaType) (ctx : PaymentContext) :
    Except String (Option ManaUnit × ManaPool) := do
  let found ←
    match ← pool.firstWhere (unrestrictedFor color ctx) with
    | some found => pure (some found)
    | none => pool.firstWhere (restrictedFor color ctx)
  match found with
  | none => return (none, pool)
  | some (slot, _) =>
    let (unit, pool) ← pool.swapRemove slot
    return (some unit, pool)

end ManaPool

end Phase.Mana
