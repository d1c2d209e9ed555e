import Phase.Mana.PoolRefines

/-! Taking one unit out of a pool: which scans of the pool decide it, and what each way of
spending finds. The solver works on a scratch copy, held here as the list of its units. -/
namespace Phase.Mana
open List Option

/-- `first_pinned_where` and `first_where`. -/
inductive Scan where
  | pinned (pins : List ManaPipId) (allows : ManaShape → Bool)
  | anywhere (allows : ManaShape → Bool)

namespace Scan

def allows : Scan → ManaShape → Bool
  | pinned _ allows | anywhere allows => allows

def passes : Scan → ManaUnit → Bool
  | pinned pins allows, unit => unit.pipId ∈ pins && allows unit.toManaShape
  | anywhere allows, unit => allows unit.toManaShape

/-- The slot the scan finds in the pool as the engine holds it. -/
def slotIn (pool : ManaPool) : Scan → Except String (Option (PoolSlot × ManaShape))
  | pinned pins allows => return pool.firstPinnedWhere pins allows
  | anywhere allows => pool.firstWhere allows

theorem allows_of_passes {scan : Scan} {unit : ManaUnit} (passes : scan.passes unit) :
    scan.allows unit.toManaShape := by
  cases scan with
  | pinned pins allows => exact (Bool.and_eq_true_iff.mp passes).2
  | anywhere allows => exact passes

end Scan

/-- `spend_selected`, with the scans that the closure tries one after the other. -/
def ManaPool.spendSelected (pool : ManaPool) :
    List Scan → Except String (Option ManaUnit × ManaPool)
  | [] => return (none, pool)
  | scan :: scans => do
      match ← scan.slotIn pool with
      | some (slot, _) =>
        let (unit, pool) ← pool.swapRemove slot
        return (some unit, pool)
      | none => pool.spendSelected scans

abbrev Spend := ReferencePool → Option (ManaUnit × ReferencePool)

def spendSelected (scans : List Scan) : Spend := fun pool =>
  scans.findSome? fun scan => pool.swapRemoveWhere scan.passes

/-- The second way is tried only when the first finds nothing. -/
def Spend.or (first next : Spend) : Spend := fun pool => (first pool).or (next pool)

theorem Scan.slotIn_eq {pool : ManaPool} (sound : pool.Sound) (scan : Scan) :
    scan.slotIn pool = .ok ((pool.slottedUnits.find? fun x => scan.passes x.2).map fun x =>
      (x.1, x.2.toManaShape)) := by
  cases scan with
  | pinned pins allows => exact congrArg Except.ok (ManaPool.firstPinnedWhere_eq sound pins allows)
  | anywhere allows => exact ManaPool.firstWhere_eq sound allows

/-- The engine's pool and the list of its units spend the same unit. -/
theorem spendSelected_refines {pool : ManaPool} (sound : pool.Sound) (scans : List Scan) :
    match spendSelected scans pool.units with
    | some (unit, left) => ∃ after, pool.spendSelected scans = .ok (some unit, after) ∧
        after.Sound ∧ after.units = left
    | none => pool.spendSelected scans = .ok (none, pool) := by
  induction scans with
  | nil => exact rfl
  | cons scan scans ih =>
    rw [ManaPool.spendSelected, scan.slotIn_eq sound, spendSelected, findSome?_cons]
    cases found : pool.slottedUnits.find? fun x => scan.passes x.2 with
    | none =>
      rw [ManaPool.find_slotted_none found]
      exact ih
    | some x =>
      obtain ⟨after, swapped, sound', list⟩ := ManaPool.swapRemoveWhere_refines sound
        (p := scan.passes) found
      rw [list]
      exact ⟨after, by simp only [map_some, swapped, Fallible.ok_bind]; rfl, sound', rfl⟩

theorem only_unit_spent :
    let unit : ManaUnit := { color := .white, sourceId := 0, pipId := 1 }
    ∃ after, (ManaPool.fromUnits [unit]).spendSelected [.anywhere (·.color = .white)] =
      .ok (some unit, after) ∧ after.units = [] := by
  intro unit
  obtain ⟨sound, list⟩ := ManaPool.fromUnits_refines [unit]
  have spent := spendSelected_refines sound [.anywhere (·.color = .white)]
  rw [list] at spent
  obtain ⟨after, spent, -, left⟩ := spent
  exact ⟨after, spent, left⟩

/-- `mana_unit_permits_payment_context`: an ability's rider on the mana itself, spells that mana
cannot be spent on, then the unit's own restrictions. -/
def ctxPermitsUnit (ctx : PaymentContext) (unit : ManaShape) : Bool :=
  ctx.permitsActualManaType unit.color &&
    (match ctx with
      | .spell spell => !(spell.cantSpendMana && !unit.isConvokePayment)
      | .activation .. | .effect | .specialAction _ => true) &&
    unit.restrictions.all (·.allows ctx)

def spellPermitsUnit (spell : Option PaymentContext) (unit : ManaShape) : Bool :=
  spell.all fun ctx => ctxPermitsUnit ctx unit

inductive ManaSpendPermission where
  | anyColor
  | anyTypeOrColor
  deriving DecidableEq

def ManaSpendPermission.allowsPaymentAs : ManaSpendPermission → ManaType → Bool
  | anyColor, required => required ≠ .colorless
  | anyTypeOrColor, _ => true

/-- Counts for the five colors, in the order of `mana_type_to_demand_index`. -/
structure ColorDemand where
  white : Nat := 0
  blue : Nat := 0
  black : Nat := 0
  red : Nat := 0
  green : Nat := 0
  deriving DecidableEq

/-- `demand[mana_type_to_demand_index(mt)?]`. -/
def ColorDemand.of (demand : ColorDemand) : ManaType → Option Nat
  | .white => some demand.white
  | .blue => some demand.blue
  | .black => some demand.black
  | .red => some demand.red
  | .green => some demand.green
  | .colorless => none

section
variable (spell : Option PaymentContext) (pins : List ManaPipId)

def spendColorPreferNonZ (color : ManaType) (allows : ManaShape → Bool) : Spend :=
  spendSelected [
    .pinned pins fun unit => unit.color = color && allows unit,
    .anywhere fun unit =>
      unit.color = color && !unit.sourceCouldProduceTwoOrMoreColors && allows unit,
    .anywhere fun unit => unit.color = color && allows unit]

def spendEligible (color : ManaType) : Spend :=
  spendColorPreferNonZ pins color fun unit =>
    !(color = .colorless && unit.isConvokePayment) && spellPermitsUnit spell unit

def ReferencePool.countColor (pool : ReferencePool) (color : ManaType) : Nat :=
  pool.countP fun unit => unit.color = color

def eligibleColorCount (pool : ReferencePool) (color : ManaType) : Nat :=
  pool.countP fun unit =>
    unit.color = color && !unit.isConvokePayment && spellPermitsUnit spell unit.toManaShape

/-- A color whose every unit is demanded comes after one with units to spare; then the color
with the fewest units. -/
def better (dip : Bool) (count : Nat) : Option (ManaType × Bool × Nat) → Bool
  | none => true
  | some (_, bestDip, bestCount) => (!dip && bestDip) || (dip = bestDip && count < bestCount)

def keepBest (demand : Option ColorDemand) (pool : ReferencePool)
    (best : Option (ManaType × Bool × Nat)) (color : ManaType) : Option (ManaType × Bool × Nat) :=
  let count := eligibleColorCount spell pool color
  let wouldDipIntoReserve := demand.any fun demand => (demand.of color).any (count ≤ ·)
  if 0 < count && better wouldDipIntoReserve count best then
    some (color, wouldDipIntoReserve, count)
  else best

/-- The loop over the colors that keeps the best so far. -/
def leastAvailable (demand : Option ColorDemand) (pool : ReferencePool) (colors : List ManaType) :
    Option (ManaType × Bool × Nat) :=
  colors.foldl (keepBest spell demand pool) none

def fiveColors : List ManaType := [.white, .blue, .black, .red, .green]

/-- Spends from the best of the colors. -/
def spendBest (demand : Option ColorDemand) (colors : List ManaType) (spend : ManaType → Spend) :
    Spend := fun pool =>
  (leastAvailable spell demand pool colors).bind fun best => spend best.1 pool

def spendAnyUnit : Spend := fun pool =>
  if pool.isEmpty then none
  else Spend.or (spendSelected [.pinned pins fun unit => !unit.isConvokePayment])
    (Spend.or (spendEligible none pins .colorless) (spendBest none none fiveColors fun color =>
      spendColorPreferNonZ pins color fun unit => !unit.isConvokePayment)) pool

def spendAnyEligible (demand : Option ColorDemand) : Spend :=
  Spend.or (spendSelected [.pinned pins fun unit =>
    !unit.isConvokePayment && spellPermitsUnit spell unit]) <|
      match spell with
      | some ctx => Spend.or (spendEligible (some ctx) pins .colorless)
          (spendBest (some ctx) demand fiveColors fun color => spendColorPreferNonZ pins color
            fun unit => !unit.isConvokePayment && ctxPermitsUnit ctx unit)
      | none => spendAnyUnit pins

def spendAnyForRequiredColors (requiredColors : List ManaType) (demand : Option ColorDemand) :
    Spend :=
  Spend.or (spendSelected [.pinned pins fun unit =>
    unit.color ∈ requiredColors && !unit.isConvokePayment && spellPermitsUnit spell unit]) <|
      Spend.or (fun pool => requiredColors.findSome? fun color => spendEligible spell pins color pool)
        (spendAnyEligible spell pins demand)

def spendRestrictedXGenericEligible (allowedColors : List ManaType) (anyColor : Bool)
    (demand : Option ColorDemand) : Spend :=
  if anyColor then spendAnyForRequiredColors spell pins allowedColors demand
  else Spend.or (spendSelected [.pinned pins fun unit =>
    unit.color ∈ allowedColors && !unit.isConvokePayment && spellPermitsUnit spell unit]) <|
      match allowedColors with
      | [color] => spendEligible spell pins color
      | _ => spendBest spell demand allowedColors fun color => spendEligible spell pins color

def spendGenericEligible (demand : Option ColorDemand) : Spend :=
  Spend.or (spendSelected [.pinned pins fun unit =>
    !unit.isConvokePayment && spellPermitsUnit spell unit]) <|
      Spend.or (spendSelected [.anywhere fun unit =>
        unit.isConvokePayment && spellPermitsUnit spell unit]) (spendAnyEligible spell pins demand)

def spendSnowUnit : Spend :=
  spendSelected [
    .pinned pins fun unit => unit.isSnow && spellPermitsUnit spell unit,
    .anywhere fun unit => unit.isSnow && spellPermitsUnit spell unit]

def spendTwoOrMoreColorSourceEligible : Spend :=
  spendSelected [
    .pinned pins fun unit =>
      unit.sourceCouldProduceTwoOrMoreColors && spellPermitsUnit spell unit,
    .anywhere fun unit =>
      unit.sourceCouldProduceTwoOrMoreColors && spellPermitsUnit spell unit]

end

/-- A unit that is allowed leaves the pool, and nothing else does. -/
def Debits (allowed : ManaUnit → Prop) (spend : Spend) : Prop :=
  ∀ pool unit left, spend pool = some (unit, left) → allowed unit ∧ (unit :: left).Perm pool

/-- Nothing is found only where no unit is allowed. -/
def Finds (allowed : ManaUnit → Prop) (spend : Spend) : Prop :=
  ∀ pool, spend pool = none → ∀ unit ∈ pool, ¬allowed unit

section
variable {allowed other : ManaUnit → Prop} {spend next : Spend}

theorem Debits.mono (debits : Debits allowed spend) (weaker : ∀ unit, allowed unit → other unit) :
    Debits other spend := fun pool unit left spent =>
  ⟨weaker unit (debits pool unit left spent).1, (debits pool unit left spent).2⟩

theorem Debits.or (debits : Debits allowed spend) (debits' : Debits allowed next) :
    Debits allowed (spend.or next) := by
  intro pool unit left spent
  rcases or_eq_some_iff.mp spent with spent | ⟨-, spent⟩
  · exact debits pool unit left spent
  · exact debits' pool unit left spent

/-- What the first way does not allow is still found by the second. -/
theorem Finds.or (finds' : Finds allowed next) : Finds allowed (spend.or next) := fun pool none_ =>
  finds' pool (or_eq_none_iff.mp none_).2

variable {passes : ManaUnit → Bool}

theorem swapRemoveWhere_perm {pool left : ReferencePool} {unit : ManaUnit}
    (taken : pool.swapRemoveWhere passes = some (unit, left)) :
    passes unit ∧ (unit :: left).Perm pool := by
  obtain ⟨position, isPosition, taken⟩ := bind_eq_some_iff.mp taken
  refine ⟨?_, Slotted.swapRemove_perm taken⟩
  obtain ⟨x, at_, taken⟩ := bind_eq_some_iff.mp taken
  obtain ⟨last, isLast, taken⟩ := bind_eq_some_iff.mp taken
  cases taken
  obtain ⟨bound, passes_, -⟩ := findIdx?_eq_some_iff_getElem.mp isPosition
  rw [getElem?_eq_getElem bound] at at_
  cases at_
  exact passes_

theorem swapRemoveWhere_none {pool : ReferencePool} :
    pool.swapRemoveWhere passes = none ↔ ∀ unit ∈ pool, ¬passes unit := by
  constructor
  · intro none_ unit held passed
    obtain ⟨position, isPosition⟩ : ∃ position, pool.findIdx? passes = some position :=
      isSome_iff_exists.mp (by
        rw [findIdx?_isSome]
        exact any_eq_true.mpr ⟨unit, held, passed⟩)
    obtain ⟨bound, -, -⟩ := findIdx?_eq_some_iff_getElem.mp isPosition
    have isLast := getLast?_eq_some_getLast (ne_nil_of_mem held)
    rw [ReferencePool.swapRemoveWhere, isPosition] at none_
    simp [Slotted.swapRemove, getElem?_eq_getElem bound, isLast] at none_
  · intro nobody
    rw [ReferencePool.swapRemoveWhere, findIdx?_eq_none_iff.mpr fun unit held =>
      Bool.not_eq_true _ ▸ nobody unit held]
    rfl

theorem spendSelected_debits {scans : List Scan}
    (each : ∀ scan ∈ scans, ∀ unit : ManaUnit, scan.allows unit.toManaShape → allowed unit) :
    Debits allowed (spendSelected scans) := by
  intro pool unit left spent
  obtain ⟨scan, isScan, spent⟩ := exists_of_findSome?_eq_some spent
  obtain ⟨passes, perm⟩ := swapRemoveWhere_perm spent
  exact ⟨each scan isScan unit (Scan.allows_of_passes passes), perm⟩

theorem spendSelected_finds {scans : List Scan} (allows : ManaShape → Bool)
    (tried : Scan.anywhere allows ∈ scans)
    (covers : ∀ unit, allowed unit → allows unit.toManaShape) :
    Finds allowed (spendSelected scans) := fun _ none_ unit held isAllowed =>
  swapRemoveWhere_none.mp (findSome?_eq_none_iff.mp none_ _ tried) unit held (covers unit isAllowed)

end

section
variable {spell : Option PaymentContext} {pins : List ManaPipId} {demand : Option ColorDemand}
variable {color : ManaType} {pool : ReferencePool}

def Permits (spell : Option PaymentContext) (unit : ManaUnit) : Prop :=
  spellPermitsUnit spell unit.toManaShape

/-- Mana of this type; what stands in for mana is not colorless. -/
def EligibleAs (spell : Option PaymentContext) (color : ManaType) (unit : ManaUnit) : Prop :=
  unit.color = color ∧ ¬(color = .colorless ∧ unit.isConvokePayment) ∧ Permits spell unit

/-- Real mana that the payment permits. -/
def Floating (spell : Option PaymentContext) (unit : ManaUnit) : Prop :=
  ¬unit.isConvokePayment ∧ Permits spell unit

theorem spendColorPreferNonZ_debits (allows : ManaShape → Bool) :
    Debits (fun unit => unit.color = color ∧ allows unit.toManaShape)
      (spendColorPreferNonZ pins color allows) := by
  refine spendSelected_debits fun scan isScan unit passes => ?_
  simp only [mem_cons, not_mem_nil, or_false] at isScan
  rcases isScan with rfl | rfl | rfl
  all_goals
    simp only [Scan.allows, Bool.and_eq_true, decide_eq_true_eq] at passes
    first | exact passes | exact ⟨passes.1.1, passes.2⟩

theorem spendColorPreferNonZ_finds (allows : ManaShape → Bool) :
    Finds (fun unit => unit.color = color ∧ allows unit.toManaShape)
      (spendColorPreferNonZ pins color allows) :=
  spendSelected_finds (fun unit => unit.color = color && allows unit) (by simp) fun unit isOne => by
      rw [Bool.and_eq_true, decide_eq_true_eq]
      exact isOne

theorem spendEligible_debits : Debits (EligibleAs spell color) (spendEligible spell pins color) :=
  (spendColorPreferNonZ_debits _).mono fun unit ⟨isColor, passes⟩ => by
    simp only [Bool.and_eq_true, Bool.not_eq_true', Bool.and_eq_false_iff,
      decide_eq_false_iff_not] at passes
    exact ⟨isColor, by rintro ⟨same, convoke⟩; simp [same, convoke] at passes, passes.2⟩

theorem spendEligible_finds : Finds (EligibleAs spell color) (spendEligible spell pins color) := by
  rintro pool none_ unit held ⟨isColor, real, permitted⟩
  refine spendColorPreferNonZ_finds _ pool none_ unit held ⟨isColor, ?_⟩
  rw [Bool.and_eq_true, Bool.not_eq_true', Bool.and_eq_false_iff]
  refine ⟨?_, permitted⟩
  by_contra both
  rw [not_or, Bool.not_eq_false, Bool.not_eq_false, decide_eq_true_eq] at both
  exact real both

theorem eligibleColorCount_pos : 0 < eligibleColorCount spell pool color ↔
    ∃ unit ∈ pool, unit.color = color ∧ Floating spell unit := by
  rw [eligibleColorCount, countP_pos_iff]
  simp only [Bool.and_eq_true, decide_eq_true_eq, Bool.not_eq_true', Floating, Permits,
    Bool.not_eq_true, and_assoc]

variable {colors : List ManaType} {spend : ManaType → Spend} {allowed : ManaUnit → Prop}
  {unit : ManaUnit}

theorem leastAvailable_some {best : ManaType × Bool × Nat}
    (isBest : leastAvailable spell demand pool colors = some best) :
    best.1 ∈ colors ∧ 0 < eligibleColorCount spell pool best.1 := by
  have kept : ∀ (rest : List ManaType) start, rest ⊆ colors →
      (∀ best ∈ start, best.1 ∈ colors ∧ 0 < eligibleColorCount spell pool best.1) →
        ∀ best ∈ rest.foldl (keepBest spell demand pool) start,
          best.1 ∈ colors ∧ 0 < eligibleColorCount spell pool best.1 := by
    intro rest
    induction rest with
    | nil => exact fun start _ holds => holds
    | cons color rest ih =>
      intro start within holds
      obtain ⟨here, within⟩ := cons_subset.mp within
      refine ih _ within fun best isBest => ?_
      unfold keepBest at isBest
      dsimp only at isBest
      split at isBest
      · next taken =>
        cases isBest
        exact ⟨here, of_decide_eq_true (Bool.and_eq_true_iff.mp taken).1⟩
      · exact holds best isBest
  exact kept colors none (Subset.refl _) nofun best isBest

theorem leastAvailable_none (none_ : leastAvailable spell demand pool colors = none) :
    ∀ color ∈ colors, eligibleColorCount spell pool color = 0 := by
  have started : ∀ (rest : List ManaType) start,
      rest.foldl (keepBest spell demand pool) start = none →
        start = none ∧ ∀ color ∈ rest, eligibleColorCount spell pool color = 0 := by
    intro rest
    induction rest with
    | nil => exact fun start none_ => ⟨none_, nofun⟩
    | cons color rest ih =>
      intro start none_
      obtain ⟨same, all⟩ := ih _ none_
      unfold keepBest at same
      dsimp only at same
      split at same
      · cases same
      · next skipped =>
        subst same
        refine ⟨rfl, forall_mem_cons.mpr ⟨?_, all⟩⟩
        simpa [better] using skipped
  exact (started colors none none_).2

/-- The best color, and a unit of it. -/
theorem spendBest_debits (each : ∀ color ∈ colors, Debits allowed (spend color)) :
    Debits allowed (spendBest spell demand colors spend) := by
  intro pool unit left spent
  obtain ⟨best, isBest, spent⟩ := bind_eq_some_iff.mp spent
  exact each best.1 (leastAvailable_some isBest).1 pool unit left spent

theorem spendBest_finds
    (each : ∀ color, Finds (fun unit => unit.color = color ∧ Floating spell unit) (spend color)) :
    Finds (fun unit => unit.color ∈ colors ∧ Floating spell unit)
      (spendBest spell demand colors spend) := by
  rintro pool none_ unit held ⟨isOne, floating⟩
  cases isBest : leastAvailable spell demand pool colors with
  | none =>
    have empty := leastAvailable_none isBest unit.color isOne
    have some_ := eligibleColorCount_pos.mpr ⟨unit, held, rfl, floating⟩
    omega
  | some best =>
    rw [spendBest, isBest] at none_
    obtain ⟨other, held', isOther⟩ := eligibleColorCount_pos.mp (leastAvailable_some isBest).2
    exact each best.1 pool none_ other held' isOther

theorem pinned_debits {allows : ManaShape → Bool}
    (weaker : ∀ unit : ManaUnit, allows unit.toManaShape → allowed unit) :
    Debits allowed (spendSelected [.pinned pins allows]) :=
  spendSelected_debits fun scan isScan unit passes => by
    rw [mem_singleton.mp isScan] at passes
    exact weaker unit passes

theorem mem_fiveColors (color : ManaType) : color = .colorless ∨ color ∈ fiveColors := by
  cases color <;> simp [fiveColors]

theorem floating_eligible (floating : Floating spell unit) :
    EligibleAs spell unit.color unit := ⟨rfl, fun both => floating.1 both.2, floating.2⟩

theorem eligible_floating (eligible : EligibleAs spell .colorless unit) :
    Floating spell unit := ⟨fun convoke => eligible.2.1 ⟨rfl, convoke⟩, eligible.2.2⟩

theorem spendAnyUnit_debits : Debits (Floating none) (spendAnyUnit pins) := by
  intro pool unit left spent
  unfold spendAnyUnit at spent
  split at spent
  · cases spent
  · refine Debits.or (pinned_debits fun unit real => ?_) (Debits.or
      (spendEligible_debits.mono fun unit => eligible_floating) (spendBest_debits fun color _ =>
      (spendColorPreferNonZ_debits _).mono fun unit isOne => ?_)) pool unit left spent
    · exact ⟨by simpa using real, rfl⟩
    · exact ⟨by simpa using isOne.2, rfl⟩

theorem spendAnyUnit_finds : Finds (Floating none) (spendAnyUnit pins) := by
  intro pool none_ unit held floating
  unfold spendAnyUnit at none_
  rw [if_neg (by simpa using ne_nil_of_mem held)] at none_
  obtain ⟨-, none_⟩ := or_eq_none_iff.mp none_
  obtain ⟨colorless, best⟩ := or_eq_none_iff.mp none_
  rcases mem_fiveColors unit.color with isColorless | isColor
  · exact spendEligible_finds pool colorless unit held (isColorless ▸ floating_eligible floating)
  · refine spendBest_finds (fun color pool none_ unit held isOne => ?_) pool best unit held
      ⟨isColor, floating⟩
    exact spendColorPreferNonZ_finds _ pool none_ unit held ⟨isOne.1, by simpa using isOne.2.1⟩

theorem spendAnyEligible_debits : Debits (Floating spell) (spendAnyEligible spell pins demand) := by
  refine Debits.or (pinned_debits fun unit real => ?_) ?_
  · simpa [Floating, Permits] using real
  · cases spell with
    | none => exact spendAnyUnit_debits
    | some ctx =>
      refine Debits.or (spendEligible_debits.mono fun unit => eligible_floating)
        (spendBest_debits fun color _ => (spendColorPreferNonZ_debits _).mono fun unit isOne => ?_)
      simpa [Floating, Permits, spellPermitsUnit] using isOne.2

theorem spendAnyEligible_finds : Finds (Floating spell) (spendAnyEligible spell pins demand) := by
  refine Finds.or ?_
  cases spell with
  | none => exact spendAnyUnit_finds
  | some ctx =>
    intro pool none_ unit held floating
    obtain ⟨colorless, best⟩ := or_eq_none_iff.mp none_
    rcases mem_fiveColors unit.color with isColorless | isColor
    · exact spendEligible_finds pool colorless unit held (isColorless ▸ floating_eligible floating)
    · refine spendBest_finds (fun color pool none_ unit held isOne => ?_) pool best unit held
        ⟨isColor, floating⟩
      refine spendColorPreferNonZ_finds _ pool none_ unit held ⟨isOne.1, ?_⟩
      simpa [Floating, Permits, spellPermitsUnit] using isOne.2

/-- What pays a requirement that names these colors, where any mana may. -/
def PaysAny (spell : Option PaymentContext) (colors : List ManaType) (unit : ManaUnit) : Prop :=
  Floating spell unit ∨ ∃ color ∈ colors, EligibleAs spell color unit

theorem PaysAny.permits (pays : PaysAny spell colors unit) : Permits spell unit := by
  rcases pays with floating | ⟨color, -, eligible⟩
  · exact floating.2
  · exact eligible.2.2

theorem spendAnyForRequiredColors_debits :
    Debits (PaysAny spell colors) (spendAnyForRequiredColors spell pins colors demand) := by
  refine Debits.or (pinned_debits fun unit real => .inl ?_) (Debits.or ?_
    (spendAnyEligible_debits.mono fun unit => .inl))
  · simp only [Bool.and_eq_true, Bool.not_eq_true'] at real
    exact ⟨by rw [real.1.2]; nofun, real.2⟩
  · intro pool unit left spent
    obtain ⟨color, isOne, spent⟩ := exists_of_findSome?_eq_some spent
    obtain ⟨eligible, perm⟩ := spendEligible_debits pool unit left spent
    exact ⟨.inr ⟨color, isOne, eligible⟩, perm⟩

theorem spendAnyForRequiredColors_finds :
    Finds (PaysAny spell colors) (spendAnyForRequiredColors spell pins colors demand) := by
  intro pool none_ unit held pays
  obtain ⟨-, none_⟩ := or_eq_none_iff.mp none_
  obtain ⟨byColor, any⟩ := or_eq_none_iff.mp none_
  rcases pays with floating | ⟨color, isOne, eligible⟩
  · exact spendAnyEligible_finds pool any unit held floating
  · exact spendEligible_finds pool (findSome?_eq_none_iff.mp byColor color isOne) unit held eligible

theorem spendRestrictedXGenericEligible_debits {anyColor : Bool} :
    Debits (Permits spell) (spendRestrictedXGenericEligible spell pins colors anyColor demand) := by
  unfold spendRestrictedXGenericEligible
  split
  · exact spendAnyForRequiredColors_debits.mono fun unit => PaysAny.permits
  · refine Debits.or (pinned_debits fun unit real => (Bool.and_eq_true_iff.mp real).2) ?_
    split
    · exact spendEligible_debits.mono fun unit eligible => eligible.2.2
    · exact spendBest_debits fun color _ => spendEligible_debits.mono
        fun unit eligible => eligible.2.2

theorem spendGenericEligible_debits :
    Debits (Permits spell) (spendGenericEligible spell pins demand) := by
  refine Debits.or (pinned_debits fun unit real => (Bool.and_eq_true_iff.mp real).2) (Debits.or
    (spendSelected_debits fun scan isScan unit passes => ?_)
    (spendAnyEligible_debits.mono fun unit => And.right))
  rw [mem_singleton.mp isScan] at passes
  exact (Bool.and_eq_true_iff.mp passes).2

/-- A generic part is paid as long as the payment permits anything in the pool. -/
theorem spendGenericEligible_finds :
    Finds (Permits spell) (spendGenericEligible spell pins demand) := by
  intro pool none_ unit held permitted
  obtain ⟨-, none_⟩ := or_eq_none_iff.mp none_
  obtain ⟨convoke, any⟩ := or_eq_none_iff.mp none_
  by_cases isConvoke : unit.isConvokePayment
  · have finds : Finds (fun unit => unit.isConvokePayment ∧ Permits spell unit) (spendSelected
        [.anywhere fun unit => unit.isConvokePayment && spellPermitsUnit spell unit]) :=
      spendSelected_finds _ (mem_singleton.mpr rfl) fun unit => Bool.and_eq_true_iff.mpr
    exact finds pool convoke unit held ⟨isConvoke, permitted⟩
  · exact spendAnyEligible_finds pool any unit held ⟨isConvoke, permitted⟩

theorem spendSnowUnit_debits :
    Debits (fun unit => unit.isSnow ∧ Permits spell unit) (spendSnowUnit spell pins) :=
  spendSelected_debits fun scan isScan unit passes => by
    rcases mem_pair.mp isScan with rfl | rfl
    · exact Bool.and_eq_true_iff.mp passes
    · exact Bool.and_eq_true_iff.mp passes

theorem spendTwoOrMoreColorSourceEligible_debits :
    Debits (fun unit => unit.sourceCouldProduceTwoOrMoreColors ∧ Permits spell unit)
      (spendTwoOrMoreColorSourceEligible spell pins) :=
  spendSelected_debits fun scan isScan unit passes => by
    rcases mem_pair.mp isScan with rfl | rfl
    · exact Bool.and_eq_true_iff.mp passes
    · exact Bool.and_eq_true_iff.mp passes

end

end Phase.Mana
