import Phase.Mana.SolverSound

/-! The prompt for the Phyrexian symbols of a cost: which payments it offers for each symbol, and
why a payable cost can still be paid with some of the choices it offers. -/
namespace Phase.Mana
open List

inductive ShardOptions where
  | manaOrLife
  | manaOnly
  | lifeOnly
  deriving DecidableEq

structure PhyrexianShard where
  shardIndex : Nat
  color : ManaColor
  options : ShardOptions
  deriving DecidableEq

def ShardOptions.allows : ShardOptions → ShardChoice → Bool
  | manaOrLife, _ | manaOnly, .payMana | lifeOnly, .payLife => true
  | manaOnly, .payLife | lifeOnly, .payMana => false

def shardOptions (effectiveMana lifeAvailable : Bool) : ShardOptions :=
  match effectiveMana, lifeAvailable with
  | true, true => .manaOrLife
  | true, false => .manaOnly
  | false, true => .lifeOnly
  | false, false => .manaOnly

def manaTypeToColorFallback (manaType : ManaType) : ManaColor :=
  (manaTypeToColor manaType).getD .white

/-- The simulated pool, and how many symbols may still be paid with life. -/
structure Simulation where
  solver : Solver
  lifeBudget : Nat
  deriving DecidableEq

section
variable (terms : PaymentTerms) (shards : List ManaCostShard) (generic idx : Nat)

/-- A symbol that cannot be paid is passed over; of two generic units, one is spent when there
is only one. -/
def simulateStrict (requirement : ShardRequirement) (s : Solver) : Solver :=
  match requirement with
  | .twoGenericHybrid color =>
    if terms.anyColor then (anyForRequired terms [color] s).2
    else
      match eligible terms color s with
      | (some _, after) => after
      | (none, after) =>
        let one := spending (spendGenericEligible terms.spell terms.pins none)
        (one (one after).2).2
  | requirement => (manaRoute terms shards idx requirement s).2

/-- Whether the simulated pool can pay the symbol with mana. -/
def simAvailable (requirement : ShardRequirement) (s : Solver) : Bool :=
  match requirement with
  | .phyrexian color => (payColor terms color s).1.isSome
  | .hybridPhyrexian a b =>
    if terms.anyColor then (anyForRequired terms [a, b] s).1.isSome
    else (eligible terms a s).1.isSome || (eligible terms b s).1.isSome
  | .twoGenericHybridPhyrexian color =>
    (payColor terms color s).1.isSome || (twoGeneric terms s).1.isSome
  | _ => false

/-- The color shown for a Phyrexian symbol. -/
def phyrexianColor : ShardRequirement → ManaType
  | .phyrexian color | .hybridPhyrexian color _ | .twoGenericHybridPhyrexian color => color
  | _ => .colorless

/-- Only a forced payment uses something up. -/
def simulatePhyrexian (requirement : ShardRequirement) (sim : Simulation) :
    PhyrexianShard × Simulation :=
  let effectiveMana := simAvailable terms requirement sim.solver &&
    generic < sim.solver.pool.length
  let options := shardOptions effectiveMana (0 < sim.lifeBudget)
  let shard := ⟨idx, manaTypeToColorFallback (phyrexianColor requirement), options⟩
  match options with
  | .manaOnly => (shard, { sim with solver := (manaRoute terms shards idx requirement sim.solver).2 })
  | .lifeOnly => (shard, { sim with lifeBudget := sim.lifeBudget - 1 })
  | .manaOrLife => (shard, sim)

def simulateShards : List (ManaCostShard × Nat) → Simulation → List PhyrexianShard
  | [], _ => []
  | (shard, idx) :: entries, sim =>
    let requirement := effectiveShardRequirement shard.toRequirement terms.lifeColors
    if isPhyrexianRequirement requirement then
      let (result, sim) := simulatePhyrexian terms shards generic idx requirement sim
      result :: simulateShards entries sim
    else
      simulateShards entries
        { sim with solver := simulateStrict terms shards idx requirement sim.solver }

end

def computePhyrexianShards (pool : ReferencePool) (cost : ManaCost)
    (spell : Option PaymentContext) (permissions : CostPermissionContext) : List PhyrexianShard :=
  match cost with
  | .cost shards generic =>
    simulateShards (permissions.terms spell) shards generic
      (phyrexianDeferredOrder shards permissions.lifeColors) ⟨{ pool }, permissions.maxLife⟩
  | .noCost | .selfManaCost | .selfManaValue | .selfManaCostReduced _ => []

section
variable {spell : Option PaymentContext} {pool later last : ReferencePool}

def Later (spell : Option PaymentContext) (pool later : ReferencePool) : Prop :=
  ∃ units : List ManaUnit, (∀ unit ∈ units, Permits spell unit) ∧ (units ++ later).Perm pool

theorem Later.refl (pool : ReferencePool) : Later spell pool pool := ⟨[], nofun, .refl _⟩

theorem Later.trans (first : Later spell pool later) (second : Later spell later last) :
    Later spell pool last := by
  obtain ⟨units, permitted, perm⟩ := first
  obtain ⟨others, permitted', perm'⟩ := second
  refine ⟨units ++ others, fun unit isOne => ?_, ?_⟩
  · exact (mem_append.mp isOne).elim (permitted unit) (permitted' unit)
  · rw [append_assoc]
    exact (perm'.append_left units).trans perm

section
variable (is : Later spell pool later)
include is

theorem Later.mem {unit : ManaUnit} (held : unit ∈ later) : unit ∈ pool := by
  obtain ⟨units, -, perm⟩ := is
  exact perm.mem_iff.mp (mem_append_right _ held)

/-- A unit that the payment does not permit stays. -/
theorem Later.stays {unit : ManaUnit} (held : unit ∈ pool) (banned : ¬Permits spell unit) :
    unit ∈ later := by
  obtain ⟨units, permitted, perm⟩ := is
  exact (mem_append.mp (perm.mem_iff.mpr held)).resolve_left
    fun spent => banned (permitted unit spent)

theorem Later.length_le : later.length ≤ pool.length := by
  obtain ⟨units, -, perm⟩ := is
  have sizes := perm.length_eq
  rw [length_append] at sizes
  omega

theorem Later.countP_le (p : ManaUnit → Bool) : later.countP p ≤ pool.countP p := by
  obtain ⟨units, -, perm⟩ := is
  rw [← perm.countP_eq, countP_append]
  omega

end

end

section
variable {terms : PaymentTerms} {s start : Solver} {units : List ManaUnit}

theorem spending_some {spend : Spend} {allowed : ManaUnit → Prop} (debits : Debits allowed spend)
    (finds : Finds allowed spend) (paid : (spending spend s).1 = some units)
    (is : Later terms.spell start.pool s.pool) : (spending spend start).1.isSome := by
  unfold spending at paid ⊢
  split at paid
  · next unit left spent =>
    obtain ⟨isAllowed, perm⟩ := debits s.pool unit left spent
    have held := is.mem (perm.mem_iff.mp mem_cons_self)
    cases spent' : spend start.pool with
    | none => exact absurd isAllowed (finds start.pool spent' unit held)
    | some found => rfl
  · cases paid

theorem eligible_some {color : ManaType} (paid : (eligible terms color s).1 = some units)
    (is : Later terms.spell start.pool s.pool) : (eligible terms color start).1.isSome :=
  spending_some spendEligible_debits spendEligible_finds paid is

theorem anyForRequired_some {colors : List ManaType}
    (paid : (anyForRequired terms colors s).1 = some units)
    (is : Later terms.spell start.pool s.pool) : (anyForRequired terms colors start).1.isSome :=
  spending_some spendAnyForRequiredColors_debits spendAnyForRequiredColors_finds paid is

/-- Two generic units can be paid wherever two units are permitted. -/
theorem twoGeneric_some (paid : (twoGeneric terms s).1 = some units)
    (is : Later terms.spell start.pool s.pool) : (twoGeneric terms start).1.isSome := by
  have permits : ∀ unit, (fun unit : ManaUnit => spellPermitsUnit terms.spell unit.toManaShape)
      unit = true ↔ Permits terms.spell unit := fun unit => Iff.rfl
  set permitted := fun unit : ManaUnit => spellPermitsUnit terms.spell unit.toManaShape
  have spends : ∀ pool : ReferencePool, 0 < pool.countP permitted → ∃ unit left,
      spendGenericEligible terms.spell terms.pins none pool = some (unit, left) ∧
        left.countP permitted + 1 = pool.countP permitted := by
    intro pool some_
    cases spent : spendGenericEligible terms.spell terms.pins none pool with
    | none =>
      obtain ⟨unit, held, passes⟩ := countP_pos_iff.mp some_
      exact absurd ((permits unit).mp passes) (spendGenericEligible_finds pool spent unit held)
    | some found =>
      obtain ⟨isPermitted, perm⟩ := spendGenericEligible_debits _ _ _ spent
      refine ⟨found.1, found.2, rfl, ?_⟩
      rw [← perm.countP_eq, countP_cons, if_pos ((permits _).mpr isPermitted)]
  have two : 2 ≤ s.pool.countP permitted := by
    have routed : Routed (fun units => units.length = 2 ∧ ∀ unit ∈ units,
        Permits terms.spell unit) s (twoGeneric terms s) :=
      twoGeneric_routed fun first second isFirst isSecond =>
        ⟨rfl, fun unit isOne => (mem_pair.mp isOne).elim (· ▸ isFirst) (· ▸ isSecond)⟩
    obtain ⟨⟨size, all⟩, perm⟩ := routed.taken units paid
    rw [← perm.countP_eq, countP_append,
      countP_eq_length.mpr fun unit isOne => (permits unit).mpr (all unit isOne)]
    omega
  have enough := is.countP_le permitted
  obtain ⟨first, left, spent, less⟩ := spends start.pool (by omega)
  obtain ⟨second, rest, spent', -⟩ := spends left (by omega)
  simp only [twoGeneric, spent, spent', Option.isSome_some]

theorem payColor_some {color : ManaType} (paid : (payColor terms color s).1 = some units)
    (is : Later terms.spell start.pool s.pool) : (payColor terms color start).1.isSome := by
  unfold payColor at paid ⊢
  split at paid
  · next any => rw [if_pos any]; exact anyForRequired_some paid is
  · next exact_ => rw [if_neg exact_]; exact eligible_some paid is

/-- Where the solver pays a Phyrexian symbol with mana, the prompt offers mana. -/
theorem manaRoute_available {shards : List ManaCostShard} {idx : Nat}
    {requirement : ShardRequirement} (phyrexian : isPhyrexianRequirement requirement)
    (paid : (manaRoute terms shards idx requirement s).1 = some units)
    (is : Later terms.spell start.pool s.pool) : simAvailable terms requirement start := by
  cases requirement with
  | phyrexian color => exact payColor_some paid is
  | hybridPhyrexian a b =>
    dsimp only [manaRoute, payHybrid] at paid
    dsimp only [simAvailable]
    split at paid
    · next any => rw [if_pos any]; exact anyForRequired_some paid is
    · next exact_ =>
      have half := selectHybridPaymentColor_half s.pool a b terms.handDemand
        (countRemainingHybridShards shards idx a b) s.preferredHybridColors
      have found := eligible_some paid is
      rw [if_neg exact_, Bool.or_eq_true]
      exact half.elim (fun isA => .inl (isA ▸ found)) fun isB => .inr (isB ▸ found)
  | twoGenericHybridPhyrexian color =>
    dsimp only [manaRoute, payTwoGenericHybrid] at paid
    dsimp only [simAvailable, payColor]
    rw [Bool.or_eq_true]
    split at paid
    · next any => rw [if_pos any]; exact .inl (anyForRequired_some paid is)
    · next exact_ =>
      rw [if_neg exact_]
      unfold Route.orElse at paid
      split at paid
      · next found => exact .inl (eligible_some (by rw [found]) is)
      · next after failed =>
        have same : after.pool = s.pool := by
          have routed : Routed (fun _ => True) s (eligible terms color s) :=
            eligible_routed fun _ _ _ => trivial
          have kept := routed.kept (by rw [failed])
          rwa [failed] at kept
        exact .inr (twoGeneric_some paid (same ▸ is))
  | _ => cases phyrexian

end

end Phase.Mana
