import Phase.Mana.Solver

/-! What a selected payment spends, and what committing it leaves. -/
namespace Phase.Mana
open List Fallible

/-- Any unit pays this requirement under the permission. -/
def MayStandFor (permission : Option ManaSpendPermission) : ShardRequirement → Prop
  | .single color => permission.any (·.allowsPaymentAs color)
  | .hybrid _ _ | .phyrexian _ | .twoGenericHybrid _ | .colorlessHybrid _ | .hybridPhyrexian _ _
  | .twoGenericHybridPhyrexian _ => permission.isSome
  | .snow | .twoOrMoreColorSource | .x => False

def PaidWithMana (permission : Option ManaSpendPermission) (requirement : ShardRequirement)
    (units : List ManaUnit) : Prop :=
  (Pays requirement units ∧ (units = [] → requirement = .x)) ∨
    (MayStandFor permission requirement ∧ ∃ unit, units = [unit])

/-- Mana, or two life for a Phyrexian symbol. -/
def SymbolPayment.Legal (terms : PaymentTerms) (shard : ManaCostShard) (payment : SymbolPayment) :
    Prop :=
  let requirement := effectiveShardRequirement shard.toRequirement terms.lifeColors
  (payment.life = [] ∧ PaidWithMana terms.manaSpendPermission requirement payment.units) ∨
    (isPhyrexianRequirement requirement ∧ payment.units = [] ∧ payment.life = [⟨2⟩])

theorem paidWithMana_one {permission : Option ManaSpendPermission}
    {requirement : ShardRequirement} {unit : ManaUnit} (pays : Pays requirement [unit]) :
    PaidWithMana permission requirement [unit] := .inl ⟨pays, nofun⟩

/-- A route that fails leaves the pool as it was; one that pays takes the units from it. -/
structure Routed (paid : List ManaUnit → Prop) (s : Solver)
    (result : Option (List ManaUnit) × Solver) : Prop where
  cursor : result.2.choiceCursor = s.choiceCursor
  kept : result.1 = none → result.2.pool = s.pool
  taken : ∀ units, result.1 = some units → paid units ∧ (units ++ result.2.pool).Perm s.pool

/-- What the units are, and that the payment permits each of them. -/
def PaidUnder (terms : PaymentTerms) (requirement : ShardRequirement) (units : List ManaUnit) :
    Prop :=
  PaidWithMana terms.manaSpendPermission requirement units ∧
    ∀ unit ∈ units, Permits terms.spell unit

section
variable {terms : PaymentTerms} {s : Solver} {paid : List ManaUnit → Prop}

theorem spending_routed {spend : Spend} {allowed : ManaUnit → Prop} (debits : Debits allowed spend)
    (pays : ∀ unit, allowed unit → paid [unit]) : Routed paid s (spending spend s) := by
  unfold spending
  split
  · next unit left spent =>
    obtain ⟨isAllowed, perm⟩ := debits s.pool unit left spent
    exact ⟨rfl, nofun, fun units isUnits => by cases isUnits; exact ⟨pays unit isAllowed, perm⟩⟩
  · exact ⟨rfl, fun _ => rfl, nofun⟩

theorem Routed.orElse {first next : Route} (routed : Routed paid s (first s))
    (routed' : ∀ after, Routed paid after (next after)) :
    Routed paid s (first.orElse next s) := by
  unfold Route.orElse
  obtain ⟨cursor, kept, taken⟩ := routed
  split
  · next units after paid_ =>
    rw [paid_] at cursor taken
    exact ⟨cursor, nofun, taken⟩
  · next after failed =>
    rw [failed] at cursor kept
    obtain ⟨cursor', kept', taken'⟩ := routed' after
    have same : after.pool = s.pool := kept rfl
    exact ⟨cursor'.trans cursor, fun none_ => (kept' none_).trans same, same ▸ taken'⟩

theorem twoGeneric_routed (pays : ∀ first second, Permits terms.spell first →
    Permits terms.spell second → paid [first, second]) : Routed paid s (twoGeneric terms s) := by
  unfold twoGeneric
  dsimp only
  split
  · exact ⟨rfl, fun _ => rfl, nofun⟩
  · next first left spent =>
    obtain ⟨permitted, perm⟩ := spendGenericEligible_debits _ _ _ spent
    split
    · exact ⟨rfl, fun _ => rfl, nofun⟩
    · next second rest spent' =>
      obtain ⟨permitted', perm'⟩ := spendGenericEligible_debits _ _ _ spent'
      refine ⟨rfl, nofun, fun units isUnits => ?_⟩
      cases isUnits
      exact ⟨pays first second permitted permitted', (perm'.cons first).trans perm⟩

theorem eligible_routed {color : ManaType} (pays : ∀ unit : ManaUnit, unit.color = color →
    Permits terms.spell unit → paid [unit]) : Routed paid s (eligible terms color s) :=
  spending_routed spendEligible_debits fun unit isOne => pays unit isOne.1 isOne.2.2

theorem anyForRequired_routed {colors : List ManaType}
    (pays : ∀ unit : ManaUnit, Permits terms.spell unit → paid [unit]) :
    Routed paid s (anyForRequired terms colors s) :=
  spending_routed spendAnyForRequiredColors_debits fun unit isOne => pays unit isOne.permits

theorem payHybrid_routed {shards : List ManaCostShard} {idx : Nat} {a b : ManaType}
    (pays : ∀ unit : ManaUnit, Permits terms.spell unit →
      terms.anyColor ∨ unit.color = a ∨ unit.color = b → paid [unit]) :
    Routed paid s (payHybrid terms shards idx a b s) := by
  unfold payHybrid
  split
  · next any =>
    exact anyForRequired_routed fun unit permitted => pays unit permitted (.inl any)
  · have half := selectHybridPaymentColor_half s.pool a b terms.handDemand
      (countRemainingHybridShards shards idx a b) s.preferredHybridColors
    generalize selectHybridPaymentColor s.pool a b terms.handDemand
      (countRemainingHybridShards shards idx a b) s.preferredHybridColors = selected at half ⊢
    have routed : Routed paid { s with preferredHybridColors := selected.2 }
        (eligible terms selected.1 { s with preferredHybridColors := selected.2 }) :=
      eligible_routed fun unit is permitted => pays unit permitted (.inr (is ▸ half))
    exact ⟨routed.cursor, routed.kept, routed.taken⟩

section
variable {color : ManaType}
  (pays : ∀ unit : ManaUnit, Permits terms.spell unit → terms.anyColor ∨ unit.color = color → paid [unit])
include pays

theorem payColor_routed : Routed paid s (payColor terms color s) := by
  unfold payColor
  split
  · next any =>
    exact anyForRequired_routed fun unit permitted => pays unit permitted (.inl any)
  · exact eligible_routed fun unit is permitted => pays unit permitted (.inr is)

theorem payTwoGenericHybrid_routed
    (paysTwo : ∀ first second, Permits terms.spell first → Permits terms.spell second →
      paid [first, second]) : Routed paid s (payTwoGenericHybrid terms color s) := by
  unfold payTwoGenericHybrid
  split
  · next any =>
    exact anyForRequired_routed fun unit permitted => pays unit permitted (.inl any)
  · exact (eligible_routed fun unit is permitted => pays unit permitted (.inr is)).orElse
      fun after => twoGeneric_routed paysTwo

end

/-- However a requirement is paid with mana, it is paid legally. -/
theorem manaRoute_routed (shards : List ManaCostShard) (idx : Nat)
    (requirement : ShardRequirement) :
    Routed (PaidUnder terms requirement) s (manaRoute terms shards idx requirement s) := by
  have one : ∀ unit : ManaUnit, Permits terms.spell unit →
      PaidWithMana terms.manaSpendPermission requirement [unit] →
        PaidUnder terms requirement [unit] := fun unit permitted pays =>
    ⟨pays, fun other isOther => mem_singleton.mp isOther ▸ permitted⟩
  have stands : ∀ unit : ManaUnit, MayStandFor terms.manaSpendPermission requirement →
      PaidWithMana terms.manaSpendPermission requirement [unit] := fun unit may =>
    .inr ⟨may, unit, rfl⟩
  have two : ∀ first second, Permits terms.spell first → Permits terms.spell second →
      Pays requirement [first, second] → PaidUnder terms requirement [first, second] :=
    fun first second permitted permitted' pays => ⟨.inl ⟨pays, nofun⟩, fun unit isOne => by
      rcases mem_pair.mp isOne with rfl | rfl
      · exact permitted
      · exact permitted'⟩
  cases requirement with
  | single color =>
    dsimp only [manaRoute]
    split
    · next may =>
      exact anyForRequired_routed fun unit permitted => one unit permitted (stands unit may)
    · exact eligible_routed fun unit is permitted =>
        one unit permitted (paidWithMana_one (.single is))
  | hybrid a b =>
    refine payHybrid_routed fun unit permitted half => one unit permitted ?_
    exact half.elim (stands unit) fun is => paidWithMana_one (.hybrid is)
  | phyrexian color =>
    refine payColor_routed fun unit permitted half => one unit permitted ?_
    exact half.elim (stands unit) fun is => paidWithMana_one (.phyrexian is)
  | twoGenericHybrid color =>
    refine payTwoGenericHybrid_routed (fun unit permitted half => one unit permitted ?_)
      fun first second permitted permitted' => two first second permitted permitted' .twoGeneric
    exact half.elim (stands unit) fun is => paidWithMana_one (.twoGenericColored is)
  | snow =>
    exact spending_routed spendSnowUnit_debits fun unit isOne =>
      one unit isOne.2 (paidWithMana_one (.snow isOne.1))
  | twoOrMoreColorSource =>
    exact spending_routed spendTwoOrMoreColorSourceEligible_debits fun unit isOne =>
      one unit isOne.2 (paidWithMana_one (.twoOrMoreColorSource isOne.1))
  | x =>
    refine ⟨rfl, nofun, fun units isUnits => ?_⟩
    cases isUnits
    exact ⟨⟨.inl ⟨.x, fun _ => rfl⟩, nofun⟩, .refl _⟩
  | colorlessHybrid color =>
    dsimp only [manaRoute]
    split
    · next any =>
      exact anyForRequired_routed fun unit permitted => one unit permitted (stands unit any)
    · exact (eligible_routed fun unit is permitted =>
        one unit permitted (paidWithMana_one (.colorlessHybrid (.inl is)))).orElse fun after =>
          eligible_routed fun unit is permitted =>
            one unit permitted (paidWithMana_one (.colorlessHybrid (.inr is)))
  | hybridPhyrexian a b =>
    refine payHybrid_routed fun unit permitted half => one unit permitted ?_
    exact half.elim (stands unit) fun is => paidWithMana_one (.hybridPhyrexian is)
  | twoGenericHybridPhyrexian color =>
    refine payTwoGenericHybrid_routed (fun unit permitted half => one unit permitted ?_)
      fun first second permitted permitted' =>
        two first second permitted permitted' .twoGenericPhyrexian
    exact half.elim (stands unit) fun is => paidWithMana_one (.twoGenericPhyrexianColored is)

end

/-- What paying a symbol does; a Phyrexian symbol follows the next choice, if there is one. -/
structure ShardPaid (terms : PaymentTerms) (entry : ManaCostShard × Nat) (s : Solver)
    (payment : SymbolPayment) (after : Solver) : Prop where
  index : payment.index = entry.2
  legal : payment.Legal terms entry.1
  permitted : ∀ unit ∈ payment.units, Permits terms.spell unit
  taken : (payment.units ++ after.pool).Perm s.pool
  passed : ¬entry.1.isPhyrexianUnder terms.lifeColors → after.choiceCursor = s.choiceCursor
  followed : entry.1.isPhyrexianUnder terms.lifeColors → ∀ choice,
    terms.phyrexianChoices.bind (·[s.choiceCursor]?) = some choice →
      after.choiceCursor = s.choiceCursor + 1 ∧ (payment.life = [] ↔ choice = .payMana)

section
variable {terms : PaymentTerms} {shards : List ManaCostShard} {generic : Nat}
variable {entry : ManaCostShard × Nat} {s after : Solver} {payment : SymbolPayment}
variable {entries others : List (ManaCostShard × Nat)} {payments : List SymbolPayment}

theorem payStrict_spec {route : Route} {idx : Nat} {requirement : ShardRequirement}
    (routed : Routed (PaidUnder terms requirement) s (route s))
    (paid : payStrict idx route s = .ok (payment, after)) :
    ∃ units, payment = .withMana idx units ∧ PaidUnder terms requirement units ∧
      (units ++ after.pool).Perm s.pool ∧ after.choiceCursor = s.choiceCursor := by
  unfold payStrict at paid
  split at paid
  · next units after' isPaid =>
    cases paid
    obtain ⟨legal, perm⟩ := routed.taken units (by rw [isPaid])
    rw [isPaid] at perm
    exact ⟨units, rfl, legal, perm, by have := routed.cursor; rwa [isPaid] at this⟩
  · cases paid

theorem payShard_spec (paid : payShard terms shards generic entry s = .ok (payment, after)) :
    ShardPaid terms entry s payment after := by
  unfold payShard at paid
  dsimp only at paid
  generalize isRequirement :
    effectiveShardRequirement entry.1.toRequirement terms.lifeColors = requirement at paid
  have routed : ∀ s, Routed (PaidUnder terms requirement) s
      (manaRoute terms shards entry.2 requirement s) := fun s =>
    manaRoute_routed shards entry.2 requirement
  have phyrexian : entry.1.isPhyrexianUnder terms.lifeColors = isPhyrexianRequirement requirement :=
    by rw [ManaCostShard.isPhyrexianUnder, isRequirement]
  have byMana : ∀ units, PaidUnder terms requirement units →
      (SymbolPayment.withMana entry.2 units).Legal terms entry.1 := fun units legal =>
    .inl ⟨rfl, by rw [isRequirement]; exact legal.1⟩
  split at paid
  · next isPhyrexian =>
    have byLife : (SymbolPayment.withLife entry.2).Legal terms entry.1 :=
      .inr ⟨by rw [isRequirement]; exact isPhyrexian, rfl, rfl⟩
    have notPassed : ¬entry.1.isPhyrexianUnder terms.lifeColors →
        after.choiceCursor = s.choiceCursor := fun not => absurd (phyrexian.trans isPhyrexian) not
    unfold payPhyrexian at paid
    split at paid
    · next choice isChoice =>
      split at paid
      · cases paid
        refine ⟨rfl, byLife, nofun, .refl _, notPassed, fun _ choice isOne => ?_⟩
        cases isChoice.symm.trans isOne
        exact ⟨rfl, nofun, nofun⟩
      · obtain ⟨units, rfl, legal, perm, cursor⟩ := payStrict_spec (routed _) paid
        refine ⟨rfl, byMana units legal, legal.2, perm, notPassed, fun _ choice isOne => ?_⟩
        cases isChoice.symm.trans isOne
        exact ⟨cursor, fun _ => rfl, fun _ => rfl⟩
    · next noChoice =>
      have noFollowed : ∀ {payment : SymbolPayment} {after : Solver},
          entry.1.isPhyrexianUnder terms.lifeColors → ∀ choice,
            terms.phyrexianChoices.bind (·[s.choiceCursor]?) = some choice →
              after.choiceCursor = s.choiceCursor + 1 ∧
                (payment.life = [] ↔ choice = .payMana) := fun _ choice isOne => by
        cases noChoice.symm.trans isOne
      split at paid
      · obtain ⟨cursor, kept, taken⟩ := routed s
        split at paid
        · next units after' isPaid =>
          cases paid
          obtain ⟨legal, perm⟩ := taken units (by rw [isPaid])
          rw [isPaid] at perm
          exact ⟨rfl, byMana units legal, legal.2, perm, notPassed, noFollowed⟩
        · next after' isPaid =>
          cases paid
          rw [isPaid] at kept
          exact ⟨rfl, byLife, nofun, .of_eq (kept rfl), notPassed, noFollowed⟩
      · cases paid
        exact ⟨rfl, byLife, nofun, .refl _, notPassed, noFollowed⟩
  · next notPhyrexian =>
    obtain ⟨units, rfl, legal, perm, cursor⟩ := payStrict_spec (routed s) paid
    exact ⟨rfl, byMana units legal, legal.2, perm, fun _ => cursor, fun isPhyrexian =>
      absurd (phyrexian.symm.trans isPhyrexian) notPhyrexian⟩

/-- Every symbol is paid legally from what the ones before it left. -/
theorem payShards_spec (paid : payShards terms shards generic entries s = .ok (payments, after)) :
    Forall₂ (fun entry payment => payment.index = entry.2 ∧ payment.Legal terms entry.1)
        entries payments ∧
      (∀ payment ∈ payments, ∀ unit ∈ payment.units, Permits terms.spell unit) ∧
      (payments.flatMap (·.units) ++ after.pool).Perm s.pool := by
  induction entries generalizing s payments with
  | nil => cases paid; exact ⟨.nil, nofun, .refl _⟩
  | cons entry entries ih =>
    rw [payShards, bind_eq_ok] at paid
    obtain ⟨⟨payment, between⟩, isPaid, paid⟩ := paid
    obtain ⟨⟨rest, last⟩, isRest, paid⟩ := bind_eq_ok.mp paid
    cases paid
    have spec := payShard_spec isPaid
    obtain ⟨legal, permitted, perm⟩ := ih isRest
    refine ⟨.cons ⟨spec.index, spec.legal⟩ legal,
      forall_mem_cons.mpr ⟨spec.permitted, permitted⟩, ?_⟩
    rw [flatMap_cons, append_assoc]
    exact (perm.append_left _).trans spec.taken

theorem payShards_append
    (paid : payShards terms shards generic (entries ++ others) s = .ok (payments, after)) :
    ∃ first between rest, payShards terms shards generic entries s = .ok (first, between) ∧
      payShards terms shards generic others between = .ok (rest, after) ∧
        payments = first ++ rest := by
  induction entries generalizing s payments with
  | nil => exact ⟨[], s, payments, rfl, paid, rfl⟩
  | cons entry entries ih =>
    rw [cons_append, payShards, bind_eq_ok] at paid
    obtain ⟨⟨payment, next⟩, isPaid, paid⟩ := paid
    obtain ⟨⟨later, last⟩, isRest, paid⟩ := bind_eq_ok.mp paid
    cases paid
    obtain ⟨first, between, rest, isFirst, isLast, rfl⟩ := ih isRest
    refine ⟨payment :: first, between, rest, ?_, isLast, rfl⟩
    rw [payShards, isPaid, ok_bind]
    dsimp only
    rw [isFirst]
    rfl

theorem payShards_entry (paid : payShards terms shards generic entries s = .ok (payments, after)) :
    ∀ part ∈ payments, ∃ entry ∈ entries, part.index = entry.2 ∧ part.Legal terms entry.1 := by
  intro part isPart
  obtain ⟨legal, -, -⟩ := payShards_spec paid
  obtain ⟨i, bound, rfl⟩ := getElem_of_mem isPart
  have bound' : i < entries.length := legal.length_eq ▸ bound
  exact ⟨_, get_mem entries ⟨i, bound'⟩, (forall₂_iff_get.mp legal).2 i bound' bound⟩

theorem payShards_concat {between : Solver} {rest : List SymbolPayment}
    (paid : payShards terms shards generic entries s = .ok (payments, between))
    (paid' : payShards terms shards generic others between = .ok (rest, after)) :
    payShards terms shards generic (entries ++ others) s = .ok (payments ++ rest, after) := by
  induction entries generalizing s payments with
  | nil => cases paid; exact paid'
  | cons entry entries ih =>
    rw [payShards, bind_eq_ok] at paid
    obtain ⟨⟨payment, next⟩, isPaid, paid⟩ := paid
    obtain ⟨⟨later, last⟩, isRest, paid⟩ := bind_eq_ok.mp paid
    cases paid
    rw [cons_append, payShards, isPaid, ok_bind]
    dsimp only
    rw [ih isRest]
    rfl

/-- A symbol that is not Phyrexian is paid with mana and asks for no choice. -/
theorem payShards_strict (strict : ∀ entry ∈ entries, ¬entry.1.isPhyrexianUnder terms.lifeColors)
    (paid : payShards terms shards generic entries s = .ok (payments, after)) :
    (∀ payment ∈ payments, payment.life = []) ∧ after.choiceCursor = s.choiceCursor := by
  induction entries generalizing s payments with
  | nil => cases paid; exact ⟨nofun, rfl⟩
  | cons entry entries ih =>
    obtain ⟨here, later⟩ := forall_mem_cons.mp strict
    rw [payShards, bind_eq_ok] at paid
    obtain ⟨⟨payment, next⟩, isPaid, paid⟩ := paid
    obtain ⟨⟨rest, last⟩, isRest, paid⟩ := bind_eq_ok.mp paid
    cases paid
    have spec := payShard_spec isPaid
    obtain ⟨free, cursor⟩ := ih later isRest
    refine ⟨forall_mem_cons.mpr ⟨?_, free⟩, cursor.trans (spec.passed here)⟩
    exact spec.legal.elim And.left fun byLife => absurd byLife.1 here

end

section
variable {terms : PaymentTerms} {pool left : ReferencePool} {cost : ManaCost}
variable {payment : ManaPayment}

theorem spendTimes_spec {spend : Spend} {allowed : ManaUnit → Prop}
    (debits : Debits allowed spend) {count : Nat} {units : List ManaUnit}
    (paid : spendTimes spend count pool = .ok (units, left)) :
    units.length = count ∧ (∀ unit ∈ units, allowed unit) ∧ (units ++ left).Perm pool := by
  induction count generalizing pool units with
  | zero => cases paid; exact ⟨rfl, nofun, .refl _⟩
  | succ count ih =>
    unfold spendTimes at paid
    split at paid
    · cases paid
    · next unit between spent =>
      obtain ⟨⟨rest, last⟩, isRest, paid⟩ := bind_eq_ok.mp paid
      cases paid
      obtain ⟨isAllowed, perm⟩ := debits pool unit between spent
      obtain ⟨size, all, perm'⟩ := ih isRest
      exact ⟨congrArg Nat.succ size, forall_mem_cons.mpr ⟨isAllowed, all⟩,
        (perm'.cons unit).trans perm⟩

theorem restrictedX_le (terms : PaymentTerms) (generic : Nat) :
    (restrictedX terms generic).2 ≤ generic := by
  unfold restrictedX
  split
  · split
    · exact Nat.min_le_left _ _
    · exact Nat.zero_le _
  · exact Nat.zero_le _

theorem payGeneric_spec {generic : Nat} {units : List ManaUnit}
    (paid : payGeneric terms generic pool = .ok (units, left)) :
    units.length = generic ∧ (∀ unit ∈ units, Permits terms.spell unit) ∧
      (units ++ left).Perm pool := by
  unfold payGeneric at paid
  dsimp only at paid
  obtain ⟨⟨forX, between⟩, isX, paid⟩ := bind_eq_ok.mp paid
  obtain ⟨⟨rest, last⟩, isRest, paid⟩ := bind_eq_ok.mp paid
  cases paid
  obtain ⟨size, permitted, perm⟩ := spendTimes_spec spendRestrictedXGenericEligible_debits isX
  obtain ⟨size', permitted', perm'⟩ := spendTimes_spec spendGenericEligible_debits isRest
  have most := restrictedX_le terms generic
  refine ⟨by rw [length_append, size, size']; omega, ?_, ?_⟩
  · intro unit isOne
    exact (mem_append.mp isOne).elim (permitted unit) (permitted' unit)
  · rw [append_assoc]
    exact (perm'.append_left forX).trans perm

/-- Each symbol and the generic part paid legally, out of what is spent. -/
structure PaysFor (terms : PaymentTerms) (shards : List ManaCostShard) (generic : Nat)
    (parts : List SymbolPayment) (rest : List ManaUnit) (payment : ManaPayment) : Prop where
  legal : Forall₂ (fun shard part => part.Legal terms shard) shards parts
  size : rest.length = generic
  spent : (parts.flatMap (·.units) ++ rest).Perm payment.spent
  life : (parts.flatMap (·.life)).Perm payment.lifePayments

/-- What is spent is taken from the pool, is permitted, and pays the cost. -/
structure Covers (terms : PaymentTerms) (cost : ManaCost) (pool left : ReferencePool)
    (payment : ManaPayment) : Prop where
  taken : (payment.spent ++ left).Perm pool
  permitted : ∀ unit ∈ payment.spent, Permits terms.spell unit
  paysFor : ∀ shards generic, cost = .cost shards generic →
    ∃ parts rest, PaysFor terms shards generic parts rest payment
  free : (∀ shards generic, cost ≠ .cost shards generic) → payment = {}

/-- The order in which the symbols are paid does not matter for what they are paid with. -/
theorem deferred_parts {shards : List ManaCostShard} {lifeColors : LifePaymentColors}
    {payments : List SymbolPayment} {legal : ManaCostShard → SymbolPayment → Prop}
    (paid : Forall₂ (fun entry payment => payment.index = entry.2 ∧ legal entry.1 payment)
      (phyrexianDeferredOrder shards lifeColors) payments) :
    ∃ parts, parts.Perm payments ∧
      Forall₂ (fun entry payment => payment.index = entry.2 ∧ legal entry.1 payment)
        shards.zipIdx parts := by
  have order : shards.zipIdx.Perm (phyrexianDeferredOrder shards lifeColors) := by
    have split := filter_append_perm
      (fun entry : ManaCostShard × Nat => !entry.1.isPhyrexianUnder lifeColors) shards.zipIdx
    simp only [Bool.not_not] at split
    exact split.symm
  obtain ⟨parts, both, perm⟩ := perm_comp_forall₂ order paid
  exact ⟨parts, perm, both⟩

theorem payOnce_covers
    (paid : payCostWithDemandAndChoicesOnce pool cost terms = .ok (payment, left)) :
    Covers terms cost pool left payment := by
  cases cost with
  | cost shards generic =>
    obtain ⟨⟨symbols, s⟩, isSymbols, paid⟩ := bind_eq_ok.mp paid
    obtain ⟨⟨units, last⟩, isGeneric, paid⟩ := bind_eq_ok.mp paid
    cases paid
    obtain ⟨legal, permitted, perm⟩ := payShards_spec isSymbols
    obtain ⟨size, permitted', perm'⟩ := payGeneric_spec isGeneric
    obtain ⟨parts, same, both⟩ := deferred_parts legal
    refine ⟨?_, ?_, fun shards generic isCost => ?_, fun not => absurd rfl (not _ _)⟩
    · rw [ManaPayment.spent, append_assoc]
      exact (perm'.append_left _).trans perm
    · intro unit isOne
      rcases mem_append.mp isOne with isSymbol | isOther
      · obtain ⟨payment, isPayment, isUnit⟩ := mem_flatMap.mp isSymbol
        exact permitted payment isPayment unit isUnit
      · exact permitted' unit isOther
    · cases isCost
      refine ⟨parts, units, ?_, size, (same.flatMap_right _).append_right _, same.flatMap_right _⟩
      rw [← zipIdx_map_fst 0 shards, forall₂_map_left_iff]
      exact both.imp fun entry payment => And.right
  | _ =>
    cases paid
    exact ⟨.refl _, nofun, nofun, fun _ => rfl⟩

section
variable (selected : selectManaPayment pool cost terms = .ok payment)
include selected

/-- A selected payment is one that the solver makes, perhaps without the hand's demand. -/
theorem select_once :
    ∃ demand left, payCostWithDemandAndChoicesOnce pool cost { terms with handDemand := demand } =
      .ok (payment, left) := by
  unfold selectManaPayment at selected
  split at selected
  · next payment' left isPaid =>
    cases selected
    exact ⟨terms.handDemand, left, isPaid⟩
  · split at selected
    · obtain ⟨⟨payment', left⟩, isPaid, rfl⟩ := map_eq_ok.mp selected
      exact ⟨none, left, isPaid⟩
    · cases selected
  · cases selected

theorem select_covers : ∃ left, Covers terms cost pool left payment := by
  obtain ⟨demand, left, isPaid⟩ := select_once selected
  obtain ⟨taken, permitted, paysFor, free⟩ := payOnce_covers isPaid
  refine ⟨left, taken, permitted, fun shards generic isCost => ?_, free⟩
  obtain ⟨parts, rest, legal, size, spent, life⟩ := paysFor shards generic isCost
  exact ⟨parts, rest, legal, size, spent, life⟩

theorem select_subperm : payment.spent.Subperm pool := by
  obtain ⟨left, covers⟩ := select_covers selected
  exact (sublist_append_left payment.spent left).subperm.trans covers.taken.subperm

end

end

/-- The units spent are units of the pool that the payment permits, and they and the life pay the
cost: each symbol legally, and the generic part with as many units as it asks for. -/
theorem selectManaPayment_sound (pool : ReferencePool) (cost : ManaCost) (terms : PaymentTerms)
    (payment : ManaPayment) (selected : selectManaPayment pool cost terms = .ok payment) :
    payment.spent.Subperm pool ∧ (∀ unit ∈ payment.spent, Permits terms.spell unit) ∧
      (∀ shards generic, cost = .cost shards generic →
        ∃ parts rest, PaysFor terms shards generic parts rest payment) ∧
      ((∀ shards generic, cost ≠ .cost shards generic) →
        payment.spent = [] ∧ payment.lifePayments = []) := by
  obtain ⟨left, -, permitted, paysFor, free⟩ := select_covers selected
  exact ⟨select_subperm selected, permitted, paysFor, fun not => by rw [free not]; exact ⟨rfl, rfl⟩⟩

def whiteUnit : ManaUnit := { color := .white, sourceId := 0, pipId := 1 }

theorem white_pays_white :
    [whiteUnit].Subperm [whiteUnit] ∧ (∀ unit ∈ [whiteUnit], Permits none unit) ∧
      (∀ shards generic, ManaCost.cost [.white] 0 = .cost shards generic → ∃ parts rest,
        PaysFor {} shards generic parts rest ⟨[.withMana 0 [whiteUnit]], []⟩) ∧
      ((∀ shards generic, ManaCost.cost [.white] 0 ≠ .cost shards generic) →
        [whiteUnit] = [] ∧ ([] : List LifePayment) = []) :=
  selectManaPayment_sound [whiteUnit] (.cost [.white] 0) {} ⟨[.withMana 0 [whiteUnit]], []⟩ rfl

/-- Where mana of any type may be spent, white mana pays `{C}`. -/
theorem any_type_pays_colorless :
    (selectManaPayment [whiteUnit] (.cost [.colorless] 0)
        { manaSpendPermission := some .anyTypeOrColor }).map ManaPayment.spent =
      .ok [whiteUnit] ∧ ¬Pays (ManaCostShard.colorless).toRequirement [whiteUnit] :=
  ⟨by decide, fun pays => by cases pays with | single is => cases is⟩

end Phase.Mana
