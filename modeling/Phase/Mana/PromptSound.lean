import Phase.Mana.PromptFollowed

/-! A payable cost can be paid with choices that the prompt offers: those that the solver makes
by itself. -/
namespace Phase.Mana
open List Fallible SymbolPayment

/-- How a symbol was paid, as a choice. -/
def SymbolPayment.choice (payment : SymbolPayment) : ShardChoice :=
  if payment.life = [] then .payMana else .payLife

section
variable {terms : PaymentTerms} {shards : List ManaCostShard} {generic budget : Nat}
variable {entry : ManaCostShard × Nat} {entries others : List (ManaCostShard × Nat)}
variable {s after : Solver} {payment : SymbolPayment} {payments : List SymbolPayment}

theorem payShard_strict (strict : ¬entry.1.isPhyrexianUnder terms.lifeColors)
    (paid : payShard terms shards generic entry s = .ok (payment, after)) :
    ∃ units, manaRoute terms shards entry.2
      (effectiveShardRequirement entry.1.toRequirement terms.lifeColors) s = (some units, after) := by
  unfold ManaCostShard.isPhyrexianUnder at strict
  unfold payShard at paid
  rw [if_neg strict] at paid
  unfold payStrict at paid
  split at paid
  · next units after' isPaid => cases paid; exact ⟨units, isPaid⟩
  · cases paid

theorem simulateStrict_paid {requirement : ShardRequirement} {idx : Nat} {units : List ManaUnit}
    (paid : manaRoute terms shards idx requirement s = (some units, after)) :
    simulateStrict terms shards idx requirement s = after := by
  cases requirement with
  | twoGenericHybrid color =>
    dsimp only [simulateStrict]
    dsimp only [manaRoute, payTwoGenericHybrid] at paid
    split at paid
    · next any => rw [if_pos any, paid]
    · next exact_ =>
      rw [if_neg exact_]
      unfold Route.orElse at paid
      rcases found : eligible terms color s with ⟨_ | paidUnits, between⟩ <;> rw [found] at paid
      · unfold twoGeneric at paid
        dsimp only at paid
        split at paid
        · cases paid
        · next first left spent =>
          split at paid
          · cases paid
          · next second rest spent' =>
            cases paid
            simp only [spending, spent, spent']
      · cases paid
        rfl
  | _ =>
    dsimp only [simulateStrict]
    rw [paid]

/-- The simulation goes along with the strict symbols as long as they are paid. -/
theorem simulateShards_strict
    (strict : ∀ entry ∈ entries, ¬entry.1.isPhyrexianUnder terms.lifeColors)
    (paid : payShards terms shards generic entries s = .ok (payments, after)) :
    simulateShards terms shards generic (entries ++ others) ⟨s, budget⟩ =
      simulateShards terms shards generic others ⟨after, budget⟩ := by
  induction entries generalizing s payments with
  | nil => cases paid; rfl
  | cons entry entries ih =>
    obtain ⟨here, later⟩ := forall_mem_cons.mp strict
    rw [payShards, bind_eq_ok] at paid
    obtain ⟨⟨payment, next⟩, isPaid, paid⟩ := paid
    obtain ⟨⟨rest, last⟩, isRest, paid⟩ := bind_eq_ok.mp paid
    cases paid
    obtain ⟨units, route⟩ := payShard_strict here isPaid
    unfold ManaCostShard.isPhyrexianUnder at here
    rw [cons_append, simulateShards]
    rw [if_neg here, simulateStrict_paid route]
    exact ih later isRest

/-- Strict symbols are paid whatever is chosen. -/
theorem payShards_choices (choices : Option (List ShardChoice))
    (strict : ∀ entry ∈ entries, ¬entry.1.isPhyrexianUnder terms.lifeColors) :
    payShards { terms with phyrexianChoices := choices } shards generic entries s =
      payShards terms shards generic entries s := by
  induction entries generalizing s with
  | nil => rfl
  | cons entry entries ih =>
    obtain ⟨here, later⟩ := forall_mem_cons.mp strict
    have same : payShard { terms with phyrexianChoices := choices } shards generic entry s =
        payShard terms shards generic entry s := by
      unfold ManaCostShard.isPhyrexianUnder at here
      unfold payShard
      rw [if_neg here, if_neg here]
      rfl
    rw [payShards, same]
    refine bind_congr fun paid => ?_
    obtain ⟨payment, next⟩ := paid
    dsimp only
    rw [ih later]

end

section
variable {terms : PaymentTerms} {shards : List ManaCostShard} {generic : Nat}
variable {entry : ManaCostShard × Nat} {entries : List (ManaCostShard × Nat)}
variable {s s' after : Solver} {payment : SymbolPayment} {payments : List SymbolPayment}

/-- Left to itself, the solver pays a Phyrexian symbol with mana when it can spare some. -/
theorem payShard_auto (undecided : terms.phyrexianChoices = none)
    (phyrexian : entry.1.isPhyrexianUnder terms.lifeColors)
    (paid : payShard terms shards generic entry s = .ok (payment, after)) :
    let route := manaRoute terms shards entry.2
      (effectiveShardRequirement entry.1.toRequirement terms.lifeColors)
    (∃ units, payment = .withMana entry.2 units ∧ route s = (some units, after) ∧
        generic < s.pool.length) ∨
      (payment = .withLife entry.2 ∧ (route s = (none, after) ∨ after = s)) := by
  unfold ManaCostShard.isPhyrexianUnder at phyrexian
  unfold payShard at paid
  rw [if_pos phyrexian] at paid
  unfold payPhyrexian at paid
  rw [undecided] at paid
  dsimp only [Option.bind_none] at paid
  split at paid
  · next spare =>
    split at paid
    · next units after' isPaid => cases paid; exact .inl ⟨units, rfl, isPaid, spare⟩
    · next after' failed => cases paid; exact .inr ⟨rfl, .inl failed⟩
  · cases paid
    exact .inr ⟨rfl, .inr rfl⟩

theorem payStrict_of {route : Route} {idx : Nat} {units : List ManaUnit}
    (paid : (route s).1 = some units) :
    payStrict idx route s = .ok (.withMana idx units, (route s).2) := by
  unfold payStrict
  split
  · next found after isPaid => rw [isPaid] at paid ⊢; cases paid; rfl
  · next after failed => rw [failed] at paid; cases paid

section
variable {choices : List ShardChoice} (undecided : terms.phyrexianChoices = none)
  (noDemand : terms.handDemand = none)
include undecided noDemand

/-- The choice that was made for a symbol is followed with the same effect. -/
theorem payShard_mirrored (phyrexian : entry.1.isPhyrexianUnder terms.lifeColors)
    (paid : payShard terms shards generic entry s = .ok (payment, after))
    (mirrors : Mirrors terms.spell s s')
    (isChoice : choices[s'.choiceCursor]? = some payment.choice) :
    ∃ payment' after', payShard { terms with phyrexianChoices := some choices } shards generic entry
        s' = .ok (payment', after') ∧ Mirrors terms.spell after after' ∧
      after'.choiceCursor = s'.choiceCursor + 1 := by
  have mirrored : Mirrored terms.spell (manaRoute terms shards entry.2
      (effectiveShardRequirement entry.1.toRequirement terms.lifeColors)) :=
    manaRoute_mirrored noDemand phyrexian fun a b => hybridPhyrexian_colored
  obtain ⟨keeps, fails⟩ := mirrored s { s' with choiceCursor := s'.choiceCursor + 1 }
    ⟨mirrors.pool, mirrors.entries⟩
  have here := phyrexian
  unfold ManaCostShard.isPhyrexianUnder at here
  unfold payShard
  rw [if_pos here]
  unfold payPhyrexian
  dsimp only [Option.bind_some]
  rw [isChoice]
  rcases payShard_auto undecided phyrexian paid with ⟨units, rfl, route, -⟩ | ⟨rfl, route⟩
  · obtain ⟨isPaid, cursor, between⟩ := keeps units (by rw [route])
    rw [route] at between
    refine ⟨.withMana entry.2 units, _, ?_, between, cursor⟩
    exact payStrict_of isPaid
  · refine ⟨_, _, rfl, ?_, rfl⟩
    rcases route with failed | rfl
    · have between := fails (by rw [failed])
      rwa [failed] at between
    · exact ⟨mirrors.pool, mirrors.entries⟩

theorem payShards_mirrored
    (phyrexian : ∀ entry ∈ entries, entry.1.isPhyrexianUnder terms.lifeColors)
    (paid : payShards terms shards generic entries s = .ok (payments, after))
    (mirrors : Mirrors terms.spell s s')
    (aligned : choices.drop s'.choiceCursor = payments.map choice) :
    ∃ payments' after', payShards { terms with phyrexianChoices := some choices } shards generic
        entries s' = .ok (payments', after') ∧ Mirrors terms.spell after after' := by
  induction entries generalizing s s' payments with
  | nil => cases paid; exact ⟨[], s', rfl, mirrors⟩
  | cons entry entries ih =>
    obtain ⟨here, later⟩ := forall_mem_cons.mp phyrexian
    rw [payShards, bind_eq_ok] at paid
    obtain ⟨⟨payment, next⟩, isPaid, paid⟩ := paid
    obtain ⟨⟨rest, last⟩, isRest, paid⟩ := bind_eq_ok.mp paid
    cases paid
    have isChoice : choices[s'.choiceCursor]? = some payment.choice := by
      rw [← head?_drop, aligned]
      rfl
    obtain ⟨payment', next', isPaid', between, cursor⟩ :=
      payShard_mirrored undecided noDemand here isPaid mirrors isChoice
    have aligned' : choices.drop next'.choiceCursor = rest.map choice := by
      rw [cursor, ← drop_drop, aligned]
      rfl
    obtain ⟨rest', last', isRest', mirrors'⟩ := ih later isRest between aligned'
    refine ⟨payment' :: rest', last', ?_, mirrors'⟩
    rw [payShards, isPaid', ok_bind]
    dsimp only
    rw [isRest']
    rfl

end

theorem simulatePhyrexian_step {start : ReferencePool} {sim : Simulation} {lives : Nat}
    (undecided : terms.phyrexianChoices = none)
    (phyrexian : entry.1.isPhyrexianUnder terms.lifeColors)
    (paid : payShard terms shards generic entry s = .ok (payment, after))
    (is : Later terms.spell start s.pool)
    (unspent : 0 < sim.lifeBudget → sim.solver.pool = start)
    (enough : lives + (if payment.choice = .payLife then 1 else 0) ≤ sim.lifeBudget) :
    let result := simulatePhyrexian terms shards generic entry.2
      (effectiveShardRequirement entry.1.toRequirement terms.lifeColors) sim
    result.1.options.allows payment.choice ∧
      (0 < result.2.lifeBudget → result.2.solver.pool = start) ∧ lives ≤ result.2.lifeBudget := by
  dsimp only [simulatePhyrexian]
  by_cases some_ : 0 < sim.lifeBudget
  · rw [decide_eq_true some_]
    cases isMana : simAvailable terms (effectiveShardRequirement entry.1.toRequirement
        terms.lifeColors) sim.solver && decide (generic < sim.solver.pool.length) with
    | true => exact ⟨rfl, unspent, (Nat.le_add_right _ _).trans enough⟩
    | false =>
      rcases payShard_auto undecided phyrexian paid with ⟨units, rfl, route, spare⟩ | ⟨rfl, -⟩
      · -- Mana that the solver finds now was there at the start.
        have found : simAvailable terms (effectiveShardRequirement entry.1.toRequirement
            terms.lifeColors) sim.solver :=
          manaRoute_available phyrexian (by rw [route]) (unspent some_ ▸ is)
        have more := is.length_le
        rw [found, Bool.true_and, decide_eq_false_iff_not, unspent some_] at isMana
        omega
      · exact ⟨rfl, fun _ => unspent some_, Nat.le_sub_of_add_le enough⟩
  · rw [decide_eq_false some_]
    have isMana : payment.choice = .payMana := by
      cases isChoice : payment.choice with
      | payMana => rfl
      | payLife => rw [if_pos isChoice] at enough; omega
    rw [isMana] at enough
    rw [isMana]
    cases simAvailable terms (effectiveShardRequirement entry.1.toRequirement terms.lifeColors)
        sim.solver && decide (generic < sim.solver.pool.length) with
    | true => exact ⟨rfl, fun more => absurd more some_, enough⟩
    | false => exact ⟨rfl, fun more => absurd more some_, enough⟩

/-- As long as life may be paid, the prompt uses up no mana for the Phyrexian symbols, so it
offers mana wherever the solver pays mana; and the budget is as long as the solver's. -/
theorem simulateShards_allows {start : ReferencePool} {sim : Simulation}
    (undecided : terms.phyrexianChoices = none)
    (phyrexian : ∀ entry ∈ entries, entry.1.isPhyrexianUnder terms.lifeColors)
    (paid : payShards terms shards generic entries s = .ok (payments, after))
    (is : Later terms.spell start s.pool)
    (unspent : 0 < sim.lifeBudget → sim.solver.pool = start)
    (enough : (payments.map choice).count .payLife ≤ sim.lifeBudget) :
    Forall₂ (fun payment shard => shard.options.allows payment.choice) payments
      (simulateShards terms shards generic entries sim) := by
  induction entries generalizing s sim payments with
  | nil => cases paid; exact .nil
  | cons entry entries ih =>
    obtain ⟨here, later⟩ := forall_mem_cons.mp phyrexian
    rw [payShards, bind_eq_ok] at paid
    obtain ⟨⟨payment, next⟩, isPaid, paid⟩ := paid
    obtain ⟨⟨rest, last⟩, isRest, paid⟩ := bind_eq_ok.mp paid
    cases paid
    have spec := payShard_spec isPaid
    have next_ : Later terms.spell s.pool next.pool := ⟨payment.units, spec.permitted, spec.taken⟩
    rw [map_cons, count_cons] at enough
    have isPhyrexian := here
    unfold ManaCostShard.isPhyrexianUnder at isPhyrexian
    rw [simulateShards]
    rw [if_pos isPhyrexian]
    have step := simulatePhyrexian_step undecided here isPaid is unspent (by simpa using enough)
    exact .cons step.1 (ih later isRest (is.trans next_) step.2.1 step.2.2)

end

section
variable {terms : PaymentTerms} {pool : ReferencePool} {cost : ManaCost} {error : PaymentError}

theorem payShards_error {shards : List ManaCostShard} {generic : Nat}
    {entries : List (ManaCostShard × Nat)} {s : Solver}
    (failed : payShards terms shards generic entries s = .error error) :
    error = .insufficientMana := by
  have strict : ∀ {idx route} {s : Solver}, payStrict idx route s = .error error →
      error = .insufficientMana := by
    intro idx route s failed
    unfold payStrict at failed
    split at failed
    · cases failed
    · cases failed; rfl
  have one : ∀ {entry s}, payShard terms shards generic entry s = .error error →
      error = .insufficientMana := by
    intro entry s failed
    unfold payShard at failed
    dsimp only at failed
    split at failed
    · unfold payPhyrexian at failed
      split at failed
      · split at failed
        · cases failed
        · exact strict failed
      · split at failed
        · split at failed
          · cases failed
          · cases failed
        · cases failed
    · exact strict failed
  induction entries generalizing s with
  | nil => cases failed
  | cons entry entries ih =>
    rw [payShards, bind_eq_error] at failed
    rcases failed with failed | ⟨paid, -, failed⟩
    · exact one failed
    · rcases bind_eq_error.mp failed with failed | ⟨rest, -, failed⟩
      · exact ih failed
      · cases failed

theorem spendTimes_error {spend : Spend} {count : Nat}
    (failed : spendTimes spend count pool = .error error) : error = .insufficientMana := by
  induction count generalizing pool with
  | zero => cases failed
  | succ count ih =>
    unfold spendTimes at failed
    split at failed
    · cases failed; rfl
    · next unit left spent =>
      rcases bind_eq_error.mp failed with failed | ⟨rest, -, failed⟩
      · exact ih failed
      · cases failed

/-- The solver has one way to fail. -/
theorem payOnce_error (failed : payCostWithDemandAndChoicesOnce pool cost terms = .error error) :
    error = .insufficientMana := by
  cases cost with
  | cost shards generic =>
    rcases bind_eq_error.mp failed with failed | ⟨symbols, -, failed⟩
    · exact payShards_error failed
    · rcases bind_eq_error.mp failed with failed | ⟨units, -, failed⟩
      · rcases bind_eq_error.mp failed with failed | ⟨forX, -, failed⟩
        · exact spendTimes_error failed
        · rcases bind_eq_error.mp failed with failed | ⟨rest, -, failed⟩
          · exact spendTimes_error failed
          · cases failed
      · cases failed
  | _ => cases failed

theorem once_of_select {payment : ManaPayment} (noDemand : terms.handDemand = none)
    (selected : selectManaPayment pool cost terms = .ok payment) :
    ∃ left, payCostWithDemandAndChoicesOnce pool cost terms = .ok (payment, left) := by
  unfold selectManaPayment at selected
  split at selected
  · next left once => cases selected; exact ⟨left, once⟩
  · rw [noDemand] at selected
    cases selected
  · cases selected

/-- What the solver pays without the hand's demand, it pays with it, the one way or the other. -/
theorem select_of_once {paid : ManaPayment × ReferencePool} (demand : Option ColorDemand)
    (once : payCostWithDemandAndChoicesOnce pool cost { terms with handDemand := none } =
      .ok paid) : ∃ payment, selectManaPayment pool cost { terms with handDemand := demand } =
        .ok payment := by
  unfold selectManaPayment
  cases first : payCostWithDemandAndChoicesOnce pool cost { terms with handDemand := demand } with
  | ok result => exact ⟨result.1, rfl⟩
  | error error =>
    obtain rfl := payOnce_error first
    cases demand with
    | none => cases first.symm.trans once
    | some demand =>
      refine ⟨paid.1, ?_⟩
      rw [once]
      rfl

end

section
variable {lifeColors : LifePaymentColors} {shards : List ManaCostShard}

theorem strict_of_filter :
    ∀ entry ∈ shards.zipIdx.filter fun entry => !entry.1.isPhyrexianUnder lifeColors,
      ¬entry.1.isPhyrexianUnder lifeColors := fun entry isEntry => by
  simpa using (mem_filter.mp isEntry).2

theorem phyrexian_of_filter :
    ∀ entry ∈ shards.zipIdx.filter fun entry => entry.1.isPhyrexianUnder lifeColors,
      entry.1.isPhyrexianUnder lifeColors := fun _ isEntry => (mem_filter.mp isEntry).2

end

theorem lives_counted {terms : PaymentTerms} {payments : List SymbolPayment}
    (legal : ∀ payment ∈ payments, ∃ shard, payment.Legal terms shard) :
    (payments.flatMap (·.life)).length = (payments.map choice).count .payLife := by
  induction payments with
  | nil => rfl
  | cons payment payments ih =>
    obtain ⟨⟨shard, here⟩, later⟩ := forall_mem_cons.mp legal
    rw [flatMap_cons, length_append, ih later, map_cons]
    rcases here with ⟨free, -⟩ | ⟨-, -, life⟩
    · simp [choice, free]
    · simp [choice, life, Nat.add_comm]

/-- Following the choices that the solver made pays the same symbols. -/
theorem payOnce_followed {terms : PaymentTerms} {pool : ReferencePool} {shards : List ManaCostShard}
    {generic : Nat} {first rest : List SymbolPayment} {between s : Solver}
    {paid : List ManaUnit × ReferencePool}
    (undecided : terms.phyrexianChoices = none) (noDemand : terms.handDemand = none)
    (isFirst : payShards terms shards generic
      (shards.zipIdx.filter fun entry => !entry.1.isPhyrexianUnder terms.lifeColors) { pool } =
        .ok (first, between))
    (isRest : payShards terms shards generic
      (shards.zipIdx.filter fun entry => entry.1.isPhyrexianUnder terms.lifeColors) between =
        .ok (rest, s))
    (isGeneric : payGeneric terms generic s.pool = .ok paid) :
    ∃ result, payCostWithDemandAndChoicesOnce pool (.cost shards generic)
      { terms with phyrexianChoices := some (rest.map choice) } = .ok result := by
  obtain ⟨-, cursor⟩ := payShards_strict strict_of_filter isFirst
  have aligned : (rest.map choice).drop between.choiceCursor =
      rest.map choice := by
    rw [cursor]
    rfl
  obtain ⟨payments, after, followed, mirrors⟩ := payShards_mirrored undecided noDemand
    phyrexian_of_filter isRest ⟨rfl, fun _ => .inr rfl⟩ aligned
  have whole := payShards_concat
    ((payShards_choices (some (rest.map choice)) strict_of_filter).trans isFirst) followed
  have same : payGeneric { terms with phyrexianChoices := some (rest.map choice) }
      generic after.pool = .ok paid := by
    rw [mirrors.pool]
    exact isGeneric
  refine ⟨(⟨first ++ payments, paid.1⟩, paid.2), ?_⟩
  unfold payCostWithDemandAndChoicesOnce phyrexianDeferredOrder
  dsimp only
  rw [whole, ok_bind]
  rw [same]
  rfl

/-- The choices the solver makes by itself are choices that the prompt offers, they stay within
the life budget, and following them pays the cost. -/
theorem prompt_never_strands (pool : ReferencePool) (cost : ManaCost)
    (spell : Option PaymentContext) (permissions : CostPermissionContext)
    (payable : canPayForSpell pool cost spell permissions) :
    ∃ choices : List ShardChoice,
      Forall₂ (fun choice shard => shard.options.allows choice) choices
        (computePhyrexianShards pool cost spell permissions) ∧
      choices.count .payLife ≤ permissions.maxLife ∧
      ∀ demand, ∃ payment, selectManaPayment pool cost { permissions.terms spell with
        phyrexianChoices := some choices, handDemand := demand } = .ok payment := by
  unfold canPayForSpell at payable
  split at payable
  · next payment selected =>
    have few := of_decide_eq_true payable
    obtain ⟨left, once⟩ := once_of_select rfl selected
    cases cost with
    | cost shards generic =>
      unfold payCostWithDemandAndChoicesOnce at once
      dsimp only at once
      obtain ⟨⟨symbols, s⟩, isSymbols, once⟩ := bind_eq_ok.mp once
      obtain ⟨⟨units, last⟩, isGeneric, once⟩ := bind_eq_ok.mp once
      cases once
      obtain ⟨first, between, rest, isFirst, isRest, rfl⟩ := payShards_append isSymbols
      obtain ⟨free, -⟩ := payShards_strict strict_of_filter isFirst
      have lives : (rest.map choice).count .payLife ≤ permissions.maxLife := by
        have legal : ∀ part ∈ rest, ∃ shard, part.Legal (permissions.terms spell) shard := by
          intro part isPart
          obtain ⟨entry, -, -, legal⟩ := payShards_entry isRest part isPart
          exact ⟨entry.1, legal⟩
        rw [← lives_counted legal]
        refine le_trans (le_of_eq ?_) few
        rw [ManaPayment.lifePayments, flatMap_append, flatMap_eq_nil_iff.mpr free, nil_append]
      refine ⟨rest.map choice, ?_, lives, fun demand => ?_⟩
      · rw [forall₂_map_left_iff]
        have simulated : computePhyrexianShards pool (.cost shards generic) spell permissions =
            simulateShards (permissions.terms spell) shards generic _
              ⟨between, permissions.maxLife⟩ := simulateShards_strict strict_of_filter isFirst
        rw [simulated]
        exact simulateShards_allows rfl phyrexian_of_filter isRest (Later.refl _)
          (fun _ => rfl) lives
      · obtain ⟨result, followed⟩ := payOnce_followed rfl rfl isFirst isRest isGeneric
        exact @select_of_once { permissions.terms spell with
          phyrexianChoices := some (rest.map choice) } _ _ result demand followed
    | _ => exact ⟨[], .nil, Nat.zero_le _, fun demand => ⟨_, rfl⟩⟩
  · cases payable

/-- `{W/P}{U/P}` with one white unit and life for one symbol. -/
theorem white_and_blue_prompt : ∃ choices : List ShardChoice,
    Forall₂ (fun choice shard => shard.options.allows choice) choices
      (computePhyrexianShards [whiteUnit] (.cost [.phyrexianWhite, .phyrexianBlue] 0) none
        { maxLife := 1 }) ∧
      choices.count .payLife ≤ 1 ∧
      ∀ demand, ∃ payment, selectManaPayment [whiteUnit] (.cost [.phyrexianWhite, .phyrexianBlue] 0)
        { phyrexianChoices := some choices, handDemand := demand } = .ok payment :=
  prompt_never_strands [whiteUnit] (.cost [.phyrexianWhite, .phyrexianBlue] 0) none
    { maxLife := 1 } (by decide)

end Phase.Mana
