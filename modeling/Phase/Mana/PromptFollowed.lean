import Phase.Mana.PhyrexianPrompt

/-! The solver that decides for itself and the solver that follows its decisions. They remember
different colors for hybrid symbols only where neither can pay such a symbol any more. -/
namespace Phase.Mana
open List

section
variable {spell : Option PaymentContext} {pool later : ReferencePool}
variable {preferred : List PreferredHybrid} {key : ManaType × ManaType} {a b : ManaType}

def entriesFor (preferred : List PreferredHybrid) (key : ManaType × ManaType) :
    List PreferredHybrid := preferred.filter (·.isFor key)

theorem PreferredHybrid.isFor_iff {entry : PreferredHybrid} :
    entry.isFor key ↔ key = (entry.first, entry.second) := by
  rw [PreferredHybrid.isFor, Bool.and_eq_true, decide_eq_true_eq, decide_eq_true_eq, Prod.ext_iff]
  exact and_congr eq_comm eq_comm

/-- The first entry for its colors is replaced, or the entry is added. -/
theorem entriesFor_update (preferred : List PreferredHybrid) {chosen : PreferredHybrid}
    (isFor : chosen.isFor key) :
    let updated := match preferred.findIdx? (·.isFor key) with
      | some at_ => preferred.set at_ chosen
      | none => preferred ++ [chosen]
    entriesFor updated key = chosen :: (entriesFor preferred key).tail ∧
      ∀ other ≠ key, entriesFor updated other = entriesFor preferred other := by
  have elsewhere : ∀ other ≠ key, ∀ entry : PreferredHybrid, entry.isFor key →
      entry.isFor other = false := by
    intro other differs entry isFor
    rw [← Bool.not_eq_true]
    intro isOther
    exact differs ((PreferredHybrid.isFor_iff.mp isOther).trans
      (PreferredHybrid.isFor_iff.mp isFor).symm)
  induction preferred with
  | nil =>
    refine ⟨by simp [entriesFor, isFor], fun other differs => ?_⟩
    simp [entriesFor, elsewhere other differs chosen isFor]
  | cons entry rest ih =>
    rw [findIdx?_cons]
    by_cases here : entry.isFor key
    · rw [if_pos here]
      refine ⟨by simp [entriesFor, isFor, here], fun other differs => ?_⟩
      simp [entriesFor, elsewhere other differs chosen isFor, elsewhere other differs entry here]
    · rw [if_neg here]
      obtain ⟨same, others⟩ := ih
      cases found : rest.findIdx? (·.isFor key) with
      | none =>
        rw [found] at same others
        refine ⟨?_, fun other differs => ?_⟩
        · simpa [entriesFor, here] using same
        · have rest_ := others other differs
          simp only [entriesFor] at rest_
          simp [entriesFor, filter_cons, rest_]
      | some at_ =>
        rw [found] at same others
        refine ⟨?_, fun other differs => ?_⟩
        · simpa [entriesFor, here] using same
        · have rest_ := others other differs
          simp only [entriesFor] at rest_
          simp [entriesFor, filter_cons, rest_]

/-- What the selection reads, and what it leaves. -/
theorem select_for (pool : ReferencePool) (a b : ManaType) (demand : Option ColorDemand)
    (remaining : Nat) (preferred : List PreferredHybrid) :
    let key := canonicalHybridKey a b
    let selected := selectHybridPaymentColor pool a b demand remaining preferred
    let entries := entriesFor preferred key
    match entries.find? fun entry => 0 < pool.countColor entry.color with
    | some entry => selected = (entry.color, preferred)
    | none => ∃ half, selected.1 = autoPayHybrid pool a b demand remaining ∧
        entriesFor selected.2 key =
          ⟨key.1, key.2, autoPayHybrid pool a b demand remaining, half⟩ :: entries.tail ∧
        ∀ other ≠ key, entriesFor selected.2 other = entriesFor preferred other := by
  dsimp only
  have found : (entriesFor preferred (canonicalHybridKey a b)).find?
      (fun entry => 0 < pool.countColor entry.color) = preferred.find? fun entry =>
          entry.isFor (canonicalHybridKey a b) && 0 < pool.countColor entry.color := by
    rw [entriesFor, find?_filter]
    simp only [Bool.decide_and, Bool.decide_eq_true]
  rw [found, selectHybridPaymentColor]
  split
  · next entry isEntry => simp only [isEntry]
  · next none_ =>
    simp only [none_]
    have half := canonicalHybridKey_half.mpr (autoPayHybrid_half pool a b demand remaining)
    refine ⟨half, ?_⟩
    have isFor : PreferredHybrid.isFor ⟨(canonicalHybridKey a b).1, (canonicalHybridKey a b).2,
        autoPayHybrid pool a b demand remaining, half⟩ (canonicalHybridKey a b) :=
      PreferredHybrid.isFor_iff.mpr rfl
    obtain ⟨same, others⟩ := entriesFor_update preferred isFor
    split
    · next at_ isAt =>
      rw [isAt] at same others
      exact ⟨rfl, same, others⟩
    · next isNone =>
      rw [isNone] at same others
      exact ⟨rfl, same, others⟩

variable {remaining : Nat} {demand : Option ColorDemand}

theorem select_elsewhere (differs : key ≠ canonicalHybridKey a b) :
    entriesFor (selectHybridPaymentColor pool a b demand remaining preferred).2 key =
      entriesFor preferred key := by
  have spec := select_for pool a b demand remaining preferred
  dsimp only at spec
  split at spec
  · rw [spec]
  · obtain ⟨-, -, -, others⟩ := spec
    exact others key differs

/-- Selections that remember the same for two colors select the same. -/
theorem select_agree {other : List PreferredHybrid} (pool : ReferencePool)
    (demand : Option ColorDemand) (remaining : Nat) (same : entriesFor other (canonicalHybridKey a b) =
      entriesFor preferred (canonicalHybridKey a b)) :
    (selectHybridPaymentColor pool a b demand remaining other).1 =
        (selectHybridPaymentColor pool a b demand remaining preferred).1 ∧
      entriesFor (selectHybridPaymentColor pool a b demand remaining other).2
          (canonicalHybridKey a b) =
        entriesFor (selectHybridPaymentColor pool a b demand remaining preferred).2
          (canonicalHybridKey a b) := by
  have spec := select_for pool a b demand remaining preferred
  have spec' := select_for pool a b demand remaining other
  dsimp only at spec spec'
  rw [same] at spec'
  split at spec
  · next entry isEntry =>
    rw [isEntry] at spec'
    rw [spec, spec']
    exact ⟨rfl, same⟩
  · next none_ =>
    rw [none_] at spec'
    obtain ⟨_, isColor, entries, -⟩ := spec
    obtain ⟨_, isColor', entries', -⟩ := spec'
    exact ⟨isColor'.trans isColor.symm, entries'.trans entries.symm⟩

/-- No unit of either color is left, or the color that is remembered has only units that may not
be spent. -/
def Dead (spell : Option PaymentContext) (pool : ReferencePool) (entries : List PreferredHybrid)
    (key : ManaType × ManaType) : Prop :=
  (∀ unit ∈ pool, unit.color ≠ key.1 ∧ unit.color ≠ key.2) ∨
    ∃ entry, (entries.find? fun entry => 0 < pool.countColor entry.color) = some entry ∧
      ∀ unit ∈ pool, unit.color = entry.color → ¬Permits spell unit

theorem countColor_pos {color : ManaType} :
    0 < pool.countColor color ↔ ∃ unit ∈ pool, unit.color = color := by
  simp [ReferencePool.countColor, countP_pos_iff]

theorem Dead.mono {entries : List PreferredHybrid} (dead : Dead spell pool entries key)
    (is : Later spell pool later) : Dead spell later entries key := by
  rcases dead with gone | ⟨entry, isEntry, banned⟩
  · exact .inl fun unit held => gone unit (is.mem held)
  · refine .inr ⟨entry, ?_, fun unit held => banned unit (is.mem held)⟩
    obtain ⟨some_, before, after, rfl, none_⟩ := find?_eq_some_iff_append.mp isEntry
    obtain ⟨unit, held, isColor⟩ := countColor_pos.mp (of_decide_eq_true some_)
    refine find?_eq_some_iff_append.mpr ⟨decide_eq_true (countColor_pos.mpr
      ⟨unit, is.stays held (banned unit held isColor), isColor⟩), before, after, rfl, ?_⟩
    intro other isOther
    have empty := none_ other isOther
    simp only [Bool.not_eq_true', decide_eq_false_iff_not, Nat.not_lt, Nat.le_zero] at empty ⊢
    exact Nat.le_zero.mp (empty ▸ is.countP_le _)

/-- A selection for dead colors fails, and leaves them dead. -/
theorem Dead.select {demand : Option ColorDemand} {remaining : Nat}
    (dead : Dead spell pool (entriesFor preferred (canonicalHybridKey a b))
      (canonicalHybridKey a b)) :
    let selected := selectHybridPaymentColor pool a b demand remaining preferred
    (∀ unit ∈ pool, ¬EligibleAs spell selected.1 unit) ∧
      Dead spell pool (entriesFor selected.2 (canonicalHybridKey a b))
        (canonicalHybridKey a b) := by
  rcases dead with gone | ⟨entry, isEntry, banned⟩
  · refine ⟨fun unit held eligible => ?_, .inl gone⟩
    have half := canonicalHybridKey_half.mpr
      (selectHybridPaymentColor_half pool a b demand remaining preferred)
    obtain ⟨notFirst, notSecond⟩ := gone unit held
    rw [eligible.1] at notFirst notSecond
    exact half.elim notFirst notSecond
  · have spec := select_for pool a b demand remaining preferred
    dsimp only at spec
    rw [isEntry] at spec
    rw [spec]
    exact ⟨fun unit held eligible => banned unit held eligible.1 eligible.2.2,
      .inr ⟨entry, isEntry, banned⟩⟩

/-- A selection that fails leaves its colors dead. -/
theorem dead_of_failed (colored : a ≠ .colorless ∧ b ≠ .colorless) (failed : ∀ unit ∈ pool,
      ¬EligibleAs spell (selectHybridPaymentColor pool a b demand remaining preferred).1 unit) :
    Dead spell pool (entriesFor
      (selectHybridPaymentColor pool a b demand remaining preferred).2 (canonicalHybridKey a b))
        (canonicalHybridKey a b) := by
  have half := selectHybridPaymentColor_half pool a b demand remaining preferred
  have banned : ∀ unit ∈ pool, unit.color =
      (selectHybridPaymentColor pool a b demand remaining preferred).1 → ¬Permits spell unit := by
    intro unit held isColor permitted
    refine failed unit held ⟨isColor, fun both => ?_, permitted⟩
    exact half.elim (fun isA => colored.1 (isA ▸ both.1)) fun isB => colored.2 (isB ▸ both.1)
  have spec := select_for pool a b demand remaining preferred
  dsimp only at spec
  split at spec
  · next entry isEntry =>
    rw [spec] at banned ⊢
    exact .inr ⟨entry, isEntry, banned⟩
  · obtain ⟨isHalf, isChosen, entries, -⟩ := spec
    by_cases some_ : 0 < pool.countColor (autoPayHybrid pool a b demand remaining)
    · rw [entries]
      rw [isChosen] at banned
      refine .inr ⟨⟨_, _, autoPayHybrid pool a b demand remaining, isHalf⟩, ?_, banned⟩
      rw [find?_cons, decide_eq_true some_]
    · -- Both colors are gone, or the other one would have been chosen.
      have none_ : pool.countColor a = 0 ∧ pool.countColor b = 0 := by
        by_cases noA : pool.countColor a = 0
        · have isB : autoPayHybrid pool a b demand remaining = b := by simp [autoPayHybrid, noA]
          rw [isB] at some_
          exact ⟨noA, by omega⟩
        · by_cases noB : pool.countColor b = 0
          · have isA : autoPayHybrid pool a b demand remaining = a := by
              simp [autoPayHybrid, noA, noB]
            rw [isA] at some_
            omega
          · rcases autoPayHybrid_half pool a b demand remaining with isA | isB
            · rw [isA] at some_
              omega
            · rw [isB] at some_
              omega
      refine .inl fun unit held => ?_
      have neither : ∀ color, color = a ∨ color = b → unit.color ≠ color := by
        rintro color isHalf rfl
        have some_ := countColor_pos.mpr ⟨unit, held, rfl⟩
        rcases isHalf with isA | isB
        · rw [isA] at some_
          omega
        · rw [isB] at some_
          omega
      exact ⟨neither _ (canonicalHybridKey_half.mp (.inl rfl)),
        neither _ (canonicalHybridKey_half.mp (.inr rfl))⟩

end

/-- The route reads the pool only, and changes nothing else. -/
def Oblivious (route : Route) : Prop :=
  ∀ s s', s'.pool = s.pool → route s' = ((route s).1, { s' with pool := (route s).2.pool })

section
variable {terms : PaymentTerms}

theorem spending_oblivious (spend : Spend) : Oblivious (spending spend) := by
  intro s s' same
  unfold spending
  rw [same]
  split
  · rfl
  · rw [← same]

theorem Oblivious.orElse {first next : Route} (oblivious : Oblivious first)
    (oblivious' : Oblivious next) : Oblivious (first.orElse next) := by
  intro s s' same
  unfold Route.orElse
  rw [oblivious s s' same]
  cases result : first s with
  | mk paid after =>
    cases paid with
    | some units => rfl
    | none => exact oblivious' after _ rfl

theorem twoGeneric_oblivious : Oblivious (twoGeneric terms) := by
  intro s s' same
  unfold twoGeneric
  dsimp only
  rw [same]
  split
  · rw [← same]
  · split
    · rw [← same]
    · rfl

theorem payColor_oblivious (color : ManaType) : Oblivious (payColor terms color) := by
  unfold payColor
  split
  · exact spending_oblivious _
  · exact spending_oblivious _

theorem payTwoGenericHybrid_oblivious (color : ManaType) :
    Oblivious (payTwoGenericHybrid terms color) := by
  unfold payTwoGenericHybrid
  split
  · exact spending_oblivious _
  · exact (spending_oblivious _).orElse twoGeneric_oblivious

end

/-- The same pool, and the same colors remembered except where they are dead. -/
structure Mirrors (spell : Option PaymentContext) (s s' : Solver) : Prop where
  pool : s'.pool = s.pool
  entries : ∀ key, Dead spell s.pool (entriesFor s.preferredHybridColors key) key ∨
    entriesFor s'.preferredHybridColors key = entriesFor s.preferredHybridColors key

section
variable {terms : PaymentTerms} {shards : List ManaCostShard} {idx : Nat} {s s' after : Solver}
variable {units : List ManaUnit}

theorem Mirrors.moved (mirrors : Mirrors terms.spell s s') {pool : ReferencePool}
    (is : Later terms.spell s.pool pool) :
    Mirrors terms.spell { s with pool } { s' with pool } :=
  ⟨rfl, fun key => (mirrors.entries key).imp (·.mono is) id⟩

/-- Where the route pays, so does the solver that remembers other colors; where it fails, that
solver has nothing to do. -/
def Mirrored (spell : Option PaymentContext) (route : Route) : Prop :=
  ∀ s s', Mirrors spell s s' → (∀ units, (route s).1 = some units → (route s').1 = some units ∧
      (route s').2.choiceCursor = s'.choiceCursor ∧ Mirrors spell (route s).2 (route s').2) ∧
    ((route s).1 = none → Mirrors spell (route s).2 s')

theorem manaRoute_permits (shards : List ManaCostShard) (idx : Nat)
    (requirement : ShardRequirement) (s : Solver) :
    Routed (fun units => ∀ unit ∈ units, Permits terms.spell unit) s
      (manaRoute terms shards idx requirement s) := by
  obtain ⟨cursor, kept, taken⟩ := @manaRoute_routed terms s shards idx requirement
  exact ⟨cursor, kept, fun units paid => ⟨(taken units paid).1.2, (taken units paid).2⟩⟩

theorem Routed.later {result : Option (List ManaUnit) × Solver}
    (routed : Routed (fun units => ∀ unit ∈ units, Permits terms.spell unit) s result) :
    Later terms.spell s.pool result.2.pool := by
  cases isPaid : result.1 with
  | none => exact routed.kept isPaid ▸ Later.refl _
  | some units => exact ⟨units, (routed.taken units isPaid).1, (routed.taken units isPaid).2⟩

theorem Oblivious.mirrored {route : Route} (oblivious : Oblivious route)
    (routed : ∀ s, Routed (fun units => ∀ unit ∈ units, Permits terms.spell unit) s (route s)) :
    Mirrored terms.spell route := by
  intro s s' mirrors
  have itself : (route s).2 = { s with pool := (route s).2.pool } :=
    congrArg Prod.snd (oblivious s s rfl)
  have other := oblivious s s' mirrors.pool
  have moved := mirrors.moved (routed s).later
  rw [← itself] at moved
  refine ⟨fun units paid => ?_, fun failed => ?_⟩
  · rw [other]
    exact ⟨paid, rfl, moved⟩
  · have kept : (route s).2.pool = s'.pool := ((routed s).kept failed).trans mirrors.pool.symm
    rwa [kept] at moved

theorem eligible_permits {color : ManaType} (s : Solver) :
    Routed (fun units => ∀ unit ∈ units, Permits terms.spell unit) s (eligible terms color s) :=
  eligible_routed fun _ _ permitted _ isOther => mem_singleton.mp isOther ▸ permitted

theorem eligible_mirrored (color : ManaType) : Mirrored terms.spell (eligible terms color) :=
  (spending_oblivious _).mirrored eligible_permits

theorem eligible_fails {color : ManaType} (s : Solver) : (eligible terms color s).1 = none ↔
    ∀ unit ∈ s.pool, ¬EligibleAs terms.spell color unit := by
  unfold eligible spending
  split
  · next unit left spent =>
    obtain ⟨isEligible, perm⟩ := spendEligible_debits _ _ _ spent
    exact ⟨nofun, fun nobody =>
      absurd isEligible (nobody unit (perm.mem_iff.mp mem_cons_self))⟩
  · next none_ => exact ⟨fun _ => spendEligible_finds _ none_, fun _ => rfl⟩

/-- The hybrid route selects the same color, or selects in vain. -/
theorem payHybrid_mirrored {a b : ManaType} (noDemand : terms.handDemand = none)
    (colored : a ≠ .colorless ∧ b ≠ .colorless) :
    Mirrored terms.spell (payHybrid terms shards idx a b) := by
  have routed : ∀ s, Routed (fun units => ∀ unit ∈ units, Permits terms.spell unit) s
      (payHybrid terms shards idx a b s) := manaRoute_permits shards idx (.hybrid a b)
  by_cases any : terms.anyColor
  · have isAny : payHybrid terms shards idx a b = anyForRequired terms [a, b] := by
      funext s
      rw [payHybrid, if_pos any]
    exact (isAny ▸ spending_oblivious _ : Oblivious _).mirrored routed
  · intro s s' mirrors
    unfold payHybrid
    rw [if_neg any, if_neg any, noDemand, mirrors.pool]
    dsimp only
    generalize countRemainingHybridShards shards idx a b = remaining
    set ours := selectHybridPaymentColor s.pool a b none remaining s.preferredHybridColors
    set theirs := selectHybridPaymentColor s.pool a b none remaining s'.preferredHybridColors
    have unseen : ∀ key ≠ canonicalHybridKey a b, ∀ other,
        entriesFor other key = entriesFor s'.preferredHybridColors key →
          Dead terms.spell s.pool (entriesFor ours.2 key) key ∨
            entriesFor other key = entriesFor ours.2 key := by
      intro key differs other same
      rw [select_elsewhere differs, same]
      exact mirrors.entries key
    refine ⟨fun units paid => ?_, fun failed => ?_⟩
    · have alive : ¬Dead terms.spell s.pool (entriesFor s.preferredHybridColors
          (canonicalHybridKey a b)) (canonicalHybridKey a b) := fun dead => by
        cases paid.symm.trans ((eligible_fails _).mpr dead.select.1)
      obtain ⟨sameColor, sameEntries⟩ := select_agree s.pool none remaining
        ((mirrors.entries _).resolve_left alive)
      have after : Mirrors terms.spell { s with preferredHybridColors := ours.2 }
          { s' with pool := s.pool, preferredHybridColors := theirs.2 } := by
        refine ⟨rfl, fun key => ?_⟩
        by_cases isKey : key = canonicalHybridKey a b
        · exact .inr (isKey ▸ sameEntries)
        · exact unseen key isKey _ (select_elsewhere isKey)
      have isColor : theirs.1 = ours.1 := sameColor
      rw [isColor]
      exact (eligible_mirrored ours.1 _ _ after).1 units paid
    · have after : Mirrors terms.spell { s with preferredHybridColors := ours.2 } s' := by
        refine ⟨mirrors.pool, fun key => ?_⟩
        by_cases isKey : key = canonicalHybridKey a b
        · rw [isKey]
          exact .inl (dead_of_failed colored ((eligible_fails _).mp failed))
        · exact unseen key isKey _ rfl
      exact (eligible_mirrored ours.1 _ _ after).2 failed

theorem manaRoute_mirrored {requirement : ShardRequirement} (noDemand : terms.handDemand = none)
    (phyrexian : isPhyrexianRequirement requirement)
    (colored : ∀ a b, requirement = .hybridPhyrexian a b → a ≠ .colorless ∧ b ≠ .colorless) :
    Mirrored terms.spell (manaRoute terms shards idx requirement) := by
  cases requirement with
  | phyrexian color =>
    exact (payColor_oblivious color).mirrored (manaRoute_permits shards idx (.phyrexian color))
  | hybridPhyrexian a b => exact payHybrid_mirrored noDemand (colored a b rfl)
  | twoGenericHybridPhyrexian color =>
    exact (payTwoGenericHybrid_oblivious color).mirrored
      (manaRoute_permits shards idx (.twoGenericHybridPhyrexian color))
  | _ => cases phyrexian

end

variable {lifeColors : LifePaymentColors}

theorem printed_hybrid {requirement : ShardRequirement} {a b : ManaType}
    (is : effectiveShardRequirement requirement lifeColors = .hybridPhyrexian a b) :
    requirement = .hybrid a b ∨ requirement = .hybridPhyrexian a b := by
  cases requirement with
  | single color => simp only [effectiveShardRequirement] at is; split_ifs at is
  | twoGenericHybrid color => simp only [effectiveShardRequirement] at is; split_ifs at is
  | hybrid x y =>
    simp only [effectiveShardRequirement] at is
    split_ifs at is
    cases is
    exact .inl rfl
  | _ =>
    simp only [effectiveShardRequirement, ite_self] at is
    exact .inr is

/-- Hybrid symbols are of two colors; the symbols with a colorless half are a kind of their
own. -/
theorem hybridPhyrexian_colored {shard : ManaCostShard} {a b : ManaType}
    (is : effectiveShardRequirement shard.toRequirement lifeColors = .hybridPhyrexian a b) :
    a ≠ .colorless ∧ b ≠ .colorless := by
  rcases printed_hybrid is with isHybrid | isHybrid
  · cases shard <;> cases isHybrid <;> exact ⟨nofun, nofun⟩
  · cases shard <;> cases isHybrid <;> exact ⟨nofun, nofun⟩

end Phase.Mana
