import Mathlib.Algebra.BigOperators.Ring.Finset
import Mathlib.Algebra.Order.BigOperators.Group.List
import Mathlib.Tactic.Linarith
import Phase.Combat.State

/-! How much combat damage reaches the defending player past a given block: the estimate that an
attack is judged by, against the best the attacker can do. -/
namespace Phase.Combat
open List

/-! ## The estimate

Every sum and difference is an integer of one machine word; a value that leaves the word has no
result here. With no bound on the word it is plain arithmetic. -/

abbrev Word := Int → Bool

def i32 : Word := fun value => -2 ^ 31 ≤ value && value < 2 ^ 31

def fit (word : Word) (value : Int) : Option Int := if word value then some value else none

def wordSum (word : Word) (values : List Int) : Option Int :=
  values.foldlM (fun sum value => fit word (sum + value)) 0

/-- The cheapest blockers die first; damage on the next one stays marked. -/
def exhaust (word : Word) : List Int → Int → Option (List Int)
  | [], _ => some []
  | lethal :: remaining, budget =>
    if lethal ≤ budget then do
      let budget ← fit word (budget - lethal)
      exhaust word remaining budget
    else do
      let left ← fit word (lethal - budget)
      return left :: remaining

/-- One damage step of one attacker: what reaches the player, and what the blockers still need. -/
def assignStepToDefender (word : Word) (remaining : List Int) (power : Int) (hasTrample : Bool) :
    Option (Int × List Int) :=
  if remaining.isEmpty then some (if hasTrample then power else 0, remaining)
  else do
    let totalLethal ← wordSum word remaining
    if hasTrample && totalLethal < power then
      let excess ← fit word (power - totalLethal)
      return (excess, [])
    else
      let left ← exhaust word remaining power
      return (0, left)

def strikesFirst (object : GameObject) : Bool :=
  object.hasKeyword .doubleStrike || object.hasKeyword .firstStrike

/-- The blockers that assign their damage in the first-strike step. -/
def firstStrikeBlockers (state : GameState) (blockers : List ObjectId) : List GameObject :=
  (blockers.filterMap state.object).filter strikesFirst

/-- The attacker's own part in the first-strike step. -/
def attackerFirstStrike (word : Word) (attacker : GameObject) (remaining : List Int)
    (power : Int) : Option (Int × List Int) :=
  if strikesFirst attacker then do
    let (dealt, remaining) ←
      assignStepToDefender word remaining power (attacker.hasKeyword .trample)
    let toPlayer ← fit word (0 + dealt)
    return (toPlayer, remaining)
  else some (0, remaining)

/-- The first-strike step: what reaches the player, what the blockers still need, and whether the
attacker lives. -/
def firstStrikeStep (word : Word) (state : GameState) (attacker : GameObject)
    (attackerId : ObjectId) (blockers : List ObjectId) (remaining : List Int) (power : Int) :
    Option (Int × List Int × Bool) :=
  let strikers := firstStrikeBlockers state blockers
  if strikesFirst attacker || !strikers.isEmpty then do
    let (toPlayer, remaining) ← attackerFirstStrike word attacker remaining power
    let attackerLethal : Int :=
      lethalDamageNeeded state attackerId (strikers.any (·.hasKeyword .deathtouch))
    let firstStrikeDamage ← wordSum word (strikers.map fun striker =>
      (combatDamageAmount striker : Int))
    return (toPlayer, remaining, !(attackerLethal ≤ firstStrikeDamage))
  else some (0, remaining, true)

/-- The attacker's damage in the regular step, if it has any left to assign. -/
def regularStep (word : Word) (attacker : GameObject) (toPlayer : Int) (remaining : List Int)
    (attackerAlive : Bool) (power : Int) : Option Int :=
  if attackerAlive && (attacker.hasKeyword .doubleStrike || !strikesFirst attacker) then do
    let (dealt, _) ← assignStepToDefender word remaining power (attacker.hasKeyword .trample)
    fit word (toPlayer + dealt)
  else some toPlayer

def combatDamageToDefender (word : Word) (state : GameState) (attackerId : ObjectId)
    (blockers : List ObjectId) : Option Int :=
  match state.object attackerId with
  | none => some 0
  | some attacker =>
    let power : Int := combatDamageAmount attacker
    if power = 0 then some 0
    else if blockers.isEmpty then
      if attacker.hasKeyword .doubleStrike then fit word (power * 2) else some power
    else do
      let remaining := (blockers.map fun blocker =>
        (lethalDamageNeeded state blocker (attacker.hasKeyword .deathtouch) : Int)).mergeSort
      let (toPlayer, remaining, attackerAlive) ←
        firstStrikeStep word state attacker attackerId blockers remaining power
      regularStep word attacker toPlayer remaining attackerAlive power

/-- Whatever lies between zero and a value of the word is one, too. -/
structure Word.Closed (word : Word) : Prop where
  zero : word 0 = true
  down : ∀ {x y : Int}, 0 ≤ x → x ≤ y → word y = true → word x = true

theorem i32_iff {value : Int} : i32 value = true ↔ -2 ^ 31 ≤ value ∧ value < 2 ^ 31 := by
  simp [i32]

theorem i32_closed : Word.Closed i32 where
  zero := by decide
  down := by
    intro x y nonneg below within
    rw [i32_iff] at within ⊢
    omega

section
variable {word : Word} (closed : word.Closed)
include closed

theorem foldlM_fit {values : List Int} (nonneg : ∀ value ∈ values, 0 ≤ value) {start : Int}
    (above : 0 ≤ start) (within : word start = true) :
    values.foldlM (fun sum value => fit word (sum + value)) start =
      fit word (start + values.sum) := by
  induction values generalizing start with
  | nil => simp [fit, within]
  | cons value values ih =>
    obtain ⟨first, nonneg⟩ := forall_mem_cons.mp nonneg
    have rest := sum_nonneg nonneg
    rw [foldlM_cons, sum_cons, ← add_assoc]
    by_cases fits : word (start + value) = true
    · rw [fit, if_pos fits]
      exact ih nonneg (by omega) fits
    · have beyond : ¬word (start + value + values.sum) = true := fun whole =>
        fits (closed.down (by omega) (by omega) whole)
      rw [fit, fit, if_neg fits, if_neg beyond]
      rfl

/-- A sum of values that are not negative leaves the word only where its result does. -/
theorem wordSum_eq {values : List Int} (nonneg : ∀ value ∈ values, 0 ≤ value) :
    wordSum word values = fit word values.sum := by
  rw [wordSum, foldlM_fit closed nonneg (le_refl 0) closed.zero, zero_add]

/-- What a blocker still needs: not negative, and a value of the word. -/
def Needs (word : Word) (remaining : List Int) : Prop :=
  ∀ lethal ∈ remaining, 0 ≤ lethal ∧ word lethal = true

omit closed in
theorem Needs.nonneg {remaining : List Int} (needs : Needs word remaining) :
    ∀ lethal ∈ remaining, 0 ≤ lethal := fun lethal there => (needs lethal there).1

theorem exhaust_eq {remaining : List Int} (needs : Needs word remaining) {budget : Int}
    (nonneg : 0 ≤ budget) (within : word budget = true) :
    ∃ left, exhaust word remaining budget = some left ∧ Needs word left ∧
      left.sum = max 0 (remaining.sum - budget) := by
  induction remaining generalizing budget with
  | nil => exact ⟨[], rfl, nofun, by simp [nonneg]⟩
  | cons lethal remaining ih =>
    obtain ⟨⟨above, isWord⟩, needs⟩ := forall_mem_cons.mp needs
    have rest := sum_nonneg (Needs.nonneg needs)
    rw [exhaust, sum_cons]
    split
    · next killed =>
      have fits := closed.down (by omega : 0 ≤ budget - lethal) (by omega) within
      obtain ⟨left, ran, kept, sum⟩ := ih needs (by omega) fits
      refine ⟨left, by simp [fit, fits, ran], kept, ?_⟩
      omega
    · next survives =>
      have fits := closed.down (by omega : 0 ≤ lethal - budget) (by omega) isWord
      refine ⟨(lethal - budget) :: remaining, by simp [fit, fits], ?_, ?_⟩
      · exact forall_mem_cons.mpr ⟨⟨by omega, fits⟩, needs⟩
      · rw [sum_cons]
        omega

/-- In one step everything beyond what all blockers need goes through, with trample; what they
need goes down by the attacker's power. -/
theorem assignStepToDefender_eq {remaining : List Int} (needs : Needs word remaining) {power : Int}
    (strong : 0 < power) (within : word power = true) (hasTrample : Bool) :
    ∃ left, Needs word left ∧ left.sum = max 0 (remaining.sum - power) ∧
      assignStepToDefender word remaining power hasTrample =
        (fit word remaining.sum).map fun _ =>
          (if hasTrample then max 0 (power - remaining.sum) else 0, left) := by
  rw [assignStepToDefender]
  cases remaining with
  | nil =>
    refine ⟨[], nofun, by simp; omega, ?_⟩
    cases hasTrample
    · simp [fit, closed.zero]
    · simp [fit, closed.zero]
      omega
  | cons lethal remaining =>
    have above := sum_nonneg (Needs.nonneg needs)
    rw [wordSum_eq closed (Needs.nonneg needs)]
    rw [if_neg (by simp)]
    generalize lethal :: remaining = all at *
    by_cases fits : word all.sum = true
    · simp only [fit, if_pos fits, Option.bind_eq_bind, Option.bind_some, Option.map_some]
      by_cases through : (hasTrample && decide (all.sum < power)) = true
      · rw [if_pos through]
        obtain ⟨isTrample, excess⟩ := Bool.and_eq_true_iff.mp through
        have beyond := of_decide_eq_true excess
        have small := closed.down (by omega : 0 ≤ power - all.sum) (by omega) within
        refine ⟨[], nofun, by simp; omega, ?_⟩
        simp [small, isTrample]
        omega
      · rw [if_neg through]
        obtain ⟨left, ran, kept, sum⟩ := exhaust_eq closed needs (by omega) within
        refine ⟨left, kept, sum, ?_⟩
        rw [ran]
        cases hasTrample with
        | false => rfl
        | true =>
          have short : power ≤ all.sum := by simpa using through
          simp [Int.max_eq_left (by omega : power - all.sum ≤ 0)]
    · simp only [fit, if_neg fits]
      obtain ⟨left, -, kept, sum⟩ := exhaust_eq closed needs (by omega) within
      exact ⟨left, kept, sum, rfl⟩

end

/-- The damage that all blockers can still take. -/
def combinedLethal (state : GameState) (attacker : GameObject) (blockers : List ObjectId) : Nat :=
  (blockers.map fun blocker =>
    lethalDamageNeeded state blocker (attacker.hasKeyword .deathtouch)).sum

def firstStrikeDamage (state : GameState) (blockers : List ObjectId) : Nat :=
  ((firstStrikeBlockers state blockers).map combatDamageAmount).sum

def attackerLethal (state : GameState) (attackerId : ObjectId) (blockers : List ObjectId) : Nat :=
  lethalDamageNeeded state attackerId
    ((firstStrikeBlockers state blockers).any (·.hasKeyword .deathtouch))

/-- Whether there is a first-strike step. -/
def hasFirstStrikeStep (state : GameState) (attacker : GameObject) (blockers : List ObjectId) :
    Bool :=
  strikesFirst attacker || !(firstStrikeBlockers state blockers).isEmpty

/-- The estimate's answer to whether the attacker lives through the first-strike step. -/
def thoughtAlive (state : GameState) (attacker : GameObject) (attackerId : ObjectId)
    (blockers : List ObjectId) : Bool :=
  !hasFirstStrikeStep state attacker blockers ||
    !(attackerLethal state attackerId blockers ≤ firstStrikeDamage state blockers)

/-- How many steps an attacker assigns damage in. -/
def strikes (attacker : GameObject) (alive : Bool) : Nat :=
  (strikesFirst attacker).toNat +
    (alive && (attacker.hasKeyword .doubleStrike || !strikesFirst attacker)).toNat

/-- What gets past the blockers in so many steps. -/
def through (hasTrample : Bool) (steps power lethal : Nat) : Nat :=
  if hasTrample then steps * power - lethal else 0

/-- Every amount that the estimate reads is a value of the word. -/
structure Reads (word : Word) (state : GameState) : Prop where
  amount : ∀ object ∈ state.objects, word (combatDamageAmount object) = true
  lethal : ∀ id hasDeathtouch, word (lethalDamageNeeded state id hasDeathtouch) = true

section
variable {word : Word} (closed : word.Closed) {state : GameState} (reads : Reads word state)
  {attacker : GameObject} {attackerId : ObjectId} {blockers : List ObjectId}
include closed reads

omit closed in
theorem needs_remaining (attacker : GameObject) (blockers : List ObjectId) :
    Needs word (blockers.map fun blocker =>
    (lethalDamageNeeded state blocker (attacker.hasKeyword .deathtouch) : Int)).mergeSort := by
  intro lethal there
  rw [mem_mergeSort] at there
  obtain ⟨blocker, -, rfl⟩ := mem_map.mp there
  exact ⟨Int.natCast_nonneg _, reads.lethal _ _⟩

omit reads in
theorem wordSum_strikers : wordSum word ((firstStrikeBlockers state blockers).map fun striker =>
    (combatDamageAmount striker : Int)) = fit word (firstStrikeDamage state blockers) := by
  have cast : ((firstStrikeBlockers state blockers).map fun striker =>
      (combatDamageAmount striker : Int)).sum = firstStrikeDamage state blockers := by
    rw [firstStrikeDamage, Nat.cast_list_sum, map_map]
    rfl
  rw [wordSum_eq closed, cast]
  intro amount there
  obtain ⟨striker, -, rfl⟩ := mem_map.mp there
  exact Int.natCast_nonneg _

omit reads in
theorem attackerFirstStrike_eq (attacker : GameObject) {remaining : List Int}
    (needs : Needs word remaining) {power : Int} (strong : 0 < power) (within : word power = true) :
    ∃ left, Needs word left ∧
      left.sum = (if strikesFirst attacker then max 0 (remaining.sum - power)
        else remaining.sum) ∧
      attackerFirstStrike word attacker remaining power =
        if strikesFirst attacker = true → word remaining.sum = true then
          some (if strikesFirst attacker && attacker.hasKeyword .trample then
            max 0 (power - remaining.sum) else 0, left)
        else none := by
  rw [attackerFirstStrike]
  cases first : strikesFirst attacker with
  | false => exact ⟨remaining, needs, by simp, by simp⟩
  | true =>
    have above := sum_nonneg (Needs.nonneg needs)
    obtain ⟨left, kept, sum, assigned⟩ :=
      assignStepToDefender_eq closed needs strong within (attacker.hasKeyword .trample)
    refine ⟨left, kept, by simpa using sum, ?_⟩
    rw [if_pos rfl, assigned]
    by_cases fits : word remaining.sum = true
    · have small := closed.down (by omega : (0 : Int) ≤ max 0 (power - remaining.sum))
        (by omega) within
      cases attacker.hasKeyword .trample <;> simp [fit, fits, small, closed.zero]
    · simp [fit, fits]

omit reads in
theorem firstStrikeStep_eq (attacker : GameObject) (attackerId : ObjectId)
    (blockers : List ObjectId) {remaining : List Int} (needs : Needs word remaining)
    {power : Int} (strong : 0 < power) (within : word power = true) :
    ∃ left, Needs word left ∧
      left.sum = (if strikesFirst attacker then max 0 (remaining.sum - power)
        else remaining.sum) ∧
      firstStrikeStep word state attacker attackerId blockers remaining power =
        if (strikesFirst attacker = true → word remaining.sum = true) ∧
            word (firstStrikeDamage state blockers) = true then
          some (if strikesFirst attacker && attacker.hasKeyword .trample then
              max 0 (power - remaining.sum) else 0,
            left, thoughtAlive state attacker attackerId blockers)
        else none := by
  rw [firstStrikeStep]
  by_cases step : hasFirstStrikeStep state attacker blockers = true
  · obtain ⟨left, kept, sum, attacked⟩ :=
      attackerFirstStrike_eq closed attacker needs strong within
    refine ⟨left, kept, sum, ?_⟩
    simp only [hasFirstStrikeStep] at step
    rw [if_pos step, attacked, wordSum_strikers closed]
    by_cases fits : strikesFirst attacker = true → word remaining.sum = true
    · by_cases fits' : word (firstStrikeDamage state blockers) = true
      · have alive : thoughtAlive state attacker attackerId blockers =
            !decide ((attackerLethal state attackerId blockers : Int) ≤
              firstStrikeDamage state blockers) := by
          simp [thoughtAlive, hasFirstStrikeStep, step]
        rw [if_pos fits, if_pos (And.intro fits fits'), fit, if_pos fits', alive]
        rfl
      · rw [if_pos fits, if_neg (fits' ∘ And.right (a := strikesFirst attacker = true →
          word remaining.sum = true)), fit, if_neg fits']
        rfl
    · rw [if_neg fits, if_neg (fits ∘ And.left (b := word (firstStrikeDamage state blockers) = true))]
      rfl
  · obtain ⟨first, absent⟩ : strikesFirst attacker = false ∧ firstStrikeBlockers state blockers = [] := by
      simpa [hasFirstStrikeStep] using step
    have zero : firstStrikeDamage state blockers = 0 := by simp [firstStrikeDamage, absent]
    refine ⟨remaining, needs, by simp [first], ?_⟩
    simp [first, absent, zero, closed.zero, thoughtAlive, hasFirstStrikeStep]

omit reads in
theorem regularStep_eq {remaining : List Int} (needs : Needs word remaining) {power : Int}
    (strong : 0 < power) (within : word power = true) (alive : Bool) (toPlayer : Int) :
    regularStep word attacker toPlayer remaining alive power =
      if alive && (attacker.hasKeyword .doubleStrike || !strikesFirst attacker) then
        (fit word remaining.sum).bind fun _ => fit word (toPlayer +
          if attacker.hasKeyword .trample then max 0 (power - remaining.sum) else 0)
      else some toPlayer := by
  rw [regularStep]
  split
  · obtain ⟨left, -, -, assigned⟩ :=
      assignStepToDefender_eq closed needs strong within (attacker.hasKeyword .trample)
    rw [assigned]
    cases fit word remaining.sum <;> rfl
  · rfl

omit closed reads in
theorem sum_remaining : (blockers.map fun blocker =>
    (lethalDamageNeeded state blocker (attacker.hasKeyword .deathtouch) : Int)).mergeSort.sum =
      combinedLethal state attacker blockers := by
  rw [(mergeSort_perm _ _).sum_eq, combinedLethal, Nat.cast_list_sum, map_map]
  rfl

omit closed reads in
/-- Two steps one after the other get as much through as one of both powers. -/
theorem through_add (hasTrample : Bool) {power lethal : Nat} :
    (if hasTrample then max 0 ((power : Int) - lethal) else 0) +
        (if hasTrample then max 0 (power - max 0 ((lethal : Int) - power)) else 0) =
      through hasTrample 2 power lethal := by
  cases hasTrample
  · rfl
  · simp only [through, if_true]
    omega

omit closed reads in
theorem through_one (hasTrample : Bool) {power lethal : Nat} :
    (if hasTrample then max 0 ((power : Int) - lethal) else 0) =
      through hasTrample 1 power lethal := by
  cases hasTrample
  · rfl
  · simp only [through, if_true]
    omega

/-- The estimate for a blocked attacker, and where it has none. -/
theorem combatDamageToDefender_blocked (found : state.object attackerId = some attacker)
    (strong : 0 < combatDamageAmount attacker) (blocked : blockers ≠ []) :
    let power := combatDamageAmount attacker
    let lethal := combinedLethal state attacker blockers
    let steps := strikes attacker (thoughtAlive state attacker attackerId blockers)
    combatDamageToDefender word state attackerId blockers =
      if (0 < steps → word lethal = true) ∧ word (firstStrikeDamage state blockers) = true ∧
          word (through (attacker.hasKeyword .trample) steps power lethal) = true then
        some (through (attacker.hasKeyword .trample) steps power lethal : Int)
      else none := by
  intro power lethal steps
  have within : word power = true := reads.amount attacker (mem_of_find?_eq_some found)
  obtain ⟨left, kept, sum, struck⟩ := firstStrikeStep_eq closed attacker attackerId blockers
    (needs_remaining reads attacker blockers)
    (by omega : (0 : Int) < combatDamageAmount attacker) within
  have isLethal : (blockers.map fun blocker => (lethalDamageNeeded state blocker
      (attacker.hasKeyword .deathtouch) : Int)).mergeSort.sum = lethal := sum_remaining
  rw [isLethal] at sum struck
  have isSteps : steps = (strikesFirst attacker).toNat +
      (thoughtAlive state attacker attackerId blockers &&
        (attacker.hasKeyword .doubleStrike || !strikesFirst attacker)).toNat := rfl
  have unfolded : combatDamageToDefender word state attackerId blockers =
      (firstStrikeStep word state attacker attackerId blockers (blockers.map fun blocker =>
        (lethalDamageNeeded state blocker (attacker.hasKeyword .deathtouch) : Int)).mergeSort
          power).bind fun struck =>
        regularStep word attacker struck.1 struck.2.1 struck.2.2 power := by
    rw [combatDamageToDefender, found]
    simp only
    rw [if_neg (by omega), if_neg (by simpa using blocked)]
    rfl
  rw [unfolded, struck]
  by_cases amount : word (firstStrikeDamage state blockers) = true
  swap
  · rw [if_neg (amount ∘ And.right), if_neg (amount ∘ And.left ∘ And.right)]
    rfl
  by_cases fits : strikesFirst attacker = true → word lethal = true
  swap
  · obtain ⟨first, -⟩ := Classical.not_imp.mp fits
    have stepping : 0 < steps := by simp only [steps, strikes, first, Bool.toNat_true]; omega
    rw [if_neg (fits ∘ And.left), if_neg fun all => fits fun _ => all.1 stepping]
    rfl
  have once : word (through (attacker.hasKeyword .trample) 1 power lethal) = true := by
    refine closed.down (Int.natCast_nonneg _) (Int.ofNat_le.mpr ?_) within
    unfold through
    split <;> omega
  rw [if_pos ⟨fits, amount⟩, Option.bind_some]
  cases first : strikesFirst attacker with
  | true =>
    have isWord := fits first
    simp only [first, if_true] at sum
    have small : word left.sum = true :=
      closed.down (by omega) (by omega : left.sum ≤ lethal) isWord
    simp only [Bool.true_and, through_one]
    rw [regularStep_eq closed kept (by omega) within _
      (through (attacker.hasKeyword .trample) 1 power lethal)]
    cases again : thoughtAlive state attacker attackerId blockers &&
        (attacker.hasKeyword .doubleStrike || !strikesFirst attacker) with
    | false =>
      have one : steps = 1 := by
        rw [isSteps, again, first]
        rfl
      rw [one]
      simp [isWord, amount, once]
    | true =>
      have two : steps = 2 := by
        rw [isSteps, again, first]
        rfl
      rw [fit, if_pos small, sum, ← through_one, through_add, two, fit]
      simp [isWord, amount]
  | false =>
    simp only [first, Bool.false_eq_true, if_false] at sum
    simp only [Bool.false_and, Bool.false_eq_true, if_false]
    rw [regularStep_eq closed kept (by omega) within, sum]
    cases now : thoughtAlive state attacker attackerId blockers &&
        (attacker.hasKeyword .doubleStrike || !strikesFirst attacker) with
    | false =>
      have zero : steps = 0 := by
        rw [isSteps, now, first]
        rfl
      rw [zero]
      simp [amount, through, closed.zero]
    | true =>
      have one : steps = 1 := by
        rw [isSteps, now, first]
        rfl
      rw [through_one, one]
      by_cases isWord : word lethal = true
      · simp [fit, isWord, once, amount]
      · simp [fit, isWord]

omit closed reads in
theorem combatDamageToDefender_idle (found : state.object attackerId = some attacker)
    (weak : combatDamageAmount attacker = 0) :
    combatDamageToDefender word state attackerId blockers = some 0 := by
  rw [combatDamageToDefender, found]
  simp [weak]

omit closed reads in
theorem combatDamageToDefender_unblocked (found : state.object attackerId = some attacker)
    (strong : 0 < combatDamageAmount attacker) :
    combatDamageToDefender word state attackerId [] =
      if attacker.hasKeyword .doubleStrike then fit word (combatDamageAmount attacker * 2)
      else some (combatDamageAmount attacker : Int) := by
  rw [combatDamageToDefender, found]
  simp only
  rw [if_neg (by omega)]
  rfl

end

/-- Power and toughness are values of the word. -/
def Sized (state : GameState) : Prop :=
  ∀ object ∈ state.objects, ∀ value, object.power = some value ∨ object.toughness = some value →
    i32 value = true

/-- The first-striking blockers deal the attacker less than it can still take. -/
def Outlives (state : GameState) (attacker : GameObject) (attackerId : ObjectId)
    (blockers : List ObjectId) : Prop :=
  hasFirstStrikeStep state attacker blockers = true →
    firstStrikeDamage state blockers < attackerLethal state attackerId blockers

/-- The attack and its block are small enough for a machine word: the power of a double striker
twice, what the blockers can take all together, and what the first-striking ones deal. -/
def Fits (state : GameState) (attackerId : ObjectId) (blockers : List ObjectId) : Prop :=
  ∀ attacker, state.object attackerId = some attacker → 0 < combatDamageAmount attacker →
    (blockers = [] → attacker.hasKeyword .doubleStrike = true →
      2 * combatDamageAmount attacker < 2 ^ 31) ∧
    (blockers ≠ [] → firstStrikeDamage state blockers < 2 ^ 31 ∧
      (strikesFirst attacker = true ∨ Outlives state attacker attackerId blockers →
        combinedLethal state attacker blockers < 2 ^ 31) ∧
      (attacker.hasKeyword .doubleStrike = true → attacker.hasKeyword .trample = true →
        Outlives state attacker attackerId blockers →
          2 * combatDamageAmount attacker < 2 ^ 31 + combinedLethal state attacker blockers))

section
variable {state : GameState} {attacker : GameObject} {attackerId : ObjectId}
  {blockers : List ObjectId}

theorem i32_cast {n : Nat} : i32 n = true ↔ n < 2 ^ 31 := by
  rw [i32_iff]
  omega

theorem unsigned_lt {value : Option Int} (within : ∀ v, value = some v → i32 v = true) :
    unsigned value < 2 ^ 31 := by
  cases value with
  | none => decide
  | some v =>
    have := i32_iff.mp (within v rfl)
    simp only [unsigned, Option.getD_some]
    omega

theorem Sized.amount (sized : Sized state) {object : GameObject} (there : object ∈ state.objects) :
    combatDamageAmount object < 2 ^ 31 := by
  unfold combatDamageAmount
  split
  · decide
  · split
    · exact unsigned_lt fun value is => sized object there value (.inr is)
    · exact unsigned_lt fun value is => sized object there value (.inl is)

theorem Sized.reads (sized : Sized state) : Reads i32 state where
  amount object there := i32_cast.mpr (sized.amount there)
  lethal id hasDeathtouch := by
    rw [i32_cast, lethalDamageNeeded]
    split
    · decide
    · cases found : state.object id with
      | none => decide
      | some object =>
        have small := unsigned_lt fun value is =>
          sized object (mem_of_find?_eq_some found) value (.inr is)
        simp only
        omega

theorem thoughtAlive_iff : thoughtAlive state attacker attackerId blockers = true ↔
    Outlives state attacker attackerId blockers := by
  simp only [thoughtAlive, Outlives, Bool.or_eq_true, Bool.not_eq_true', decide_eq_false_iff_not,
    Nat.not_le]
  cases hasFirstStrikeStep state attacker blockers <;> simp

theorem strikes_pos {alive : Bool} : 0 < strikes attacker alive ↔
    strikesFirst attacker = true ∨ alive = true := by
  unfold strikes
  cases strikesFirst attacker <;> cases alive <;> simp

theorem double_strikesFirst (double : attacker.hasKeyword .doubleStrike = true) :
    strikesFirst attacker = true := by simp [strikesFirst, double]

/-- What gets through fits wherever the two powers of a double striker do. -/
theorem through_fits (power : combatDamageAmount attacker < 2 ^ 31) (alive : Bool) {lethal : Nat} :
    through (attacker.hasKeyword .trample) (strikes attacker alive) (combatDamageAmount attacker)
        lethal < 2 ^ 31 ↔
      (attacker.hasKeyword .doubleStrike = true → attacker.hasKeyword .trample = true →
        alive = true → 2 * combatDamageAmount attacker < 2 ^ 31 + lethal) := by
  have few : strikes attacker alive ≤ 1 ∨ strikes attacker alive = 2 ∧
      attacker.hasKeyword .doubleStrike = true ∧ alive = true := by
    unfold strikes
    cases double : attacker.hasKeyword .doubleStrike with
    | true =>
      rw [double_strikesFirst double]
      cases alive <;> simp
    | false => cases strikesFirst attacker <;> cases alive <;> simp
  have both (double : attacker.hasKeyword .doubleStrike = true) (lives : alive = true) :
      strikes attacker alive = 2 := by
    simp [strikes, double, double_strikesFirst double, lives]
  cases trample : attacker.hasKeyword .trample with
  | false => simp [through]
  | true =>
    simp only [through, if_true, true_implies]
    rcases few with few | ⟨two, double, lives⟩
    · have small : strikes attacker alive * combatDamageAmount attacker ≤
          1 * combatDamageAmount attacker := Nat.mul_le_mul_right _ few
      refine ⟨fun _ double lives => ?_, fun _ => by omega⟩
      have two := both double lives
      omega
    · rw [two]
      constructor
      · omega
      · intro small
        have := small double lives
        omega

theorem exists_ite {p : Prop} [Decidable p] {value : Int} :
    (∃ damage, (if p then some value else none) = some damage) ↔ p := by
  split <;> simp [*]

/-- The estimate leaves the machine word exactly for attacks and blocks that do not fit it. -/
theorem estimate_fits_iff (sized : Sized state) (attackerId : ObjectId) (blockers : List ObjectId) :
    (∃ damage, combatDamageToDefender i32 state attackerId blockers = some damage) ↔
      Fits state attackerId blockers := by
  cases found : state.object attackerId with
  | none =>
    have fits : Fits state attackerId blockers := fun attacker there =>
      nomatch found.symm.trans there
    simp [combatDamageToDefender, found, fits]
  | some attacker =>
    have one : Fits state attackerId blockers ↔ _ :=
      ⟨fun fits => fits attacker found, fun fits other there => by
        cases found.symm.trans there
        exact fits⟩
    rw [one]
    have small := sized.amount (mem_of_find?_eq_some found)
    rcases Nat.eq_zero_or_pos (combatDamageAmount attacker) with weak | strong
    · simp [combatDamageToDefender_idle found weak, weak]
    · simp only [strong, true_implies]
      by_cases blocked : blockers = []
      · subst blocked
        rw [combatDamageToDefender_unblocked found strong]
        cases attacker.hasKeyword .doubleStrike with
        | false => simp
        | true =>
          simp only [if_true, fit, true_implies, ne_eq, not_true_eq_false, false_implies, and_true]
          have doubled : i32 ((combatDamageAmount attacker : Int) * 2) = true ↔
              2 * combatDamageAmount attacker < 2 ^ 31 := by
            rw [i32_iff]
            omega
          rw [exists_ite, doubled]
      · rw [combatDamageToDefender_blocked i32_closed sized.reads found strong blocked]
        rw [exists_ite, i32_cast, i32_cast, i32_cast, strikes_pos, through_fits small,
          thoughtAlive_iff]
        simp only [blocked, false_implies, true_and, ne_eq, not_false_eq_true, true_implies]
        tauto

end

/-- A double striker whose power the saturating arithmetic can produce. -/
def hugeStriker : GameState where
  objects := [{
    id := 1, controller := 0, keywords := [.doubleStrike], power := some (2 ^ 30),
    toughness := some 1 }]
  players := [{ id := 0 }, { id := 1 }]
  activePlayer := 0
  combat := none

theorem hugeStriker_sized : Sized hugeStriker := by
  intro object there value is
  obtain rfl := mem_singleton.mp there
  rcases is with is | is <;> cases is <;> decide

/-- Twice its power is no value of the word. -/
theorem hugeStriker_overflows :
    Sized hugeStriker ∧ combatDamageToDefender i32 hugeStriker 1 [] = none :=
  ⟨hugeStriker_sized, by decide⟩

/-- Blocked by nobody and without its power twice over, it fits. -/
theorem hugeStriker_fits_not : ¬Fits hugeStriker 1 [] := by
  intro fits
  have overflows : combatDamageToDefender i32 hugeStriker 1 [] = none := by decide
  obtain ⟨damage, is⟩ := (estimate_fits_iff hugeStriker_sized 1 []).mpr fits
  exact nomatch overflows.symm.trans is

end Phase.Combat
