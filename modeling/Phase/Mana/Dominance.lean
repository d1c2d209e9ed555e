import Phase.Lib.Augmenting
import Phase.Mana.Cost

/-! When every pool that pays one cost pays another: the test the engine makes, what it finds
exactly, and what that says about pools. -/
namespace Phase.Mana
open Augmenting List ManaCost ManaTypeSet

/-- Any mana for the shard of `theirs` at `candidate` pays the shard of `mine` at `index`. -/
def accepts (mine theirs : List ManaTypeSet) (index candidate : Nat) : Bool :=
  (theirs.getD candidate .empty).isSubsetOf (mine.getD index .empty)

/-- `match_shard` is the augmenting search over `accepts`; the loop places one shard after the
other. -/
def matchShards (mine theirs : List ManaTypeSet) : Bool :=
  saturate (accepts mine theirs) (range mine.length) (replicate theirs.length none)

def ManaCost.isPayableWhenever (self other : ManaCost) : Bool :=
  match self, other with
  | .cost mine _, .cost theirs _ =>
    if other.manaValue < self.manaValue || theirs.length < mine.length then false
    else
      match mine.mapM (·.singleManaPaymentTypes), theirs.mapM (·.singleManaPaymentTypes) with
      | some mine, some theirs => matchShards mine theirs
      | _, _ => false
  | _, _ => false

/-- Mana for each symbol and for the generic part, and perhaps some left over. -/
def ManaCost.PaidBy : ManaCost → Multiset ManaUnit → Prop
  | .cost shards generic, pool => ∃ (parts : List (List ManaUnit)) (rest : List ManaUnit),
      Forall₂ Pays (shards.map (·.toRequirement)) parts ∧ rest.length = generic ∧
        ((parts.flatten ++ rest : List ManaUnit) : Multiset ManaUnit) ≤ pool
  | .noCost, _ | .selfManaCost, _ | .selfManaValue, _ | .selfManaCostReduced _, _ => True

namespace ManaCostShard

/-- One mana of this type pays the symbol. -/
def PaidByType (shard : ManaCostShard) (manaType : ManaType) : Prop :=
  ∃ types, shard.singleManaPaymentTypes = some types ∧ types.contains manaType

variable {shard : ManaCostShard} {types : ManaTypeSet}

theorem types_pair (isTypes : shard.singleManaPaymentTypes = some types) :
    ∃ a b, types = (of a).insert b := by
  have twice : ∀ color, of color = (of color).insert color := by
    intro color
    cases color <;> rfl
  cases shard with
  | white | blue | black | red | green | colorless => cases isTypes; exact ⟨_, _, twice _⟩
  | whiteBlue | whiteBlack | blueBlack | blueRed | blackRed | blackGreen | redWhite | redGreen
  | greenWhite | greenBlue | colorlessWhite | colorlessBlue | colorlessBlack | colorlessRed
  | colorlessGreen => cases isTypes; exact ⟨_, _, rfl⟩
  | _ => cases isTypes

theorem worth_one (isTypes : shard.singleManaPaymentTypes = some types) :
    shard.manaValueContribution = 1 := by
  cases shard with
  | x | twoWhite | twoBlue | twoBlack | twoRed | twoGreen => cases isTypes
  | _ => rfl

/-- A symbol that has a set of types is paid with one mana of one of them, and not otherwise. -/
theorem pays_iff (single : shard.singleManaPaymentTypes.isSome) (part : List ManaUnit) :
    Pays shard.toRequirement part ↔ ∃ unit, part = [unit] ∧ shard.PaidByType unit.color := by
  have one : ∀ color manaType, (of color).contains manaType =
      decide (manaType = color) := by
    intro color manaType
    cases color <;> cases manaType <;> rfl
  constructor
  · intro pays
    cases shard with
    | white | blue | black | red | green | colorless =>
      cases pays with
      | single is => exact ⟨_, rfl, _, rfl, by rw [one]; exact decide_eq_true is⟩
    | whiteBlue | whiteBlack | blueBlack | blueRed | blackRed | blackGreen | redWhite | redGreen
    | greenWhite | greenBlue =>
      cases pays with
      | hybrid is =>
        exact ⟨_, rfl, _, rfl, by rw [contains_pair]; exact decide_eq_true is⟩
    | colorlessWhite | colorlessBlue | colorlessBlack | colorlessRed | colorlessGreen =>
      cases pays with
      | colorlessHybrid is =>
        exact ⟨_, rfl, _, rfl, by rw [contains_pair]; exact decide_eq_true is⟩
    | _ => cases single
  · rintro ⟨unit, rfl, types, isTypes, held⟩
    cases shard with
    | white | blue | black | red | green | colorless =>
      cases isTypes
      rw [one] at held
      exact .single (of_decide_eq_true held)
    | whiteBlue | whiteBlack | blueBlack | blueRed | blackRed | blackGreen | redWhite | redGreen
    | greenWhite | greenBlue =>
      cases isTypes
      rw [contains_pair] at held
      exact .hybrid (of_decide_eq_true held)
    | colorlessWhite | colorlessBlue | colorlessBlack | colorlessRed | colorlessGreen =>
      cases isTypes
      rw [contains_pair] at held
      exact .colorlessHybrid (of_decide_eq_true held)
    | _ => cases single

end ManaCostShard

/-- A shard of `theirs` for each shard of `mine`, no two the same, that only mana which pays
the one of `mine` can pay. -/
structure Serves (mine theirs : List ManaCostShard) (place : Nat → Nat) : Prop where
  inside : ∀ i < mine.length, place i < theirs.length
  apart : ∀ i < mine.length, ∀ j < mine.length, place i = place j → i = j
  serves : ∀ i shard other, mine[i]? = some shard → theirs[place i]? = some other →
    ∀ manaType, other.PaidByType manaType → shard.PaidByType manaType

def Single (shards : List ManaCostShard) : Prop :=
  ∀ shard ∈ shards, shard.singleManaPaymentTypes.isSome

section
variable {mine theirs : List ManaCostShard} {myTypes theirTypes : List ManaTypeSet}

theorem mapM_types {shards : List ManaCostShard} {types : List ManaTypeSet}
    (all : shards.mapM (·.singleManaPaymentTypes) = some types) :
    types.length = shards.length ∧ ∀ (i : Nat) (shard : ManaCostShard), shards[i]? = some shard →
      shard.singleManaPaymentTypes = some (types.getD i .empty) := by
  induction shards generalizing types with
  | nil => cases all; exact ⟨rfl, fun i shard isShard => by simp at isShard⟩
  | cons head rest ih =>
    rw [mapM_cons] at all
    obtain ⟨first, isFirst, all⟩ := Option.bind_eq_some_iff.mp all
    obtain ⟨others, isOthers, all⟩ := Option.bind_eq_some_iff.mp all
    cases all
    obtain ⟨size, each⟩ := ih isOthers
    refine ⟨by rw [length_cons, size, length_cons], fun i shard isShard => ?_⟩
    cases i with
    | zero => cases isShard; exact isFirst
    | succ i => exact each i shard isShard

theorem mapM_single {shards : List ManaCostShard} :
    (∃ types, shards.mapM (·.singleManaPaymentTypes) = some types) ↔ Single shards := by
  induction shards with
  | nil => exact iff_of_true ⟨[], rfl⟩ (fun _ isOne => by cases isOne)
  | cons head rest ih =>
    rw [Single, forall_mem_cons, ← Single, ← ih, Option.isSome_iff_exists]
    constructor
    · rintro ⟨types, all⟩
      rw [mapM_cons] at all
      obtain ⟨first, isFirst, all⟩ := Option.bind_eq_some_iff.mp all
      obtain ⟨others, isOthers, -⟩ := Option.bind_eq_some_iff.mp all
      exact ⟨⟨first, isFirst⟩, others, isOthers⟩
    · rintro ⟨⟨first, isFirst⟩, others, isOthers⟩
      exact ⟨first :: others, by rw [mapM_cons, isFirst, isOthers]; rfl⟩

theorem Serves.length_le {place : Nat → Nat} (serves : Serves mine theirs place) :
    mine.length ≤ theirs.length := by
  obtain ⟨chosen, others, size, -, split⟩ :=
    exists_chosen (range theirs.length)
      (fun i bound => by rw [length_range]; exact serves.inside i bound) serves.apart
  have sizes := split.length_eq
  rw [length_append, length_range] at sizes
  omega

/-- The augmenting search finds an assignment whenever there is one. -/
theorem matchShards_iff (isMine : mine.mapM (·.singleManaPaymentTypes) = some myTypes)
    (isTheirs : theirs.mapM (·.singleManaPaymentTypes) = some theirTypes) :
    matchShards myTypes theirTypes = true ↔ ∃ place, Serves mine theirs place := by
  obtain ⟨mySize, mySets⟩ := mapM_types isMine
  obtain ⟨theirSize, theirSets⟩ := mapM_types isTheirs
  rw [matchShards, saturate_iff, mySize, theirSize]
  refine exists_congr fun place => ⟨fun ⟨fits, apart⟩ => ⟨fun i bound => (fits i bound).1, apart,
    fun i shard other isShard isOther manaType => ?_⟩, fun ⟨inside, apart, serves⟩ =>
    ⟨fun i bound => ⟨inside i bound, ?_⟩, apart⟩⟩
  · rintro ⟨types, isTypes, held⟩
    have subset := (fits i (List.getElem?_eq_some_iff.mp isShard).1).2
    have isOne := theirSets _ other isOther
    obtain ⟨a, b, pair⟩ := ManaCostShard.types_pair isOne
    rw [isTypes] at isOne
    cases isOne
    rw [accepts, pair, isSubsetOf_pair] at subset
    exact ⟨_, mySets i shard isShard, subset manaType (pair ▸ held)⟩
  · have isShard := getElem?_eq_getElem bound
    have isOther := getElem?_eq_getElem (inside i bound)
    have isOne := theirSets _ _ isOther
    obtain ⟨a, b, pair⟩ := ManaCostShard.types_pair isOne
    rw [accepts, pair, isSubsetOf_pair]
    intro manaType held
    obtain ⟨types, isTypes, held⟩ :=
      serves i _ _ isShard isOther manaType ⟨_, isOne, pair ▸ held⟩
    rw [mySets i _ isShard] at isTypes
    cases isTypes
    exact held

end

section
variable {mine theirs : List ManaCostShard} {generic : Nat} {pool : Multiset ManaUnit}

theorem worth_single (single : Single mine) (generic : Nat) :
    worth mine generic = mine.length + generic := by
  have ones : mine.map (·.manaValueContribution) = replicate mine.length 1 := by
    refine eq_replicate_iff.mpr ⟨length_map _, fun value isValue => ?_⟩
    obtain ⟨shard, isShard, rfl⟩ := mem_map.mp isValue
    obtain ⟨types, isTypes⟩ := Option.isSome_iff_exists.mp (single shard isShard)
    exact ManaCostShard.worth_one isTypes
  rw [worth, ones, sum_replicate_nat, Nat.mul_one]

/-- A pool pays symbols that ask for one mana of a named type when it holds a unit for each. -/
theorem paidBy_single (single : Single mine) :
    (cost mine generic).PaidBy pool ↔ ∃ units rest : List ManaUnit,
      Forall₂ (fun shard unit => shard.PaidByType unit.color) mine units ∧
        rest.length = generic ∧ ((units ++ rest : List ManaUnit) : Multiset ManaUnit) ≤ pool := by
  have flat : ∀ units : List ManaUnit, (units.map ([·])).flatten = units := by
    intro units
    rw [← flatMap_def, flatMap_singleton']
  constructor
  · rintro ⟨parts, rest, paid, size, within⟩
    have one : ∃ units : List ManaUnit, parts = units.map ([·]) ∧
        Forall₂ (fun shard unit => shard.PaidByType unit.color) mine units := by
      clear within
      induction mine generalizing parts with
      | nil => cases paid; exact ⟨[], rfl, .nil⟩
      | cons shard mine ih =>
        cases paid with
        | cons pays paid =>
          obtain ⟨isSingle, single⟩ := forall_mem_cons.mp single
          obtain ⟨unit, rfl, byType⟩ := (ManaCostShard.pays_iff isSingle _).mp pays
          obtain ⟨units, rfl, all⟩ := ih single _ paid
          exact ⟨unit :: units, rfl, .cons byType all⟩
    obtain ⟨units, rfl, all⟩ := one
    exact ⟨units, rest, all, size, by rwa [flat] at within⟩
  · rintro ⟨units, rest, all, size, within⟩
    refine ⟨units.map ([·]), rest, ?_, size, by rwa [flat]⟩
    rw [forall₂_map_left_iff, forall₂_map_right_iff]
    refine forall₂_iff_get.mpr ⟨all.length_eq, fun i bound bound' => ?_⟩
    exact (ManaCostShard.pays_iff (single _ (get_mem _ _)) _).mpr
      ⟨_, rfl, (forall₂_iff_get.mp all).2 i bound bound'⟩

/-- The mana at the places pays the symbols served from there, and what is left over is enough
for the generic part. -/
theorem Serves.paidBy {other : Nat} {place : Nat → Nat} (serves : Serves mine theirs place)
    (single : Single mine) (theirSingle : Single theirs)
    (enough : mine.length + generic ≤ theirs.length + other)
    (paid : (cost theirs other).PaidBy pool) :
    (cost mine generic).PaidBy pool := by
  rw [paidBy_single single]
  obtain ⟨units, rest, all, size, within⟩ := (paidBy_single theirSingle).mp paid
  have length := all.length_eq
  obtain ⟨chosen, others, chosenSize, at_, split⟩ :=
    exists_chosen units (fun i bound => length ▸ serves.inside i bound) serves.apart
  have sizes := split.length_eq
  rw [length_append] at sizes
  refine ⟨chosen, (others ++ rest).take generic, ?_, ?_, ?_⟩
  · refine forall₂_iff_get.mpr ⟨chosenSize.symm, fun i bound bound' => ?_⟩
    have inside := serves.inside i bound
    have served := (forall₂_iff_get.mp all).2 _ inside (length ▸ inside)
    have same : chosen.get ⟨i, bound'⟩ = units.get ⟨place i, length ▸ inside⟩ := by
      have here := at_ i bound
      rw [getElem?_eq_getElem bound', getElem?_eq_getElem (length ▸ inside)] at here
      exact Option.some.inj here
    rw [same]
    exact serves.serves i _ _ (getElem?_eq_getElem bound) (getElem?_eq_getElem inside) _ served
  · rw [length_take, length_append]
    omega
  · have part : (chosen ++ (others ++ rest).take generic).Sublist (chosen ++ (others ++ rest)) :=
      (take_sublist _ _).append_left chosen
    have whole : (chosen ++ (others ++ rest)).Perm (units ++ rest) := by
      rw [← append_assoc]
      exact split.append_right rest
    exact (Multiset.coe_le.mpr (part.subperm.trans whole.subperm)).trans within

end

/-- What the symbols and the generic part are worth fits in 32 bits. -/
def ManaCost.Fits : ManaCost → Prop
  | .cost shards generic => worth shards generic < 2 ^ 32
  | .noCost | .selfManaCost | .selfManaValue | .selfManaCostReduced _ => True

theorem isPayableWhenever_cost {mine theirs : List ManaCostShard} {generic other : Nat} :
    (cost mine generic).isPayableWhenever (.cost theirs other) = true ↔
      Single mine ∧ Single theirs ∧
        (cost mine generic).manaValue ≤ (cost theirs other).manaValue ∧
          ∃ place, Serves mine theirs place := by
  unfold isPayableWhenever
  dsimp only
  constructor
  · intro answer
    split at answer
    · next more => cases answer
    · next values =>
      cases isMine : mine.mapM (·.singleManaPaymentTypes) with
      | none => rw [isMine] at answer; cases answer
      | some myTypes =>
        cases isTheirs : theirs.mapM (·.singleManaPaymentTypes) with
        | none => rw [isMine, isTheirs] at answer; cases answer
        | some theirTypes =>
          rw [isMine, isTheirs] at answer
          simp only [Bool.or_eq_true, decide_eq_true_eq, not_or, Nat.not_lt] at values
          exact ⟨mapM_single.mp ⟨_, isMine⟩, mapM_single.mp ⟨_, isTheirs⟩, values.1,
            (matchShards_iff isMine isTheirs).mp answer⟩
  · rintro ⟨single, theirSingle, values, place, serves⟩
    obtain ⟨myTypes, isMine⟩ := mapM_single.mpr single
    obtain ⟨theirTypes, isTheirs⟩ := mapM_single.mpr theirSingle
    have fewer := serves.length_le
    rw [if_neg (by simp only [Bool.or_eq_true, decide_eq_true_eq]; omega), isMine, isTheirs]
    exact (matchShards_iff isMine isTheirs).mpr ⟨place, serves⟩

/-- Where every symbol is one mana of a named type, the test finds an assignment exactly when
there is one; anywhere else it says no. What it says of a cost that fits is so of every pool. -/
theorem isPayableWhenever_exact (self other : ManaCost) :
    (self.isPayableWhenever other = true ↔ ∃ mine generic theirs otherGeneric,
      self = .cost mine generic ∧ other = .cost theirs otherGeneric ∧ Single mine ∧
        Single theirs ∧ self.manaValue ≤ other.manaValue ∧ ∃ place, Serves mine theirs place) ∧
    (self.isPayableWhenever other = true → self.Fits → ∀ pool, other.PaidBy pool →
      self.PaidBy pool) := by
  have exact_ : self.isPayableWhenever other = true ↔ ∃ mine generic theirs otherGeneric,
      self = .cost mine generic ∧ other = .cost theirs otherGeneric ∧ Single mine ∧
        Single theirs ∧ self.manaValue ≤ other.manaValue ∧ ∃ place, Serves mine theirs place := by
    cases self with
    | cost mine generic =>
      cases other with
      | cost theirs otherGeneric =>
        rw [isPayableWhenever_cost]
        constructor
        · rintro ⟨single, theirSingle, values, place⟩
          exact ⟨mine, generic, theirs, otherGeneric, rfl, rfl, single, theirSingle, values, place⟩
        · rintro ⟨_, _, _, _, isMine, isTheirs, single, theirSingle, values, place⟩
          cases isMine
          cases isTheirs
          exact ⟨single, theirSingle, values, place⟩
      | _ => exact ⟨nofun, by rintro ⟨_, _, _, _, -, isTheirs, -⟩; cases isTheirs⟩
    | _ => exact ⟨nofun, by rintro ⟨_, _, _, _, isMine, -⟩; cases isMine⟩
  refine ⟨exact_, fun answer fits pool paid => ?_⟩
  obtain ⟨mine, generic, theirs, otherGeneric, rfl, rfl, single, theirSingle, values, place,
    serves⟩ := exact_.mp answer
  refine serves.paidBy single theirSingle ?_ paid
  rw [← worth_single single, ← worth_single theirSingle]
  calc worth mine generic
      = (cost mine generic).manaValue := (Nat.mod_eq_of_lt fits).symm
    _ ≤ (cost theirs otherGeneric).manaValue := values
    _ ≤ worth theirs otherGeneric := Nat.mod_le _ _

/-- `{W}` against `{W}{S}`: the values and the assignment are there, but no answer is given for
a symbol that the sets of types do not describe. -/
theorem unmodelled_symbol_abstains :
    (cost [.white] 0).manaValue ≤ (cost [.white, .snow] 0).manaValue ∧
      Serves [.white] [.white, .snow] (fun i => i) ∧
      (cost [.white] 0).isPayableWhenever (.cost [.white, .snow] 0) = false := by
  refine ⟨by decide, ⟨fun i bound => ?_, fun i _ j _ same => same, ?_⟩, by decide⟩
  · exact Nat.lt_of_lt_of_le bound (by decide)
  · intro i shard other isShard isOther manaType byType
    have first : i = 0 := by
      have bound := (List.getElem?_eq_some_iff.mp isShard).1
      exact Nat.lt_one_iff.mp bound
    subst first
    cases isShard
    cases isOther
    exact byType

end Phase.Mana
