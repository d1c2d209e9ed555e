import Phase.Mana.Types

/-! Mana costs: their symbols, what each symbol asks for, and what a cost is worth. -/
namespace Phase.Mana

/-- `mana_type as u8`. -/
def ManaType.index : ManaType → Nat
  | .white => 0
  | .blue => 1
  | .black => 2
  | .red => 3
  | .green => 4
  | .colorless => 5

/-- A set over the six types of mana, as a bitmask. -/
structure ManaTypeSet where
  bits : BitVec 8
  deriving DecidableEq

namespace ManaTypeSet

def empty : ManaTypeSet := ⟨0⟩

def of (manaType : ManaType) : ManaTypeSet := ⟨1#8 <<< manaType.index⟩

def insert (set : ManaTypeSet) (manaType : ManaType) : ManaTypeSet :=
  ⟨set.bits ||| (1#8 <<< manaType.index)⟩

def contains (set : ManaTypeSet) (manaType : ManaType) : Bool :=
  set.bits &&& (1#8 <<< manaType.index) ≠ 0

def isSubsetOf (set other : ManaTypeSet) : Bool := set.bits &&& ~~~other.bits = 0

theorem contains_eq (set : ManaTypeSet) (manaType : ManaType) :
    set.contains manaType = set.bits.getLsbD manaType.index := by
  have inside : BitVec.twoPow 8 manaType.index ≠ 0 := by cases manaType <;> decide
  rw [contains, ← BitVec.twoPow_eq, BitVec.and_twoPow]
  split
  · next held => rw [held, decide_eq_true inside]
  · next missing => rw [Bool.not_eq_true] at missing; rw [missing]; rfl

/-- A set of one or two types, as a symbol has it. -/
theorem contains_pair (a b manaType : ManaType) :
    ((of a).insert b).contains manaType = decide (manaType = a ∨ manaType = b) := by
  cases a <;> cases b <;> cases manaType <;> rfl

theorem isSubsetOf_pair {a b : ManaType} {other : ManaTypeSet} :
    ((of a).insert b).isSubsetOf other ↔ ∀ manaType,
      ((of a).insert b).contains manaType → other.contains manaType := by
  unfold isSubsetOf
  rw [decide_eq_true_iff]
  constructor
  · intro none_ manaType held
    have small : manaType.index < 8 := by cases manaType <;> decide
    rw [contains_eq] at held ⊢
    have here := congrArg (fun bits : BitVec 8 => bits.getLsbD manaType.index) none_
    simpa [held, small] using here
  · intro within
    refine BitVec.eq_of_getLsbD_eq fun i bound => ?_
    have bits : ((of a).insert b).bits.getLsbD i → i = a.index ∨ i = b.index := by
      rw [insert, of, ← BitVec.twoPow_eq, ← BitVec.twoPow_eq, BitVec.getLsbD_or,
        BitVec.getLsbD_twoPow, BitVec.getLsbD_twoPow]
      simp only [Bool.or_eq_true, Bool.and_eq_true, decide_eq_true_eq]
      rintro (⟨-, rfl⟩ | ⟨-, rfl⟩)
      · exact .inl rfl
      · exact .inr rfl
    have both : ∀ manaType, manaType = a ∨ manaType = b →
        other.bits.getLsbD manaType.index = true := by
      intro manaType isOne
      rw [← contains_eq]
      exact within manaType (by rw [contains_pair]; exact decide_eq_true isOne)
    have zero : (0 : BitVec 8).getLsbD i = false := BitVec.getLsbD_zero
    rw [BitVec.getLsbD_and, BitVec.getLsbD_not, zero]
    cases held : ((of a).insert b).bits.getLsbD i with
    | false => rfl
    | true =>
      rcases bits held with rfl | rfl
      · rw [both a (.inl rfl)]
        simp
      · rw [both b (.inr rfl)]
        simp

end ManaTypeSet

inductive ManaCostShard where
  | white | blue | black | red | green
  | colorless | snow | x | twoOrMoreColorSource
  | whiteBlue | whiteBlack | blueBlack | blueRed | blackRed | blackGreen | redWhite | redGreen
  | greenWhite | greenBlue
  | twoWhite | twoBlue | twoBlack | twoRed | twoGreen
  | phyrexianWhite | phyrexianBlue | phyrexianBlack | phyrexianRed | phyrexianGreen
  | phyrexianWhiteBlue | phyrexianWhiteBlack | phyrexianBlueBlack | phyrexianBlueRed
  | phyrexianBlackRed | phyrexianBlackGreen | phyrexianRedWhite | phyrexianRedGreen
  | phyrexianGreenWhite | phyrexianGreenBlue
  | colorlessWhite | colorlessBlue | colorlessBlack | colorlessRed | colorlessGreen
  deriving DecidableEq

/-- What a symbol asks for. -/
inductive ShardRequirement where
  | single (color : ManaType)
  | hybrid (a b : ManaType)
  | phyrexian (color : ManaType)
  | twoGenericHybrid (color : ManaType)
  | snow
  | twoOrMoreColorSource
  | x
  | colorlessHybrid (color : ManaType)
  | hybridPhyrexian (a b : ManaType)
  | twoGenericHybridPhyrexian (color : ManaType)
  deriving DecidableEq

namespace ManaCostShard

def manaValueContribution : ManaCostShard → Nat
  | twoWhite | twoBlue | twoBlack | twoRed | twoGreen => 2
  | x => 0
  | _ => 1

/-- The types of the one mana that pays the symbol, if it is paid with one mana of a named
type. -/
def singleManaPaymentTypes : ManaCostShard → Option ManaTypeSet
  | white => some (.of .white)
  | blue => some (.of .blue)
  | black => some (.of .black)
  | red => some (.of .red)
  | green => some (.of .green)
  | colorless => some (.of .colorless)
  | whiteBlue => some ((ManaTypeSet.of .white).insert .blue)
  | whiteBlack => some ((ManaTypeSet.of .white).insert .black)
  | blueBlack => some ((ManaTypeSet.of .blue).insert .black)
  | blueRed => some ((ManaTypeSet.of .blue).insert .red)
  | blackRed => some ((ManaTypeSet.of .black).insert .red)
  | blackGreen => some ((ManaTypeSet.of .black).insert .green)
  | redWhite => some ((ManaTypeSet.of .red).insert .white)
  | redGreen => some ((ManaTypeSet.of .red).insert .green)
  | greenWhite => some ((ManaTypeSet.of .green).insert .white)
  | greenBlue => some ((ManaTypeSet.of .green).insert .blue)
  | colorlessWhite => some ((ManaTypeSet.of .colorless).insert .white)
  | colorlessBlue => some ((ManaTypeSet.of .colorless).insert .blue)
  | colorlessBlack => some ((ManaTypeSet.of .colorless).insert .black)
  | colorlessRed => some ((ManaTypeSet.of .colorless).insert .red)
  | colorlessGreen => some ((ManaTypeSet.of .colorless).insert .green)
  | _ => none

/-- `shard_to_mana_type`. -/
def toRequirement : ManaCostShard → ShardRequirement
  | white => .single .white
  | blue => .single .blue
  | black => .single .black
  | red => .single .red
  | green => .single .green
  | colorless => .single .colorless
  | snow => .snow
  | twoOrMoreColorSource => .twoOrMoreColorSource
  | x => .x
  | whiteBlue => .hybrid .white .blue
  | whiteBlack => .hybrid .white .black
  | blueBlack => .hybrid .blue .black
  | blueRed => .hybrid .blue .red
  | blackRed => .hybrid .black .red
  | blackGreen => .hybrid .black .green
  | redWhite => .hybrid .red .white
  | redGreen => .hybrid .red .green
  | greenWhite => .hybrid .green .white
  | greenBlue => .hybrid .green .blue
  | twoWhite => .twoGenericHybrid .white
  | twoBlue => .twoGenericHybrid .blue
  | twoBlack => .twoGenericHybrid .black
  | twoRed => .twoGenericHybrid .red
  | twoGreen => .twoGenericHybrid .green
  | phyrexianWhite => .phyrexian .white
  | phyrexianBlue => .phyrexian .blue
  | phyrexianBlack => .phyrexian .black
  | phyrexianRed => .phyrexian .red
  | phyrexianGreen => .phyrexian .green
  | phyrexianWhiteBlue => .hybridPhyrexian .white .blue
  | phyrexianWhiteBlack => .hybridPhyrexian .white .black
  | phyrexianBlueBlack => .hybridPhyrexian .blue .black
  | phyrexianBlueRed => .hybridPhyrexian .blue .red
  | phyrexianBlackRed => .hybridPhyrexian .black .red
  | phyrexianBlackGreen => .hybridPhyrexian .black .green
  | phyrexianRedWhite => .hybridPhyrexian .red .white
  | phyrexianRedGreen => .hybridPhyrexian .red .green
  | phyrexianGreenWhite => .hybridPhyrexian .green .white
  | phyrexianGreenBlue => .hybridPhyrexian .green .blue
  | colorlessWhite => .colorlessHybrid .white
  | colorlessBlue => .colorlessHybrid .blue
  | colorlessBlack => .colorlessHybrid .black
  | colorlessRed => .colorlessHybrid .red
  | colorlessGreen => .colorlessHybrid .green

end ManaCostShard

/-- The mana that a symbol is paid with; none where it is paid with life. -/
inductive Pays : ShardRequirement → List ManaUnit → Prop
  | single {color : ManaType} {unit : ManaUnit} (is : unit.color = color) :
      Pays (.single color) [unit]
  | hybrid {a b : ManaType} {unit : ManaUnit} (is : unit.color = a ∨ unit.color = b) :
      Pays (.hybrid a b) [unit]
  | phyrexian {color : ManaType} {unit : ManaUnit} (is : unit.color = color) :
      Pays (.phyrexian color) [unit]
  | phyrexianLife {color : ManaType} : Pays (.phyrexian color) []
  | twoGenericColored {color : ManaType} {unit : ManaUnit} (is : unit.color = color) :
      Pays (.twoGenericHybrid color) [unit]
  | twoGeneric {color : ManaType} {first second : ManaUnit} :
      Pays (.twoGenericHybrid color) [first, second]
  | snow {unit : ManaUnit} (isSnow : unit.isSnow) : Pays .snow [unit]
  | twoOrMoreColorSource {unit : ManaUnit} (isSource : unit.sourceCouldProduceTwoOrMoreColors) :
      Pays .twoOrMoreColorSource [unit]
  | x : Pays .x []
  | colorlessHybrid {color : ManaType} {unit : ManaUnit}
      (is : unit.color = .colorless ∨ unit.color = color) : Pays (.colorlessHybrid color) [unit]
  | hybridPhyrexian {a b : ManaType} {unit : ManaUnit} (is : unit.color = a ∨ unit.color = b) :
      Pays (.hybridPhyrexian a b) [unit]
  | hybridPhyrexianLife {a b : ManaType} : Pays (.hybridPhyrexian a b) []
  | twoGenericPhyrexianColored {color : ManaType} {unit : ManaUnit} (is : unit.color = color) :
      Pays (.twoGenericHybridPhyrexian color) [unit]
  | twoGenericPhyrexian {color : ManaType} {first second : ManaUnit} :
      Pays (.twoGenericHybridPhyrexian color) [first, second]
  | twoGenericPhyrexianLife {color : ManaType} : Pays (.twoGenericHybridPhyrexian color) []

inductive ManaCost where
  | noCost
  | cost (shards : List ManaCostShard) (generic : Nat)
  | selfManaCost
  | selfManaValue
  | selfManaCostReduced (reduction : Nat)
  deriving DecidableEq

namespace ManaCost

/-- What the symbols are worth together, before it is stored in 32 bits. -/
def worth (shards : List ManaCostShard) (generic : Nat) : Nat :=
  (shards.map (·.manaValueContribution)).sum + generic

/-- A `u32`, which wraps in a release build. -/
def manaValue : ManaCost → Nat
  | cost shards generic => worth shards generic % 2 ^ 32
  | noCost | selfManaCost | selfManaValue | selfManaCostReduced _ => 0

end ManaCost

end Phase.Mana
