import Mathlib.Algebra.BigOperators.Group.List.Basic
import Mathlib.Data.UInt
import Mathlib.Data.List.AList

/-! The submission of a sideboarded deck between two games of a match, with its card counts of 32
bits, whose sums wrap. `Data` stands for what a card face holds beside its name. -/
namespace Phase.Sideboarding
open List

abbrev CountMap := AList fun _ : String => UInt32

variable {α : Type}

def bump (map : CountMap) (name : String) (count : UInt32) : CountMap :=
  map.insert name ((map.lookup name).getD 0 + count)

/-- What is listed no times is left out. -/
def countMap (name : α → String) (count : α → UInt32) (cards : List α) : CountMap :=
  cards.foldl (fun map card => if 0 < count card then bump map (name card) (count card) else map) ∅

/-- The second map added to the first, name by name. -/
def mergeCounts (map more : CountMap) : CountMap :=
  more.entries.foldl (fun map entry => bump map entry.1 entry.2) map

def sameCounts (map map' : CountMap) : Bool :=
  (map.keys ++ map'.keys).all fun name => map.lookup name = map'.lookup name

def totalOf (count : α → UInt32) (cards : List α) : UInt32 := (cards.map count).sum

/-- How many copies of a name are listed. -/
def copies (name : α → String) (count : α → UInt32) (cards : List α) (wanted : String) : Nat :=
  ((cards.filter (name · = wanted)).map fun card => (count card).toNat).sum

def total (count : α → UInt32) (cards : List α) : Nat :=
  (cards.map fun card => (count card).toNat).sum

variable {name : α → String} {count : α → UInt32}

@[simp] theorem copies_nil (wanted : String) : copies name count [] wanted = 0 := rfl

theorem copies_cons (card : α) (cards : List α) (wanted : String) :
    copies name count (card :: cards) wanted =
      (if name card = wanted then (count card).toNat else 0) + copies name count cards wanted := by
  unfold copies
  by_cases same : name card = wanted <;> simp [same]

theorem totalOf_toNat (cards : List α) : (totalOf count cards).toNat = total count cards % 2 ^ 32 := by
  unfold totalOf total
  induction cards with
  | nil => rfl
  | cons card cards ih =>
    rw [map_cons, sum_cons, map_cons, sum_cons, UInt32.toNat_add, ih, Nat.add_mod_mod]

theorem totalOf_le (cards : List α) : (totalOf count cards).toNat ≤ total count cards := by
  rw [totalOf_toNat]
  exact Nat.mod_le _ _

/-- What a map holds of a name listed so often. -/
def held (n : Nat) : Option UInt32 := if 0 < n then some (UInt32.ofNat n) else none

theorem lookup_bump (map : CountMap) (name wanted : String) (count : UInt32) :
    (bump map name count).lookup wanted =
      if wanted = name then some ((map.lookup name).getD 0 + count) else map.lookup wanted := by
  unfold bump
  by_cases same : wanted = name
  · rw [if_pos same, same, AList.lookup_insert]
  · rw [if_neg same, AList.lookup_insert_ne same]

theorem getD_held (n : Nat) : (held n).getD 0 = UInt32.ofNat n := by
  unfold held
  split
  · rfl
  · next none =>
    obtain rfl : n = 0 := by omega
    rfl

theorem held_add (m n : Nat) :
    (if 0 < n then some (UInt32.ofNat m + UInt32.ofNat n) else held m) = held (m + n) := by
  unfold held
  split
  · rw [if_pos (by omega), UInt32.ofNat_add]
  · next none =>
    obtain rfl : n = 0 := by omega
    rfl

theorem lookup_countMap (cards : List α) (wanted : String) :
    (countMap name count cards).lookup wanted = held (copies name count cards wanted) := by
  unfold countMap
  suffices run : ∀ (map : CountMap) (n : Nat), map.lookup wanted = held n →
      (cards.foldl (fun map card => if 0 < count card then bump map (name card) (count card) else map)
        map).lookup wanted = held (n + copies name count cards wanted) by
    simpa using run ∅ 0 rfl
  induction cards with
  | nil => simp
  | cons card cards ih =>
    intro map n before
    rw [foldl_cons, copies_cons, ← Nat.add_assoc]
    apply ih
    by_cases listed : 0 < count card
    · have positive : 0 < (count card).toNat := by simpa [UInt32.lt_iff_toNat_lt] using listed
      rw [if_pos listed, lookup_bump]
      by_cases same : name card = wanted
      · rw [if_pos same, same, before, getD_held, ← held_add, if_pos positive]
        simp
      · rw [if_neg (Ne.symm same), if_neg same, before, Nat.add_zero]
    · have zero : (count card).toNat = 0 := by
        simpa [UInt32.lt_iff_toNat_lt] using listed
      rw [if_neg listed, before, zero]
      simp

theorem lookup_mergeCounts (map more : CountMap) (wanted : String) :
    (mergeCounts map more).lookup wanted = match more.lookup wanted with
      | none => map.lookup wanted
      | some count => some ((map.lookup wanted).getD 0 + count) := by
  obtain ⟨entries, distinct⟩ := more
  change (entries.foldl (fun map entry => bump map entry.1 entry.2) map).lookup wanted =
    match entries.dlookup wanted with
      | none => map.lookup wanted
      | some count => some ((map.lookup wanted).getD 0 + count)
  induction entries generalizing map with
  | nil => rfl
  | cons entry entries ih =>
    obtain ⟨name, count⟩ := entry
    rw [nodupKeys_cons] at distinct
    rw [foldl_cons, ih _ distinct.2, lookup_bump]
    by_cases same : wanted = name
    · subst same
      have absent : entries.dlookup wanted = none :=
        dlookup_eq_none.mpr distinct.1
      rw [absent]
      simp
    · rw [dlookup_cons_ne _ _ same, if_neg same]

/-- Two lists counted into one map. -/
theorem lookup_merged {β : Type} {name' : β → String} {count' : β → UInt32} (cards : List α)
    (cards' : List β) (wanted : String) :
    (mergeCounts (countMap name count cards) (countMap name' count' cards')).lookup wanted =
      held (copies name count cards wanted + copies name' count' cards' wanted) := by
  rw [lookup_mergeCounts, lookup_countMap, lookup_countMap, getD_held, ← held_add]
  unfold held
  by_cases some : 0 < copies name' count' cards' wanted <;> simp [some]

theorem sameCounts_iff {map map' : CountMap} :
    sameCounts map map' = true ↔ ∀ name, map.lookup name = map'.lookup name := by
  unfold sameCounts
  rw [all_eq_true]
  constructor
  · intro all name
    by_cases inside : name ∈ map.keys ++ map'.keys
    · simpa using all name inside
    · rw [mem_append, not_or] at inside
      rw [AList.lookup_eq_none.mpr inside.1, AList.lookup_eq_none.mpr inside.2]
  · intro all name inside
    simpa using all name

/-- Equal maps agree on which names are listed, and on their numbers up to the wrap. -/
theorem held_inj {m n : Nat} (same : held m = held n) :
    (0 < m ↔ 0 < n) ∧ m % 2 ^ 32 = n % 2 ^ 32 := by
  unfold held at same
  by_cases some : 0 < m <;> by_cases some' : 0 < n
  · rw [if_pos some, if_pos some', Option.some.injEq] at same
    have := congrArg UInt32.toNat same
    exact ⟨iff_of_true some some', this⟩
  · rw [if_pos some, if_neg some'] at same
    cases same
  · rw [if_neg some, if_pos some'] at same
    cases same
  · obtain rfl : m = 0 := by omega
    obtain rfl : n = 0 := by omega
    exact ⟨Iff.rfl, rfl⟩

/-- Numbers that agree up to the wrap are equal exactly when they wrap equally often. -/
theorem eq_iff_wraps {m n : Nat} (same : m % 2 ^ 32 = n % 2 ^ 32) :
    m = n ↔ m / 2 ^ 32 = n / 2 ^ 32 := by
  constructor
  · rintro rfl
    rfl
  · intro wraps
    rw [← Nat.div_add_mod m (2 ^ 32), ← Nat.div_add_mod n (2 ^ 32), same, wraps]

abbrev PlayerId := Nat

structure CardFace (Data : Type) where
  name : String
  data : Data

structure DeckEntry (Data : Type) where
  card : CardFace Data
  count : UInt32

structure DeckCardCount where
  name : String
  count : UInt32
  deriving DecidableEq

/-- The lists of a seat that sideboarding reads and writes. -/
structure PlayerDeckPool (Data : Type) where
  player : PlayerId
  registeredMain : List (DeckEntry Data)
  registeredSideboard : List (DeckEntry Data)
  registeredCommander : List (DeckEntry Data)
  registeredCompanion : List (DeckEntry Data)
  currentMain : List (DeckEntry Data)
  currentSideboard : List (DeckEntry Data)

inductive MatchPhase
  | inGame
  | betweenGames
  | completed
  deriving DecidableEq

inductive SideboardPolicy
  | forbidden
  | limited (max : UInt32)
  | unlimited
  deriving DecidableEq

structure MatchScore where
  p0Wins : UInt8
  p1Wins : UInt8
  draws : UInt8
  deriving DecidableEq

/-- The two prompts between games, and any other. -/
inductive WaitingFor
  | betweenGamesSideboard (player : PlayerId) (gameNumber : UInt8) (score : MatchScore)
      (minMainDeckSize : UInt32) (maxSideboardSize : Option UInt32)
  | betweenGamesChoosePlayDraw (player : PlayerId) (gameNumber : UInt8) (score : MatchScore)
  | other
  deriving DecidableEq

/-- `minCards` is the floor of the format's deck size, `archenemy` the seat against the rest. -/
structure MatchState (Data : Type) where
  matchPhase : MatchPhase
  minCards : UInt16
  sideboardPolicy : SideboardPolicy
  archenemy : Option PlayerId
  deckPools : List (PlayerDeckPool Data)
  sideboardSubmitted : List PlayerId
  nextGameChooser : Option PlayerId
  gameNumber : UInt8
  matchScore : MatchScore
  waitingFor : WaitingFor

variable {Data : Type}

def totalCount (entries : List (DeckEntry Data)) : UInt32 := totalOf (·.count) entries

def submittedTotal (cards : List DeckCardCount) : UInt32 := totalOf (·.count) cards

def toCountMap (cards : List DeckCardCount) : CountMap := countMap (·.name) (·.count) cards

def entriesToCountMap (entries : List (DeckEntry Data)) : CountMap :=
  countMap (·.card.name) (·.count) entries

/-- The face of a name: the first one registered. -/
def PlayerDeckPool.face? (pool : PlayerDeckPool Data) (name : String) : Option (CardFace Data) :=
  ((pool.registeredMain ++ pool.registeredSideboard ++ pool.registeredCommander ++
    pool.registeredCompanion).find? (·.card.name = name)).map (·.card)

def countsToEntries (faces : String → Option (CardFace Data)) :
    List DeckCardCount → Except String (List (DeckEntry Data))
  | [] => .ok []
  | card :: counts =>
    if card.count = 0 then countsToEntries faces counts
    else match faces card.name with
      | none => .error s!"Unknown card in sideboard submission: {card.name}"
      | some face => (countsToEntries faces counts).map (⟨face, card.count⟩ :: ·)

namespace MatchState

def pool? (state : MatchState Data) (player : PlayerId) : Option (PlayerDeckPool Data) :=
  state.deckPools.find? (·.player = player)

/-- Changes the first pool of a player. -/
def modifyPool (player : PlayerId) (change : PlayerDeckPool Data → PlayerDeckPool Data)
    (state : MatchState Data) : MatchState Data :=
  { state with
    deckPools := state.deckPools.modify (state.deckPools.findIdx (·.player = player)) change }

def bo3SideboardPlayers (state : MatchState Data) : List PlayerId :=
  if state.archenemy.isSome then state.deckPools.map (·.player) else [0, 1]

def nextUnsubmittedSideboardPlayer (state : MatchState Data) : Option PlayerId :=
  state.bo3SideboardPlayers.find? (· ∉ state.sideboardSubmitted)

/-- The least size of a main deck and the greatest of a sideboard, if it has one. -/
def sideboardSubmissionBounds (state : MatchState Data) (player : PlayerId) :
    UInt32 × Option UInt32 :=
  let registeredMainTotal := ((state.pool? player).map fun pool =>
    totalCount pool.registeredMain).getD 0
  (min state.minCards.toUInt32 registeredMainTotal, match state.sideboardPolicy with
    | .forbidden => some 0
    | .limited max => some max
    | .unlimited => none)

def betweenGamesSideboardPrompt (state : MatchState Data) (player : PlayerId) : WaitingFor :=
  let (minMainDeckSize, maxSideboardSize) := state.sideboardSubmissionBounds player
  .betweenGamesSideboard player state.gameNumber state.matchScore minMainDeckSize maxSideboardSize

end MatchState

def maxActionListLen : Nat := 10000

def maxChoiceLen : Nat := 256

def boundList (field : String) (len : Nat) : Except String Unit :=
  if maxActionListLen < len then
    .error s!"{field} has {len} entries; at most {maxActionListLen} allowed"
  else .ok ()

def boundNames (field : String) (cards : List DeckCardCount) : Except String Unit :=
  match cards.findIdx? fun card => maxChoiceLen < card.name.utf8ByteSize with
  | none => .ok ()
  | some index =>
    let size := (cards[index]?.map (·.name.utf8ByteSize)).getD 0
    .error s!"{field}[{index}].name is {size} bytes; at most {maxChoiceLen} allowed"

def guardSubmitSideboard (main sideboard : List DeckCardCount) : Except String Unit := do
  boundList "SubmitSideboard.main" main.length
  boundList "SubmitSideboard.sideboard" sideboard.length
  boundNames "SubmitSideboard.main" main
  boundNames "SubmitSideboard.sideboard" sideboard

section
variable (player : PlayerId) (main sideboard : List DeckCardCount)

/-- Refuses a submission that does not fit the bounds or the registered cards. -/
def checkSubmission (state : MatchState Data) : Except String (PlayerDeckPool Data) := do
  if state.matchPhase ≠ .betweenGames then
    throw "Cannot submit sideboard outside BetweenGames phase"
  let (minMainDeckSize, maxSideboardSize) := state.sideboardSubmissionBounds player
  match state.pool? player with
  | none => throw "Deck pool not found for player"
  | some pool =>
    let submittedMainTotal := submittedTotal main
    if submittedMainTotal < minMainDeckSize then
      throw s!"Main deck has {submittedMainTotal} cards (minimum {minMainDeckSize})"
    let submittedSideboardTotal := submittedTotal sideboard
    if let some max := maxSideboardSize then
      if max < submittedSideboardTotal then
        throw s!"Sideboard has {submittedSideboardTotal} cards (maximum {max})"
    let submitted := mergeCounts (toCountMap main) (toCountMap sideboard)
    let registered := mergeCounts (entriesToCountMap pool.registeredMain)
      (entriesToCountMap pool.registeredSideboard)
    if !sameCounts submitted registered then
      throw "Submitted main+sideboard must match registered card pool"
    return pool

/-- The submission up to the choice of the next prompt. The main deck is stored before the
sideboard is read. -/
def storeSubmission : EStateM String (MatchState Data) Unit := do
  let pool ← ofExcept (checkSubmission player main sideboard (← get))
  let entries ← ofExcept (countsToEntries pool.face? main)
  modify (MatchState.modifyPool player ({ · with currentMain := entries }))
  let entries ← ofExcept (countsToEntries pool.face? sideboard)
  modify (MatchState.modifyPool player ({ · with currentSideboard := entries }))
  modify fun state =>
    if player ∈ state.sideboardSubmitted then state
    else { state with sideboardSubmitted := state.sideboardSubmitted ++ [player] }

/-- Restarts an archenemy match. `next` is what loading and starting the next game from the
current pools makes of the state. -/
def restartBetweenGames (next : MatchState Data → MatchState Data) :
    EStateM String (MatchState Data) WaitingFor := do
  let state ← get
  if (state.pool? 0).isNone then throw "Missing player 0 deck pool"
  if (state.pool? 1).isNone then throw "Missing player 1 deck pool"
  set (next state)
  return (next state).waitingFor

def handleSubmitSideboard (next : MatchState Data → MatchState Data) :
    EStateM String (MatchState Data) WaitingFor := do
  storeSubmission player main sideboard
  let state ← get
  match state.nextUnsubmittedSideboardPlayer with
  | none =>
    if state.archenemy.isSome then restartBetweenGames next
    else
      let waitingFor := .betweenGamesChoosePlayDraw (state.nextGameChooser.getD 0)
        state.gameNumber state.matchScore
      set { state with waitingFor }
      return waitingFor
  | some unsubmitted =>
    let waitingFor := state.betweenGamesSideboardPrompt unsubmitted
    set { state with waitingFor }
    return waitingFor

end

end Phase.Sideboarding
