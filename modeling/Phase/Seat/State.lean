import Mathlib.Data.List.Basic

/-! The seats of a room before its game begins: the host fills them, empties them, removes
them, and starts the game. -/
namespace Phase.Seat

inductive AiDifficulty where
  | veryEasy
  | easy
  | medium
  | hard
  | veryHard
  | cedh
  deriving DecidableEq

/-- `Data` stands for the lists of a deck, which the reducer only compares. -/
inductive DeckChoice (Data : Type) where
  | random
  | named (name : String)
  | deckList (deck : Data)
  deriving DecidableEq

inductive SeatKind (Data : Type) where
  | hostHuman
  | joinedHuman
  | waitingHuman
  | ai (difficulty : AiDifficulty) (deck : DeckChoice Data)
  deriving DecidableEq

inductive SeatMutation (Data : Type) where
  | setKind (seatIndex : UInt8) (kind : SeatKind Data) (expectedKind : Option (SeatKind Data))
  | remove (seatIndex : UInt8)
  | start
  deriving DecidableEq

/-- The one field of the format that the reducer reads. -/
structure FormatConfig where
  minPlayers : UInt8
  deriving DecidableEq

structure SeatState (Data : Type) where
  seats : List (SeatKind Data)
  tokens : List String
  format : FormatConfig
  gameStarted : Bool
  deriving DecidableEq

variable {Data Deck : Type}

namespace SeatState

/-- No waiting seat remains. -/
def isFull (state : SeatState Data) : Bool :=
  state.seats.all fun
    | .hostHuman | .joinedHuman | .ai _ _ => true
    | .waitingHuman => false

def isPregame (state : SeatState Data) : Bool := !state.gameStarted

end SeatState

structure Renumbering where
  removedIndex : UInt8
  remapping : List (UInt8 × UInt8)
  deriving DecidableEq

/-- `Deck` stands for a resolved deck, which the reducer only passes on. -/
structure SeatDelta (Deck : Type) where
  mutatedSeats : List UInt8
  invalidatedTokens : List String
  removedAi : List UInt8
  newAi : List (UInt8 × AiDifficulty × Deck)
  renumbering : Option Renumbering
  nowStarted : Bool
  deriving DecidableEq

def SeatDelta.empty : SeatDelta Deck :=
  { mutatedSeats := [], invalidatedTokens := [], removedAi := [], newAi := [],
    renumbering := none, nowStarted := false }

inductive SeatError where
  | gameStarted
  | seatImmutable
  | invalidTransition
  | belowFormatMin
  | seatClaimed
  | notFull
  | deckResolutionFailed (message : String)
  deriving DecidableEq

structure ReducerCtx (Data Deck : Type) where
  deckResolver : DeckChoice Data → Except String Deck

/-! ## The reducer

A call edits the state in place. It may fail midway, and then the state is as far as the call
got: nothing but the code itself takes an edit back. -/

/-- A refusal, or an index out of bounds. -/
inductive Stop where
  | err (error : SeatError)
  | panic
  deriving DecidableEq

abbrev Reducer (Data : Type) := EStateM Stop (SeatState Data)

def refuse {α : Type} (error : SeatError) : Reducer Data α := throw (.err error)

/-- `state.seats[seat]`. -/
def seatAt (seat : Nat) : Reducer Data (SeatKind Data) := do
  match (← get).seats[seat]? with
  | some kind => pure kind
  | none => throw .panic

/-- `state.seats[seat] = kind`. -/
def setSeat (seat : Nat) (kind : SeatKind Data) : Reducer Data Unit := do
  let state ← get
  if seat < state.seats.length then set { state with seats := state.seats.set seat kind }
  else throw .panic

/-- `state.tokens[seat].clone()`. -/
def tokenAt (seat : Nat) : Reducer Data String := do
  match (← get).tokens[seat]? with
  | some token => pure token
  | none => throw .panic

/-- `state.tokens[seat].clear()`. -/
def clearToken (seat : Nat) : Reducer Data Unit := do
  let state ← get
  if seat < state.tokens.length then set { state with tokens := state.tokens.set seat "" }
  else throw .panic

/-- `state.seats.remove(seat)`. -/
def removeSeat (seat : Nat) : Reducer Data (SeatKind Data) := do
  let state ← get
  match state.seats[seat]? with
  | some kind =>
    set { state with seats := state.seats.eraseIdx seat }
    pure kind
  | none => throw .panic

/-- `state.tokens.remove(seat)`. -/
def removeToken (seat : Nat) : Reducer Data Unit := do
  let state ← get
  if seat < state.tokens.length then set { state with tokens := state.tokens.eraseIdx seat }
  else throw .panic

def resolve (ctx : ReducerCtx Data Deck) (deck : DeckChoice Data) : Reducer Data Deck :=
  match ctx.deckResolver deck with
  | .ok resolved => pure resolved
  | .error message => refuse (.deckResolutionFailed message)

/-- `(first..last).collect()`. -/
def range (first last : UInt8) : List UInt8 :=
  (List.range' first.toNat (last.toNat - first.toNat)).map UInt8.ofNat

/-- `(first..=last).collect()`. -/
def rangeInclusive (first last : UInt8) : List UInt8 :=
  (List.range' first.toNat (last.toNat + 1 - first.toNat)).map UInt8.ofNat

def applyStart : Reducer Data (SeatDelta Deck) := do
  let state ← get
  if state.isFull = false then refuse .notFull
  else
    set { state with gameStarted := true }
    pure { SeatDelta.empty with nowStarted := true }

section
variable [DecidableEq Data]

/-- The last part of `applySetKind`, for an occupant who differs from the new kind. -/
def replaceKind (seatIndex : UInt8) (current kind : SeatKind Data) (ctx : ReducerCtx Data Deck) :
    Reducer Data (SeatDelta Deck) := do
  let seat := seatIndex.toNat
  let delta : SeatDelta Deck := { SeatDelta.empty with mutatedSeats := [seatIndex] }
  match current, kind with
  | .hostHuman, _ => refuse .seatImmutable
  | .waitingHuman, .joinedHuman | .ai _ _, .joinedHuman | .joinedHuman, .hostHuman
  | .waitingHuman, .hostHuman | .ai _ _, .hostHuman => refuse .invalidTransition
  | .waitingHuman, .waitingHuman | .joinedHuman, .joinedHuman => pure delta
  | .waitingHuman, .ai difficulty deck =>
    let resolved ← resolve ctx deck
    setSeat seat kind
    clearToken seat
    pure { delta with newAi := [(seatIndex, difficulty, resolved)] }
  | .ai _ _, .waitingHuman =>
    setSeat seat .waitingHuman
    clearToken seat
    pure { delta with removedAi := [seatIndex] }
  | .ai _ _, .ai difficulty deck =>
    let resolved ← resolve ctx deck
    setSeat seat kind
    clearToken seat
    pure { delta with
      removedAi := [seatIndex], newAi := [(seatIndex, difficulty, resolved)] }
  | .joinedHuman, .waitingHuman =>
    let token ← tokenAt seat
    clearToken seat
    setSeat seat .waitingHuman
    pure { delta with invalidatedTokens := [token] }
  | .joinedHuman, .ai difficulty deck =>
    let resolved ← resolve ctx deck
    let token ← tokenAt seat
    clearToken seat
    setSeat seat kind
    pure { delta with
      invalidatedTokens := [token], newAi := [(seatIndex, difficulty, resolved)] }

def applySetKind (seatIndex : UInt8) (kind : SeatKind Data)
    (expectedKind : Option (SeatKind Data)) (ctx : ReducerCtx Data Deck) :
    Reducer Data (SeatDelta Deck) := do
  let seat := seatIndex.toNat
  if seat = 0 ∨ (← get).seats.length ≤ seat then refuse .seatImmutable
  else
    let current ← seatAt seat
    if expectedKind.any (· != current) then pure .empty
    else if current = kind then pure .empty
    else replaceKind seatIndex current kind ctx

end

def applyRemove (seatIndex : UInt8) : Reducer Data (SeatDelta Deck) := do
  let seat := seatIndex.toNat
  let state ← get
  if seat = 0 ∨ state.seats.length ≤ seat then refuse .seatImmutable
  else if state.seats.length ≤ state.format.minPlayers.toNat then refuse .belowFormatMin
  else
    match ← seatAt seat with
    | .joinedHuman => refuse .seatClaimed
    | .hostHuman => refuse .seatImmutable
    | .ai _ _ | .waitingHuman =>
      let removedKind ← removeSeat seat
      removeToken seat
      -- a cast to a byte, and byte arithmetic, keep the low eight bits
      let last := UInt8.ofNat (← get).seats.length
      pure {
        SeatDelta.empty with
        mutatedSeats := range seatIndex last
        removedAi := match removedKind with
          | .ai _ _ => [seatIndex]
          | _ => []
        renumbering := some {
          removedIndex := seatIndex
          remapping := (rangeInclusive (seatIndex + 1) last).map fun old => (old, old - 1) } }

/-- One mutation: everything is refused once the game has started. -/
def apply [DecidableEq Data] (mutation : SeatMutation Data) (ctx : ReducerCtx Data Deck) :
    Reducer Data (SeatDelta Deck) := do
  if (← get).isPregame = false then refuse .gameStarted
  else
    match mutation with
    | .start => applyStart
    | .setKind seatIndex kind expectedKind => applySetKind seatIndex kind expectedKind ctx
    | .remove seatIndex => applyRemove seatIndex

end Phase.Seat
