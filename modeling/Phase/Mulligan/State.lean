import Mathlib.Data.List.Perm.Basic

/-! Hands, libraries and exile before the game begins, and how cards are dealt. -/
namespace Phase.Mulligan

abbrev PlayerId := Nat
abbrev ObjectId := Nat

inductive GameFormat where
  | standard | limited | commander | pioneer | modern | premodern | legacy | vintage | historic
  | timeless | pauper | pauperCommander | duelCommander | tinyLeaders | oathbreaker | brawl
  | historicBrawl | freeForAll | twoHeadedGiant | twoHeadedGiantCommander | archenemy
  | archenemyCommander | planechase | planechaseCommander | momir | commanderDraft | freeform
  | freeformCommander | dandan
  | custom (id : Nat)
  deriving DecidableEq

inductive ZoneScope where
  | perPlayer
  | shared
  deriving DecidableEq

inductive DealOrder where
  | playerByPlayer
  | interleaved
  deriving DecidableEq

inductive FreeRevealMulligan where
  | unavailable
  | whenHandLacks (minLands minNonlands : Nat)
  deriving DecidableEq

inductive EntryOwnership where
  | ownerKept
  | actorOwns
  deriving DecidableEq

namespace GameFormat

def grantsFreeFirstMulligan : GameFormat → Bool
  | .commander | .pauperCommander | .duelCommander | .oathbreaker | .brawl | .historicBrawl
  | .archenemyCommander | .freeformCommander | .planechaseCommander => true
  | _ => false

/-- Whether the seats share one library. -/
def sharedLibrary : GameFormat → ZoneScope
  | .dandan => .shared
  | _ => .perPlayer

def dealOrder : GameFormat → DealOrder
  | .dandan => .interleaved
  | _ => .playerByPlayer

def freeRevealMulligan : GameFormat → FreeRevealMulligan
  | .dandan => .whenHandLacks 2 2
  | _ => .unavailable

def entryOwnership : GameFormat → EntryOwnership
  | .dandan => .actorOwns
  | _ => .ownerKept

end GameFormat

/-- The zones that cards are in before the game begins. -/
inductive Zone where
  | hand
  | library
  | exile
  deriving DecidableEq

structure GameObject where
  name : String
  isLand : Bool
  owner : PlayerId
  zone : Zone

inductive TurnDirection where
  | normal
  | reversed
  deriving DecidableEq

/-- The random source: every shuffle is a rearrangement. -/
structure Shuffler (Rng : Type) where
  shuffle : Rng → List ObjectId → List ObjectId × Rng
  perm : ∀ rng cards, (shuffle rng cards).1.Perm cards

/-- `drawsMissed` counts the draws that found an empty library, and `bottomed` the cards that a
player put on the bottom since its hand last went back; the program keeps neither. -/
structure GameState (Rng : Type) where
  format : GameFormat
  players : List PlayerId
  isEliminated : PlayerId → Bool
  seatOrder : List PlayerId
  activePlayer : PlayerId
  turnDirection : TurnDirection
  hand : PlayerId → List ObjectId
  library : PlayerId → List ObjectId
  exile : List ObjectId
  objects : ObjectId → Option GameObject
  commanderCount : PlayerId → Nat
  prepaidMulliganBottoms : PlayerId → Option Nat
  rng : Rng
  drawsMissed : Nat
  bottomed : PlayerId → Nat

namespace GameState

variable {Rng : Type} (state : GameState Rng)

def isAlive (player : PlayerId) : Bool :=
  state.players.any fun p => p = player && !state.isEliminated p

/-- The lowest player, whose container holds every shared card. -/
def canonicalSeat : PlayerId := state.players.min?.getD 0

/-- The seat whose container stores the library that `seat` draws from. -/
def librarySeat (seat : PlayerId) : PlayerId :=
  match state.format.sharedLibrary with
  | .shared => state.canonicalSeat
  | .perPlayer => seat

def libraryOf (seat : PlayerId) : List ObjectId := state.library (state.librarySeat seat)

def removeFromZone (card : ObjectId) (zone : Zone) (owner : PlayerId) : GameState Rng :=
  match zone with
  | .library =>
    let holder := state.librarySeat owner
    { state with
      library := Function.update state.library holder
        ((state.library holder).filter (· ≠ card)) }
  | .hand =>
    { state with hand := Function.update state.hand owner ((state.hand owner).filter (· ≠ card)) }
  | .exile => { state with exile := state.exile.filter (· ≠ card) }

def addToZone (card : ObjectId) (zone : Zone) (owner : PlayerId) : GameState Rng :=
  match zone with
  | .library =>
    let holder := state.librarySeat owner
    { state with
      library := Function.update state.library holder (state.library holder ++ [card]) }
  | .hand => { state with hand := Function.update state.hand owner (state.hand owner ++ [card]) }
  | .exile => { state with exile := state.exile ++ [card] }

def setObject (card : ObjectId) (object : GameObject) : GameState Rng :=
  { state with objects := Function.update state.objects card (some object) }

/-- Who owns the card once it is in `zone`: whoever takes it into hand out of a library that both
read as one, where the format says so. -/
def entryReceiver (object : GameObject) (zone : Zone) (performer : Option PlayerId) : PlayerId :=
  match performer, state.format.entryOwnership, zone with
  | some performer, .actorOwns, .hand =>
    let reads : Bool := match object.zone with
      | .library => state.librarySeat object.owner = state.librarySeat performer
      | .hand | .exile => object.owner = performer
    if reads then performer else object.owner
  | _, _, _ => object.owner

/-- A pregame move to hand or exile. -/
def moveObject (card : ObjectId) (zone : Zone) (performer : Option PlayerId) : GameState Rng :=
  match state.objects card with
  | none => state
  | some object =>
    let owner := state.entryReceiver object zone performer
    ((state.removeFromZone card object.zone owner).addToZone card zone owner).setObject card
      { object with zone, owner }

/-- A pregame move to the bottom of the library. -/
def moveToLibraryBottom (card : ObjectId) : GameState Rng :=
  match state.objects card with
  | none => state
  | some object =>
    ((state.removeFromZone card object.zone object.owner).addToZone card .library
      object.owner).setObject card { object with zone := .library }

def turnOrderIndex (start offset len : Nat) : TurnDirection → Nat
  | .normal => (start + offset) % len
  | .reversed => (start + len - offset % len) % len

/-- The living seats, starting at the active player. -/
def seatWalkFromActive : List PlayerId :=
  let len := state.seatOrder.length
  let start := (state.seatOrder.findIdx? (· = state.activePlayer)).getD 0
  ((List.range len).filterMap fun offset =>
    state.seatOrder[turnOrderIndex start offset len state.turnDirection]?).filter state.isAlive

/-- The recipient of each successive card. -/
def dealSequence (deals : List (PlayerId × Nat)) : List PlayerId :=
  let ordered := state.seatWalkFromActive.filterMap fun player => deals.find? (·.1 = player)
  match state.format.dealOrder with
  | .playerByPlayer => ordered.flatMap fun deal => List.replicate deal.2 deal.1
  | .interleaved =>
    let rounds := (ordered.map (·.2)).max?.getD 0
    (List.range rounds).flatMap fun round =>
      (ordered.filter fun deal => deal.2 > round).map (·.1)

def drawOne (player : PlayerId) : GameState Rng :=
  match state.libraryOf player with
  | [] => { state with drawsMissed := state.drawsMissed + 1 }
  | top :: _ => state.moveObject top .hand (some player)

def dealHands (deals : List (PlayerId × Nat)) : GameState Rng :=
  (state.dealSequence deals).foldl drawOne state

def drawN (player : PlayerId) (count : Nat) : GameState Rng := state.dealHands [(player, count)]

def returnHandToLibrary (player : PlayerId) : GameState Rng :=
  let returned := (state.hand player).foldl moveToLibraryBottom state
  { returned with bottomed := Function.update returned.bottomed player 0 }

def shuffleLibrary (shuffler : Shuffler Rng) (holder : PlayerId) : GameState Rng :=
  let shuffled := shuffler.shuffle state.rng (state.library holder)
  { state with library := Function.update state.library holder shuffled.1, rng := shuffled.2 }

def shuffleLibraryOf (shuffler : Shuffler Rng) (player : PlayerId) : GameState Rng :=
  state.shuffleLibrary shuffler (state.librarySeat player)

def shuffleHandIntoLibrary (shuffler : Shuffler Rng) (player : PlayerId) : GameState Rng :=
  (state.returnHandToLibrary player).shuffleLibraryOf shuffler player

/-- `player` puts the selected cards on the bottom, which is credited to it. -/
def bottomSelected (player : PlayerId) (cards : List ObjectId) : GameState Rng :=
  cards.foldl (fun state card =>
    let moved := state.moveToLibraryBottom card
    { moved with bottomed := Function.update moved.bottomed player (moved.bottomed player + 1) })
    state

end GameState
end Phase.Mulligan
