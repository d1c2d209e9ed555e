import Mathlib.Algebra.GroupWithZero.Nat
import Mathlib.Data.List.AList
import Mathlib.Data.List.Sort
import Mathlib.Data.Nat.Log

/-! The record of one tournament, and what is derived from its pairing history. -/
namespace Phase.Tournament

/-- Seats of a full pod. -/
structure MatchArity where
  get : Nat
  atLeast : 2 ≤ get
  atMost : get ≤ 128
  deriving DecidableEq

namespace MatchArity

def headToHead : MatchArity := ⟨2, by decide, by decide⟩

def shortPodSize (arity : MatchArity) : Nat := arity.get - 1

end MatchArity

structure ScoringPolicy where
  winPoints : Nat
  drawPoints : Nat
  lossPoints : Nat
  nonzero : 0 < winPoints
  deriving DecidableEq

inductive TournamentStatus where
  | registration
  | inProgress
  | completed
  | abandoned
  deriving DecidableEq

namespace TournamentStatus

def isTerminal : TournamentStatus → Bool
  | .registration | .inProgress => false
  | .completed | .abandoned => true

def text : TournamentStatus → String
  | .registration => "Registration"
  | .inProgress => "InProgress"
  | .completed => "Completed"
  | .abandoned => "Abandoned"

end TournamentStatus

inductive TournamentAction where
  | startRound
  | endTournament
  | drop
  deriving DecidableEq

inductive ReportGate where
  | open_
  | tournamentNotRunning
  | bye
  | forfeit
  | hosted
  deriving DecidableEq

inductive ReportAuthority where
  | seatedPlayer
  | system
  deriving DecidableEq

inductive BracketShape where
  | swiss
  | singleElimination
  deriving DecidableEq

inductive MatchType where
  | bo1
  | bo3
  deriving DecidableEq

structure HostedMatch where
  generation : Nat
  deriving DecidableEq

/-- What was played; `gameWins` is empty in a single-game match. -/
inductive PodOutcome where
  | decisive (winner : String) (gameWins : AList fun _ : String => Nat)
  | draw
  deriving DecidableEq

inductive PairingOutcome where
  | bye
  | forfeit (winner : String)
  | reported (outcome : PodOutcome)
  deriving DecidableEq

structure TournamentPairing where
  id : Nat
  round : Nat
  players : List String
  outcome : Option PairingOutcome
  deriving DecidableEq

namespace TournamentPairing

/-- The player credited with the win; nobody while the pairing is pending, or for a draw. -/
def winner (pairing : TournamentPairing) : Option String :=
  match pairing.outcome with
  | some .bye => pairing.players.head?
  | some (.forfeit winner) => some winner
  | some (.reported (.decisive winner _)) => some winner
  | some (.reported .draw) | none => none

def seats (pairing : TournamentPairing) (playerKey : String) : Bool :=
  pairing.players.any (· = playerKey)

end TournamentPairing

def hadBye (playerKey : String) (pairings : List TournamentPairing) : Bool :=
  pairings.any fun pairing =>
    pairing.players = [playerKey] && pairing.outcome = some .bye

/-- Never true of a head-to-head event, whose short pod is a bye. -/
def hadShortPod (playerKey : String) (arity : MatchArity) (pairings : List TournamentPairing) :
    Bool :=
  if arity.shortPodSize < 2 then false
  else pairings.any fun pairing =>
    pairing.players.length = arity.shortPodSize && pairing.seats playerKey

/-- What the last rotation of a credential replaced, and the nonce it was asked for with. -/
structure RotationRecord where
  supersededSecret : String
  nonce : String
  deriving DecidableEq

structure TournamentCredential where
  secret : String
  expiresAtMs : Nat
  lastRotation : Option RotationRecord
  deriving DecidableEq

structure TournamentPlayer where
  playerKey : String
  playerToken : TournamentCredential
  displayName : String
  dropped : Bool
  deriving DecidableEq

structure TournamentMeta where
  code : String
  name : String
  organizerToken : TournamentCredential
  arity : MatchArity
  scoring : ScoringPolicy
  bracket : BracketShape
  totalRoundsOverride : Option Nat
  resolvedTotalRounds : Option Nat
  plusRounds : Option Nat
  matchType : MatchType
  currentRound : Nat
  status : TournamentStatus
  players : List TournamentPlayer
  pairings : List TournamentPairing
  hosted : AList fun _ : Nat => HostedMatch
  createdAt : Nat
  lastActivityAt : Nat

def maxU32 : Nat := 2 ^ 32 - 1

def saturatingAdd (a b : Nat) : Nat := min (a + b) maxU32

/-- Rounds when the organizer names no count: the depth of the bracket, with a floor of three
in Swiss; pods have a table of their own. -/
def defaultTotalRounds (bracket : BracketShape) (arity : MatchArity) (playerCount : Nat) : Nat :=
  match bracket with
  | .singleElimination => Nat.clog 2 playerCount
  | .swiss =>
    if arity = .headToHead then Nat.clog 2 (max playerCount 8)
    else if playerCount ≤ 16 then 2
    else if playerCount ≤ 24 then 3
    else if playerCount ≤ 32 then 4
    else 5

namespace TournamentMeta

def activePlayers (event : TournamentMeta) : List TournamentPlayer :=
  event.players.filter (!·.dropped)

def totalRounds (event : TournamentMeta) : Nat :=
  (event.totalRoundsOverride.or event.resolvedTotalRounds).getD
    (saturatingAdd (defaultTotalRounds event.bracket event.arity event.activePlayers.length)
      (event.plusRounds.getD 0))

def player (event : TournamentMeta) (playerKey : String) : Option TournamentPlayer :=
  event.players.find? (·.playerKey = playerKey)

def firstUnresolvedPairing (event : TournamentMeta) : Option TournamentPairing :=
  event.pairings.find? (·.outcome.isNone)

/-- What a credentialed actor may ask for at all, whoever it is. -/
def openActions (event : TournamentMeta) : List TournamentAction :=
  if event.status.isTerminal then []
  else [.startRound, .drop] ++ if event.status ≠ .registration then [.endTournament] else []

def isHostedEligible (event : TournamentMeta) (pairing : TournamentPairing) : Bool :=
  event.bracket = .swiss && event.arity = .headToHead && event.matchType = .bo3 &&
    pairing.players.length = 2

/-- Why a report on this pairing would be refused; a reported pairing stays open, for that is
how a correction is made. -/
def reportGate (event : TournamentMeta) (pairing : TournamentPairing) : ReportGate :=
  if event.status.isTerminal then .tournamentNotRunning
  else
    match pairing.outcome with
    | some .bye => .bye
    | some (.forfeit _) => .forfeit
    | some (.reported _) | none =>
      if (event.hosted.lookup pairing.id).isSome then .hosted else .open_

end TournamentMeta

def PairingOutcome.points (scoring : ScoringPolicy) (playerKey : String) : PairingOutcome → Nat
  | .bye => scoring.winPoints
  | .forfeit winner => if winner = playerKey then scoring.winPoints else scoring.lossPoints
  | .reported .draw => scoring.drawPoints
  | .reported (.decisive winner _) =>
    if winner = playerKey then scoring.winPoints else scoring.lossPoints

def matchPoints (event : TournamentMeta) (playerKey : String) : Nat :=
  (event.pairings.map fun pairing =>
    match pairing.outcome with
    | none => 0
    | some outcome => pairing.players.count playerKey * outcome.points event.scoring playerKey).sum

structure TournamentStanding where
  playerKey : String
  dropped : Bool
  matchPoints : Nat
  deriving DecidableEq

/-- How the tiebreak percentages of two players compare. -/
abbrev CompareTiebreaks := TournamentMeta → String → String → Ordering

def ranksBefore (compareTiebreaks : CompareTiebreaks) (event : TournamentMeta)
    (a b : TournamentStanding) : Prop :=
  (compare b.matchPoints a.matchPoints).then
    ((compareTiebreaks event b.playerKey a.playerKey).then
      (compare a.playerKey b.playerKey)) ≠ .gt

instance (compareTiebreaks : CompareTiebreaks) (event : TournamentMeta) :
    DecidableRel (ranksBefore compareTiebreaks event) :=
  fun _ _ => inferInstanceAs (Decidable (_ ≠ Ordering.gt))

/-- Best first. -/
def TournamentMeta.standings (compareTiebreaks : CompareTiebreaks) (event : TournamentMeta) :
    List TournamentStanding :=
  (event.players.map fun player =>
    { playerKey := player.playerKey, dropped := player.dropped,
      matchPoints := matchPoints event player.playerKey }).insertionSort
    (ranksBefore compareTiebreaks event)

end Phase.Tournament
