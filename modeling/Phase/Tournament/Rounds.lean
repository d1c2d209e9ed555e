import Phase.Tournament.Types

/-! How a round is built: Swiss pods that avoid rematches, or the next level of a bracket. -/
namespace Phase.Tournament
open List

structure RoundPartition where
  fullPods : Nat
  shortPods : Nat
  byes : Nat
  deriving DecidableEq

/-- As few byes as possible, then as few short pods; a short pod of one seat is a bye. -/
def partitionRound (n : Nat) (arity : MatchArity) : RoundPartition :=
  let found := (range (n + 1)).findSome? fun byes =>
    (range arity.get).findSome? fun shortPods =>
      let seated := n - byes
      if seated < shortPods * arity.shortPodSize then none
      else if (seated - shortPods * arity.shortPodSize) % arity.get ≠ 0 then none
      else
        let fullPods := (seated - shortPods * arity.shortPodSize) / arity.get
        some (if arity.shortPodSize < 2 then { fullPods, shortPods := 0, byes := byes + shortPods }
          else { fullPods, shortPods, byes })
  found.getD { fullPods := 0, shortPods := 0, byes := n }

def haveFaced (history : List TournamentPairing) (a b : String) : Bool :=
  (history.filter fun pairing => 1 < pairing.players.length).any fun pairing =>
    pairing.players.any fun seat => seat = a && pairing.players.any fun other =>
      other ≠ seat && other = b

/-- Already played pairs inside one pod. -/
def podConflicts (history : List TournamentPairing) : List String → Nat
  | [] => 0
  | left :: pod => pod.countP (haveFaced history left) + podConflicts history pod

/-- The places of `count` players of the pool, from the bottom up, those for whom `already` is
false first. -/
def fairIndices (pool : List String) (count : Nat) (already : String → Bool) : List Nat :=
  let upward := (range pool.length).reverse
  let fresh := (upward.filter fun index => !already (pool.getD index "")).take count
  fresh ++ (upward.filter fun index => !fresh.contains index).take (count - fresh.length)

/-- Takes these players out of the pool; they and those who are left keep their order. -/
def selectFair (pool : List String) (count : Nat) (already : String → Bool) :
    List String × List String :=
  let chosen := fairIndices pool count already
  let (picked, left) := pool.zipIdx.partition fun entry => chosen.contains entry.2
  (picked.map (·.1), left.map (·.1))

/-- Seats `size` more players, the first one that the pod has not met, or the first one. -/
def fillPod (history : List TournamentPairing) :
    Nat → List String → List String → List String × List String
  | 0, pod, remaining => (pod, remaining)
  | size + 1, pod, remaining =>
    let index :=
      if pod.isEmpty then 0
      else (remaining.findIdx? fun candidate =>
        pod.all fun seated => !haveFaced history seated candidate).getD 0
    match remaining[index]? with
    | none => (pod, remaining)
    | some candidate => fillPod history size (pod ++ [candidate]) (remaining.eraseIdx index)

def greedyAssign (history : List TournamentPairing) :
    List String → List Nat → List (List String)
  | _, [] => []
  | remaining, size :: sizes =>
    let (pod, remaining) := fillPod history size [] remaining
    pod :: greedyAssign history remaining sizes

/-- Exchanges one player of two pods. -/
def swapSeats (pods : List (List String)) (i x j y : Nat) : List (List String) :=
  let movedOut := (pods.getD i []).getD x ""
  let movedIn := (pods.getD j []).getD y ""
  (pods.set i ((pods.getD i []).set x movedIn)).set j ((pods.getD j []).set y movedOut)

/-- The first exchange, in the order of the search, that leaves fewer rematches in its pods. -/
def improvingSwap (history : List TournamentPairing) (pods : List (List String)) :
    Option (List (List String)) :=
  (range pods.length).findSome? fun i =>
    if podConflicts history (pods.getD i []) = 0 then none
    else (range pods.length).findSome? fun j =>
      if i = j then none
      else
        let before := podConflicts history (pods.getD i []) + podConflicts history (pods.getD j [])
        (range (pods.getD i []).length).findSome? fun x =>
          (range (pods.getD j []).length).findSome? fun y =>
            let swapped := swapSeats pods i x j y
            let after := podConflicts history (swapped.getD i []) +
              podConflicts history (swapped.getD j [])
            if after < before then some swapped else none

def totalConflicts (history : List TournamentPairing) (pods : List (List String)) : Nat :=
  (pods.map (podConflicts history)).sum

/-- Repeats `improvingSwap` up to `fuel` times. -/
def repairLoop (history : List TournamentPairing) : Nat → List (List String) → List (List String)
  | 0, pods => pods
  | fuel + 1, pods =>
    match improvingSwap history pods with
    | none => pods
    | some better => repairLoop history fuel better

/-- Every exchange lowers the number of rematches, which bounds the repetitions. -/
def repairRematches (history : List TournamentPairing) (pods : List (List String)) :
    List (List String) :=
  repairLoop history (totalConflicts history pods) pods

/-- The pairings of the given pods, numbered from `firstId` on; a lone player has a bye. -/
def numbered (round : Nat) (outcome : List String → Option PairingOutcome) :
    Nat → List (List String) → List TournamentPairing
  | _, [] => []
  | id, players :: pods =>
    { id, round, players, outcome := outcome players } :: numbered round outcome (id + 1) pods

def buildSwissRound (standingsOrder : List String) (arity : MatchArity)
    (history : List TournamentPairing) (round firstId : Nat) : List TournamentPairing :=
  let partition := partitionRound standingsOrder.length arity
  let (byePlayers, pool) := selectFair standingsOrder partition.byes (hadBye · history)
  let (shortPlayers, pool) := selectFair pool (partition.shortPods * arity.shortPodSize)
    (hadShortPod · arity history)
  let sizes := replicate partition.fullPods arity.get ++
    replicate partition.shortPods arity.shortPodSize
  let pods := repairRematches history (greedyAssign history (pool ++ shortPlayers) sizes)
  numbered round (fun _ => none) firstId pods ++
    numbered round (fun _ => some .bye) (firstId + pods.length) (byePlayers.map ([·]))

def singleEliminationMinPlayers : Nat := 2

def singleEliminationMaxPlayers : Nat := 8

def chunksOfTwo : List String → List (List String)
  | [] => []
  | [a] => [[a]]
  | a :: b :: rest => [a, b] :: chunksOfTwo rest

/-- The winners of a level, in bracket order. -/
def levelWinners : List TournamentPairing → Except String (List String)
  | [] => .ok []
  | pairing :: rest =>
    match pairing.winner with
    | none => .error
        s!"Pairing {pairing.id} has no winner yet - single elimination cannot advance"
    | some winner => (levelWinners rest).map (winner :: ·)

def seededPods (standingsOrder : List String) : List (List String) :=
  let slots := 2 ^ Nat.clog 2 standingsOrder.length
  (range (slots / 2)).map fun i =>
    match standingsOrder[slots - 1 - i]? with
    | some lowerSeed => [standingsOrder.getD i "", lowerSeed]
    | none => [standingsOrder.getD i ""]

/-- Round 1 seeds the field into the next power of two; a later round pairs the winners of
adjacent pairings of the round before. -/
def eliminationPods (standingsOrder : List String) (history : List TournamentPairing)
    (round : Nat) : Except String (List (List String)) :=
  if round ≤ 1 then
    if singleEliminationMinPlayers ≤ standingsOrder.length ∧
        standingsOrder.length ≤ singleEliminationMaxPlayers then
      .ok (seededPods standingsOrder)
    else .error (s!"Single-elimination brackets support {singleEliminationMinPlayers}-" ++
      s!"{singleEliminationMaxPlayers} players (MTR Appendix E's 4-8 cut, plus the " ++
      s!"degenerate 2- and 3-player finals); got {standingsOrder.length}")
  else
    let previous := history.filter (·.round = round - 1)
    if previous.length < 2 then
      .error "Single-elimination bracket is already decided - no further round to pair"
    else (levelWinners previous).map chunksOfTwo

def buildSingleEliminationRound (standingsOrder : List String)
    (history : List TournamentPairing) (round firstId : Nat) :
    Except String (List TournamentPairing) :=
  (eliminationPods standingsOrder history round).map
    (numbered round (fun players => if players.length = 1 then some .bye else none) firstId)

end Phase.Tournament
