import Phase.Draft.FifoApply

/-! The event after the draft: rounds of pairings, reported results and the records kept of
them. -/
namespace Phase.Draft.Event

abbrev MatchRecords := AList fun _ : Nat => DraftMatchRecord

def emptyRecord (player : Nat) : DraftMatchRecord := ⟨player, 0, 0, 0, 0, 0⟩

def swissRounds : Nat := 3

def seatPlayerId (session : DraftSession) (seat : Nat) : Nat :=
  match session.seats[seat]? with
  | some (.human playerId _) => playerId
  | some (.bot _) | none => seat

def playerIds (session : DraftSession) : List Nat :=
  (List.range session.seats.length).map (seatPlayerId session)

/-- `seats.len() as u8`. -/
def podSizeOf (session : DraftSession) : Nat := session.seats.length % 256

namespace MatchRecords

/-- The record of a player, or the one that would be opened. -/
def of (records : MatchRecords) (player : Nat) : DraftMatchRecord :=
  (records.lookup player).getD (emptyRecord player)

/-- `ensure_match_record` and an update of what it returns. -/
def ensure (records : MatchRecords) (player : Nat)
    (update : DraftMatchRecord → DraftMatchRecord) : MatchRecords :=
  records.insert player (update (records.of player))

/-- An update of a record that is there. -/
def change (records : MatchRecords) (player : Nat)
    (update : DraftMatchRecord → DraftMatchRecord) : MatchRecords :=
  match records.lookup player with
  | some record => records.insert player (update record)
  | none => records

end MatchRecords

def addWin (record : DraftMatchRecord) : DraftMatchRecord :=
  { record with matchWins := record.matchWins + 1, wins := record.wins + 1 }

def addLoss (record : DraftMatchRecord) : DraftMatchRecord :=
  { record with matchLosses := record.matchLosses + 1, losses := record.losses + 1 }

def addDraw (record : DraftMatchRecord) : DraftMatchRecord :=
  { record with draws := record.draws + 1 }

def addBye (record : DraftMatchRecord) : DraftMatchRecord :=
  { record with matchWins := record.matchWins + 1 }

def dropWin (record : DraftMatchRecord) : DraftMatchRecord :=
  { record with matchWins := record.matchWins - 1, wins := record.wins - 1 }

def dropLoss (record : DraftMatchRecord) : DraftMatchRecord :=
  { record with matchLosses := record.matchLosses - 1, losses := record.losses - 1 }

def dropDraw (record : DraftMatchRecord) : DraftMatchRecord :=
  { record with draws := record.draws - 1 }

def inferWinnerFromRecords (pairing : DraftPairing) (records : MatchRecords) : Option Nat :=
  if pairing.status ≠ .complete then none
  else
    let first := (records.of pairing.players.1).matchWins
    let second := (records.of pairing.players.2).matchWins
    if second < first then some pairing.players.1
    else if first < second then some pairing.players.2
    else none

def resultWinner (pairing : DraftPairing) (records : MatchRecords) : Option Nat :=
  pairing.winner.or (inferWinnerFromRecords pairing records)

/-- Tables are numbered in order. -/
def newPairings (round : Nat) (pairs : List (Nat × Nat)) : List DraftPairing :=
  pairs.zipIdx.map fun (players, table) =>
    { round, table, players, matchId := s!"r{round}-t{table}", status := .pending, winner := none }

/-- The first unpaired player tries partners in order; a dead end backtracks. `fuel` is the
size of the pool. -/
def pairPoolAvoidingRematches (prior : List (Nat × Nat)) (allowRematch : Bool) :
    Nat → List Nat → Option (List (Nat × Nat))
  | _, [] => some []
  | 0, _ :: _ => none
  | fuel + 1, first :: candidates =>
    (List.range candidates.length).findSome? fun i => do
      let partner ← candidates[i]?
      guard (allowRematch ∨ (first, partner) ∉ prior)
      let rest ← pairPoolAvoidingRematches prior allowRematch fuel (candidates.eraseIdx i)
      pure ((first, partner) :: rest)

def pairEven (prior : List (Nat × Nat)) (pool : List Nat) : List (Nat × Nat) :=
  match pairPoolAvoidingRematches prior false pool.length pool with
  | some pairs => pairs
  | none => (pairPoolAvoidingRematches prior true pool.length pool).getD []

/-- The bye goes as far down the standings as a rematch-free matching of the rest allows. -/
def pairOdd (prior : List (Nat × Nat)) (pool : List Nat) : List (Nat × Nat) × Option Nat :=
  let found := (List.range pool.length).reverse.findSome? fun i => do
    let candidate ← pool[i]?
    let rest := pool.eraseIdx i
    let pairs ← pairPoolAvoidingRematches prior false rest.length rest
    pure (pairs, candidate)
  match found with
  | some (pairs, candidate) => (pairs, some candidate)
  | none =>
    let rest := pool.dropLast
    ((pairPoolAvoidingRematches prior true rest.length rest).getD [], pool.getLast?)

/-- A player, the match wins of the player and the seat. -/
structure Standing where
  player : Nat
  wins : Nat
  seat : Nat
  deriving DecidableEq

def standings (session : DraftSession) : List Standing :=
  ((List.range session.seats.length).map fun seat =>
    let player := seatPlayerId session seat
    { player, wins := (MatchRecords.of session.event.matchRecords player).matchWins, seat })
      |>.insertionSort fun a b => b.wins ≤ a.wins

def priorPairs (session : DraftSession) : List (Nat × Nat) :=
  session.event.pairings.flatMap fun pairing => [pairing.players, pairing.players.swap]

/-- How the round's generator shuffles each bracket. -/
abbrev BracketShuffle := Nat → List Standing → List Standing

def standingsPool (session : DraftSession) (shuffle : BracketShuffle) : List Nat :=
  let brackets := (standings session).splitBy fun a b => a.wins == b.wins
  (brackets.zipIdx.map fun (bracket, i) => shuffle i bracket).flatten.map (·.player)

def generateSwissPairings (session : DraftSession) (round : Nat) (shuffle : BracketShuffle) :
    List DraftPairing × Option Nat :=
  let pool := standingsPool session shuffle
  let prior := priorPairs session
  if pool.length % 2 = 0 then (newPairings round (pairEven prior pool), none)
  else
    let (pairs, bye) := pairOdd prior pool
    (newPairings round pairs, bye)

/-- Adjacent winners meet; one left over does not. -/
def pairAdjacent : List Nat → List (Nat × Nat)
  | first :: second :: rest => (first, second) :: pairAdjacent rest
  | [_] | [] => []

def generateSePairings (session : DraftSession) (round : Nat) : List DraftPairing :=
  if round = 1 then
    let n := podSizeOf session
    newPairings round ((List.range (n / 2)).map fun i =>
      (seatPlayerId session i, seatPlayerId session (n - 1 - i)))
  else
    let previous := session.event.pairings.filter fun pairing =>
      pairing.round = round - 1 ∧ pairing.status = .complete
    newPairings round
      (pairAdjacent (previous.filterMap (resultWinner · session.event.matchRecords)))

inductive EventAction where
  | generatePairings
  | reportMatchResult (matchId : String) (winnerSeat : Option Nat)
  | advanceRound
  deriving DecidableEq

def nextPairingRound (session : DraftSession) : Nat := session.event.currentRound + 1

/-- The new pairings and the Swiss bye. -/
def roundPairings (session : DraftSession) (shuffle : Nat → BracketShuffle) :
    List DraftPairing × Option Nat :=
  let round := nextPairingRound session
  match session.config.tournamentFormat with
  | .swiss => generateSwissPairings session round (shuffle round)
  | .singleElimination => (generateSePairings session round, none)

def creditBye (records : MatchRecords) : Option Nat → MatchRecords
  | some bye => records.ensure bye addBye
  | none => records

/-- `shuffle` is what the generator seeded for a round does to each bracket. -/
def applyGeneratePairings (session : DraftSession) (shuffle : Nat → BracketShuffle) :
    Except DraftError (DraftSession × List DraftDelta) :=
  let procedure := session.kind.procedure
  let format := session.config.tournamentFormat
  if session.status ≠ .deckbuilding ∧ session.status ≠ .pairing ∧
      session.status ≠ .roundComplete then
    .error (.invalidTransition session.status "GeneratePairings")
  else if procedure.postDraftPlay ≠ .tournamentPairings then
    .error (.invalidTransition session.status "GeneratePairings")
  else if !procedure.allowsPodSize format (podSizeOf session) then
    .error (.unsupportedTournamentSize format (procedure.allowedPodSizeStart format)
      (podSizeOf session))
  else
    let round := nextPairingRound session
    let (pairings, bye) := roundPairings session shuffle
    .ok ({ session with
        status := .matchInProgress
        event := { session.event with
          pairings := session.event.pairings ++ pairings
          matchRecords := creditBye session.event.matchRecords bye
          currentRound := round } },
      [.pairingsGenerated round, .transitionedTo .matchInProgress])

def loserOf (players : Nat × Nat) (winner : Nat) : Nat :=
  if players.1 = winner then players.2 else players.1

def applyMatchRecordResult (records : MatchRecords) (players : Nat × Nat) :
    Option Nat → MatchRecords
  | some winner => (records.ensure winner addWin).ensure (loserOf players winner) addLoss
  | none => (records.ensure players.1 addDraw).ensure players.2 addDraw

def undoMatchRecordResult (records : MatchRecords) (players : Nat × Nat) :
    Option Nat → MatchRecords
  | some winner => (records.change winner dropWin).change (loserOf players winner) dropLoss
  | none => (records.change players.1 dropDraw).change players.2 dropDraw

/-- The winner named by a report, who must be in the pairing. -/
def reportedWinner (session : DraftSession) (pairing : DraftPairing) (matchId : String) :
    Option Nat → Except DraftError (Option Nat)
  | none => .ok none
  | some seat =>
    if podSizeOf session ≤ seat then .error (.seatOutOfRange seat (podSizeOf session))
    else
      let player := seatPlayerId session seat
      if player = pairing.players.1 ∨ player = pairing.players.2 then .ok (some player)
      else .error (.seatNotInPairing seat matchId)

def roundPairingsOf (pairings : List DraftPairing) (round : Nat) : List DraftPairing :=
  pairings.filter fun pairing => pairing.round = round

def tournamentOver (format : TournamentFormat) (pairings : List DraftPairing) (round : Nat) :
    Bool :=
  match format with
  | .swiss => swissRounds ≤ round
  | .singleElimination => (roundPairingsOf pairings round).length = 1

/-- The pairing at `index` is settled as reported; a result it had before is taken back first. -/
def settlePairing (event : EventRecord) (index : Nat) (pairing : DraftPairing)
    (winner : Option Nat) : EventRecord :=
  let previousWinner := resultWinner pairing event.matchRecords
  let cleared :=
    if pairing.status = .complete then
      undoMatchRecordResult event.matchRecords pairing.players previousWinner
    else event.matchRecords
  { event with
    pairings := event.pairings.set index { pairing with status := .complete, winner }
    matchRecords := applyMatchRecordResult cleared pairing.players winner }

/-- Where the event stands once the result is in. -/
def afterReport (session : DraftSession) : DraftSession × List DraftDelta :=
  let round := session.event.currentRound
  if (roundPairingsOf session.event.pairings round).all fun pairing =>
      pairing.status = .complete then
    let status := if tournamentOver session.config.tournamentFormat session.event.pairings round
      then .complete else .roundComplete
    ({ session with status }, [.transitionedTo status])
  else (session, [])

def applyReportMatchResult (session : DraftSession) (matchId : String)
    (winnerSeat : Option Nat) : Except DraftError (DraftSession × List DraftDelta) := do
  if session.status ≠ .matchInProgress ∧ session.status ≠ .roundComplete then
    throw (.invalidTransition session.status "ReportMatchResult")
  match session.event.pairings.findIdx? fun pairing => pairing.matchId = matchId with
  | none => throw (.pairingNotFound matchId)
  | some index =>
    match session.event.pairings[index]? with
    | none => throw (.pairingNotFound matchId)
    | some pairing =>
      if pairing.round ≠ session.event.currentRound then
        throw (.pairingNotInCurrentRound matchId session.event.currentRound)
      if session.config.tournamentFormat = .singleElimination ∧ winnerSeat = none then
        throw (.matchWinnerRequired matchId)
      let winner ← reportedWinner session pairing matchId winnerSeat
      let settled := { session with event := settlePairing session.event index pairing winner }
      let (next, deltas) := afterReport settled
      return (next, .matchResultRecorded matchId winnerSeat :: deltas)

def applyEvent (shuffle : Nat → BracketShuffle) (session : DraftSession) :
    EventAction → Except DraftError (DraftSession × List DraftDelta)
  | .generatePairings => applyGeneratePairings session shuffle
  | .reportMatchResult matchId winnerSeat => applyReportMatchResult session matchId winnerSeat
  | .advanceRound => applyAdvanceRound session

end Phase.Draft.Event
