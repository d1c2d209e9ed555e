import Phase.Tournament.Rounds

/-! `TournamentManager`: each call answers, and leaves a manager behind whether it succeeds or
fails. -/
namespace Phase.Tournament

structure BrokerEnv where
  nowMs : Nat
  newToken : String

def BrokerEnv.now (env : BrokerEnv) : Nat := env.nowMs / 1000

def tournamentCredentialTtlMs : Nat := 7 * 24 * 60 * 60 * 1000

def TournamentCredential.mint (env : BrokerEnv) : TournamentCredential :=
  { secret := env.newToken, expiresAtMs := env.nowMs + tournamentCredentialTtlMs,
    lastRotation := none }

structure CreateTournamentRequest where
  name : String
  arity : MatchArity
  scoring : ScoringPolicy
  bracket : BracketShape
  totalRounds : Option Nat
  plusRounds : Option Nat
  matchType : Option MatchType

def defaultMatchType (arity : MatchArity) : MatchType :=
  if arity = .headToHead then .bo3 else .bo1

local instance lawfulTally : LawfulBEq (Nat × Nat) := inferInstance

def illegalTally (wa wb : Nat) : Bool :=
  (wa, wb) ∉ [(2, 0), (2, 1), (0, 2), (1, 2)]

/-- The tally that a best-of-three result must carry. -/
def validateBo3 (pairing : TournamentPairing) (winner : String)
    (gameWins : AList fun _ : String => Nat) : Except String Unit :=
  match pairing.players with
  | [a, b] =>
    if gameWins.entries.length ≠ 2 ∨ a ∉ gameWins ∨ b ∉ gameWins then
      .error "Head-to-head Bo3 result must report game wins for exactly both players"
    else
      let wa := (gameWins.lookup a).getD 0
      let wb := (gameWins.lookup b).getD 0
      if illegalTally wa wb then .error s!"Illegal Bo3 game-win tally {wa}-{wb}"
      else if winner ≠ (if wb < wa then a else b) then
        .error "Winner must match the player with more game wins"
      else .ok ()
  | _ => .error "Best-of-three is head-to-head only; a pod match is single-game"

def validateMatchResult (pairing : TournamentPairing) (players : List TournamentPlayer)
    (matchType : MatchType) : PodOutcome → Except String Unit
  | .draw => .ok ()
  | .decisive winner gameWins =>
    if !pairing.players.contains winner then .error "Winner must be one of the pod's players"
    else if players.any fun player => player.playerKey = winner && player.dropped then
      .error s!"Winner {winner} has dropped and cannot be credited a win"
    else
      match matchType with
      | .bo3 => validateBo3 pairing winner gameWins
      | .bo1 =>
        if gameWins.entries.isEmpty then .ok ()
        else .error "Single-game result (Bo1 / pod) carries no game_wins - it must be empty"

namespace TournamentMeta

def notRunning (event : TournamentMeta) : String :=
  s!"Tournament {event.code} is no longer running (status {event.status.text})"

def join (event : TournamentMeta) (playerKey displayName : String) (env : BrokerEnv) :
    Except String TournamentCredential × TournamentMeta :=
  let token := TournamentCredential.mint env
  if event.status ≠ .registration then
    (.error (s!"Tournament {event.code} is no longer accepting entries " ++
      s!"(status {event.status.text})"), event)
  else if (event.player playerKey).isSome then
    (.error s!"Player {playerKey} has already joined {event.code}", event)
  else
    (.ok token, { event with
      players := event.players ++ [{ playerKey, playerToken := token, displayName, dropped := false }]
      lastActivityAt := env.now })

def firstId (event : TournamentMeta) : Nat :=
  ((event.pairings.map (·.id)).max?.map (· + 1)).getD 0

/-- The players that can still be paired, best first. -/
def standingsOrder (compareTiebreaks : CompareTiebreaks) (event : TournamentMeta) : List String :=
  ((event.standings compareTiebreaks).filter (!·.dropped)).map (·.playerKey)

def buildRound (compareTiebreaks : CompareTiebreaks) (event : TournamentMeta) :
    Except String (List TournamentPairing) :=
  let order := event.standingsOrder compareTiebreaks
  let round := event.currentRound + 1
  match event.bracket with
  | .swiss => .ok (buildSwissRound order event.arity event.pairings round event.firstId)
  | .singleElimination => buildSingleEliminationRound order event.pairings round event.firstId

/-- The record with a new round in it; round 1 fixes how many there will be. -/
def paired (event : TournamentMeta) (generated : List TournamentPairing) (env : BrokerEnv) :
    TournamentMeta :=
  let round := event.currentRound + 1
  { event with
    pairings := event.pairings ++ generated
    currentRound := round
    resolvedTotalRounds :=
      if round = 1 ∧ event.totalRoundsOverride = none ∧ event.resolvedTotalRounds = none then
        some event.totalRounds
      else event.resolvedTotalRounds
    status := .inProgress
    lastActivityAt := env.now }

def generatePairings (compareTiebreaks : CompareTiebreaks) (event : TournamentMeta)
    (env : BrokerEnv) : Except String (List Nat) × TournamentMeta :=
  if .startRound ∉ event.openActions then (.error event.notRunning, event)
  else if event.totalRounds ≤ event.currentRound then
    (.error (s!"Tournament {event.code} cannot pair round {event.currentRound + 1} - it is " ++
      s!"scheduled for {event.totalRounds} round(s) and is already at round " ++
      s!"{event.currentRound}"), event)
  else
    match event.firstUnresolvedPairing with
    | some pending =>
      (.error (s!"Tournament {event.code} cannot pair round {event.currentRound + 1} - " ++
        s!"pairing {pending.id} in round {pending.round} has no result yet"), event)
    | none =>
      match event.buildRound compareTiebreaks with
      | .error reason => (.error reason, event)
      | .ok generated => (.ok (generated.map (·.id)), event.paired generated env)

/-- A seated player writes what is not hosted, the server what is. -/
def admitReport (event : TournamentMeta) (pairing : TournamentPairing)
    (authority : ReportAuthority) : Except String Unit :=
  match event.reportGate pairing with
  | .open_ =>
    if authority = .system then
      .error (s!"Pairing {pairing.id} is not server-hosted; a system report applies only " ++
        "to a hosted pairing")
    else .ok ()
  | .hosted =>
    if authority = .seatedPlayer then
      .error (s!"Pairing {pairing.id} is server-hosted; its result is reported by the " ++
        "server when the game ends, not by a client")
    else .ok ()
  | .tournamentNotRunning => .error event.notRunning
  | .bye => .error s!"Pairing {pairing.id} is a bye and has no result to report"
  | .forfeit => .error s!"Pairing {pairing.id} was resolved by forfeit and cannot be reported"

def settle (event : TournamentMeta) (index : Nat) (outcome : PairingOutcome) : TournamentMeta :=
  { event with pairings := event.pairings.modify index fun pairing =>
      { pairing with outcome := some outcome } }

def reportResultWithAuthority (event : TournamentMeta) (pairingId : Nat) (outcome : PodOutcome)
    (authority : ReportAuthority) (env : BrokerEnv) : Except String Unit × TournamentMeta :=
  match event.pairings.findIdx? (·.id = pairingId) with
  | none => (.error s!"Pairing {pairingId} not found in {event.code}", event)
  | some index =>
    match event.pairings[index]? with
    | none => (.error s!"Pairing {pairingId} not found in {event.code}", event)
    | some pairing =>
      match event.admitReport pairing authority with
      | .error reason => (.error reason, event)
      | .ok _ =>
        match validateMatchResult pairing event.players event.matchType outcome with
        | .error reason => (.error reason, event)
        | .ok _ =>
          if event.bracket = .singleElimination ∧ outcome = .draw then
            (.error (s!"Pairing {pairingId} is in a single-elimination bracket and " ++
              "cannot be reported as a draw - it must produce a winner to advance"), event)
          else
            (.ok (), { event.settle index (.reported outcome) with
              lastActivityAt := env.now })

def beginHosting (event : TournamentMeta) (pairingId : Nat) (env : BrokerEnv) :
    Except String Nat × TournamentMeta :=
  match event.pairings.find? (·.id = pairingId) with
  | none => (.error s!"Pairing {pairingId} not found in {event.code}", event)
  | some pairing =>
    if !event.isHostedEligible pairing then
      (.error (s!"Pairing {pairingId} is not eligible for hosted play " ++
        "(hosted v1 is Swiss + head-to-head + Bo3)"), event)
    else
      match event.reportGate pairing with
      | .tournamentNotRunning => (.error event.notRunning, event)
      | .bye => (.error s!"Pairing {pairingId} is a bye and cannot be hosted", event)
      | .forfeit =>
        (.error s!"Pairing {pairingId} was resolved by forfeit and cannot be hosted", event)
      | .open_ | .hosted =>
        let generation := ((event.hosted.lookup pairingId).map fun hosted =>
          saturatingAdd hosted.generation 1).getD 1
        (.ok generation, { event with
          hosted := event.hosted.insert pairingId { generation }
          lastActivityAt := env.now })

/-- A pairing that a drop leaves with one active player goes to that player. -/
def forfeitFor (playerKey : String) (dropped : List String) (pairing : TournamentPairing) :
    TournamentPairing :=
  if pairing.outcome.isSome || !pairing.seats playerKey then pairing
  else
    match pairing.players.filter fun key => !dropped.contains key with
    | [survivor] => { pairing with outcome := some (.forfeit survivor) }
    | _ => pairing

def droppedKeys (event : TournamentMeta) : List String :=
  (event.players.filter (·.dropped)).map (·.playerKey)

def markDropped (event : TournamentMeta) (index : Nat) : TournamentMeta :=
  { event with players := event.players.modify index fun player => { player with dropped := true } }

def settleForfeits (event : TournamentMeta) (playerKey : String) (env : BrokerEnv) :
    TournamentMeta :=
  { event with
    pairings := event.pairings.map (forfeitFor playerKey event.droppedKeys)
    lastActivityAt := env.now }

def dropPlayer (event : TournamentMeta) (playerKey : String) (env : BrokerEnv) :
    Except String Unit × TournamentMeta :=
  if .drop ∉ event.openActions then (.error event.notRunning, event)
  else
    match event.players.findIdx? (·.playerKey = playerKey) with
    | none => (.error s!"Player {playerKey} is not in {event.code}", event)
    | some index => (.ok (), (event.markDropped index).settleForfeits playerKey env)

def complete (event : TournamentMeta) (env : BrokerEnv) : Except String Unit × TournamentMeta :=
  if .endTournament ∉ event.openActions then
    (.error (if event.status.isTerminal then
        s!"Tournament {event.code} is already finished (status {event.status.text})"
      else
        s!"Tournament {event.code} has not started, so there is nothing to complete " ++
          s!"(status {event.status.text})"), event)
  else
    match event.firstUnresolvedPairing with
    | some pending =>
      (.error (s!"Tournament {event.code} cannot be completed - pairing {pending.id} in round " ++
        s!"{pending.round} has no result yet"), event)
    | none => (.ok (), { event with status := .completed, lastActivityAt := env.now })

end TournamentMeta

/-- An event without players, before its first round. -/
def TournamentMeta.created (code : String) (req : CreateTournamentRequest) (env : BrokerEnv) :
    TournamentMeta where
  code
  name := req.name
  organizerToken := .mint env
  arity := req.arity
  scoring := req.scoring
  bracket := req.bracket
  totalRoundsOverride := req.totalRounds
  resolvedTotalRounds := none
  plusRounds := req.plusRounds
  matchType := req.matchType.getD (defaultMatchType req.arity)
  currentRound := 0
  status := .registration
  players := []
  pairings := []
  hosted := ∅
  createdAt := env.now
  lastActivityAt := env.now

structure TournamentManager where
  tournaments : String → Option TournamentMeta

def TournamentManager.new : TournamentManager := ⟨fun _ => none⟩

inductive TournamentExpiryEvent where
  | deleted (code : String)
  | abandoned (code : String)
  deriving DecidableEq

def registrationTimeoutSecs : Nat := 300

def inProgressAbandonSecs : Nat := 7 * 24 * 60 * 60

def terminalRetentionSecs : Nat := 30 * 24 * 60 * 60

namespace TournamentManager

def put (manager : TournamentManager) (code : String) (event : Option TournamentMeta) :
    TournamentManager :=
  ⟨Function.update manager.tournaments code event⟩

/-- Runs an operation on one tournament and keeps what it leaves, whatever it answers. -/
def withMeta {α : Type} (manager : TournamentManager) (code : String)
    (act : TournamentMeta → Except String α × TournamentMeta) :
    Except String α × TournamentManager :=
  match manager.tournaments code with
  | none => (.error s!"Tournament not found: {code}", manager)
  | some event =>
    let (answer, event) := act event
    (answer, manager.put code (some event))

def createTournament (manager : TournamentManager) (code : String)
    (req : CreateTournamentRequest) (env : BrokerEnv) :
    Except String TournamentCredential × TournamentManager :=
  if (manager.tournaments code).isSome then
    (.error s!"Tournament code already in use: {code}", manager)
  else if req.bracket = .singleElimination ∧ req.arity ≠ .headToHead then
    (.error (s!"Single-elimination brackets are head-to-head only in v1; got arity " ++
      s!"{req.arity.get}"), manager)
  else if req.totalRounds = some 0 then
    (.error "total_rounds override must be at least 1", manager)
  else if req.matchType = some .bo3 ∧ req.arity ≠ .headToHead then
    (.error (s!"Best-of-three is head-to-head only (pods are single-game); got arity " ++
      s!"{req.arity.get}"), manager)
  else (.ok (.mint env), manager.put code (some (.created code req env)))

/-- What a sweep makes of one tournament, and what it reports. -/
def sweep (now : Nat) (code : String) (event : TournamentMeta) :
    Option TournamentMeta × Option TournamentExpiryEvent :=
  let idle := now - event.lastActivityAt
  match event.status with
  | .registration =>
    if registrationTimeoutSecs < idle then (none, some (.deleted code)) else (some event, none)
  | .inProgress =>
    if inProgressAbandonSecs < idle then
      (some { event with status := .abandoned, lastActivityAt := now }, some (.abandoned code))
    else (some event, none)
  | .completed | .abandoned =>
    if terminalRetentionSecs < idle then (none, some (.deleted code)) else (some event, none)

/-- The events are given by code: a sweep visits the map in no fixed order. -/
def checkExpired (manager : TournamentManager) (env : BrokerEnv) :
    (String → Option TournamentExpiryEvent) × TournamentManager :=
  (fun code => (manager.tournaments code).bind fun event => (sweep env.now code event).2,
    ⟨fun code => (manager.tournaments code).bind fun event => (sweep env.now code event).1⟩)

end TournamentManager

inductive TournamentCall where
  | createTournament (code : String) (req : CreateTournamentRequest)
  | joinTournament (code playerKey displayName : String)
  | generatePairings (code : String)
  | reportResult (code : String) (pairingId : Nat) (outcome : PodOutcome)
  | reportResultSystem (code : String) (pairingId : Nat) (outcome : PodOutcome)
  | beginHosting (code : String) (pairingId : Nat)
  | dropPlayer (code playerKey : String)
  | completeTournament (code : String)
  | checkExpired

/-- Whether a call succeeded, and the manager after it. -/
def TournamentManager.apply (compareTiebreaks : CompareTiebreaks) (manager : TournamentManager)
    (call : TournamentCall) (env : BrokerEnv) : Except String Unit × TournamentManager :=
  match call with
  | .createTournament code req =>
    let (answer, manager) := manager.createTournament code req env
    (answer.map fun _ => (), manager)
  | .joinTournament code playerKey displayName =>
    let (answer, manager) := manager.withMeta code (·.join playerKey displayName env)
    (answer.map fun _ => (), manager)
  | .generatePairings code =>
    let (answer, manager) := manager.withMeta code (·.generatePairings compareTiebreaks env)
    (answer.map fun _ => (), manager)
  | .reportResult code pairingId outcome =>
    manager.withMeta code (·.reportResultWithAuthority pairingId outcome .seatedPlayer env)
  | .reportResultSystem code pairingId outcome =>
    manager.withMeta code (·.reportResultWithAuthority pairingId outcome .system env)
  | .beginHosting code pairingId =>
    let (answer, manager) := manager.withMeta code (·.beginHosting pairingId env)
    (answer.map fun _ => (), manager)
  | .dropPlayer code playerKey => manager.withMeta code (·.dropPlayer playerKey env)
  | .completeTournament code => manager.withMeta code (·.complete env)
  | .checkExpired => (.ok (), (manager.checkExpired env).2)

end Phase.Tournament
