import Mathlib.Algebra.GroupWithZero.Nat
import Mathlib.Data.List.Basic

/-! A vote from its last ballot on: the bodies of the choices resolve, and a body may park a prompt
that is answered later. `Data` stands for what a body does. -/
namespace Phase.Vote

abbrev PlayerId := Nat

abbrev ObjectId := Nat

/-- What the fan-out reads of a body: whether it has a player scope of its own, and whether its
count is the number of votes. -/
structure AbilityDefinition (Data : Type) where
  playerScoped : Bool
  countsVotes : Bool
  data : Data
  deriving DecidableEq

structure ResolvedAbility (Data : Type) where
  definition : AbilityDefinition Data
  sourceId : ObjectId
  controller : PlayerId
  chainRootTargets : List ObjectId
  targets : List ObjectId
  scopedPlayer : Option PlayerId
  originalController : Option PlayerId
  deriving DecidableEq

inductive TieResolution
  | breaker (idx : UInt8)
  | allTied
  deriving DecidableEq

inductive VoteTally
  | perVote
  | topVotes (tie : TieResolution)
  deriving DecidableEq

structure PendingVoteBallotIteration (Data : Type) where
  abilityTemplate : AbilityDefinition Data
  remainingVoters : List PlayerId
  sourceId : ObjectId
  controller : PlayerId
  chainRootTargets : List ObjectId
  deriving DecidableEq

/-- What the game waits for: the last ballot, nothing, or the answer to the prompt of a body. -/
inductive WaitingFor
  | voteChoice
  | priority
  | prompt (body : Nat)
  deriving DecidableEq

inductive Entry (Data : Type)
  | started (body : ResolvedAbility Data)
  | finished (body : ResolvedAbility Data)
  | failed (body : ResolvedAbility Data)
  | effectResolved (sourceId : ObjectId)
  deriving DecidableEq

/-- The top of the resolution stack is its head. `begun` counts the bodies that were started, and
`log` is the history. -/
structure Game (Data : Type) where
  waitingFor : WaitingFor
  parked : Option (ResolvedAbility Data)
  resolutionStack : List (PendingVoteBallotIteration Data)
  lastVoteBallots : List (PlayerId × UInt32)
  begun : Nat
  log : List (Entry Data)
  deriving DecidableEq

/-- What the resolution of a body comes to. -/
inductive Outcome
  | finishes
  | parks
  | fails
  deriving DecidableEq

variable {Data : Type}

def buildResolved (definition : AbilityDefinition Data) (sourceId : ObjectId) (controller : PlayerId)
    (chainRootTargets : List ObjectId) : ResolvedAbility Data where
  definition
  sourceId
  controller
  chainRootTargets
  targets := []
  scopedPlayer := none
  originalController := none

def buildPerBallotAbility (template : AbilityDefinition Data) (voter : PlayerId)
    (sourceId : ObjectId) (controller : PlayerId) (chainRootTargets : List ObjectId) :
    ResolvedAbility Data :=
  { buildResolved template sourceId controller chainRootTargets with
    scopedPlayer := some voter
    originalController := some controller }

abbrev Resolving (Data : Type) := EStateM Unit (Game Data)

def record (entry : Entry Data) : Resolving Data Unit :=
  modify fun game => { game with log := game.log ++ [entry] }

section
variable (outcome : Nat → Outcome)

/-- The body that is started as the n-th one has the n-th outcome. -/
def resolveAbilityChain (body : ResolvedAbility Data) : Resolving Data Unit := do
  let n := (← get).begun
  record (.started body)
  modify fun game => { game with begun := n + 1 }
  match outcome n with
  | .finishes => record (.finished body)
  | .parks => modify fun game => { game with waitingFor := .prompt n, parked := some body }
  | .fails => do
      record (.failed body)
      throw ()

/-- The bodies of the remaining voters, up to one that parks a prompt. -/
def resolveBallots (template : AbilityDefinition Data) (sourceId : ObjectId) (controller : PlayerId)
    (chainRootTargets : List ObjectId) (initialWaitingFor : WaitingFor) :
    List PlayerId → Resolving Data Bool
  | [] => return false
  | voter :: remainingVoters => do
      resolveAbilityChain outcome
        (buildPerBallotAbility template voter sourceId controller chainRootTargets)
      if (← get).waitingFor ≠ initialWaitingFor then
        modify fun game => { game with
          resolutionStack := { abilityTemplate := template, remainingVoters, sourceId, controller,
                               chainRootTargets } :: game.resolutionStack }
        return true
      resolveBallots template sourceId controller chainRootTargets initialWaitingFor remainingVoters

/-- A vote whose ballots are cast. -/
structure Round (Data : Type) where
  sourceId : ObjectId
  controller : PlayerId
  perChoiceEffect : List (AbilityDefinition Data)
  tallies : List UInt32
  ballots : List (PlayerId × UInt32)
  tallyMode : VoteTally
  candidateObjects : List ObjectId
  outcomeTemplate : Option (AbilityDefinition Data)
  chainRootTargets : List ObjectId

variable (round : Round Data)

def Round.body (definition : AbilityDefinition Data) : ResolvedAbility Data :=
  buildResolved definition round.sourceId round.controller round.chainRootTargets

def Round.choiceBallots (idx : Nat) : List PlayerId :=
  (round.ballots.filter fun ballot => ballot.2 = UInt32.ofNat idx).map (·.1)

/-- The choices that are left, with their bodies, tallies and positions. -/
def fanOut : List ((AbilityDefinition Data × UInt32) × Nat) → Resolving Data Unit
  | [] => record (.effectResolved round.sourceId)
  | ((template, votes), idx) :: rest => do
      if votes = 0 then fanOut rest
      else if template.playerScoped then
        resolveAbilityChain outcome (round.body template)
        fanOut rest
      else if template.countsVotes then
        resolveAbilityChain outcome (round.body template)
        fanOut rest
      else
        let initialWaitingFor := (← get).waitingFor
        let suspended ← resolveBallots outcome template round.sourceId round.controller
          round.chainRootTargets initialWaitingFor (round.choiceBallots idx)
        if suspended then return ()
        fanOut rest

/-- The winning object as the one target of the template. -/
def Round.objectBody (template : AbilityDefinition Data) (winner : ObjectId) :
    ResolvedAbility Data :=
  { round.body template with targets := [winner] }

/-- The body of a position: of the candidate there, or of the choice. -/
def Round.bodyAt (position : Nat) : Option (ResolvedAbility Data) :=
  match round.outcomeTemplate with
  | some template => round.candidateObjects[position]?.map (round.objectBody template)
  | none => round.perChoiceEffect[position]?.map round.body

def resolveAt (position : Nat) : Resolving Data Unit :=
  match round.bodyAt position with
  | some body => resolveAbilityChain outcome body
  | none => return ()

/-- The position that wins a vote with a tie breaker. -/
def breakerWinner (tallies : List UInt32) (idx : UInt8) : UInt8 :=
  let top := tallies.max?.getD 0
  if 0 < top && tallies.countP (· = top) = 1 then
    ((tallies.findIdx? (· = top)).map UInt8.ofNat).getD idx
  else idx

def resolveTopVotesTally (tie : TieResolution) : Resolving Data Unit := do
  modify fun game => { game with lastVoteBallots := round.ballots }
  let top := round.tallies.max?.getD 0
  match tie with
  | .breaker idx => resolveAt outcome round (breakerWinner round.tallies idx).toNat
  | .allTied =>
    if 0 < top then
      (round.tallies.zipIdx.filter (·.1 = top)).forM fun winner =>
        resolveAt outcome round winner.2
  record (.effectResolved round.sourceId)

def resolveTally : Resolving Data Unit := do
  match round.tallyMode with
  | .topVotes tie => resolveTopVotesTally outcome round tie
  | .perVote =>
    modify fun game => { game with lastVoteBallots := round.ballots }
    fanOut outcome round (round.perChoiceEffect.zip round.tallies).zipIdx

/-- Goes on with the voters of the parked ballot. An error drops what is left of them. -/
def drainActiveVoteBallot (game : Game Data) : Game Data :=
  match game.resolutionStack with
  | [] => game
  | pending :: stack =>
    let game := { game with resolutionStack := stack }
    match (resolveBallots outcome pending.abilityTemplate pending.sourceId pending.controller
        pending.chainRootTargets game.waitingFor pending.remainingVoters).run game with
    | .error _ game => game
    | .ok true game => game
    | .ok false game => { game with log := game.log ++ [.effectResolved pending.sourceId] }

/-- The answer to the prompt that waits: its body finishes, and the ballot is drained. -/
def answer (game : Game Data) : Game Data :=
  match game.waitingFor, game.parked with
  | .prompt _, some body =>
    drainActiveVoteBallot outcome { game with
      waitingFor := .priority
      parked := none
      log := game.log ++ [.finished body] }
  | _, _ => game

end

structure Ballots where
  tallies : List UInt32
  ballots : List (PlayerId × UInt32)

/-- A vote for one of the choices. -/
def Ballots.append (cast : Ballots) (player : PlayerId) (idx : UInt32) : Ballots where
  tallies := cast.tallies.modify idx.toNat (· + 1)
  ballots := cast.ballots ++ [(player, idx)]

def Ballots.none (choices : Nat) : Ballots := ⟨List.replicate choices 0, []⟩

/-- The ballots as they are cast, every one for a choice. -/
inductive Cast (choices : Nat) : Ballots → Prop
  | none : Cast choices (.none choices)
  | append {cast : Ballots} (player : PlayerId) (idx : UInt32) : Cast choices cast →
      idx.toNat < choices → Cast choices (cast.append player idx)

end Phase.Vote
