import Mathlib.Algebra.GroupWithZero.Nat
import Mathlib.Data.Fintype.Basic

/-! The clicking contest that stands for a physical one: two contestants keep clicking, and
who stops first loses. Every input is stamped by the host, in milliseconds; instants and
durations are natural numbers. -/
namespace Phase.Contest

abbrev PlayerId := Nat

inductive ContestPhase where
  | pending
  | preparing
  | active
  | resolving
  | completed
  | cancelled
  deriving DecidableEq

namespace ContestPhase

def canTransitionTo : ContestPhase → ContestPhase → Bool
  | .pending, .preparing => true
  | .preparing, .active => true
  | .active, .resolving => true
  | .resolving, .completed => true
  -- a forfeit before GO decides the contest without an active stretch
  | .pending, .resolving | .preparing, .resolving => true
  | .pending, .cancelled | .preparing, .cancelled | .active, .cancelled
  | .resolving, .cancelled => true
  | _, _ => false

def isTerminal : ContestPhase → Bool
  | .completed | .cancelled => true
  | _ => false

end ContestPhase

inductive ContestLossReason where
  | inactivity
  | forfeit
  deriving DecidableEq

inductive ContestOutcome where
  | decided (winner loser : PlayerId) (reason : ContestLossReason)
  | tie
  deriving DecidableEq

inductive ContestCancelReason where
  | bothDisconnected
  | timeLimit
  | participantLeftGame
  | hostAborted
  deriving DecidableEq

inductive ContestResult where
  | outcome (outcome : ContestOutcome)
  | cancelled (reason : ContestCancelReason)
  deriving DecidableEq

inductive ContestKind where
  | staring
  | breathHolding
  deriving DecidableEq

structure ContestConfig where
  countdownMs : Nat
  inactivityTimeoutMs : Nat
  reconnectGraceMs : Nat
  settleWindowMs : Nat
  maxActiveMs : Nat
  deriving DecidableEq

inductive ContestantConnection where
  | connected
  | disconnected (sinceMs : Nat)
  deriving DecidableEq

structure Contestant where
  player : PlayerId
  clicks : Nat
  lastActivityMs : Nat
  lastSeq : Option Nat
  connection : ContestantConnection
  deriving DecidableEq

inductive ClickRejection where
  | notParticipant
  | notActive
  | staleSequence
  | lapsed
  deriving DecidableEq

inductive ClickDisposition where
  | counted
  | rejected (reason : ClickRejection)
  deriving DecidableEq

structure ContestState where
  id : Nat
  kind : ContestKind
  phase : ContestPhase
  config : ContestConfig
  contestants : Fin 2 → Contestant
  clockMs : Nat
  goAtMs : Option Nat
  pausedSinceMs : Option Nat
  result : Option ContestResult

def Contestant.disconnected (contestant : Contestant) : Bool :=
  match contestant.connection with
  | .disconnected _ => true
  | .connected => false

/-- The grace of an absent contestant is over. -/
def Contestant.expired (contestant : Contestant) (grace now : Nat) : Bool :=
  match contestant.connection with
  | .disconnected sinceMs => sinceMs + grace < now
  | .connected => false

namespace ContestState

def new (id : Nat) (kind : ContestKind) (controller opponent : PlayerId)
    (config : ContestConfig) : ContestState :=
  let contestant (player : PlayerId) : Contestant :=
    { player, clicks := 0, lastActivityMs := 0, lastSeq := none, connection := .connected }
  { id, kind, phase := .pending, config,
    contestants := fun i => if i = 0 then contestant controller else contestant opponent,
    clockMs := 0, goAtMs := none, pausedSinceMs := none, result := none }

def indexOf (c : ContestState) (player : PlayerId) : Option (Fin 2) :=
  if (c.contestants 0).player = player then some 0
  else if (c.contestants 1).player = player then some 1
  else none

/-- Rewrites one contestant. -/
def modify (c : ContestState) (i : Fin 2) (change : Contestant → Contestant) : ContestState :=
  { c with contestants := Function.update c.contestants i (change (c.contestants i)) }

def observe (c : ContestState) (nowMs : Nat) : ContestState :=
  { c with clockMs := max c.clockMs nowMs }

def transition (c : ContestState) (next : ContestPhase) : Option ContestState :=
  if c.phase.canTransitionTo next then some { c with phase := next } else none

def deadlineMs (c : ContestState) (i : Fin 2) : Nat :=
  (c.contestants i).lastActivityMs + c.config.inactivityTimeoutMs

def timeLimitMs (c : ContestState) : Nat := c.goAtMs.getD 0 + c.config.maxActiveMs

def resolve (c : ContestState) (outcome : ContestOutcome) : ContestState :=
  match c.transition .resolving with
  | some c => { c with result := some (.outcome outcome) }
  | none => c

def cancel (c : ContestState) (reason : ContestCancelReason) (nowMs : Nat) : ContestState :=
  match (c.observe nowMs).transition .cancelled with
  | some c => { c with result := some (.cancelled reason) }
  | none => c.observe nowMs

def loses (c : ContestState) (loser : Fin 2) (reason : ContestLossReason) : ContestOutcome :=
  .decided (c.contestants (1 - loser)).player (c.contestants loser).player reason

def start (c : ContestState) (nowMs : Nat) : ContestState × Bool :=
  if c.phase ≠ .pending then (c, false)
  else
    let c := c.observe nowMs
    let now := c.clockMs
    match c.transition .preparing with
    | none => (c, false)
    | some c =>
      ({ c with
          goAtMs := some (now + c.config.countdownMs)
          -- a seat already away keeps the contest paused, from the countdown's start on
          pausedSinceMs := if c.pausedSinceMs.isSome then some now else none }, true)

def activate (c : ContestState) (goAt : Nat) : ContestState :=
  match c.transition .active with
  | some c => { c with contestants := fun i => { c.contestants i with lastActivityMs := goAt } }
  | none => c

def settleTimeLimit (c : ContestState) (now : Nat) : ContestState :=
  if c.timeLimitMs < now then c.cancel .timeLimit now else c

def absDiff (a b : Nat) : Nat := (a - b) + (b - a)

def settleInactivity (c : ContestState) (now : Nat) : ContestState :=
  let window := c.config.settleWindowMs
  let lapsed (i : Fin 2) : Bool := c.deadlineMs i < now
  let out (i : Fin 2) : Bool := c.deadlineMs i + window < now
  if !(lapsed 0 || lapsed 1) then c
  else if (lapsed 0 && !out 0) || (lapsed 1 && !out 1) then c
  else
    match lapsed 0, lapsed 1 with
    | true, true =>
      if absDiff (c.deadlineMs 0) (c.deadlineMs 1) ≤ window then c.resolve .tie
      else if c.deadlineMs 0 < c.deadlineMs 1 then c.resolve (c.loses 0 .inactivity)
      else c.resolve (c.loses 1 .inactivity)
    | true, false => c.resolve (c.loses 0 .inactivity)
    | false, true => c.resolve (c.loses 1 .inactivity)
    | false, false => c

def settleForfeits (c : ContestState) (now : Nat) : ContestState × Bool :=
  let expired (i : Fin 2) : Bool := (c.contestants i).expired c.config.reconnectGraceMs now
  let away (i : Fin 2) : Bool := (c.contestants i).disconnected
  if !(expired 0 || expired 1) then (c, false)
  else if away 0 && away 1 then (c.cancel .bothDisconnected now, true)
  else
    let loser : Fin 2 := if expired 0 then 0 else 1
    (c.resolve (c.loses loser .forfeit), true)

/-- The countdown has run out by `now`. -/
def reachGo (c : ContestState) (now : Nat) : ContestState :=
  if c.phase = .preparing then
    match c.goAtMs.filter fun go => go ≤ now with
    | some go => c.activate go
    | none => c
  else c

def settleActive (c : ContestState) (now : Nat) : ContestState :=
  if c.phase = .active then
    let c := c.settleInactivity (min now c.timeLimitMs)
    if c.phase = .active then c.settleTimeLimit now else c
  else c

def advance (c : ContestState) (nowMs : Nat) : ContestState :=
  let c := c.observe nowMs
  let now := c.clockMs
  if c.phase.isTerminal ∨ c.phase = .resolving then c
  else
    let (c, settled) := c.settleForfeits now
    if settled then c
    else if c.pausedSinceMs.isSome then c
    else (c.reachGo now).settleActive now

def complete (c : ContestState) : ContestState × Option ContestResult :=
  match c.transition .completed with
  | some c => (c, c.result)
  | none => (c, none)

def click (c : ContestState) (player : PlayerId) (seq nowMs : Nat) :
    ContestState × ClickDisposition :=
  let c := c.advance nowMs
  let now := c.clockMs
  match c.indexOf player with
  | none => (c, .rejected .notParticipant)
  | some i =>
    if c.phase ≠ .active then (c, .rejected .notActive)
    else if (c.contestants i).lastSeq.any fun last => seq ≤ last then
      (c, .rejected .staleSequence)
    else
      let paused := c.pausedSinceMs.isSome
      if !paused && c.deadlineMs i + c.config.settleWindowMs < now then (c, .rejected .lapsed)
      else
        (c.modify i fun contestant => { contestant with
          lastSeq := some seq
          clicks := min (contestant.clicks + 1) (2 ^ 32 - 1)
          lastActivityMs := if paused then contestant.lastActivityMs else now }, .counted)

def resume (c : ContestState) (now : Nat) : ContestState :=
  match c.pausedSinceMs with
  | none => c
  | some pausedSince =>
    let elapsed := now - pausedSince
    let c := { c with pausedSinceMs := none }
    match c.phase with
    | .preparing => { c with goAtMs := c.goAtMs.map (· + elapsed) }
    | .active =>
      { c with
        goAtMs := c.goAtMs.map (· + elapsed)
        contestants := fun i =>
          { c.contestants i with
            lastActivityMs := (c.contestants i).lastActivityMs + elapsed } }
    | _ => c

/-- The report changes the connection of the contestant. -/
def isEdge (c : ContestState) (i : Fin 2) (connected : Bool) : Bool :=
  match (c.contestants i).connection, connected with
  | .connected, false => true
  | .disconnected _, true => true
  | _, _ => false

def setConnected (c : ContestState) (player : PlayerId) (connected : Bool) (nowMs : Nat) :
    ContestState × Bool :=
  match c.indexOf player with
  | none => (c, false)
  | some i =>
    if !c.isEdge i connected then (c, false)
    else
      let c := c.advance nowMs
      let now := c.clockMs
      if c.phase.isTerminal ∨ c.phase = .resolving then (c, false)
      else
        match (c.contestants i).connection, connected with
        | .connected, false =>
          let c := c.modify i fun contestant =>
            { contestant with connection := .disconnected now }
          ({ c with pausedSinceMs := some (c.pausedSinceMs.getD now) }, true)
        | .disconnected _, true =>
          let c := c.modify i fun contestant => { contestant with connection := .connected }
          if ∀ i, (c.contestants i).connection = .connected then (c.resume now, true)
          else (c, true)
        | _, _ => (c, false)

/-- What inactivity decides at `now`. -/
def lapse (c : ContestState) (now : Nat) : Option ContestOutcome :=
  let window := c.config.settleWindowMs
  let lapsed (i : Fin 2) : Bool := c.deadlineMs i < now
  let out (i : Fin 2) : Bool := c.deadlineMs i + window < now
  if !(lapsed 0 || lapsed 1) then none
  else if (lapsed 0 && !out 0) || (lapsed 1 && !out 1) then none
  else
    match lapsed 0, lapsed 1 with
    | true, true =>
      if absDiff (c.deadlineMs 0) (c.deadlineMs 1) ≤ window then some .tie
      else if c.deadlineMs 0 < c.deadlineMs 1 then some (c.loses 0 .inactivity)
      else some (c.loses 1 .inactivity)
    | true, false => some (c.loses 0 .inactivity)
    | false, true => some (c.loses 1 .inactivity)
    | false, false => none

/-- What the end of a grace period decides at `now`. -/
def forfeit (c : ContestState) (now : Nat) : Option ContestResult :=
  let expired (i : Fin 2) : Bool := (c.contestants i).expired c.config.reconnectGraceMs now
  let away (i : Fin 2) : Bool := (c.contestants i).disconnected
  if !(expired 0 || expired 1) then none
  else if away 0 && away 1 then some (.cancelled .bothDisconnected)
  else some (.outcome (c.loses (if expired 0 then 0 else 1) .forfeit))

end ContestState
end Phase.Contest
