import Phase.Lib.Keyed
import Phase.Lib.Fallible

/-! `LobbyManager`, the registry of waiting lobby entries. -/
namespace Phase.Lobby

/-- Minimum advance, in seconds, of a listing's liveness clock. -/
def livenessRefreshSecs : Nat := 60

/-- The time each call reads, in milliseconds. -/
structure BrokerEnv where
  nowMs : Nat

def BrokerEnv.now (env : BrokerEnv) : Nat := env.nowMs / 1000

/-- `n + 1` on a 64-bit counter; `none` is an overflow, which stops the program. -/
def increment (n : Nat) : Option Nat :=
  if n + 1 < 2 ^ 64 then some (n + 1) else none

inductive HostPresence where
  | present
  | away
  deriving DecidableEq

/-- What the host supplies. `Settings` stands for the format, match and draft settings, which
the lobby passes on unread. -/
structure RegisterGameRequest (Settings : Type) where
  hostName : String
  isPublic : Bool
  password : Option String
  timerSeconds : Option Nat
  hostVersion : String
  hostBuildCommit : String
  currentPlayers : Nat
  maxPlayers : Nat
  settings : Settings
  roomName : Option String
  hostPeerId : String
  ranked : Bool

/-- The fields of an entry that every snapshot carries. -/
structure Listing (Settings : Type) extends RegisterGameRequest Settings where
  createdAt : Nat
  hasPassword : Bool

structure LobbyGameMeta (Settings : Type) extends Listing Settings where
  hostPresence : HostPresence
  lastSeen : Nat
  generation : Nat

/-- An entry as stored: a build that predates a field leaves it out. -/
structure StoredGameMeta (Settings : Type) extends Listing Settings where
  hostPresence : Option HostPresence
  lastSeen : Option Nat
  generation : Option Nat

structure LobbyRegistration where
  gameCode : String
  generation : Nat
  deriving DecidableEq

inductive ExpiryConsumption where
  | removed
  | alreadyGone
  | superseded
  deriving DecidableEq

structure LobbyManager (Settings : Type) where
  games : AList fun _ : String => LobbyGameMeta Settings
  nextGeneration : Nat

structure LobbyManagerSnapshot (Settings : Type) where
  games : AList fun _ : String => StoredGameMeta Settings
  nextGeneration : Option Nat

variable {Settings : Type}

def LobbyGameMeta.stored (entry : LobbyGameMeta Settings) : StoredGameMeta Settings :=
  { entry with
    hostPresence := some entry.hostPresence
    lastSeen := some entry.lastSeen
    generation := some entry.generation }

/-- Absent fields take their defaults. -/
def StoredGameMeta.load (entry : StoredGameMeta Settings) : LobbyGameMeta Settings :=
  { entry with
    hostPresence := entry.hostPresence.getD .present
    lastSeen := entry.lastSeen.getD 0
    generation := entry.generation.getD 0 }

def LobbyGameMeta.floored (entry : LobbyGameMeta Settings) : LobbyGameMeta Settings :=
  { entry with lastSeen := max entry.lastSeen entry.createdAt }

namespace LobbyManager

def new : LobbyManager Settings where
  games := ∅
  nextGeneration := 0

def snapshot (lobby : LobbyManager Settings) : LobbyManagerSnapshot Settings where
  games := Assoc.mapValues LobbyGameMeta.stored lobby.games
  nextGeneration := some lobby.nextGeneration

/-- Seeds the counter above every generation that the snapshot carries. -/
def ofSnapshot (stored : LobbyManagerSnapshot Settings) : Option (LobbyManager Settings) := do
  let games := Assoc.mapValues (fun entry => entry.load.floored) stored.games
  let following ← (Assoc.values games).mapM fun entry => increment entry.generation
  let seeded := max (following.max?.getD 0) (stored.nextGeneration.getD 0)
  return { games, nextGeneration := seeded }

def registerGame (lobby : LobbyManager Settings) (gameCode : String)
    (req : RegisterGameRequest Settings) (env : BrokerEnv) :
    Option (LobbyRegistration × LobbyManager Settings) := do
  let createdAt := env.now
  let generation := lobby.nextGeneration
  let next ← increment generation
  let entry : LobbyGameMeta Settings :=
    { req with
      createdAt
      hasPassword := req.password.isSome
      hostPresence := .present
      lastSeen := createdAt
      generation }
  return (⟨gameCode, generation⟩,
    { games := lobby.games.insert gameCode entry, nextGeneration := next })

def unregisterGame (lobby : LobbyManager Settings) (gameCode : String) : LobbyManager Settings :=
  { lobby with games := lobby.games.erase gameCode }

def markHostAway (lobby : LobbyManager Settings) (gameCode : String) : LobbyManager Settings :=
  { lobby with
    games := Assoc.modify gameCode (fun entry => { entry with hostPresence := .away }) lobby.games }

def markHostReturned (lobby : LobbyManager Settings) (gameCode hostVersion hostBuildCommit : String) :
    LobbyManager Settings :=
  { lobby with
    games := Assoc.modify gameCode
      (fun entry => { entry with hostPresence := .present, hostVersion, hostBuildCommit })
      lobby.games }

def hasGame (lobby : LobbyManager Settings) (gameCode : String) : Bool :=
  (lobby.games.lookup gameCode).isSome

/-- The games whose host has shown no liveness for longer than the timeout; none is removed.
The order is that of the hash map, which nothing may rely on. -/
def checkExpired (lobby : LobbyManager Settings) (timeoutSecs : Nat) (env : BrokerEnv) :
    List LobbyRegistration :=
  (lobby.games.entries.filter fun entry => env.now - entry.2.lastSeen > timeoutSecs).map
    fun entry => ⟨entry.1, entry.2.generation⟩

def isCurrent (lobby : LobbyManager Settings) (registration : LobbyRegistration) : Bool :=
  (lobby.games.lookup registration.gameCode).any (·.generation == registration.generation)

def livenessRefreshDue (lobby : LobbyManager Settings) (registration : LobbyRegistration)
    (env : BrokerEnv) : Bool :=
  lobby.isCurrent registration &&
    (lobby.games.lookup registration.gameCode).any fun entry =>
      env.now - entry.lastSeen ≥ livenessRefreshSecs

def refreshLiveness (lobby : LobbyManager Settings) (registration : LobbyRegistration)
    (env : BrokerEnv) : Bool × LobbyManager Settings :=
  if !lobby.livenessRefreshDue registration env then (false, lobby)
  else
    (true, { lobby with
      games := Assoc.modify registration.gameCode (fun entry => { entry with lastSeen := env.now })
        lobby.games })

def unregisterRegistration (lobby : LobbyManager Settings) (registration : LobbyRegistration) :
    Bool × LobbyManager Settings :=
  if lobby.isCurrent registration then (true, lobby.unregisterGame registration.gameCode)
  else (false, lobby)

def unregisterExpired (lobby : LobbyManager Settings) (expired : LobbyRegistration) :
    ExpiryConsumption × LobbyManager Settings :=
  match lobby.unregisterRegistration expired with
  | (true, lobby) => (.removed, lobby)
  | (false, lobby) =>
    if lobby.hasGame expired.gameCode then (.superseded, lobby) else (.alreadyGone, lobby)

variable {lobby lobby' : LobbyManager Settings} {handle : LobbyRegistration} {env : BrokerEnv}

theorem registerGame_eq_some {gameCode : String} {req : RegisterGameRequest Settings}
    (registered : lobby.registerGame gameCode req env = some (handle, lobby')) :
    handle = ⟨gameCode, lobby.nextGeneration⟩ ∧
      lobby'.nextGeneration = lobby.nextGeneration + 1 ∧
      ∃ entry : LobbyGameMeta Settings, lobby'.games = lobby.games.insert gameCode entry ∧
        entry.generation = lobby.nextGeneration ∧ entry.lastSeen = env.now := by
  simp only [registerGame, increment] at registered
  split at registered
  · cases registered
    exact ⟨rfl, rfl, _, rfl, rfl, rfl⟩
  · cases registered

theorem lookup_unregisterGame (lobby : LobbyManager Settings) (gameCode : String) :
    (lobby.unregisterGame gameCode).games.lookup gameCode = none :=
  AList.lookup_erase gameCode lobby.games

theorem lookup_unregisterGame_ne {gameCode code : String} (other : code ≠ gameCode)
    (lobby : LobbyManager Settings) :
    (lobby.unregisterGame gameCode).games.lookup code = lobby.games.lookup code :=
  AList.lookup_erase_ne other

theorem mem_checkExpired {timeoutSecs : Nat} :
    handle ∈ lobby.checkExpired timeoutSecs env ↔
      ∃ entry, lobby.games.lookup handle.gameCode = some entry ∧
        entry.generation = handle.generation ∧ timeoutSecs < env.now - entry.lastSeen := by
  simp only [checkExpired, List.mem_map, List.mem_filter, decide_eq_true_eq]
  constructor
  · rintro ⟨⟨code, entry⟩, ⟨inside, late⟩, rfl⟩
    exact ⟨entry, Assoc.mem_entries.mp inside, rfl, late⟩
  · rintro ⟨entry, found, same, late⟩
    refine ⟨⟨handle.gameCode, entry⟩, ⟨Assoc.mem_entries.mpr found, late⟩, ?_⟩
    rw [same]

theorem isCurrent_iff :
    lobby.isCurrent handle = true ↔
      ∃ entry, lobby.games.lookup handle.gameCode = some entry ∧
        entry.generation = handle.generation := by
  simp [isCurrent, Option.any_eq_true]

theorem refreshLiveness_accepted (accepted : (lobby.refreshLiveness handle env).1 = true) :
    lobby.isCurrent handle = true ∧
      (∃ entry, lobby.games.lookup handle.gameCode = some entry ∧ entry.lastSeen < env.now) ∧
      (lobby.refreshLiveness handle env).2 = { lobby with
        games := Assoc.modify handle.gameCode (fun entry => { entry with lastSeen := env.now })
          lobby.games } := by
  unfold refreshLiveness at accepted ⊢
  cases due : lobby.livenessRefreshDue handle env with
  | false =>
    rw [due] at accepted
    cases accepted
  | true =>
    simp only [livenessRefreshDue, Bool.and_eq_true, Option.any_eq_true] at due
    obtain ⟨current, entry, found, quantum⟩ := due
    have quantum : livenessRefreshSecs ≤ env.now - entry.lastSeen := of_decide_eq_true quantum
    have positive : 0 < livenessRefreshSecs := by decide
    exact ⟨current, ⟨entry, found, by omega⟩, rfl⟩

theorem refreshLiveness_declined (declined : (lobby.refreshLiveness handle env).1 = false) :
    (lobby.refreshLiveness handle env).2 = lobby := by
  unfold refreshLiveness at declined ⊢
  cases due : lobby.livenessRefreshDue handle env with
  | false => rfl
  | true =>
    rw [due] at declined
    cases declined

theorem unregisterExpired_snd (lobby : LobbyManager Settings) (handle : LobbyRegistration) :
    (lobby.unregisterExpired handle).2 = (lobby.unregisterRegistration handle).2 := by
  unfold unregisterExpired unregisterRegistration
  cases lobby.isCurrent handle with
  | true => rfl
  | false =>
    cases held : lobby.hasGame handle.gameCode <;> simp [held]

theorem unregisterExpired_removed :
    (lobby.unregisterExpired handle).1 = .removed ↔ lobby.isCurrent handle = true := by
  unfold unregisterExpired unregisterRegistration
  cases lobby.isCurrent handle with
  | true => simp
  | false =>
    cases held : lobby.hasGame handle.gameCode <;> simp [held]

theorem unregisterRegistration_snd (lobby : LobbyManager Settings) (handle : LobbyRegistration) :
    (lobby.unregisterRegistration handle).2 =
      if lobby.isCurrent handle then lobby.unregisterGame handle.gameCode else lobby := by
  unfold unregisterRegistration
  cases lobby.isCurrent handle <;> rfl

theorem unregisterRegistration_fst (lobby : LobbyManager Settings) (handle : LobbyRegistration) :
    (lobby.unregisterRegistration handle).1 = lobby.isCurrent handle := by
  unfold unregisterRegistration
  cases lobby.isCurrent handle <;> rfl

theorem increment_eq_some {n m : Nat} (h : increment n = some m) : m = n + 1 := by
  unfold increment at h
  split at h
  · exact (Option.some.inj h).symm
  · cases h

theorem ofSnapshot_eq_some {stored : LobbyManagerSnapshot Settings}
    (restored : ofSnapshot stored = some lobby) :
    (∀ code, lobby.games.lookup code =
      (stored.games.lookup code).map fun entry => entry.load.floored) ∧
    stored.nextGeneration.getD 0 ≤ lobby.nextGeneration ∧
    ∀ code entry, lobby.games.lookup code = some entry →
      entry.generation < lobby.nextGeneration := by
  simp only [ofSnapshot, Option.bind_eq_bind, Option.bind_eq_some_iff] at restored
  obtain ⟨following, counted, made⟩ := restored
  cases made
  refine ⟨fun code => Assoc.lookup_mapValues .., le_max_right .., fun code entry found => ?_⟩
  have inside := Assoc.mem_values.mpr ⟨code, found⟩
  obtain ⟨next, listed, next_eq⟩ := Fallible.exists_of_mapM_eq_some counted inside
  have above := increment_eq_some next_eq
  have atMost : next ≤ following.max?.getD 0 := List.le_max?_getD_of_mem listed
  show entry.generation < max (following.max?.getD 0) (stored.nextGeneration.getD 0)
  omega

/-- Storing and loading keeps the entries, their clocks floored, and the counter. -/
theorem roundTrip_eq_some (restored : ofSnapshot lobby.snapshot = some lobby') :
    (∀ code, lobby'.games.lookup code =
      (lobby.games.lookup code).map LobbyGameMeta.floored) ∧
    lobby.nextGeneration ≤ lobby'.nextGeneration := by
  obtain ⟨games, counter, -⟩ := ofSnapshot_eq_some restored
  refine ⟨fun code => ?_, counter⟩
  rw [games code, snapshot, Assoc.lookup_mapValues, Option.map_map]
  rfl

end LobbyManager
end Phase.Lobby
