import Phase.Lib.Issuing
import Phase.Tournament.Change

/-! The bearer credentials of a tournament: who may act with one, how one is renewed, and what is
left of all the secrets that were ever issued. -/
namespace Phase.Tournament

inductive TournamentRole where
  | organizer
  | player
  deriving DecidableEq

inductive CredentialVerdict where
  | accepted
  | expired
  | mismatch
  deriving DecidableEq

inductive RenewKind where
  | mintable
  | replayable
  | expired
  | mismatch
  deriving DecidableEq

structure MintedCredential where
  secret : String
  expiresAtMs : Nat
  deriving DecidableEq

inductive RenewOutcome where
  | minted (credential : MintedCredential)
  | replayed (credential : MintedCredential)
  | expired
  | mismatch
  deriving DecidableEq

/-- Every byte is looked at, whatever the first difference. -/
def constantTimeEq (a b : List UInt8) : Bool :=
  a.length = b.length &&
    (a.zip b).foldl (fun diff pair => diff ||| (pair.1 ^^^ pair.2)) (0 : UInt8) = 0

def asBytes (text : String) : List UInt8 := text.toByteArray.data.toList

namespace TournamentCredential

def verdict (credential : TournamentCredential) (presented : String) (nowMs : Nat) :
    CredentialVerdict :=
  if credential.secret = "" ∨ presented = "" then .mismatch
  else if constantTimeEq (asBytes credential.secret) (asBytes presented) = false then .mismatch
  else if credential.expiresAtMs ≤ nowMs then .expired
  else .accepted

def accepts (credential : TournamentCredential) (presented : String) (nowMs : Nat) : Bool :=
  credential.verdict presented nowMs = .accepted

/-- What a renewal would do, without doing it. -/
def renewKind (credential : TournamentCredential) (presented nonce : String) (nowMs : Nat) :
    RenewKind :=
  match credential.verdict presented nowMs with
  | .accepted => .mintable
  | .expired => .expired
  | .mismatch =>
    match credential.lastRotation with
    | some record =>
      if nonce ≠ "" ∧
          constantTimeEq (asBytes record.supersededSecret) (asBytes presented) = true ∧
          constantTimeEq (asBytes record.nonce) (asBytes nonce) = true then
        if credential.expiresAtMs ≤ nowMs then .expired else .replayable
      else .mismatch
    | none => .mismatch

/-- The current secret makes way for a new one; the secret it replaced, with the nonce of that
request, gets the current one once more, in case the reply was lost. -/
def renew (credential : TournamentCredential) (presented nonce : String) (env : BrokerEnv) :
    RenewOutcome × TournamentCredential :=
  match credential.renewKind presented nonce env.nowMs with
  | .mintable =>
    let expiresAtMs := env.nowMs + tournamentCredentialTtlMs
    (.minted { secret := env.newToken, expiresAtMs },
      { secret := env.newToken, expiresAtMs
        -- a request without a nonce leaves nothing to replay
        lastRotation :=
          if nonce = "" then none else some { supersededSecret := credential.secret, nonce } })
  | .replayable =>
    (.replayed { secret := credential.secret, expiresAtMs := credential.expiresAtMs }, credential)
  | .expired => (.expired, credential)
  | .mismatch => (.mismatch, credential)

end TournamentCredential

namespace TournamentMeta

variable (event : TournamentMeta)

def organizerExpired : String :=
  s!"Organizer credential for tournament {event.code} has expired and can no longer be renewed"

def playerExpired : String :=
  s!"Player credential for tournament {event.code} has expired and can no longer be renewed"

def invalidToken (role : TournamentRole) : String :=
  match role with
  | .organizer => s!"Invalid organizer token for tournament {event.code}"
  | .player => s!"Invalid player token for tournament {event.code}"

/-- The reply to a renewal that was tried. -/
def renewReply (role : TournamentRole) : RenewOutcome → Except String MintedCredential
  | .minted credential | .replayed credential => .ok credential
  | .expired =>
    .error (match role with
      | .organizer => event.organizerExpired
      | .player => event.playerExpired)
  | .mismatch => .error (event.invalidToken role)

/-- The clock is read twice: to find whose credential is presented, at `scannedAtMs`, and to
renew it. -/
def renewCredential (role : TournamentRole) (presented nonce : String) (scannedAtMs : Nat)
    (env : BrokerEnv) : Except String MintedCredential × TournamentMeta :=
  match role with
  | .organizer =>
    let (outcome, renewed) := event.organizerToken.renew presented nonce env
    (event.renewReply .organizer outcome, { event with organizerToken := renewed })
  | .player =>
    let kind (player : TournamentPlayer) :=
      player.playerToken.renewKind presented nonce scannedAtMs
    match event.players.findIdx? fun player =>
        kind player = .mintable || kind player = .replayable with
    | none =>
      (.error (if event.players.any fun player => kind player = .expired then
        event.playerExpired else event.invalidToken .player), event)
    | some index =>
      match event.players[index]? with
      | none => (.error (event.invalidToken .player), event)
      | some player =>
        if player.dropped then
          (.error s!"Player has dropped from tournament {event.code}", event)
        else
          let (outcome, renewed) := player.playerToken.renew presented nonce env
          (event.renewReply .player outcome, { event with
            players := event.players.set index { player with playerToken := renewed } })

def authorizeOrganizer (presented : String) (nowMs : Nat) : Except String Unit :=
  match event.organizerToken.verdict presented nowMs with
  | .accepted => .ok ()
  | .expired =>
    .error (s!"Organizer credential for tournament {event.code} has expired - " ++
      "renew it and retry")
  | .mismatch => .error (event.invalidToken .organizer)

/-- The key of the player whose token is presented. -/
def authorizePlayer (presented : String) (nowMs : Nat) : Except String String :=
  match event.players.find? fun player => player.playerToken.accepts presented nowMs with
  | none =>
    .error (if event.players.any fun player =>
        player.playerToken.verdict presented nowMs = .expired then
      s!"Player credential for tournament {event.code} has expired - renew it and retry"
    else event.invalidToken .player)
  | some player =>
    if player.dropped then .error s!"Player has dropped from tournament {event.code}"
    else .ok player.playerKey

end TournamentMeta

open Issuing TournamentCredential

theorem fold_differences (pairs : List (UInt8 × UInt8)) (diff : UInt8) :
    pairs.foldl (fun diff pair => diff ||| (pair.1 ^^^ pair.2)) diff = 0 ↔
      diff = 0 ∧ ∀ pair ∈ pairs, pair.1 = pair.2 := by
  induction pairs generalizing diff with
  | nil => simp
  | cons pair pairs ih =>
    rw [List.foldl_cons, ih, UInt8.or_eq_zero_iff]
    simp [and_assoc]

theorem constantTimeEq_iff {a b : List UInt8} : constantTimeEq a b = true ↔ a = b := by
  simp only [constantTimeEq, Bool.and_eq_true, decide_eq_true_eq, fold_differences, true_and]
  constructor
  · rintro ⟨length, agree⟩
    refine List.ext_getElem length fun i inA inB => ?_
    have mem : (a[i], b[i]) ∈ a.zip b := by
      rw [List.mem_iff_getElem]
      exact ⟨i, by simp [List.length_zip, inA, inB], by simp⟩
    exact agree _ mem
  · rintro rfl
    refine ⟨rfl, fun pair mem => ?_⟩
    obtain ⟨i, inside, rfl⟩ := List.mem_iff_getElem.mp mem
    simp

theorem asBytes_inj {a b : String} : asBytes a = asBytes b ↔ a = b := by
  refine ⟨fun same => ?_, congrArg asBytes⟩
  exact String.toByteArray_inj.mp (ByteArray.ext (Array.toList_inj.mp same))

theorem sameText {a b : String} : constantTimeEq (asBytes a) (asBytes b) = true ↔ a = b :=
  constantTimeEq_iff.trans asBytes_inj

inductive Holder where
  | organizer
  | player (playerKey : String)
  deriving DecidableEq

structure Issue where
  secret : String
  nonce : String
  expiresAtMs : Nat
  deriving DecidableEq

/-- What the holder is told. -/
def Issue.minted (issued : Issue) : MintedCredential :=
  { secret := issued.secret, expiresAtMs := issued.expiresAtMs }

/-- What is issued now, on a request with this nonce. -/
def BrokerEnv.issue (env : BrokerEnv) (nonce : String) : Issue :=
  { secret := env.newToken, nonce, expiresAtMs := env.nowMs + tournamentCredentialTtlMs }

abbrev Ledger := Holder → List Issue

/-- The latest issue and what it replaced, unless it was asked for without a nonce. -/
def lastRotation (latest : Issue) (earlier : List Issue) : Option RotationRecord :=
  earlier.head?.bind fun previous =>
    if latest.nonce = "" then none
    else some { supersededSecret := previous.secret, nonce := latest.nonce }

/-- The credential that a history of issues leaves. -/
def credentialOf (latest : Issue) (earlier : List Issue) : TournamentCredential where
  secret := latest.secret
  expiresAtMs := latest.expiresAtMs
  lastRotation := lastRotation latest earlier

/-- The previous secret together with the nonce that replaced it. -/
def Replays (latest : Issue) (earlier : List Issue) (presented nonce : String) : Prop :=
  nonce ≠ "" ∧ nonce = latest.nonce ∧ ∃ previous, earlier.head? = some previous ∧
    presented = previous.secret

section

variable {latest : Issue} {earlier : List Issue} {presented nonce : String} {now : Nat}

theorem verdict_credentialOf (nonempty : latest.secret ≠ "") :
    (credentialOf latest earlier).verdict presented now =
      if presented = latest.secret then
        if latest.expiresAtMs ≤ now then .expired else .accepted
      else .mismatch := by
  by_cases same : presented = latest.secret
  · subst same
    have equal : constantTimeEq (asBytes latest.secret) (asBytes latest.secret) = true :=
      sameText.mpr rfl
    simp only [verdict, credentialOf, nonempty, equal, or_self, ↓reduceIte, Bool.true_eq_false]
    rfl
  · have differs : ¬constantTimeEq (asBytes latest.secret) (asBytes presented) = true :=
      fun equal => same (sameText.mp equal).symm
    simp [verdict, credentialOf, same, differs]

theorem accepts_credentialOf (nonempty : latest.secret ≠ "") :
    (credentialOf latest earlier).accepts presented now = true ↔
      presented = latest.secret ∧ now < latest.expiresAtMs := by
  rw [accepts, verdict_credentialOf nonempty]
  by_cases same : presented = latest.secret
  · by_cases expired : latest.expiresAtMs ≤ now
    · simp [same, expired, not_lt.mpr expired]
    · simp [same, expired, not_le.mp expired]
  · simp [same]

theorem replays_iff : Replays latest earlier presented nonce ↔
    ∃ record, (credentialOf latest earlier).lastRotation = some record ∧ nonce ≠ "" ∧
      constantTimeEq (asBytes record.supersededSecret) (asBytes presented) = true ∧
      constantTimeEq (asBytes record.nonce) (asBytes nonce) = true := by
  simp only [Replays, credentialOf, lastRotation, sameText]
  constructor
  · rintro ⟨nonempty, rfl, previous, first, rfl⟩
    exact ⟨_, by rw [first, Option.bind_some, if_neg nonempty], nonempty, rfl, rfl⟩
  · rintro ⟨record, recorded, nonempty, rfl, rfl⟩
    obtain ⟨previous, first, recorded⟩ := Option.bind_eq_some_iff.mp recorded
    split at recorded
    · cases recorded
    · cases recorded
      exact ⟨nonempty, rfl, previous, first, rfl⟩

section
variable (nonempty : latest.secret ≠ "")
include nonempty

theorem renewKind_mintable :
    (credentialOf latest earlier).renewKind presented nonce now = .mintable ↔
      presented = latest.secret ∧ now < latest.expiresAtMs := by
  rw [renewKind, verdict_credentialOf nonempty]
  by_cases same : presented = latest.secret
  · by_cases expired : latest.expiresAtMs ≤ now
    · simp [same, expired, not_lt.mpr expired]
    · simp [same, expired, not_le.mp expired]
  · simp only [same, ↓reduceIte, false_and, iff_false]
    split
    · split
      · split <;> nofun
      · nofun
    · nofun

theorem renewKind_replayable :
    (credentialOf latest earlier).renewKind presented nonce now = .replayable ↔
      presented ≠ latest.secret ∧ Replays latest earlier presented nonce ∧
        now < latest.expiresAtMs := by
  rw [renewKind, verdict_credentialOf nonempty]
  by_cases same : presented = latest.secret
  · by_cases expired : latest.expiresAtMs ≤ now <;> simp [same, expired]
  · simp only [same, ↓reduceIte, ne_eq, not_false_eq_true, true_and]
    constructor
    · intro kind
      split at kind
      next record recorded =>
        split at kind
        next matched =>
          split at kind
          next => cases kind
          next inTime => exact ⟨replays_iff.mpr ⟨record, recorded, matched⟩, not_le.mp inTime⟩
        next => cases kind
      next => cases kind
    · rintro ⟨replays, inTime⟩
      obtain ⟨record, recorded, matched⟩ := replays_iff.mp replays
      simp only [recorded]
      rw [if_pos matched]
      exact if_neg (not_le.mpr inTime)

/-- A renewal with the current secret adds an issue. -/
theorem renew_mints {env : BrokerEnv} (inTime : env.nowMs < latest.expiresAtMs) :
    (credentialOf latest earlier).renew latest.secret nonce env =
      (.minted (env.issue nonce).minted, credentialOf (env.issue nonce) (latest :: earlier)) := by
  rw [renew, (renewKind_mintable nonempty).mpr ⟨rfl, inTime⟩]
  rfl

/-- A replay tells the current secret once more. -/
theorem renew_replays {env : BrokerEnv} (other : presented ≠ latest.secret)
    (replays : Replays latest earlier presented nonce) (inTime : env.nowMs < latest.expiresAtMs) :
    (credentialOf latest earlier).renew presented nonce env =
      (.replayed latest.minted, credentialOf latest earlier) := by
  rw [renew, (renewKind_replayable nonempty).mpr ⟨other, replays, inTime⟩]
  rfl

end

end

/-- Every other renewal is refused and changes nothing. -/
theorem renew_refuses {credential : TournamentCredential} {presented nonce : String}
    {env : BrokerEnv} (mint : credential.renewKind presented nonce env.nowMs ≠ .mintable)
    (replay : credential.renewKind presented nonce env.nowMs ≠ .replayable) :
    credential.renew presented nonce env = (.expired, credential) ∨
      credential.renew presented nonce env = (.mismatch, credential) := by
  unfold renew
  cases kind : credential.renewKind presented nonce env.nowMs with
  | mintable => exact absurd kind mint
  | replayable => exact absurd kind replay
  | expired => exact .inl rfl
  | mismatch => exact .inr rfl

end Phase.Tournament
