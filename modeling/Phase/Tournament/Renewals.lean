import Phase.Tournament.Books

/-! What a renewal does, and whom a secret authorizes, read off the ledger. -/
namespace Phase.Tournament
open Issuing List TournamentMeta

variable {ledger : Ledger} {event : TournamentMeta}

theorem set_self {α : Type} {as : List α} {i : Nat} {a : α} (there : as[i]? = some a) :
    as.set i a = as := by
  obtain ⟨inside, rfl⟩ := List.getElem?_eq_some_iff.mp there
  exact set_getElem_self inside

/-- The three ends of a renewal: a new secret, the current one once more, or nothing. -/
inductive Renewed (ledger : Ledger) (event : TournamentMeta) (role : TournamentRole)
    (presented nonce : String) (env : BrokerEnv) :
    Except String MintedCredential × TournamentMeta → Prop
  | minted {h : Holder} {latest : Issue} {earlier : List Issue} {event' : TournamentMeta}
      (isRole : h.role = role) (admitted : event.Admits h)
      (account : ledger h = latest :: earlier) (current : presented = latest.secret)
      (inTime : env.nowMs < latest.expiresAtMs)
      (credential : event'.credential = Function.update event.credential h
        (some (credentialOf (env.issue nonce) (ledger h))))
      (players : event'.players.map (fun player => (player.playerKey, player.dropped)) =
        event.players.map fun player => (player.playerKey, player.dropped)) :
      Renewed ledger event role presented nonce env (.ok (env.issue nonce).minted, event')
  | replayed {h : Holder} {latest : Issue} {earlier : List Issue}
      (isRole : h.role = role) (admitted : event.Admits h)
      (account : ledger h = latest :: earlier)
      (replays : Replays latest earlier presented nonce)
      (inTime : env.nowMs < latest.expiresAtMs) :
      Renewed ledger event role presented nonce env (.ok latest.minted, event)
  | refused (reason : String) :
      Renewed ledger event role presented nonce env (.error reason, event)

/-- What `renew` makes of the credential of an account. -/
theorem renew_cases {latest : Issue} {earlier : List Issue} (nonempty : latest.secret ≠ "")
    (presented nonce : String) (env : BrokerEnv) :
    let credential := credentialOf latest earlier
    (presented = latest.secret ∧ env.nowMs < latest.expiresAtMs ∧
        credential.renew presented nonce env =
          (.minted (env.issue nonce).minted, credentialOf (env.issue nonce) (latest :: earlier))) ∨
      (Replays latest earlier presented nonce ∧ env.nowMs < latest.expiresAtMs ∧
        credential.renew presented nonce env = (.replayed latest.minted, credential)) ∨
      credential.renew presented nonce env = (.expired, credential) ∨
      credential.renew presented nonce env = (.mismatch, credential) := by
  intro credential
  by_cases mint : credential.renewKind presented nonce env.nowMs = .mintable
  · obtain ⟨rfl, inTime⟩ := (renewKind_mintable nonempty).mp mint
    exact .inl ⟨rfl, inTime, renew_mints nonempty inTime⟩
  · by_cases replay : credential.renewKind presented nonce env.nowMs = .replayable
    · obtain ⟨other, replays, inTime⟩ := (renewKind_replayable nonempty).mp replay
      exact .inr (.inl ⟨replays, inTime, renew_replays nonempty other replays inTime⟩)
    · exact .inr (.inr (renew_refuses mint replay))

namespace Books

theorem renewOrganizer (books : Books ledger event) (presented nonce : String)
    (scannedAtMs : Nat) (env : BrokerEnv) : Renewed ledger event .organizer presented nonce env
      (event.renewCredential .organizer presented nonce scannedAtMs env) := by
  obtain ⟨latest, earlier, account, token, nonempty⟩ :=
    books.account (h := .organizer) rfl
  have same : event = { event with organizerToken := credentialOf latest earlier } := by
    rw [← token]
  simp only [renewCredential, token]
  rcases renew_cases nonempty presented nonce env with
    ⟨current, inTime, ends⟩ | ⟨replays, inTime, ends⟩ | ends | ends
  · rw [ends]
    refine .minted (h := .organizer) rfl trivial account current inTime ?_ rfl
    funext h
    cases h with
    | organizer => rw [account]; rfl
    | player key => rfl
  · rw [ends, ← same]
    exact .replayed (h := .organizer) rfl trivial account replays inTime
  · rw [ends, ← same]
    exact .refused _
  · rw [ends, ← same]
    exact .refused _

theorem renewPlayer (books : Books ledger event) (presented nonce : String)
    (scannedAtMs : Nat) (env : BrokerEnv) : Renewed ledger event .player presented nonce env
      (event.renewCredential .player presented nonce scannedAtMs env) := by
  simp only [renewCredential]
  split
  · exact .refused _
  · next index isIndex =>
    split
    · exact .refused _
    · next player there =>
      split
      · exact .refused _
      · next active =>
        have mem := mem_of_getElem? there
        obtain ⟨latest, earlier, account, token, nonempty⟩ := books.playerAccount mem
        have same : event.players.set index
            { player with playerToken := credentialOf latest earlier } = event.players := by
          rw [← token]
          exact set_self there
        have admitted : event.Admits (.player player.playerKey) :=
          ⟨player, books.player mem, by simpa using active⟩
        simp only [token]
        rcases renew_cases nonempty presented nonce env with
          ⟨current, inTime, ends⟩ | ⟨replays, inTime, ends⟩ | ends | ends
        · rw [ends]
          refine .minted (h := .player player.playerKey) rfl admitted account current inTime ?_ ?_
          · funext h
            cases h with
            | organizer => rfl
            | player key =>
              simp only [TournamentMeta.credential, TournamentMeta.player]
              rw [find?_set { player with
                playerToken := credentialOf (env.issue nonce) (latest :: earlier) }
                there rfl books.keys]
              by_cases own : key = player.playerKey
              · subst own
                rw [if_pos rfl, Function.update_self, account]
                rfl
              · rw [if_neg own, Function.update_of_ne fun same => own (Holder.player.inj same)]
                rfl
          · rw [map_set]
            exact set_self (by rw [getElem?_map, there]; rfl)
        · rw [ends, same]
          exact .replayed (h := .player player.playerKey) rfl admitted account replays inTime
        · rw [ends, same]
          exact .refused _
        · rw [ends, same]
          exact .refused _

theorem renewed (books : Books ledger event) (role : TournamentRole) (presented nonce : String)
    (scannedAtMs : Nat) (env : BrokerEnv) : Renewed ledger event role presented nonce env
      (event.renewCredential role presented nonce scannedAtMs env) := by
  cases role with
  | organizer => exact books.renewOrganizer presented nonce scannedAtMs env
  | player => exact books.renewPlayer presented nonce scannedAtMs env

variable {presented nonce : String} {now : Nat}

section
variable (books : Books ledger event)
include books

theorem authorizeOrganizer_iff :
    event.authorizeOrganizer presented now = .ok () ↔
      ∃ latest earlier, ledger .organizer = latest :: earlier ∧ presented = latest.secret ∧
        now < latest.expiresAtMs := by
  obtain ⟨latest, earlier, account, token, nonempty⟩ := books.account (h := .organizer) rfl
  have accepts : (credentialOf latest earlier).accepts presented now = true ↔ _ :=
    accepts_credentialOf nonempty
  rw [TournamentCredential.accepts, decide_eq_true_eq] at accepts
  rw [authorizeOrganizer, token]
  constructor
  · intro authorized
    split at authorized
    next accepted => exact ⟨latest, earlier, account, accepts.mp accepted⟩
    next => cases authorized
    next => cases authorized
  · rintro ⟨latest', earlier', account', current⟩
    rw [account] at account'
    cases account'
    rw [accepts.mpr current]

/-- Players whose accounts share a secret are one player. -/
theorem player_unique {p q : TournamentPlayer} (memP : p ∈ event.players) (memQ : q ∈ event.players)
    {a b : Issue} (first : a ∈ ledger (.player p.playerKey))
    (second : b ∈ ledger (.player q.playerKey)) (same : a.secret = b.secret) : p = q := by
  have keys := Holder.player.inj (books.once.holder first second same)
  have foundP := books.player memP
  rw [keys, books.player memQ] at foundP
  exact (Option.some.inj foundP).symm

theorem authorizePlayer_iff {key : String} :
    event.authorizePlayer presented now = .ok key ↔
      ∃ latest earlier, ledger (.player key) = latest :: earlier ∧ presented = latest.secret ∧
        now < latest.expiresAtMs ∧ event.Admits (.player key) := by
  have accepts {player : TournamentPlayer} (mem : player ∈ event.players) :
      player.playerToken.accepts presented now = true ↔
        ∃ latest earlier, ledger (.player player.playerKey) = latest :: earlier ∧
          presented = latest.secret ∧ now < latest.expiresAtMs := by
    obtain ⟨latest, earlier, account, token, nonempty⟩ := books.playerAccount mem
    rw [token, accepts_credentialOf nonempty, account]
    constructor
    · exact fun current => ⟨latest, earlier, rfl, current⟩
    · rintro ⟨_, _, ⟨⟩, current⟩
      exact current
  constructor
  · intro authorized
    rw [authorizePlayer] at authorized
    split at authorized
    next => cases authorized
    next player found =>
      have mem := mem_of_find?_eq_some found
      split at authorized
      next => cases authorized
      next active =>
        cases authorized
        have taken : player.playerToken.accepts presented now = true := by
          simpa using find?_some found
        obtain ⟨latest, earlier, account, current, inTime⟩ := (accepts mem).mp taken
        exact ⟨latest, earlier, account, current, inTime, player, books.player mem,
          by simpa using active⟩
  · rintro ⟨latest, earlier, account, current, inTime, player, known, active⟩
    have mem := mem_of_find?_eq_some known
    have own : player.playerKey = key := by simpa using find?_some known
    subst own
    cases found : event.players.find? (·.playerToken.accepts presented now) with
    | none =>
      exact absurd ((accepts mem).mpr ⟨latest, earlier, account, current, inTime⟩)
        (find?_eq_none.mp found player mem)
    | some other =>
      have memOther := mem_of_find?_eq_some found
      have taken : other.playerToken.accepts presented now = true := by
        simpa using find?_some found
      obtain ⟨latest', earlier', account', current', -⟩ := (accepts memOther).mp taken
      have unique : other = player := books.player_unique memOther mem
        (a := latest') (b := latest) (by rw [account']; exact mem_cons_self)
        (by rw [account]; exact mem_cons_self) (current'.symm.trans current)
      subst unique
      simp [authorizePlayer, found, active]

theorem other_of_replays {h : Holder} {latest : Issue} {earlier : List Issue}
    (account : ledger h = latest :: earlier) (replays : Replays latest earlier presented nonce) :
    presented ≠ latest.secret := by
  obtain ⟨-, -, previous, first, rfl⟩ := replays
  intro same
  have there : (ledger h)[1]? = some previous := by
    rw [account, getElem?_cons_succ, ← head?_eq_getElem?, first]
  have here : (ledger h)[0]? = some latest := by rw [account]; rfl
  exact absurd (books.once there here same).2 (by decide)

/-- A player whose account the renewal recognises. -/
theorem recognised {player : TournamentPlayer} (mem : player ∈ event.players)
    (kind : player.playerToken.renewKind presented nonce now = .mintable ∨
      player.playerToken.renewKind presented nonce now = .replayable) :
    ∃ issued ∈ ledger (.player player.playerKey), presented = issued.secret := by
  obtain ⟨latest, earlier, account, token, nonempty⟩ := books.playerAccount mem
  rw [token, renewKind_mintable nonempty, renewKind_replayable nonempty] at kind
  rw [account]
  rcases kind with ⟨current, -⟩ | ⟨-, ⟨-, -, previous, first, superseded⟩, -⟩
  · exact ⟨latest, mem_cons_self, current⟩
  · exact ⟨previous, mem_cons_of_mem _ (mem_of_mem_head? first), superseded⟩

/-- The superseded secret with the nonce of the last rotation gets the current one. -/
theorem replay_answered {h : Holder} {latest : Issue} {earlier : List Issue}
    (account : ledger h = latest :: earlier) (admitted : event.Admits h)
    (replays : Replays latest earlier presented nonce) {scannedAtMs : Nat} {env : BrokerEnv}
    (scanned : scannedAtMs < latest.expiresAtMs) (inTime : env.nowMs < latest.expiresAtMs) :
    event.renewCredential h.role presented nonce scannedAtMs env = (.ok latest.minted, event) := by
  have other := books.other_of_replays account replays
  cases h with
  | organizer =>
    obtain ⟨latest', earlier', account', token, nonempty⟩ := books.account (h := .organizer) rfl
    rw [account] at account'
    cases account'
    have same : event = { event with organizerToken := credentialOf latest earlier } := by
      rw [← token]
    simp only [Holder.role, renewCredential, token]
    rw [renew_replays nonempty other replays inTime, ← same]
    rfl
  | player key =>
    obtain ⟨player, known, active⟩ := admitted
    have mem := mem_of_find?_eq_some known
    have own : player.playerKey = key := by simpa using find?_some known
    subst own
    obtain ⟨latest', earlier', account', token, nonempty⟩ := books.playerAccount mem
    rw [account] at account'
    cases account'
    have kind : player.playerToken.renewKind presented nonce scannedAtMs = .replayable := by
      rw [token]
      exact (renewKind_replayable nonempty).mpr ⟨other, replays, scanned⟩
    obtain ⟨-, -, previous, first, superseded⟩ := id replays
    simp only [Holder.role, renewCredential]
    split
    next missed =>
      have none := findIdx?_eq_none_iff.mp missed player mem
      simp [kind] at none
    next index isIndex =>
      obtain ⟨inside, taken, -⟩ := findIdx?_eq_some_iff_getElem.mp isIndex
      have there := getElem?_eq_getElem inside
      obtain ⟨issued, memIssued, same⟩ := books.recognised (getElem_mem inside)
        (by simpa using taken)
      have unique : event.players[index] = player :=
        books.player_unique (getElem_mem inside) mem (b := previous) memIssued
          (by rw [account]; exact mem_cons_of_mem _ (mem_of_mem_head? first))
          (same.symm.trans superseded)
      rw [unique] at there
      have unchanged : event.players.set index
          { player with playerToken := credentialOf latest earlier } = event.players := by
        rw [← token]
        exact set_self there
      have alive : ¬player.dropped = true := by simp [active]
      simp only [there, token]
      rw [if_neg alive, renew_replays nonempty other replays inTime, unchanged]
      rfl

end

end Books

end Phase.Tournament
