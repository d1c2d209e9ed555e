import Phase.Tournament.Renewals

/-! Renewals by any number of parties, in any order, with any replies lost. -/
namespace Phase.Tournament
open Issuing Relation List

/-- `scannedAtMs` and `env` are the two readings of the clock. -/
structure RenewRequest where
  role : TournamentRole
  presented : String
  nonce : String
  scannedAtMs : Nat
  env : BrokerEnv

def RenewRequest.answer (request : RenewRequest) (event : TournamentMeta) :
    Except String MintedCredential × TournamentMeta :=
  event.renewCredential request.role request.presented request.nonce request.scannedAtMs request.env

/-- An event, the ledger of its secrets, and what an outsider knows. -/
structure World where
  event : TournamentMeta
  ledger : Ledger
  known : Set String

/-- A fresh token: nobody has it yet. -/
structure World.Unseen (w : World) (token : String) : Prop where
  nonempty : token ≠ ""
  new : New Issue.secret w.ledger token
  unknown : token ∉ w.known

/-- What the outsider can ask for: a current secret only if it is known, and with a superseded
one not the nonce of the last rotation. -/
structure World.CanAsk (w : World) (request : RenewRequest) : Prop where
  secret : ∀ h, Current Issue.secret w.ledger h request.presented → request.presented ∈ w.known
  nonce : ∀ h latest, (w.ledger h).head? = some latest →
    Superseded Issue.secret w.ledger h request.presented → request.nonce ≠ "" →
    request.nonce ≠ latest.nonce

/-- The event after a request. -/
def World.renewed (w : World) (request : RenewRequest) : World where
  event := (request.answer w.event).2
  ledger := note w.ledger (request.answer w.event).2 request.nonce
  known := w.known

def World.learns (w : World) (secrets : Set String) : World :=
  { w with known := w.known ∪ secrets }

/-- The secret of a reply. -/
def told : Except String MintedCredential → Set String
  | .ok minted => {minted.secret}
  | .error _ => ∅

inductive Step (compareTiebreaks : CompareTiebreaks) (code : String) : World → World → Prop
  | change {w : World} {call : TournamentCall} {env : BrokerEnv} {event' : TournamentMeta} :
      Change compareTiebreaks code w.event call env event' → w.Unseen env.newToken →
      Step compareTiebreaks code w { w with event := event', ledger := note w.ledger event' "" }
  /-- A request of somebody else; the reply arrives there, or is lost. -/
  | renew {w : World} (request : RenewRequest) : w.Unseen request.env.newToken →
      Step compareTiebreaks code w (w.renewed request)
  /-- A request of the outsider; the reply arrives, or is lost. -/
  | ask {w : World} (request : RenewRequest) (arrives : Bool) : w.CanAsk request →
      w.Unseen request.env.newToken →
      Step compareTiebreaks code w ((w.renewed request).learns
        (if arrives then told (request.answer w.event).1 else ∅))
  /-- The outsider comes by a secret that is not in force. -/
  | leak {w : World} {secret : String} : (∀ h, ¬Current Issue.secret w.ledger h secret) →
      Step compareTiebreaks code w (w.learns {secret})

/-- A new event and what happens to it, any number of steps. -/
inductive Visits (compareTiebreaks : CompareTiebreaks) (code : String) : World → Prop
  | created (req : CreateTournamentRequest) {env : BrokerEnv} {known : Set String} :
      env.newToken ≠ "" → env.newToken ∉ known →
      Visits compareTiebreaks code {
        event := .created code req env
        ledger := note (fun _ => []) (.created code req env) ""
        known }
  | step {w w' : World} : Visits compareTiebreaks code w → Step compareTiebreaks code w w' →
      Visits compareTiebreaks code w'

variable {compareTiebreaks : CompareTiebreaks} {code : String} {w w' : World}

/-- A request that mints adds one issue to the account of the secret presented. -/
structure Minted (w : World) (request : RenewRequest) (h : Holder) : Prop where
  admitted : w.event.Admits h
  current : Current Issue.secret w.ledger h request.presented
  reply : (request.answer w.event).1 = .ok (request.env.issue request.nonce).minted
  ledger : (w.renewed request).ledger = issue w.ledger h (request.env.issue request.nonce)
  players : (w.renewed request).event.players.map (fun player =>
    (player.playerKey, player.dropped)) =
      w.event.players.map fun player => (player.playerKey, player.dropped)

/-- A request that replays has the superseded secret and the nonce of the last rotation. -/
structure Replayed (w : World) (request : RenewRequest) (h : Holder) (latest : Issue) : Prop where
  admitted : w.event.Admits h
  first : (w.ledger h).head? = some latest
  superseded : Superseded Issue.secret w.ledger h request.presented
  nonempty : request.nonce ≠ ""
  nonce : request.nonce = latest.nonce
  inTime : request.env.nowMs < latest.expiresAtMs
  reply : (request.answer w.event).1 = .ok latest.minted

variable {request : RenewRequest} {ledger : Ledger} {h : Holder} {issued : Issue}
  {event : TournamentMeta} {key : String}

theorem renewed_cases (books : Books w.ledger w.event) (unseen : w.Unseen request.env.newToken) :
    Books (w.renewed request).ledger (w.renewed request).event ∧
      ((∃ h, Minted w request h) ∨ w.renewed request = w ∧
        ((∃ h latest, Replayed w request h latest) ∨
          ∃ reason, (request.answer w.event).1 = .error reason)) := by
  have ends := books.renewed request.role request.presented request.nonce request.scannedAtMs
    request.env
  have same (reply : Except String MintedCredential)
      (answer : request.answer w.event = (reply, w.event)) : w.renewed request = w := by
    rw [World.renewed, answer, books.note_self rfl]
  change Renewed _ _ _ _ _ _ (request.answer w.event) at ends
  generalize answer : request.answer w.event = result at ends
  cases ends with
  | @minted h latest earlier event' isRole admitted account current inTime credential players =>
    have noted : (w.renewed request).ledger =
        issue w.ledger h (request.env.issue request.nonce) := by
      rw [World.renewed, answer]
      exact books.note_issue unseen.new credential
    have next : (w.renewed request).event = event' := by rw [World.renewed, answer]
    have keys : event'.players.map (·.playerKey) = w.event.players.map (·.playerKey) := by
      simpa [Function.comp_def] using congrArg (map Prod.fst) players
    have distinct : (event'.players.map (·.playerKey)).Nodup := keys ▸ books.keys
    refine ⟨?_, .inl ⟨h, admitted, ⟨latest, by rw [account]; rfl, current.symm⟩,
      by rw [answer], noted, by rw [next]; exact players⟩⟩
    rw [noted, next]
    exact books.issue unseen.new unseen.nonempty distinct credential
  | @replayed h latest earlier isRole admitted account replays inTime =>
    rw [same _ answer]
    obtain ⟨nonempty, nonce, previous, first, superseded⟩ := replays
    refine ⟨books, .inr ⟨rfl, .inl ⟨h, latest, admitted, by rw [account]; rfl, ?_, nonempty,
      nonce, inTime, by rw [answer]⟩⟩⟩
    refine ⟨previous, ?_, superseded.symm⟩
    rw [account]
    exact mem_of_mem_head? first
  | refused reason =>
    rw [same _ answer]
    exact ⟨books, .inr ⟨rfl, .inr ⟨reason, rfl⟩⟩⟩

theorem Visits.books (visits : Visits compareTiebreaks code w) : Books w.ledger w.event := by
  induction visits with
  | created req nonempty unknown => exact created_books code req nonempty
  | step visits step books =>
    cases step with
    | change change unseen => exact (change.note books unseen.new unseen.nonempty).1
    | renew request unseen => exact (renewed_cases books unseen).1
    | ask request arrives can unseen => exact (renewed_cases books unseen).1
    | leak stale => exact books

/-- No secret in force is known to the outsider. -/
def World.Safe (w : World) : Prop := ∀ h s, Current Issue.secret w.ledger h s → s ∉ w.known

theorem current_issue {k : Holder} {s : String}
    (current : Current Issue.secret (issue ledger k issued) h s) :
    s = issued.secret ∨ Current Issue.secret ledger h s := by
  obtain ⟨latest, first, same⟩ := current
  by_cases own : h = k
  · subst own
    rw [issue_self] at first
    cases first
    exact .inl same.symm
  · rw [issue_of_ne own] at first
    exact .inr ⟨latest, first, same⟩

theorem safe_issue (safe : w.Safe) {token : String} (unseen : w.Unseen token) {k : Holder}
    (isToken : issued.secret = token) (noted : ledger = issue w.ledger k issued) {s : String}
    (current : Current Issue.secret ledger h s) : s ∉ w.known := by
  subst noted
  rcases current_issue current with rfl | old
  · rw [isToken]
    exact unseen.unknown
  · exact safe h s old

/-- The outsider's requests are refused, and nobody else's reply reaches it. -/
theorem Step.safe (step : Step compareTiebreaks code w w') (books : Books w.ledger w.event)
    (safe : w.Safe) : w'.Safe := by
  cases step with
  | change change unseen =>
    rcases (change.note books unseen.new unseen.nonempty).2 with noted | ⟨key, -, noted⟩
    · intro h s current
      exact safe h s (noted ▸ current)
    · intro h s current
      exact safe_issue safe unseen rfl noted current
  | renew request unseen =>
    rcases (renewed_cases books unseen).2 with ⟨h, minted⟩ | ⟨same, -⟩
    · intro h s current
      exact safe_issue safe unseen rfl minted.ledger current
    · rw [same]
      exact safe
  | ask request arrives can unseen =>
    rcases (renewed_cases books unseen).2 with ⟨h, minted⟩ | ⟨same, replayed | refused⟩
    · exact absurd (can.secret h minted.current) (safe h _ minted.current)
    · obtain ⟨h, latest, replayed⟩ := replayed
      exact absurd replayed.nonce
        (can.nonce h latest replayed.first replayed.superseded replayed.nonempty)
    · obtain ⟨reason, refused⟩ := refused
      rw [same, refused]
      intro h s current
      simpa [World.learns, told] using safe h s current
  | leak stale =>
    intro h s current known
    rcases known with known | rfl
    · exact safe h s current known
    · exact stale h current

theorem droppedKeys_congr {event' : TournamentMeta}
    (players : event'.players.map (fun player => (player.playerKey, player.dropped)) =
      event.players.map fun player => (player.playerKey, player.dropped)) :
    event'.droppedKeys = event.droppedKeys := by
  have keys (event : TournamentMeta) : event.droppedKeys =
      ((event.players.map fun player => (player.playerKey, player.dropped)).filter
        (·.2)).map (·.1) := by
    rw [List.filter_map, List.map_map]
    rfl
  rw [keys, keys, players]

theorem Books.not_admits (books : Books ledger event) (isDropped : key ∈ event.droppedKeys) :
    ¬event.Admits (.player key) := by
  rintro ⟨player, known, active⟩
  obtain ⟨other, mem, out, rfl⟩ := mem_droppedKeys.mp isDropped
  rw [books.player mem] at known
  cases known
  rw [out] at active
  cases active

/-- A dropped player's account is closed. -/
theorem Step.closed (step : Step compareTiebreaks code w w') (books : Books w.ledger w.event)
    (isDropped : key ∈ w.event.droppedKeys) :
    key ∈ w'.event.droppedKeys ∧ w'.ledger (.player key) = w.ledger (.player key) := by
  have closed {request : RenewRequest} (unseen : w.Unseen request.env.newToken) :
      key ∈ (w.renewed request).event.droppedKeys ∧
        (w.renewed request).ledger (.player key) = w.ledger (.player key) := by
    rcases (renewed_cases books unseen).2 with ⟨h, minted⟩ | ⟨same, -⟩
    · refine ⟨by rwa [droppedKeys_congr minted.players], ?_⟩
      rw [minted.ledger, issue_of_ne]
      rintro rfl
      exact books.not_admits isDropped minted.admitted
    · rw [same]
      exact ⟨isDropped, rfl⟩
  cases step with
  | change change unseen =>
    refine ⟨change.dropped_stays isDropped, ?_⟩
    rcases (change.note books unseen.new unseen.nonempty).2 with noted | ⟨other, unknown, noted⟩
    · exact congrFun noted _
    · refine (congrFun noted _).trans (issue_of_ne ?_ _)
      rintro ⟨rfl⟩
      obtain ⟨player, mem, -, own⟩ := mem_droppedKeys.mp isDropped
      exact absurd own (by simpa using find?_eq_none.mp unknown player mem)
  | renew request unseen => exact closed unseen
  | ask request arrives can unseen => exact closed unseen
  | leak stale => exact ⟨isDropped, rfl⟩

section
variable (steps : ReflTransGen (Step compareTiebreaks code) w w')
  (visits : Visits compareTiebreaks code w)
include steps visits

theorem safe_steps (safe : w.Safe) : w'.Safe := by
  suffices both : Visits compareTiebreaks code w' ∧ w'.Safe from both.2
  induction steps with
  | refl => exact ⟨visits, safe⟩
  | tail _ step ih => exact ⟨ih.1.step step, step.safe ih.1.books ih.2⟩

theorem closed_account (isDropped : key ∈ w.event.droppedKeys) :
    Visits compareTiebreaks code w' ∧
      key ∈ w'.event.droppedKeys ∧ w'.ledger (.player key) = w.ledger (.player key) := by
  induction steps with
  | refl => exact ⟨visits, isDropped, rfl⟩
  | tail _ step ih =>
    obtain ⟨visits, isDropped, same⟩ := ih
    obtain ⟨stays, closed⟩ := step.closed visits.books isDropped
    exact ⟨visits.step step, stays, closed.trans same⟩

end

/-- A secret of an account that is closed renews nothing. -/
theorem dropped_refused (books : Books w.ledger w.event) (isDropped : key ∈ w.event.droppedKeys)
    (mem : issued ∈ w.ledger (.player key)) (presented : request.presented = issued.secret) :
    ∃ reason, request.answer w.event = (.error reason, w.event) := by
  have ends := books.renewed request.role request.presented request.nonce request.scannedAtMs
    request.env
  change Renewed _ _ _ _ _ _ (request.answer w.event) at ends
  have closed {h : Holder} {other : Issue} (admitted : w.event.Admits h)
      (memOther : other ∈ w.ledger h) (same : request.presented = other.secret) : False := by
    have isHolder := books.once.holder memOther mem (same.symm.trans presented)
    subst isHolder
    exact books.not_admits isDropped admitted
  generalize request.answer w.event = result at ends
  cases ends with
  | @minted h latest earlier event' isRole admitted account current inTime credential players =>
    exact (closed admitted (by rw [account]; exact mem_cons_self) current).elim
  | @replayed h latest earlier isRole admitted account replays inTime =>
    obtain ⟨-, -, previous, first, superseded⟩ := replays
    exact (closed admitted (by rw [account]; exact mem_cons_of_mem _ (mem_of_mem_head? first))
      superseded).elim
  | refused reason => exact ⟨reason, rfl⟩

/-- What a superseded secret still gets: nothing, or the current one with the last nonce. -/
theorem superseded_renews (books : Books w.ledger w.event) {old : String}
    (superseded : Superseded Issue.secret w.ledger h old) (presented : request.presented = old) :
    (request.answer w.event).2 = w.event ∧
      ∀ minted, (request.answer w.event).1 = .ok minted → ∃ latest earlier,
        w.ledger h = latest :: earlier ∧ minted = latest.minted ∧ request.nonce ≠ "" ∧
        request.nonce = latest.nonce ∧ request.env.nowMs < latest.expiresAtMs := by
  have ends := books.renewed request.role request.presented request.nonce request.scannedAtMs
    request.env
  change Renewed _ _ _ _ _ _ (request.answer w.event) at ends
  subst presented
  generalize request.answer w.event = result at ends
  cases ends with
  | @minted k latest earlier event' isRole admitted account current inTime credential players =>
    have inForce : Current Issue.secret w.ledger k request.presented :=
      ⟨latest, by rw [account]; rfl, current.symm⟩
    exact absurd inForce (books.once.not_current superseded)
  | @replayed k latest earlier isRole admitted account replays inTime =>
    refine ⟨rfl, fun minted told => ?_⟩
    cases told
    obtain ⟨nonempty, nonce, previous, first, isPrevious⟩ := replays
    obtain ⟨other, mem, same⟩ := superseded
    have isHolder : k = h := books.once.holder
      (by rw [account]; exact mem_cons_of_mem _ (mem_of_mem_head? first))
      (mem_of_mem_tail mem) (isPrevious.symm.trans same.symm)
    subst isHolder
    exact ⟨latest, earlier, account, rfl, nonempty, nonce, inTime⟩
  | refused reason => exact ⟨rfl, nofun⟩

/-- Who holds an account is admitted until the drop. -/
theorem Books.admits_iff (books : Books ledger event) {latest : Issue} {earlier : List Issue}
    (account : ledger (.player key) = latest :: earlier) :
    event.Admits (.player key) ↔ key ∉ event.droppedKeys := by
  refine ⟨fun admitted isDropped => books.not_admits isDropped admitted, fun stays => ?_⟩
  cases known : event.player key with
  | none =>
    rw [books.stranger known] at account
    cases account
  | some player =>
    have own : player.playerKey = key := by simpa using find?_some known
    refine ⟨player, known, ?_⟩
    by_contra out
    exact stays (mem_droppedKeys.mpr ⟨player, mem_of_find?_eq_some known, by simpa using out, own⟩)

/-- In every world that any steps lead to: who is authorized, what a superseded secret gets,
what a dropped player gets, and what the outsider never learns. -/
theorem credential_rotation (visits : Visits compareTiebreaks code w) :
    (∀ presented key now, w.event.authorizePlayer presented now = .ok key ↔
      ∃ latest earlier, w.ledger (.player key) = latest :: earlier ∧
        presented = latest.secret ∧ now < latest.expiresAtMs ∧ key ∉ w.event.droppedKeys) ∧
    (∀ presented now, w.event.authorizeOrganizer presented now = .ok () ↔
      ∃ latest earlier, w.ledger .organizer = latest :: earlier ∧
        presented = latest.secret ∧ now < latest.expiresAtMs) ∧
    (∀ h old, Superseded Issue.secret w.ledger h old →
      (∀ key now, w.event.authorizePlayer old now ≠ .ok key) ∧
      (∀ now, w.event.authorizeOrganizer old now ≠ .ok ()) ∧
      ∀ request : RenewRequest, request.presented = old → (request.answer w.event).2 = w.event ∧
        ∀ minted, (request.answer w.event).1 = .ok minted → ∃ latest earlier,
          w.ledger h = latest :: earlier ∧ minted = latest.minted ∧ request.nonce ≠ "" ∧
          request.nonce = latest.nonce ∧ request.env.nowMs < latest.expiresAtMs) ∧
    (∀ h latest earlier, w.ledger h = latest :: earlier → w.event.Admits h →
      ∀ request : RenewRequest, request.role = h.role →
        Replays latest earlier request.presented request.nonce →
        request.scannedAtMs < latest.expiresAtMs → request.env.nowMs < latest.expiresAtMs →
        request.answer w.event = (.ok latest.minted, w.event)) ∧
    (∀ key, key ∈ w.event.droppedKeys → ∀ w', ReflTransGen (Step compareTiebreaks code) w w' →
        w'.ledger (.player key) = w.ledger (.player key) ∧
        ∀ request : RenewRequest, (∃ issued ∈ w.ledger (.player key),
            request.presented = issued.secret) →
          ∃ reason, request.answer w'.event = (.error reason, w'.event)) ∧
    (w.Safe → ∀ w', ReflTransGen (Step compareTiebreaks code) w w' → w'.Safe) := by
  have books := visits.books
  refine ⟨fun presented key now => ?_, fun presented now => books.authorizeOrganizer_iff,
    fun h old superseded => ⟨fun key now authorized => ?_, fun now authorized => ?_,
      fun request presented => superseded_renews books superseded presented⟩,
    fun h latest earlier account admitted request isRole replays scanned inTime => ?_,
    fun key isDropped w' steps => ?_, fun safe w' steps => safe_steps steps visits safe⟩
  · rw [books.authorizePlayer_iff]
    constructor
    · rintro ⟨latest, earlier, account, current, inTime, admitted⟩
      exact ⟨latest, earlier, account, current, inTime, (books.admits_iff account).mp admitted⟩
    · rintro ⟨latest, earlier, account, current, inTime, stays⟩
      exact ⟨latest, earlier, account, current, inTime, (books.admits_iff account).mpr stays⟩
  · obtain ⟨latest, earlier, account, current, -⟩ := books.authorizePlayer_iff.mp authorized
    exact books.once.not_current superseded ⟨latest, by rw [account]; rfl, current.symm⟩
  · obtain ⟨latest, earlier, account, current, -⟩ := books.authorizeOrganizer_iff.mp authorized
    exact books.once.not_current superseded ⟨latest, by rw [account]; rfl, current.symm⟩
  · rw [RenewRequest.answer, isRole]
    exact books.replay_answered account admitted replays scanned inTime
  · obtain ⟨later, isDropped, closed⟩ := closed_account steps visits isDropped
    refine ⟨closed, fun request ⟨issued, mem, presented⟩ => ?_⟩
    exact dropped_refused later.books isDropped (closed ▸ mem) presented

def minting (token : String) : BrokerEnv := { nowMs := 0, newToken := token }

def opened : World where
  event := .created "E" (headToHeadEvent .swiss) (minting "o")
  ledger := note (fun _ => []) (.created "E" (headToHeadEvent .swiss) (minting "o")) ""
  known := ∅

def joined : World :=
  let event := (opened.event.join "ann" "Ann" (minting "a0")).2
  { opened with event, ledger := note opened.ledger event "" }

/-- Ann's request for a new secret. -/
def annRenews : RenewRequest where
  role := .player
  presented := "a0"
  nonce := "n1"
  scannedAtMs := 0
  env := minting "a1"

def rotated : World := joined.renewed annRenews

theorem opened_unseen {token : String} (nonempty : token ≠ "") (other : token ≠ "o") :
    opened.Unseen token := by
  refine ⟨nonempty, fun h issued mem => ?_, nofun⟩
  cases h with
  | organizer =>
    cases mem_singleton.mp mem
    exact Ne.symm other
  | player key => cases mem

theorem joined_visits : Visits noTiebreaks "E" joined :=
  .step (.created (headToHeadEvent .swiss) (by decide) (Set.notMem_empty _))
    (.change (.joined rfl rfl rfl rfl : Change noTiebreaks "E" opened.event
      (.joinTournament "E" "ann" "Ann") (minting "a0") joined.event)
      (opened_unseen (by decide) (by decide)))

theorem joined_unseen : joined.Unseen "a1" := by
  refine ⟨by decide, fun h issued mem => ?_, nofun⟩
  cases h with
  | organizer =>
    cases mem_singleton.mp mem
    decide
  | player key =>
    by_cases own : key = "ann"
    · subst own
      cases mem_singleton.mp mem
      decide
    · have unknown : joined.event.credential (.player key) = none := by
        simp [joined, opened, TournamentMeta.credential, TournamentMeta.player,
          TournamentMeta.join, TournamentMeta.created, Ne.symm own]
      have noted : joined.ledger (.player key) = opened.ledger (.player key) := by
        change note opened.ledger joined.event "" (.player key) = _
        rw [note, unknown]
      rw [noted] at mem
      cases mem

theorem rotated_visits : Visits noTiebreaks "E" rotated :=
  joined_visits.step (.renew annRenews joined_unseen)

/-- After the rotation the new secret is Ann's, and the old one is nobody's. -/
theorem rotated_secrets :
    rotated.event.authorizePlayer "a1" 5 = .ok "ann" ∧
      rotated.event.authorizePlayer "a0" 5 ≠ .ok "ann" := by
  obtain ⟨authorized, -, superseded, -⟩ := credential_rotation rotated_visits
  refine ⟨(authorized "a1" "ann" 5).mpr ?_, (superseded (.player "ann") "a0" ?_).1 "ann" 5⟩
  · exact ⟨_, _, rfl, rfl, by decide, by decide⟩
  · exact ⟨_, mem_singleton.mpr rfl, rfl⟩

/-- A secret that is current but has expired authorizes nobody. -/
theorem expired_secret :
    ¬ ∀ w, Visits noTiebreaks "E" w → ∀ key secret,
      Current Issue.secret w.ledger (.player key) secret →
      ∀ now, w.event.authorizePlayer secret now = .ok key := by
  intro claimed
  have always := claimed joined joined_visits "ann" "a0" ⟨_, rfl, rfl⟩ tournamentCredentialTtlMs
  obtain ⟨latest, earlier, account, -, inTime, -⟩ :=
    joined_visits.books.authorizePlayer_iff.mp always
  cases account
  exact absurd inTime (by decide)

end Phase.Tournament
