import Phase.Tournament.Credentials
import Phase.Tournament.Lifecycle

/-! The credentials of an event follow the ledger of its secrets. -/
namespace Phase.Tournament
open Issuing List TournamentMeta

/-- The credential that a history of issues leaves, if there is one. -/
def view : List Issue → Option TournamentCredential
  | [] => none
  | latest :: earlier => some (credentialOf latest earlier)

def TournamentMeta.credential (event : TournamentMeta) : Holder → Option TournamentCredential
  | .organizer => some event.organizerToken
  | .player playerKey => (event.player playerKey).map (·.playerToken)

/-- The organizer may always renew, a player until the drop. -/
def TournamentMeta.Admits (event : TournamentMeta) : Holder → Prop
  | .organizer => True
  | .player playerKey => ∃ player, event.player playerKey = some player ∧ player.dropped = false

def Holder.role : Holder → TournamentRole
  | .organizer => .organizer
  | .player _ => .player

structure Books (ledger : Ledger) (event : TournamentMeta) : Prop where
  credential : ∀ h, event.credential h = view (ledger h)
  once : IssuedOnce Issue.secret ledger
  nonempty : ∀ h, ∀ issued ∈ ledger h, issued.secret ≠ ""
  keys : (event.players.map (·.playerKey)).Nodup

/-- What the ledger notes after a step: every secret it has not seen in force. -/
def note (ledger : Ledger) (event : TournamentMeta) (nonce : String) : Ledger := fun h =>
  match event.credential h with
  | none => ledger h
  | some credential =>
    if (ledger h).head?.map (·.secret) = some credential.secret then ledger h
    else { secret := credential.secret, nonce, expiresAtMs := credential.expiresAtMs } :: ledger h

variable {players : List TournamentPlayer}

theorem find?_set {i : Nat} {old : TournamentPlayer} (new : TournamentPlayer)
    (there : players[i]? = some old) (same : new.playerKey = old.playerKey)
    (distinct : (players.map (·.playerKey)).Nodup) (key : String) :
    (players.set i new).find? (·.playerKey = key) =
      if key = old.playerKey then some new else players.find? (·.playerKey = key) := by
  induction players generalizing i with
  | nil => cases there
  | cons player players ih =>
    obtain ⟨apart, distinct⟩ := nodup_cons.mp distinct
    cases i with
    | zero =>
      cases there
      by_cases own : key = old.playerKey
      · simp [own, same]
      · simp [own, same, Ne.symm own]
    | succ i =>
      rw [set_cons_succ, find?_cons, ih there distinct]
      by_cases own : player.playerKey = key
      · have other : key ≠ old.playerKey := by
          rintro rfl
          exact apart (mem_map.mpr ⟨old, mem_of_getElem? there, own.symm⟩)
        simp [own, other]
      · simp [own]

theorem find?_key {player : TournamentPlayer} (mem : player ∈ players)
    (distinct : (players.map (·.playerKey)).Nodup) :
    players.find? (·.playerKey = player.playerKey) = some player := by
  induction players with
  | nil => cases mem
  | cons first players ih =>
    obtain ⟨apart, distinct⟩ := nodup_cons.mp distinct
    rcases mem_cons.mp mem with rfl | mem
    · simp
    · have other : first.playerKey ≠ player.playerKey := fun same =>
        apart (mem_map.mpr ⟨player, mem, same.symm⟩)
      simp [other, ih mem distinct]

variable {ledger : Ledger} {event : TournamentMeta}

namespace Books

section
variable (books : Books ledger event)
include books

/-- Every credential in force has its account. -/
theorem account {h : Holder} {credential : TournamentCredential}
    (found : event.credential h = some credential) : ∃ latest earlier,
      ledger h = latest :: earlier ∧ credential = credentialOf latest earlier ∧
        latest.secret ≠ "" := by
  have backed := books.credential h
  rw [found] at backed
  cases account : ledger h with
  | nil =>
    rw [account] at backed
    cases backed
  | cons latest earlier =>
    rw [account] at backed
    refine ⟨latest, earlier, rfl, Option.some.inj backed, books.nonempty h latest ?_⟩
    rw [account]
    exact mem_cons_self

theorem player {player : TournamentPlayer} (mem : player ∈ event.players) :
    event.player player.playerKey = some player :=
  find?_key mem books.keys

theorem playerAccount {player : TournamentPlayer} (mem : player ∈ event.players) : ∃ latest earlier,
      ledger (.player player.playerKey) = latest :: earlier ∧
        player.playerToken = credentialOf latest earlier ∧ latest.secret ≠ "" := by
  refine books.account ?_
  rw [TournamentMeta.credential, books.player mem]
  rfl

/-- An event that keeps its credentials keeps its ledger. -/
theorem note_self {event' : TournamentMeta} (same : event'.credential = event.credential)
    (nonce : String) : note ledger event' nonce = ledger := by
  funext h
  rw [note, same, books.credential h]
  cases ledger h with
  | nil => rfl
  | cons latest earlier => simp [view, credentialOf]

section
variable {event' : TournamentMeta} {k : Holder} {issued : Issue}
  (new : New Issue.secret ledger issued.secret)
include new

/-- A new credential is one more issue. -/
theorem note_issue (same : event'.credential =
      Function.update event.credential k (some (credentialOf issued (ledger k)))) :
    note ledger event' issued.nonce = issue ledger k issued := by
  funext h
  by_cases own : h = k
  · subst own
    rw [note, same, Function.update_self, issue_self]
    have unseen : (ledger h).head?.map (·.secret) ≠ some (credentialOf issued (ledger h)).secret := by
      intro seen
      obtain ⟨latest, first, equal⟩ := Option.map_eq_some_iff.mp seen
      exact new h latest (mem_of_mem_head? first) equal
    simp only [unseen, ↓reduceIte]
    rfl
  · rw [issue_of_ne own, note, same, Function.update_of_ne own, books.credential h]
    cases ledger h with
    | nil => rfl
    | cons latest earlier => simp [view, credentialOf]

/-- The books stay right when an event issues one secret that nobody has seen. -/
theorem issue (nonempty : issued.secret ≠ "") (keys : (event'.players.map (·.playerKey)).Nodup)
    (same : event'.credential =
      Function.update event.credential k (some (credentialOf issued (ledger k)))) :
    Books (issue ledger k issued) event' where
  credential := by
    intro h
    by_cases own : h = k
    · subst own
      rw [same, Function.update_self, issue_self]
      rfl
    · rw [same, Function.update_of_ne own, issue_of_ne own, books.credential h]
  once := issue_once books.once new k
  nonempty := by
    intro h item mem
    by_cases own : h = k
    · subst own
      rw [issue_self] at mem
      rcases mem_cons.mp mem with rfl | mem
      · exact nonempty
      · exact books.nonempty h item mem
    · rw [issue_of_ne own] at mem
      exact books.nonempty h item mem
  keys := keys

end

end

end Books

variable {compareTiebreaks : CompareTiebreaks} {code : String} {event' : TournamentMeta}
  {call : TournamentCall} {env : BrokerEnv}

theorem find?_modify (index : Nat) (key : String) (f : TournamentPlayer → TournamentPlayer)
    (keeps : ∀ player, (f player).playerKey =
      player.playerKey ∧ (f player).playerToken = player.playerToken) :
    ((players.modify index f).find? (·.playerKey = key)).map (·.playerToken) =
      (players.find? (·.playerKey = key)).map (·.playerToken) := by
  induction players generalizing index with
  | nil => simp
  | cons player players ih =>
    cases index with
    | zero => by_cases own : player.playerKey = key <;> simp [own, keeps player]
    | succ index =>
      by_cases own : player.playerKey = key
      · simp [own]
      · simpa [own] using ih index

/-- Only a join brings in a credential. -/
theorem Change.credential (change : Change compareTiebreaks code event call env event') :
    event'.credential = event.credential ∨ ∃ playerKey, event.player playerKey = none ∧
      event'.credential =
        Function.update event.credential (.player playerKey) (some (.mint env)) := by
  cases change with
  | hosted _ _ _ _ _ after | completed _ _ _ after | abandoned _ _ after | paired _ _ _ _ _ after
  | reported _ _ _ _ _ _ after =>
    subst after
    exact .inl rfl
  | @joined playerKey displayName isCall registering unknown after =>
    subst after
    refine .inr ⟨playerKey, unknown, ?_⟩
    funext h
    cases h with
    | organizer => rfl
    | player key =>
      by_cases own : key = playerKey
      · subst own
        simp only [credential, player, find?_append]
        rw [player] at unknown
        simp [unknown]
      · rw [Function.update_of_ne fun same => own (Holder.player.inj same)]
        simp [credential, player, find?_append, Ne.symm own]
  | @dropped playerKey index player isCall running found isKey after =>
    subst after
    refine .inl (funext fun h => ?_)
    cases h with
    | organizer => rfl
    | player key => exact find?_modify index key _ fun _ => ⟨rfl, rfl⟩

/-- A stranger has no account. -/
theorem Books.stranger (books : Books ledger event) {playerKey : String}
    (unknown : event.player playerKey = none) : ledger (.player playerKey) = [] := by
  have backed := books.credential (.player playerKey)
  rw [TournamentMeta.credential, unknown] at backed
  cases account : ledger (.player playerKey) with
  | nil => rfl
  | cons latest earlier =>
    rw [account] at backed
    cases backed

theorem Change.note (change : Change compareTiebreaks code event call env event')
    (books : Books ledger event) (new : New Issue.secret ledger env.newToken)
    (nonempty : env.newToken ≠ "") :
    Books (note ledger event' "") event' ∧ (note ledger event' "" = ledger ∨
      ∃ playerKey, event.player playerKey = none ∧
        note ledger event' "" = issue ledger (.player playerKey) (env.issue "")) := by
  have keys := change.keys books.keys
  rcases change.credential with same | ⟨playerKey, unknown, same⟩
  · rw [books.note_self same]
    refine ⟨⟨fun h => ?_, books.once, books.nonempty, keys⟩, .inl rfl⟩
    rw [same]
    exact books.credential h
  · have stranger := books.stranger unknown
    have same' : event'.credential = Function.update event.credential (.player playerKey)
        (some (credentialOf (env.issue "") (ledger (.player playerKey)))) := by
      rw [stranger]
      exact same
    have noted : Phase.Tournament.note ledger event' "" =
        issue ledger (.player playerKey) (env.issue "") := books.note_issue new same'
    rw [noted]
    exact ⟨books.issue new nonempty keys same', .inr ⟨playerKey, unknown, rfl⟩⟩

theorem created_note (code : String) (req : CreateTournamentRequest) :
    note (fun _ => []) (.created code req env) "" =
      issue (fun _ => []) .organizer (env.issue "") := by
  funext h
  cases h <;> rfl

theorem created_books (code : String) (req : CreateTournamentRequest)
    (nonempty : env.newToken ≠ "") :
    Books (note (fun _ => []) (.created code req env) "") (.created code req env) := by
  rw [created_note]
  refine ⟨fun h => by cases h <;> rfl, issue_once once_nil ?_ _, fun h issued mem => ?_, nodup_nil⟩
  · intro h issued mem
    cases mem
  · cases h with
    | player key => cases mem
    | organizer =>
      cases mem_singleton.mp mem
      exact nonempty

end Phase.Tournament
