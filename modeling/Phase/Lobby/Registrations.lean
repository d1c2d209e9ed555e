import Phase.Lobby.Manager
import Mathlib.Data.Set.Insert

/-! Identities of lobby registrations, over every run of the lobby. -/
namespace Phase.Lobby
open Function

variable {Settings : Type}

/-- A registration as it happened, whatever identity it was given: one that the first snapshot
carried, or the n-th one registered since. -/
inductive Registration where
  | restored (gameCode : String)
  | made (serial : Nat)
  deriving DecidableEq

inductive Action (Settings : Type) where
  | registerGame (gameCode : String) (req : RegisterGameRequest Settings) (env : BrokerEnv)
  | unregisterGame (gameCode : String)
  | checkExpired (timeoutSecs : Nat) (env : BrokerEnv)
  | unregisterExpired (registration : LobbyRegistration)
  | refreshLiveness (registration : LobbyRegistration) (env : BrokerEnv)
  | unregisterRegistration (registration : LobbyRegistration)
  | markHostAway (gameCode : String)
  | markHostReturned (gameCode hostVersion hostBuildCommit : String)
  | roundTrip

/-- Takes the listing of `handle` away, or puts another in its place. -/
def Action.Consumes (handle : LobbyRegistration) : Action Settings → Prop
  | .registerGame gameCode _ _ => gameCode = handle.gameCode
  | .unregisterGame gameCode => gameCode = handle.gameCode
  | .unregisterExpired registration => registration = handle
  | .unregisterRegistration registration => registration = handle
  | _ => False

/-- A lobby beside its history: the registration listed under each code, the handles given out
with the registration that each was given out for, and the instants, in milliseconds, at which
a registration was created or one of its handles refreshed it. -/
structure World (Settings : Type) where
  lobby : LobbyManager Settings
  listed : String → Option Registration
  made : Nat
  held : Set (LobbyRegistration × Registration)
  shown : Registration → Set Nat

namespace World

def new : World Settings where
  lobby := .new
  listed := fun _ => none
  made := 0
  held := ∅
  shown := fun _ => ∅

/-- The world that a snapshot is restored into. Its entries were created, and last refreshed, in
the seconds that the snapshot names. -/
def restored (stored : LobbyManagerSnapshot Settings) (lobby : LobbyManager Settings) :
    World Settings where
  lobby
  listed := fun code => if lobby.hasGame code then some (.restored code) else none
  made := 0
  held := ∅
  shown
    | .restored code => {t | ∃ entry, stored.games.lookup code = some entry ∧
        (t / 1000 = entry.createdAt ∨ entry.lastSeen = some (t / 1000))}
    | .made _ => ∅

def register (w : World Settings) (lobby : LobbyManager Settings) (handle : LobbyRegistration)
    (env : BrokerEnv) : World Settings where
  lobby
  listed := update w.listed handle.gameCode (some (.made w.made))
  made := w.made + 1
  held := insert (handle, .made w.made) w.held
  shown := update w.shown (.made w.made) {env.nowMs}

def unregister (w : World Settings) (lobby : LobbyManager Settings) (gameCode : String) :
    World Settings :=
  { w with lobby, listed := update w.listed gameCode none }

def observe (w : World Settings) (reported : List LobbyRegistration) : World Settings :=
  { w with
    held := w.held ∪ {report | report.1 ∈ reported ∧ w.listed report.1.gameCode = some report.2} }

def refresh (w : World Settings) (lobby : LobbyManager Settings) (r : Registration)
    (env : BrokerEnv) : World Settings :=
  { w with lobby, shown := update w.shown r (insert env.nowMs (w.shown r)) }

end World

open World LobbyManager

/-- One call on the lobby. A handle that is passed in was given out before. -/
inductive Step : World Settings → Action Settings → World Settings → Prop where
  | register {w gameCode req env handle lobby}
      (registered : w.lobby.registerGame gameCode req env = some (handle, lobby)) :
      Step w (.registerGame gameCode req env) (w.register lobby handle env)
  | unregister {w} (gameCode : String) :
      Step w (.unregisterGame gameCode) (w.unregister (w.lobby.unregisterGame gameCode) gameCode)
  | check {w} (timeoutSecs : Nat) (env : BrokerEnv) :
      Step w (.checkExpired timeoutSecs env) (w.observe (w.lobby.checkExpired timeoutSecs env))
  | expire {w handle r} (held : (handle, r) ∈ w.held) :
      Step w (.unregisterExpired handle)
        (if (w.lobby.unregisterExpired handle).1 = .removed then
          w.unregister (w.lobby.unregisterExpired handle).2 handle.gameCode
        else { w with lobby := (w.lobby.unregisterExpired handle).2 })
  | refresh {w handle r} (held : (handle, r) ∈ w.held) (env : BrokerEnv) :
      Step w (.refreshLiveness handle env)
        (if (w.lobby.refreshLiveness handle env).1 then
          w.refresh (w.lobby.refreshLiveness handle env).2 r env
        else { w with lobby := (w.lobby.refreshLiveness handle env).2 })
  | remove {w handle r} (held : (handle, r) ∈ w.held) :
      Step w (.unregisterRegistration handle)
        (if (w.lobby.unregisterRegistration handle).1 then
          w.unregister (w.lobby.unregisterRegistration handle).2 handle.gameCode
        else { w with lobby := (w.lobby.unregisterRegistration handle).2 })
  | away {w} (gameCode : String) :
      Step w (.markHostAway gameCode) { w with lobby := w.lobby.markHostAway gameCode }
  | returned {w} (gameCode hostVersion hostBuildCommit : String) :
      Step w (.markHostReturned gameCode hostVersion hostBuildCommit)
        { w with lobby := w.lobby.markHostReturned gameCode hostVersion hostBuildCommit }
  | roundTrip {w lobby} (restored : ofSnapshot w.lobby.snapshot = some lobby) :
      Step w .roundTrip { w with lobby }

inductive Run : World Settings → List (Action Settings) → World Settings → Prop where
  | refl (w) : Run w [] w
  | step {w w' w'' actions action} (run : Run w actions w') (last : Step w' action w'') :
      Run w (actions ++ [action]) w''

/-- A run starts from an empty lobby, or from any snapshot, of whichever build. -/
inductive Reachable : World Settings → Prop where
  | fresh {w actions} (run : Run World.new actions w) : Reachable w
  | restored {stored lobby w actions} (loaded : ofSnapshot stored = some lobby)
      (run : Run (World.restored stored lobby) actions w) : Reachable w

/-- `entry` is what the lobby keeps of `r`. -/
def Keeps (identity : Registration → Option LobbyRegistration) (shown : Registration → Set Nat)
    (code : String) (entry : LobbyGameMeta Settings) (r : Registration) : Prop :=
  identity r = some ⟨code, entry.generation⟩ ∧ ∀ t ∈ shown r, t / 1000 ≤ entry.lastSeen

def Agrees (identity : Registration → Option LobbyRegistration)
    (shown : Registration → Set Nat) (code : String) (found : Option (LobbyGameMeta Settings))
    (r? : Option Registration) : Prop :=
  (found = none ∧ r? = none) ∨
    ∃ entry r, found = some entry ∧ r? = some r ∧ Keeps identity shown code entry r

/-- Every registration so far has an identity of its own, below the counter. -/
structure Sound (identity : Registration → Option LobbyRegistration) (w : World Settings) :
    Prop where
  listed : ∀ code, Agrees identity w.shown code (w.lobby.games.lookup code) (w.listed code)
  held : ∀ {handle r}, (handle, r) ∈ w.held → identity r = some handle
  injective : ∀ {r r' handle}, identity r = some handle → identity r' = some handle → r = r'
  below : ∀ {r handle}, identity r = some handle → handle.generation < w.lobby.nextGeneration
  fresh : ∀ {n}, w.made ≤ n → identity (.made n) = none

variable {identity : Registration → Option LobbyRegistration} {w w' : World Settings}

theorem Sound.entry (sound : Sound identity w) {code : String} {entry : LobbyGameMeta Settings}
    (found : w.lobby.games.lookup code = some entry) :
    ∃ r, w.listed code = some r ∧ Keeps identity w.shown code entry r := by
  rcases sound.listed code with ⟨absent, -⟩ | ⟨entry', r, present, listed, keeps⟩
  · rw [absent] at found
    cases found
  · rw [present] at found
    cases found
    exact ⟨r, listed, keeps⟩

variable {r : Registration} {handle : LobbyRegistration} {action : Action Settings}
  {actions : List (Action Settings)}

theorem Sound.registration (sound : Sound identity w) {code : String}
    (listed : w.listed code = some r) :
    ∃ entry, w.lobby.games.lookup code = some entry ∧ Keeps identity w.shown code entry r := by
  rcases sound.listed code with ⟨-, absent⟩ | ⟨entry, r', found, present, keeps⟩
  · rw [absent] at listed
    cases listed
  · rw [present] at listed
    cases listed
    exact ⟨entry, found, keeps⟩

theorem Sound.isCurrent (sound : Sound identity w) (given : identity r = some handle) :
    w.lobby.isCurrent handle = true ↔ w.listed handle.gameCode = some r := by
  rw [isCurrent_iff]
  constructor
  · rintro ⟨entry, found, same⟩
    obtain ⟨r', listed, named, -⟩ := sound.entry found
    rw [same] at named
    rw [listed, sound.injective named given]
  · intro listed
    obtain ⟨entry, found, named, -⟩ := sound.registration listed
    rw [given] at named
    refine ⟨entry, found, ?_⟩
    rw [Option.some.inj named]

/-- A registration is listed under the code of its handle only. -/
theorem Sound.code (sound : Sound identity w) {code : String} (listed : w.listed code = some r)
    (given : identity r = some handle) : code = handle.gameCode := by
  obtain ⟨entry, -, named, -⟩ := sound.registration listed
  rw [given] at named
  rw [Option.some.inj named]

section
variable {lobby : LobbyManager Settings} {handle : LobbyRegistration}

section
variable (sound : Sound identity w)
include sound

/-- Calls that touch no identity and no clock. -/
theorem Sound.mapped (f : LobbyGameMeta Settings → LobbyGameMeta Settings)
    (kept : ∀ entry, (f entry).generation = entry.generation ∧
      entry.lastSeen ≤ (f entry).lastSeen)
    (games : ∀ code, lobby.games.lookup code = w.lobby.games.lookup code ∨
      lobby.games.lookup code = (w.lobby.games.lookup code).map f)
    (counter : w.lobby.nextGeneration ≤ lobby.nextGeneration) :
    Sound identity { w with lobby } where
  listed := by
    intro code
    rcases games code with same | changed
    · rw [same]
      exact sound.listed code
    · rw [changed]
      rcases sound.listed code with ⟨absent, unlisted⟩ | ⟨entry, r, found, listed, keeps⟩
      · exact .inl ⟨by rw [absent]; rfl, unlisted⟩
      · refine .inr ⟨f entry, r, by rw [found]; rfl, listed, ?_, fun t shown => ?_⟩
        · rw [(kept entry).1]
          exact keeps.1
        · exact (keeps.2 t shown).trans (kept entry).2
  held := sound.held
  injective := sound.injective
  below := fun given => lt_of_lt_of_le (sound.below given) counter
  fresh := sound.fresh

theorem Sound.unregister {gameCode : String} (removed : lobby = w.lobby.unregisterGame gameCode) :
    Sound identity (w.unregister lobby gameCode) where
  listed := by
    subst removed
    intro code
    by_cases here : code = gameCode
    · subst here
      exact .inl ⟨lookup_unregisterGame .., update_self ..⟩
    · show Agrees _ _ _ ((w.lobby.unregisterGame gameCode).games.lookup code)
        (update w.listed gameCode none code)
      rw [lookup_unregisterGame_ne here, update_of_ne here]
      exact sound.listed code
  held := sound.held
  injective := sound.injective
  below := by
    subst removed
    exact sound.below
  fresh := sound.fresh

theorem Sound.observe (timeoutSecs : Nat) (env : BrokerEnv) :
    Sound identity (w.observe (w.lobby.checkExpired timeoutSecs env)) where
  listed := sound.listed
  held := by
    rintro handle r (before | ⟨reported, listed⟩)
    · exact sound.held before
    · obtain ⟨entry, found, same, -⟩ := mem_checkExpired.mp reported
      obtain ⟨r', listed', named, -⟩ := sound.entry found
      rw [listed'] at listed
      cases listed
      rw [named, same]
  injective := sound.injective
  below := sound.below
  fresh := sound.fresh

theorem Sound.refresh {handle : LobbyRegistration} {r : Registration}
    (given : identity r = some handle) {env : BrokerEnv}
    (accepted : (w.lobby.refreshLiveness handle env).1 = true) :
    Sound identity (w.refresh (w.lobby.refreshLiveness handle env).2 r env) := by
  obtain ⟨current, ⟨entry, found, older⟩, changed⟩ := refreshLiveness_accepted accepted
  have listed := (sound.isCurrent given).mp current
  obtain ⟨r', listed', keeps⟩ := sound.entry found
  have same : r' = r := by rw [listed'] at listed; exact Option.some.inj listed
  subst same
  rw [changed]
  refine ⟨fun code => ?_, sound.held, sound.injective, sound.below, sound.fresh⟩
  by_cases here : code = handle.gameCode
  · subst here
    refine .inr ⟨{ entry with lastSeen := env.now }, r', ?_, listed', keeps.1, fun t shown => ?_⟩
    · show (Assoc.modify _ _ w.lobby.games).lookup _ = _
      rw [Assoc.lookup_modify, found]
      rfl
    · simp only [World.refresh, update_self] at shown
      rcases shown with rfl | before
      · exact le_rfl
      · exact (keeps.2 t before).trans older.le
  · show Agrees _ (update w.shown r' _) _ ((Assoc.modify _ _ w.lobby.games).lookup code) _
    rw [Assoc.lookup_modify_ne here]
    rcases sound.listed code with gone | ⟨other, r, found', listed'', keeps'⟩
    · exact .inl gone
    · have apart : r ≠ r' := by
        rintro rfl
        exact here (sound.code listed'' given)
      refine .inr ⟨other, r, found', listed'', keeps'.1, fun t shown => keeps'.2 t ?_⟩
      rw [update_of_ne apart] at shown
      exact shown

theorem Sound.register {gameCode : String} {req : RegisterGameRequest Settings} {env : BrokerEnv}
    (registered : w.lobby.registerGame gameCode req env = some (handle, lobby)) :
    Sound (update identity (.made w.made) (some handle)) (w.register lobby handle env) := by
  obtain ⟨rfl, counter, entry, games, generation, seen⟩ := registerGame_eq_some registered
  have unused : identity (.made w.made) = none := sound.fresh le_rfl
  have old : ∀ {r handle'}, identity r = some handle' → r ≠ .made w.made := by
    rintro r handle' given rfl
    rw [unused] at given
    cases given
  have new : ∀ {r handle'}, identity r = some handle' →
      handle' ≠ ⟨gameCode, w.lobby.nextGeneration⟩ := by
    rintro r handle' given rfl
    exact absurd (sound.below given) (lt_irrefl _)
  refine ⟨fun code => ?_, ?_, ?_, ?_, ?_⟩
  · by_cases here : code = gameCode
    · subst here
      refine .inr ⟨entry, .made w.made, ?_, update_self .., ?_, fun t shown => ?_⟩
      · show lobby.games.lookup code = some entry
        rw [games, AList.lookup_insert]
      · rw [update_self, generation]
      · simp only [World.register, update_self, Set.mem_singleton_iff] at shown
        rw [shown, seen]
        exact le_rfl
    · show Agrees _ (update w.shown _ _) _ (lobby.games.lookup code) (update w.listed _ _ code)
      rw [games, AList.lookup_insert_ne here, update_of_ne here]
      rcases sound.listed code with gone | ⟨other, r, found, listed, keeps⟩
      · exact .inl gone
      · refine .inr ⟨other, r, found, listed, ?_, fun t shown => keeps.2 t ?_⟩
        · rw [update_of_ne (old keeps.1)]
          exact keeps.1
        · rw [update_of_ne (old keeps.1)] at shown
          exact shown
  · rintro handle' r (same | before)
    · cases same
      rw [update_self]
    · have given := sound.held before
      rw [update_of_ne (old given)]
      exact given
  · intro r r' handle' given given'
    by_cases first : r = .made w.made
    · subst first
      rw [update_self] at given
      by_contra apart
      rw [update_of_ne (Ne.symm apart)] at given'
      exact new given' (Option.some.inj given).symm
    · rw [update_of_ne first] at given
      by_cases second : r' = .made w.made
      · subst second
        rw [update_self] at given'
        exact absurd (Option.some.inj given').symm (new given)
      · rw [update_of_ne second] at given'
        exact sound.injective given given'
  · intro r handle' given
    show handle'.generation < lobby.nextGeneration
    by_cases here : r = .made w.made
    · subst here
      rw [update_self] at given
      rw [← Option.some.inj given, counter]
      exact Nat.lt_succ_self _
    · rw [update_of_ne here] at given
      have := sound.below given
      omega
  · intro n above
    have above : w.made + 1 ≤ n := above
    rw [update_of_ne (by simp; omega)]
    exact sound.fresh (by omega)

theorem Sound.consume (handle : LobbyRegistration) :
    Sound identity (if w.lobby.isCurrent handle then
      w.unregister (w.lobby.unregisterRegistration handle).2 handle.gameCode
    else { w with lobby := (w.lobby.unregisterRegistration handle).2 }) := by
  have left := unregisterRegistration_snd w.lobby handle
  split
  · next current =>
    rw [if_pos current] at left
    exact sound.unregister left
  · next stale =>
    rw [if_neg stale] at left
    rw [left]
    exact sound

end

end

theorem consumed_expired (w : World Settings) (handle : LobbyRegistration) :
    (if (w.lobby.unregisterExpired handle).1 = .removed then
      w.unregister (w.lobby.unregisterExpired handle).2 handle.gameCode
    else { w with lobby := (w.lobby.unregisterExpired handle).2 }) =
    if w.lobby.isCurrent handle then
      w.unregister (w.lobby.unregisterRegistration handle).2 handle.gameCode
    else { w with lobby := (w.lobby.unregisterRegistration handle).2 } := by
  rw [unregisterExpired_snd]
  by_cases current : w.lobby.isCurrent handle = true
  · rw [if_pos current, if_pos (unregisterExpired_removed.mpr current)]
  · rw [if_neg current, if_neg (mt unregisterExpired_removed.mp current)]

/-- Identities, once given, do not change. -/
theorem Sound.step (sound : Sound identity w) {action : Action Settings}
    (step : Step w action w') :
    ∃ identity', Sound identity' w' ∧
      ∀ {r handle}, identity r = some handle → identity' r = some handle := by
  have unchanged : Sound identity w' → ∃ identity', Sound identity' w' ∧
      ∀ {r handle}, identity r = some handle → identity' r = some handle :=
    fun sound' => ⟨identity, sound', fun given => given⟩
  cases step with
  | register registered =>
    refine ⟨_, sound.register registered, fun {r handle} given => ?_⟩
    rw [update_of_ne]
    · exact given
    · rintro rfl
      rw [sound.fresh le_rfl] at given
      cases given
  | unregister gameCode => exact unchanged (sound.unregister rfl)
  | check timeoutSecs env => exact unchanged (sound.observe timeoutSecs env)
  | @expire handle r held =>
    rw [consumed_expired] at unchanged ⊢
    exact unchanged (sound.consume handle)
  | @refresh handle r held env =>
    refine unchanged ?_
    split
    · next accepted => exact sound.refresh (sound.held held) accepted
    · next declined =>
      rw [refreshLiveness_declined (Bool.eq_false_iff.mpr declined)]
      exact sound
  | @remove handle r held =>
    rw [unregisterRegistration_fst] at unchanged ⊢
    exact unchanged (sound.consume handle)
  | away gameCode =>
    refine unchanged (sound.mapped (fun entry => { entry with hostPresence := .away })
      (fun entry => ⟨rfl, le_rfl⟩) (fun code => ?_) le_rfl)
    by_cases here : code = gameCode
    · exact .inr (here ▸ Assoc.lookup_modify ..)
    · exact .inl (Assoc.lookup_modify_ne here ..)
  | returned gameCode hostVersion hostBuildCommit =>
    refine unchanged (sound.mapped
      (fun entry => { entry with hostPresence := .present, hostVersion, hostBuildCommit })
      (fun entry => ⟨rfl, le_rfl⟩) (fun code => ?_) le_rfl)
    by_cases here : code = gameCode
    · exact .inr (here ▸ Assoc.lookup_modify ..)
    · exact .inl (Assoc.lookup_modify_ne here ..)
  | roundTrip restored =>
    obtain ⟨games, counter⟩ := roundTrip_eq_some restored
    exact unchanged (sound.mapped LobbyGameMeta.floored
      (fun entry => ⟨rfl, le_max_left ..⟩) (fun code => .inr (games code)) counter)

theorem Sound.run {actions : List (Action Settings)} (run : Run w actions w')
    (sound : Sound identity w) :
    ∃ identity', Sound identity' w' ∧
      ∀ {r handle}, identity r = some handle → identity' r = some handle := by
  induction run with
  | refl => exact ⟨identity, sound, fun given => given⟩
  | step _ last ih =>
    obtain ⟨identity', sound', kept⟩ := ih
    obtain ⟨identity'', sound'', kept'⟩ := sound'.step last
    exact ⟨identity'', sound'', fun given => kept' (kept given)⟩

theorem sound_new : Sound (fun _ => none) (World.new : World Settings) where
  listed := fun _ => .inl ⟨rfl, rfl⟩
  held := fun inside => absurd inside (Set.notMem_empty _)
  injective := fun given => by cases given
  below := fun given => by cases given
  fresh := fun _ => rfl

def restoredIdentity (lobby : LobbyManager Settings) : Registration → Option LobbyRegistration
  | .restored code => (lobby.games.lookup code).map fun entry => ⟨code, entry.generation⟩
  | .made _ => none

theorem sound_restored {stored : LobbyManagerSnapshot Settings} {lobby : LobbyManager Settings}
    (loaded : ofSnapshot stored = some lobby) :
    Sound (restoredIdentity lobby) (World.restored stored lobby) := by
  obtain ⟨games, -, below⟩ := ofSnapshot_eq_some loaded
  have named : ∀ {r handle}, restoredIdentity lobby r = some handle →
      r = .restored handle.gameCode ∧ ∃ entry, lobby.games.lookup handle.gameCode = some entry ∧
        handle.generation = entry.generation := by
    intro r handle given
    cases r with
    | restored code =>
      obtain ⟨entry, found, rfl⟩ := Option.map_eq_some_iff.mp given
      exact ⟨rfl, entry, found, rfl⟩
    | made n => cases given
  refine ⟨fun code => ?_, fun inside => absurd inside (Set.notMem_empty _), ?_, ?_, fun _ => rfl⟩
  · cases found : lobby.games.lookup code with
    | none =>
      refine .inl ⟨found, ?_⟩
      show (if lobby.hasGame code then _ else none) = none
      rw [hasGame, found]
      rfl
    | some entry =>
      refine .inr ⟨entry, .restored code, found, ?_, ?_, ?_⟩
      · show (if lobby.hasGame code then _ else none) = _
        rw [hasGame, found]
        rfl
      · rw [restoredIdentity, found]
        rfl
      · rintro t ⟨kept, carried, seconds⟩
        rw [games code, carried] at found
        cases found
        show t / 1000 ≤ max (kept.lastSeen.getD 0) kept.createdAt
        rcases seconds with created | seen
        · rw [created]
          exact le_max_right ..
        · rw [seen]
          exact le_max_left ..
  · intro r r' handle given given'
    rw [(named given).1, (named given').1]
  · intro r handle given
    obtain ⟨-, entry, found, same⟩ := named given
    rw [same]
    exact below _ entry found

theorem Reachable.sound (reached : Reachable w) : ∃ identity, Sound identity w := by
  cases reached with
  | fresh run =>
    obtain ⟨identity, sound, -⟩ := Sound.run run sound_new
    exact ⟨identity, sound⟩
  | restored loaded run =>
    obtain ⟨identity, sound, -⟩ := Sound.run run (sound_restored loaded)
    exact ⟨identity, sound⟩

section
variable (sound : Sound identity w)
include sound

theorem Sound.listed_code (given : identity r = some handle) {code : String}
    (other : w.listed code ≠ some r) (current : w.lobby.isCurrent handle = true) :
    code ≠ handle.gameCode := by
  rintro rfl
  exact other ((sound.isCurrent given).mp current)

theorem Sound.lookup_removed (given : identity r = some handle) {code : String}
    (other : w.listed code ≠ some r) :
    (w.lobby.unregisterRegistration handle).2.games.lookup code = w.lobby.games.lookup code := by
  rw [unregisterRegistration_snd]
  split
  · next current => exact lookup_unregisterGame_ne (sound.listed_code given other current) _
  · rfl

theorem Sound.lookup_refreshed (given : identity r = some handle) (env : BrokerEnv) {code : String}
    (other : w.listed code ≠ some r) :
    (w.lobby.refreshLiveness handle env).2.games.lookup code = w.lobby.games.lookup code := by
  cases accepted : (w.lobby.refreshLiveness handle env).1 with
  | false => rw [refreshLiveness_declined accepted]
  | true =>
    obtain ⟨current, -, changed⟩ := refreshLiveness_accepted accepted
    rw [changed]
    exact Assoc.lookup_modify_ne (sound.listed_code given other current) ..

theorem Sound.expired {timeoutSecs : Nat} {env : BrokerEnv}
    (reported : handle ∈ w.lobby.checkExpired timeoutSecs env) :
    ∃ r, w.listed handle.gameCode = some r ∧ identity r = some handle ∧
      ∀ t ∈ w.shown r, t + 1000 * timeoutSecs < env.nowMs := by
  obtain ⟨entry, found, same, late⟩ := mem_checkExpired.mp reported
  obtain ⟨r, listed, named, seen⟩ := sound.entry found
  refine ⟨r, listed, by rw [named, same], fun t shown => ?_⟩
  have before := seen t shown
  simp only [BrokerEnv.now] at late
  omega

/-- A call that does not consume a listing leaves it. -/
theorem Sound.stays (given : identity r = some handle) (listed : w.listed handle.gameCode = some r)
    (step : Step w action w') (spared : ¬action.Consumes handle) :
    w'.listed handle.gameCode = some r := by
  have consumed : ∀ {other : LobbyRegistration}, other ≠ handle → (if w.lobby.isCurrent other then
        w.unregister (w.lobby.unregisterRegistration other).2 other.gameCode
      else { w with lobby := (w.lobby.unregisterRegistration other).2 }).listed
        handle.gameCode = some r := by
    intro other apart
    split
    · next current =>
      have away : handle.gameCode ≠ other.gameCode := by
        intro same
        have mine := isCurrent_iff.mp ((sound.isCurrent given).mpr listed)
        obtain ⟨entry, found, generation⟩ := isCurrent_iff.mp current
        obtain ⟨entry', found', generation'⟩ := mine
        rw [same, found] at found'
        cases handle
        simp_all
      exact (update_of_ne away ..).trans listed
    · exact listed
  cases step with
  | register registered =>
    obtain ⟨rfl, -⟩ := registerGame_eq_some registered
    exact (update_of_ne (Ne.symm spared) ..).trans listed
  | unregister gameCode => exact (update_of_ne (Ne.symm spared) ..).trans listed
  | check timeoutSecs env => exact listed
  | expire held =>
    rw [consumed_expired]
    exact consumed spared
  | refresh held env => split <;> exact listed
  | remove held =>
    rw [unregisterRegistration_fst]
    exact consumed spared
  | away gameCode => exact listed
  | returned => exact listed
  | roundTrip restored => exact listed

theorem Sound.stays_listed (given : identity r = some handle)
    (listed : w.listed handle.gameCode = some r) (run : Run w actions w')
    (spared : ∀ action ∈ actions, ¬action.Consumes handle) :
    w'.listed handle.gameCode = some r ∧ w'.lobby.isCurrent handle = true := by
  have stays : w'.listed handle.gameCode = some r := by
    induction run with
    | refl => exact listed
    | step before last ih =>
      obtain ⟨identity', sound', kept⟩ := sound.run before
      exact sound'.stays (kept given)
        (ih fun action inside => spared action (List.mem_append_left _ inside))
        last (spared _ (List.mem_append_right _ (List.mem_singleton_self _)))
  obtain ⟨identity', sound', kept⟩ := sound.run run
  exact ⟨stays, (sound'.isCurrent (kept given)).mpr stays⟩

end

/-- Registrations are never confused. No identity is given to two of them; a handle is current
exactly while the registration that it was given out for is listed; acting on it leaves every
other entry as it is; an entry that is reported was neither created nor refreshed within the
timeout; and it stays listed, and current under the reported handle, until it is consumed. -/
theorem registrations_never_confused (reached : Reachable w) :
    (∀ code, w.lobby.hasGame code = (w.listed code).isSome) ∧
    (∀ handle r r', (handle, r) ∈ w.held → (handle, r') ∈ w.held → r = r') ∧
    (∀ handle r, (handle, r) ∈ w.held →
      (w.lobby.isCurrent handle = true ↔ ∃ code, w.listed code = some r)) ∧
    (∀ handle r env code, (handle, r) ∈ w.held → w.listed code ≠ some r →
      (w.lobby.unregisterExpired handle).2.games.lookup code = w.lobby.games.lookup code ∧
      (w.lobby.unregisterRegistration handle).2.games.lookup code = w.lobby.games.lookup code ∧
      (w.lobby.refreshLiveness handle env).2.games.lookup code = w.lobby.games.lookup code) ∧
    ∀ timeoutSecs env, ∀ handle ∈ w.lobby.checkExpired timeoutSecs env,
      ∃ r, w.listed handle.gameCode = some r ∧
        (∀ t ∈ w.shown r, t + 1000 * timeoutSecs < env.nowMs) ∧
        ∀ actions w', Run w actions w' → (∀ action ∈ actions, ¬action.Consumes handle) →
          w'.listed handle.gameCode = some r ∧ w'.lobby.isCurrent handle = true := by
  obtain ⟨identity, sound⟩ := reached.sound
  refine ⟨fun code => ?_, ?_, ?_, ?_, ?_⟩
  · rw [hasGame]
    rcases sound.listed code with ⟨absent, unlisted⟩ | ⟨entry, r, found, listed, -⟩
    · rw [absent, unlisted]
      rfl
    · rw [found, listed]
      rfl
  · intro handle r r' given given'
    exact sound.injective (sound.held given) (sound.held given')
  · intro handle r given
    rw [sound.isCurrent (sound.held given)]
    constructor
    · exact fun listed => ⟨_, listed⟩
    · rintro ⟨code, listed⟩
      rw [← sound.code listed (sound.held given)]
      exact listed
  · intro handle r env code given other
    have named := sound.held given
    refine ⟨?_, sound.lookup_removed named other, sound.lookup_refreshed named env other⟩
    rw [unregisterExpired_snd]
    exact sound.lookup_removed named other
  · intro timeoutSecs env handle reported
    obtain ⟨r, listed, named, quiet⟩ := sound.expired reported
    exact ⟨r, listed, quiet, fun actions w' run spared =>
      sound.stays_listed named listed run spared⟩

def someRequest : RegisterGameRequest Unit where
  hostName := "Alice"
  isPublic := true
  password := none
  timerSeconds := none
  hostVersion := "1"
  hostBuildCommit := "abc"
  currentPlayers := 1
  maxPlayers := 2
  settings := ()
  roomName := none
  hostPeerId := ""
  ranked := false

/-- A listing registered at second 1000 and never refreshed, looked at in second 1301. -/
theorem lapsed_listing_reported :
    ∃ w : World Unit, (⟨"GAME01", 0⟩, .made 0) ∈ w.held ∧
      (w.lobby.isCurrent ⟨"GAME01", 0⟩ = true ↔ ∃ code, w.listed code = some (.made 0)) ∧
      ⟨"GAME01", 0⟩ ∈ w.lobby.checkExpired 300 ⟨1301000⟩ := by
  have step : Step World.new (.registerGame "GAME01" someRequest ⟨1000000⟩)
      (World.new.register _ ⟨"GAME01", 0⟩ ⟨1000000⟩) := .register rfl
  have reached := Reachable.fresh (.step (.refl _) step)
  have held := Set.mem_insert (⟨"GAME01", 0⟩, .made 0) (World.new : World Unit).held
  refine ⟨_, held, (registrations_never_confused reached).2.2.1 _ _ held, ?_⟩
  decide

end Phase.Lobby
