import Mathlib.Algebra.GroupWithZero.Nat
import Mathlib.Data.List.TakeDrop
import Phase.Lib.Fallible

/-! Playback of a recorded game: the state after any number of its actions, reconstructed from the
nearest state that an earlier seek has kept. -/
namespace Phase.Replay
open List

abbrev PlayerId := Nat

inductive ReplayError where
  | missingFormatVersion
  | unsupportedFormatVersion (version : Nat)
  | desync (index : Nat) (message : String)
  | missingCardDatabase
  deriving DecidableEq

inductive RecordedActionKind where
  | submitted
  /-- An AI pass that was admitted through the current decision contract. -/
  | verifiedAiPriorityPass (semanticOwner : PlayerId)
  deriving DecidableEq

structure RecordedAction (Action : Type) where
  seq : Nat
  actor : PlayerId
  action : Action
  kind : RecordedActionKind

/-- A Resolve All burst, anchored after the preceding submitted action. -/
structure RecordedResolveAll where
  afterActionCount : Nat
  requester : PlayerId
  deriving DecidableEq

/-- `config` is what `GameState::new` and the match and debug settings read. -/
structure ReplayHeader (Config DeckList : Type) where
  config : Config
  firstPlayer : Option Nat
  deckData : Option DeckList

structure ReplayLog (Config DeckList Action : Type) where
  formatVersion : Option Nat
  header : ReplayHeader Config DeckList
  actions : List (RecordedAction Action)
  resolveAllBoundaries : List RecordedResolveAll

inductive ResolveAllReadyAccess where
  | admitted
  | refused
  deriving DecidableEq

/-- The rest of the engine: functions that may fail, of the state and their arguments only. -/
structure Engine (Config DeckList Database Action Contract State : Type) where
  newGame : Config → State
  hydrate : State → DeckList → Database → State
  startGame : State → State
  startGameWithStartingPlayer : State → PlayerId → State
  apply : State → PlayerId → Action → Except String State
  issue : State → PlayerId → Contract
  applyVerifiedAiPriorityPass : State → PlayerId → Contract → Action → Except String State
  isResolveAllReady : State → Bool
  resolveAllReadyAccess : State → PlayerId → ResolveAllReadyAccess
  resolveAllReadyPrefix : State → PlayerId → Except String State

section
variable {Config DeckList Database Action Contract State : Type}
  (engine : Engine Config DeckList Database Action Contract State)

/-- The state immediately after the game has started, before any recorded action. -/
def reconstructInitialState (header : ReplayHeader Config DeckList) (db : Option Database) :
    Except ReplayError State := do
  let state := engine.newGame header.config
  let state ← match header.deckData, db with
    | some deckData, some db => .ok (engine.hydrate state deckData db)
    | some _, none => .error .missingCardDatabase
    | none, _ => .ok state
  match header.firstPlayer with
  | some 0 => .ok (engine.startGameWithStartingPlayer state 0)
  | some 1 => .ok (engine.startGameWithStartingPlayer state 1)
  | _ => .ok (engine.startGame state)

def boundaryError (afterActionCount : Nat) (message : String) : ReplayError :=
  .desync (afterActionCount - 1) message

/-- The number of recorded actions, as a `u32`. -/
def ReplayLog.len (log : ReplayLog Config DeckList Action) : Nat := log.actions.length % 2 ^ 32

/-- The loop over the boundaries; `previous` is the anchor of the one before. -/
def validateBoundaries (actionCount : Nat) :
    Nat → List RecordedResolveAll → Except ReplayError Unit
  | _, [] => .ok ()
  | previous, boundary :: later =>
    if boundary.afterActionCount = 0 ∨ boundary.afterActionCount > actionCount then
      .error (boundaryError boundary.afterActionCount
        "Resolve All boundary anchor is outside the action sequence")
    else if boundary.afterActionCount ≤ previous then
      .error (boundaryError boundary.afterActionCount
        "Resolve All boundaries must be unique and strictly ordered")
    else validateBoundaries actionCount boundary.afterActionCount later

def validateResolveAllBoundaries (log : ReplayLog Config DeckList Action) :
    Except ReplayError Unit :=
  match log.formatVersion, log.resolveAllBoundaries with
  | some 2, first :: _ =>
    .error (boundaryError first.afterActionCount
      "version 2 replay cannot contain Resolve All boundaries")
  | _, boundaries => validateBoundaries log.len 0 boundaries

def checkpointInterval : Nat := 20

structure ReplayPlayer (Config DeckList Action State : Type) where
  log : ReplayLog Config DeckList Action
  checkpoints : Std.TreeMap Nat State
  scratch : Option State

def checkFormatVersion : Option Nat → Except ReplayError Unit
  | some 2 | some 3 => .ok ()
  | some version => .error (.unsupportedFormatVersion version)
  | none => .error .missingFormatVersion

def load (log : ReplayLog Config DeckList Action) (db : Option Database) :
    Except ReplayError (ReplayPlayer Config DeckList Action State) := do
  checkFormatVersion log.formatVersion
  validateResolveAllBoundaries log
  let initial ← reconstructInitialState engine log.header db
  .ok { log, checkpoints := (∅ : Std.TreeMap Nat State).insert 0 initial, scratch := none }

/-- The action as it was recorded; a verified pass goes through a contract issued anew. -/
def applyRecorded (state : State) (recorded : RecordedAction Action) : Except String State :=
  match recorded.kind with
  | .submitted => engine.apply state recorded.actor recorded.action
  | .verifiedAiPriorityPass semanticOwner =>
    engine.applyVerifiedAiPriorityPass state recorded.actor (engine.issue state semanticOwner)
      recorded.action

/-- A boundary that is due after the action `seq`. -/
def applyBoundary (seq : Nat) (state : State) (boundary : RecordedResolveAll) :
    Except ReplayError State :=
  if engine.isResolveAllReady state = false then
    .error (.desync seq "Resolve All boundary was due without a Ready latch")
  else if engine.resolveAllReadyAccess state boundary.requester ≠ .admitted then
    .error (.desync seq "Resolve All boundary requester is not entitled to the Ready latch")
  else
    (engine.resolveAllReadyPrefix state boundary.requester).mapError fun error =>
      .desync seq ("Resolve All boundary is not reproducible: " ++ error)

/-- The loop over the actions from a checkpoint on; `count` actions have been applied before. -/
def replayActions (boundaries : List RecordedResolveAll) :
    Nat → List (RecordedAction Action) → State → Except ReplayError State
  | _, [], state => .ok state
  | count, recorded :: later, state => do
      let state ← (applyRecorded engine state recorded).mapError (.desync recorded.seq)
      let state ← (boundaries.filter (·.afterActionCount = count + 1)).foldlM
        (applyBoundary engine recorded.seq) state
      replayActions boundaries (count + 1) later state

namespace ReplayPlayer

/-- The kept state with the greatest index that is not beyond `target`. -/
def nearestCheckpoint (player : ReplayPlayer Config DeckList Action State) (target : Nat) :
    Option (Nat × State) :=
  (player.checkpoints.toList.filter (·.1 ≤ target)).getLast?

/-- `none` where no checkpoint is there to start from. -/
def replayFromNearestCheckpoint (player : ReplayPlayer Config DeckList Action State)
    (target : Nat) : Option (Except ReplayError State) :=
  (player.nearestCheckpoint target).map fun (startIdx, base) =>
    replayActions engine player.log.resolveAllBoundaries startIdx
      ((player.log.actions.take target).drop startIdx) base

/-- The state after `target` actions, or after all of them, and the player afterwards. -/
def seek (player : ReplayPlayer Config DeckList Action State) (target : Nat) :
    Option (Except ReplayError State × ReplayPlayer Config DeckList Action State) :=
  let target := min target player.log.len
  match player.checkpoints[target]? with
  | some state => some (.ok state, player)
  | none =>
    match player.replayFromNearestCheckpoint engine target with
    | none => none
    | some (.error error) => some (.error error, player)
    | some (.ok state) =>
      if target % checkpointInterval = 0 ∨ target = player.log.len then
        some (.ok state, { player with checkpoints := player.checkpoints.insert target state })
      else some (.ok state, { player with scratch := some state })

/-- One seek after the other, with what each of them returns. -/
def seekAll : ReplayPlayer Config DeckList Action State → List Nat →
    Option (List (Except ReplayError State) × ReplayPlayer Config DeckList Action State)
  | player, [] => some ([], player)
  | player, target :: later => do
      let (result, player) ← player.seek engine target
      let (results, player) ← seekAll player later
      some (result :: results, player)

end ReplayPlayer
end

/-- What a recording has the engine do: actions, and bursts that are due after one. -/
inductive Event (Action : Type) where
  | action (recorded : RecordedAction Action)
  | boundary (seq : Nat) (resolveAll : RecordedResolveAll)

namespace Event
variable {Action : Type}

def recorded : Event Action → Option (RecordedAction Action)
  | action recorded => some recorded
  | boundary _ _ => none

def due : Event Action → Option RecordedResolveAll
  | action _ => none
  | boundary _ resolveAll => some resolveAll

end Event

section
variable {Config DeckList Database Action Contract State : Type}
  (engine : Engine Config DeckList Database Action Contract State)

def Event.run (state : State) : Event Action → Except ReplayError State
  | .action recorded => (applyRecorded engine state recorded).mapError (.desync recorded.seq)
  | .boundary seq resolveAll => applyBoundary engine seq state resolveAll

/-- The actions `xs`, of which the first is number `count`, each followed at once by the boundaries
anchored to it. -/
def events (boundaries : List RecordedResolveAll) (count : Nat)
    (xs : List (RecordedAction Action)) : List (Event Action) :=
  (xs.zipIdx count).flatMap fun (recorded, count) =>
    .action recorded ::
      (boundaries.filter (·.afterActionCount = count)).map (.boundary recorded.seq)

/-- The first `n` actions of the log, in order, with their boundaries. -/
def ReplayLog.script (log : ReplayLog Config DeckList Action) (n : Nat) : List (Event Action) :=
  events log.resolveAllBoundaries 1 (log.actions.take n)

/-- The state after the first `n` actions, applied one by one to the initial state. -/
def ReplayLog.stateAfter (log : ReplayLog Config DeckList Action) (initial : State) (n : Nat) :
    Except ReplayError State :=
  (log.script n).foldlM (Event.run engine) initial

theorem replayActions_eq_foldlM (boundaries : List RecordedResolveAll) (count : Nat)
    (xs : List (RecordedAction Action)) (state : State) :
    replayActions engine boundaries count xs state =
      (events boundaries (count + 1) xs).foldlM (Event.run engine) state := by
  induction xs generalizing count state with
  | nil => rfl
  | cons recorded xs ih =>
    have split : events boundaries (count + 1) (recorded :: xs) =
        .action recorded :: ((boundaries.filter (·.afterActionCount = count + 1)).map
          (.boundary recorded.seq) ++ events boundaries (count + 1 + 1) xs) := by
      simp [events]
    rw [split, foldlM_cons]
    refine bind_congr fun state => ?_
    rw [foldlM_append, foldlM_map]
    exact bind_congr fun state => ih (count + 1) state

/-- From a state that `k` actions lead to, the others lead where all of them do. -/
theorem replayActions_from {log : ReplayLog Config DeckList Action} {initial base : State}
    {k n : Nat} (sooner : k ≤ n) (inside : n ≤ log.actions.length)
    (reached : log.stateAfter engine initial k = .ok base) :
    replayActions engine log.resolveAllBoundaries k ((log.actions.take n).drop k) base =
      log.stateAfter engine initial n := by
  have split : log.script n = log.script k ++
      events log.resolveAllBoundaries (k + 1) ((log.actions.take n).drop k) := by
    have halves : log.actions.take n = log.actions.take k ++ (log.actions.take n).drop k := by
      have cut := take_append_drop k (log.actions.take n)
      rw [take_take, Nat.min_eq_left sooner] at cut
      exact cut.symm
    have length : (log.actions.take k).length = k := by
      rw [length_take, Nat.min_eq_left (Nat.le_trans sooner inside)]
    rw [ReplayLog.script, halves, events, zipIdx_append, flatMap_append,
      length, Nat.add_comm 1 k, ← halves]
    rfl
  rw [replayActions_eq_foldlM, ReplayLog.stateAfter, split, foldlM_append]
  rw [ReplayLog.stateAfter] at reached
  rw [reached]
  rfl

end

variable {boundaries : List RecordedResolveAll}

theorem validateBoundaries_spec {actionCount previous : Nat}
    (valid : validateBoundaries actionCount previous boundaries = .ok ()) :
    (∀ boundary ∈ boundaries, previous < boundary.afterActionCount ∧
      boundary.afterActionCount ≤ actionCount) ∧
    boundaries.Pairwise fun earlier later => earlier.afterActionCount < later.afterActionCount := by
  induction boundaries generalizing previous with
  | nil => exact ⟨fun _ inside => absurd inside not_mem_nil, .nil⟩
  | cons boundary later ih =>
    obtain ⟨inside, valid⟩ := Fallible.ite_error_eq_ok.mp valid
    obtain ⟨ordered, valid⟩ := Fallible.ite_error_eq_ok.mp valid
    obtain ⟨bounds, sorted⟩ := ih valid
    refine ⟨?_, .cons (fun other waits => (bounds other waits).1) sorted⟩
    intro other waits
    rcases mem_cons.mp waits with rfl | waits
    · omega
    · have := bounds other waits
      omega

variable {Action : Type}

/-- A version 2 log has none, so the check covers it as well. -/
theorem validateResolveAllBoundaries_spec {Config DeckList : Type}
    {log : ReplayLog Config DeckList Action} (valid : validateResolveAllBoundaries log = .ok ()) :
    (∀ boundary ∈ log.resolveAllBoundaries, 0 < boundary.afterActionCount ∧
      boundary.afterActionCount ≤ log.len) ∧
    log.resolveAllBoundaries.Pairwise fun earlier later =>
      earlier.afterActionCount < later.afterActionCount := by
  unfold validateResolveAllBoundaries at valid
  split at valid
  · cases valid
  · exact validateBoundaries_spec valid

section
variable
  (sorted : boundaries.Pairwise fun earlier later => earlier.afterActionCount < later.afterActionCount)
include sorted

/-- In an ordered list those at `c` come before those after it. -/
theorem filter_at_append_after {c d : Nat} (less : c < d) :
    boundaries.filter (fun boundary => boundary.afterActionCount = c) ++
        boundaries.filter (fun boundary =>
          c + 1 ≤ boundary.afterActionCount ∧ boundary.afterActionCount < d) =
      boundaries.filter (fun boundary =>
        c ≤ boundary.afterActionCount ∧ boundary.afterActionCount < d) := by
  induction sorted with
  | nil => rfl
  | @cons boundary later first _ ih =>
    rcases Nat.lt_trichotomy boundary.afterActionCount c with before | here | after
    · rw [filter_cons_of_neg (by simp; omega), filter_cons_of_neg (by simp; omega),
        filter_cons_of_neg (by simp; omega), ih]
    · rw [filter_cons_of_pos (by simp [here]), filter_cons_of_neg (by simp; omega),
        filter_cons_of_pos (by simp; omega), cons_append, ih]
    · have none_ : later.filter (fun boundary => boundary.afterActionCount = c) = [] := by
        rw [filter_eq_nil_iff]
        intro other waits
        have := first other waits
        simp
        omega
      rw [none_, nil_append] at ih
      rw [filter_cons_of_neg (by simp; omega), none_, nil_append]
      by_cases inside : boundary.afterActionCount < d
      · rw [filter_cons_of_pos (by simp; omega), filter_cons_of_pos (by simp; omega), ih]
      · rw [filter_cons_of_neg (by simp; omega), filter_cons_of_neg (by simp; omega), ih]

/-- The boundaries anchored to these actions are each due once, in order. -/
theorem events_due (count : Nat) (xs : List (RecordedAction Action)) :
    (events boundaries count xs).filterMap Event.due = boundaries.filter fun boundary =>
      count ≤ boundary.afterActionCount ∧ boundary.afterActionCount < count + xs.length := by
  induction xs generalizing count with
  | nil =>
    rw [events, zipIdx_nil, flatMap_nil, filterMap_nil]
    simp
  | cons recorded xs ih =>
    have dueHere (ys : List RecordedResolveAll) :
        (ys.map (@Event.boundary Action recorded.seq)).filterMap Event.due = ys := by
      rw [filterMap_map]
      exact filterMap_some
    rw [events, zipIdx_cons, flatMap_cons, filterMap_append, filterMap_cons_none rfl, dueHere]
    rw [show (xs.zipIdx (count + 1)).flatMap _ = events boundaries (count + 1) xs from rfl, ih,
      filter_at_append_after sorted (by omega), length_cons, Nat.add_comm xs.length, Nat.add_assoc]

end

theorem events_recorded (boundaries : List RecordedResolveAll) (count : Nat)
    (xs : List (RecordedAction Action)) :
    (events boundaries count xs).filterMap Event.recorded = xs := by
  induction xs generalizing count with
  | nil => rfl
  | cons recorded xs ih =>
    have none_ (ys : List RecordedResolveAll) :
        (ys.map (@Event.boundary Action recorded.seq)).filterMap Event.recorded = [] := by
      rw [filterMap_map]
      exact filterMap_eq_nil_iff.mpr fun _ _ => rfl
    rw [events, zipIdx_cons, flatMap_cons, filterMap_append]
    show recorded :: (filterMap Event.recorded (map _ _)) ++
      (events boundaries (count + 1) xs).filterMap Event.recorded = _
    rw [none_, ih]
    rfl

/-- Once validated, the whole log has each of its boundaries due once. -/
theorem script_due {Config DeckList : Type} {log : ReplayLog Config DeckList Action}
    (valid : validateResolveAllBoundaries log = .ok ()) :
    (log.script log.len).filterMap Event.due = log.resolveAllBoundaries := by
  obtain ⟨bounds, sorted⟩ := validateResolveAllBoundaries_spec valid
  have length : (log.actions.take log.len).length = log.len := by
    rw [length_take, Nat.min_eq_left (show log.len ≤ _ from Nat.mod_le _ _)]
  rw [ReplayLog.script, events_due sorted, filter_eq_self, length]
  intro boundary inside
  have := bounds boundary inside
  simp
  omega

section
variable {Config DeckList Database Action Contract State : Type}
  (engine : Engine Config DeckList Database Action Contract State)

/-- Every state that is kept is the one its number of actions leads to. -/
structure Kept (initial : State) (player : ReplayPlayer Config DeckList Action State) : Prop where
  atStart : 0 ∈ player.checkpoints
  reached : ∀ k state, player.checkpoints[k]? = some state →
    k ≤ player.log.len ∧ player.log.stateAfter engine initial k = .ok state

variable {engine} {initial : State} {player : ReplayPlayer Config DeckList Action State}

/-- A loaded player keeps the initial state, and its log has passed the check. -/
theorem load_spec {log : ReplayLog Config DeckList Action} {db : Option Database}
    (loaded : load engine log db = .ok player) :
    player.log = log ∧ validateResolveAllBoundaries log = .ok () ∧
      ∃ initial, reconstructInitialState engine log.header db = .ok initial ∧
        Kept engine initial player := by
  obtain ⟨_, -, loaded⟩ := Fallible.bind_eq_ok.mp loaded
  obtain ⟨_, valid, loaded⟩ := Fallible.bind_eq_ok.mp loaded
  obtain ⟨initial, isInitial, loaded⟩ := Fallible.bind_eq_ok.mp loaded
  cases loaded
  refine ⟨rfl, valid, initial, isInitial, ⟨by simp, ?_⟩⟩
  intro k state isKept
  rw [Std.TreeMap.getElem?_insert] at isKept
  split at isKept
  · next here =>
    obtain rfl : 0 = k := by simpa using here
    cases isKept
    exact ⟨Nat.zero_le _, rfl⟩
  · simp at isKept

theorem Kept.nearest (kept : Kept engine initial player) (target : Nat) :
    ∃ k state, player.nearestCheckpoint target = some (k, state) ∧ k ≤ target ∧
      player.checkpoints[k]? = some state := by
  have isFirst := Std.TreeMap.getElem?_eq_some_getElem kept.atStart
  have some_ : (player.checkpoints.toList.filter (·.1 ≤ target)) ≠ [] :=
    ne_nil_of_mem (mem_filter.mpr
      ⟨Std.TreeMap.mem_toList_iff_getElem?_eq_some.mpr isFirst, by simp⟩)
  obtain ⟨⟨k, state⟩, isLast⟩ := getLast?_isSome.mpr some_ |> Option.isSome_iff_exists.mp
  obtain ⟨listed, near⟩ := mem_filter.mp (mem_of_getLast? isLast)
  exact ⟨k, state, isLast, of_decide_eq_true near,
    Std.TreeMap.mem_toList_iff_getElem?_eq_some.mp listed⟩

/-- One seek returns what all the actions before its target lead to, and keeps only such states. -/
theorem Kept.seek (kept : Kept engine initial player) (target : Nat) :
    ∃ later, player.seek engine target =
        some (player.log.stateAfter engine initial (min target player.log.len), later) ∧
      later.log = player.log ∧ Kept engine initial later := by
  have inside : min target player.log.len ≤ player.log.actions.length :=
    Nat.le_trans (Nat.min_le_right _ _) (Nat.mod_le _ _)
  have bound : min target player.log.len ≤ player.log.len := Nat.min_le_right _ _
  unfold ReplayPlayer.seek
  generalize min target player.log.len = target at inside bound
  dsimp only
  cases isKept : player.checkpoints[target]? with
  | some state => exact ⟨player, by rw [(kept.reached target state isKept).2], rfl, kept⟩
  | none =>
    obtain ⟨k, base, isNearest, near, isBase⟩ := kept.nearest target
    have replayed : player.replayFromNearestCheckpoint engine target =
        some (player.log.stateAfter engine initial target) := by
      rw [ReplayPlayer.replayFromNearestCheckpoint, isNearest]
      exact congrArg some (replayActions_from engine near inside (kept.reached k base isBase).2)
    rw [replayed]
    cases result : player.log.stateAfter engine initial target with
    | error error => exact ⟨player, rfl, rfl, kept⟩
    | ok state =>
      dsimp only
      split
      · refine ⟨_, rfl, rfl, ⟨?_, ?_⟩⟩
        · simp [kept.atStart]
        · intro other kept_ isOther
          rw [Std.TreeMap.getElem?_insert] at isOther
          split at isOther
          · next here =>
            obtain rfl : target = other := by simpa using here
            cases isOther
            exact ⟨bound, result⟩
          · exact kept.reached other kept_ isOther
      · exact ⟨_, rfl, rfl, ⟨kept.atStart, kept.reached⟩⟩

/-- Seeks in any order each return what the actions before their target lead to. -/
theorem Kept.seekAll (kept : Kept engine initial player) (targets : List Nat) :
    ∃ later, player.seekAll engine targets = some (targets.map fun target =>
        player.log.stateAfter engine initial (min target player.log.len), later) := by
  induction targets generalizing player with
  | nil => exact ⟨player, rfl⟩
  | cons target targets ih =>
    obtain ⟨later, isSeek, sameLog, kept⟩ := kept.seek target
    obtain ⟨last, isLast⟩ := ih kept
    refine ⟨last, ?_⟩
    rw [ReplayPlayer.seekAll, isSeek]
    simp only [Option.bind_eq_bind, Option.bind_some]
    rw [isLast, sameLog]
    rfl

/-- Whatever was sought before, a seek returns the result of applying the actions before its target
to the initial state in order, each boundary once and right after its action. -/
theorem seek_path_independent {log : ReplayLog Config DeckList Action} {db : Option Database}
    (loaded : load engine log db = .ok player) :
    ∃ initial, reconstructInitialState engine log.header db = .ok initial ∧
      (∀ targets, ∃ later, player.seekAll engine targets = some (targets.map fun target =>
        log.stateAfter engine initial (min target log.len), later)) ∧
      (∀ n, (log.script n).filterMap Event.recorded = log.actions.take n) ∧
      (log.script log.len).filterMap Event.due = log.resolveAllBoundaries := by
  obtain ⟨sameLog, valid, initial, isInitial, kept⟩ := load_spec loaded
  refine ⟨initial, isInitial, fun targets => ?_, fun n => events_recorded _ _ _, script_due valid⟩
  rw [← sameLog]
  exact kept.seekAll targets

def ReplayLog.new (header : ReplayHeader Config DeckList) : ReplayLog Config DeckList Action :=
  ⟨some 3, header, [], []⟩

/-- What `push_action` and `push_verified_ai_priority_pass` append, by the kind of the action. -/
def ReplayLog.next (log : ReplayLog Config DeckList Action) (actor : PlayerId) (action : Action)
    (kind : RecordedActionKind) : RecordedAction Action := ⟨log.len, actor, action, kind⟩

section
variable (engine) (header : ReplayHeader Config DeckList) (initial : State)

/-- A game recorded from its start on, with the states it has left: an action is pushed once the
engine has accepted it, and one that it refuses leaves game and log alone. -/
inductive Recorded : ReplayLog Config DeckList Action → List State → State → Prop
  | start : Recorded (.new header) [] initial
  | push {log left state next} (actor : PlayerId) (action : Action) (kind : RecordedActionKind) :
      Recorded log left state → applyRecorded engine state (log.next actor action kind) = .ok next →
      Recorded { log with actions := log.actions ++ [log.next actor action kind] }
        (left ++ [state]) next

end

variable {header : ReplayHeader Config DeckList} {log : ReplayLog Config DeckList Action}
  {left : List State} {state : State}

/-- Without boundaries the script is the actions. -/
theorem script_unbounded (none_ : log.resolveAllBoundaries = []) (n : Nat) :
    log.script n = (log.actions.take n).map .action := by
  simp only [ReplayLog.script, events, none_, filter_nil, map_nil, ← map_eq_flatMap]
  exact (map_map ..).symm.trans (by rw [zipIdx_map_fst])

theorem Recorded.stateAfter (recorded : Recorded engine header initial log left state) :
    log.formatVersion = some 3 ∧ log.header = header ∧ log.resolveAllBoundaries = [] ∧
      log.actions.length = left.length ∧ ∀ n s, (left ++ [state])[n]? = some s →
        log.stateAfter engine initial n = .ok s := by
  induction recorded with
  | start =>
    refine ⟨rfl, rfl, rfl, rfl, fun n s found => ?_⟩
    obtain ⟨bound, rfl⟩ := List.getElem?_eq_some_iff.mp found
    obtain rfl : n = 0 := by simpa using bound
    rfl
  | @push log left state next actor action kind _ applied ih =>
    obtain ⟨version, sameHeader, none_, length, reached⟩ := ih
    refine ⟨version, sameHeader, none_, by simp [length], fun n s found => ?_⟩
    rw [ReplayLog.stateAfter, script_unbounded (by exact none_)]
    by_cases earlier : n ≤ left.length
    · rw [getElem?_append_left (by simp; omega)] at found
      rw [take_append_of_le_length (by omega), ← script_unbounded none_]
      exact reached n s found
    · obtain ⟨bound, rfl⟩ := List.getElem?_eq_some_iff.mp found
      obtain rfl : n = left.length + 1 := by simp at bound; omega
      have before := reached left.length state (by simp)
      rw [ReplayLog.stateAfter, script_unbounded none_, take_of_length_le (by omega)] at before
      rw [take_of_length_le (by simp; omega), map_append, foldlM_append, before]
      simp [Event.run, applied, Fallible.mapError_ok]

/-- A recording plays back: it loads, and the seeks, in any order, give back the states that the
game came through. -/
theorem recorded_game_replays {db : Option Database}
    (started : reconstructInitialState engine header db = .ok initial)
    (recorded : Recorded engine header initial log left state)
    (fits : log.actions.length < 2 ^ 32) :
    ∃ player, load engine log db = .ok player ∧ ∀ targets, ∃ later,
      player.seekAll engine targets =
        some (targets.map fun n => .ok ((left ++ [state]).getD (min n left.length) state),
          later) := by
  obtain ⟨version, rfl, none_, length, reached⟩ := recorded.stateAfter
  have loaded : ∃ player, load engine log db = .ok player := by
    simp [load, checkFormatVersion, validateResolveAllBoundaries, validateBoundaries, version,
      none_, started]
  obtain ⟨player, loaded⟩ := loaded
  refine ⟨player, loaded, fun targets => ?_⟩
  obtain ⟨rfl, -, _, isInitial, kept⟩ := load_spec loaded
  cases started.symm.trans isInitial
  obtain ⟨later, sought⟩ := kept.seekAll targets
  have isLen : player.log.len = left.length := (Nat.mod_eq_of_lt fits).trans length
  refine ⟨later, sought.trans (congrArg (fun results => some (results, later)) ?_)⟩
  refine map_congr_left fun n _ => reached _ _ ?_
  have bound : min n left.length < (left ++ [state]).length := by
    rw [length_append, length_singleton]
    omega
  rw [isLen, List.getD, getElem?_eq_getElem bound]
  rfl

end

/-- A game whose state is a number: an action adds to it, and Resolve All, ready at an even number,
multiplies it by ten. -/
def adding : Engine Unit Unit Unit Nat Unit Nat where
  newGame _ := 0
  hydrate state _ _ := state
  startGame state := state
  startGameWithStartingPlayer state _ := state
  apply state _ added := if added = 0 then .error "nothing to add" else .ok (state + added)
  issue _ _ := ()
  applyVerifiedAiPriorityPass state _ _ _ := .ok state
  isResolveAllReady state := state % 2 = 0
  resolveAllReadyAccess _ _ := .admitted
  resolveAllReadyPrefix state _ := .ok (10 * state)

/-- The third action cannot be applied again. -/
def addedThrice : ReplayLog Unit Unit Nat where
  formatVersion := some 3
  header := ⟨(), some 0, none⟩
  actions := [⟨0, 0, 2, .submitted⟩, ⟨1, 1, 3, .submitted⟩, ⟨2, 0, 0, .submitted⟩]
  resolveAllBoundaries := [⟨1, 0⟩]

theorem added_thrice_sought :
    ∃ player later, load adding addedThrice none = .ok player ∧
      player.seekAll adding [2, 9, 1, 3, 0] =
        some ([.ok 23, .error (.desync 2 "nothing to add"), .ok 20,
          .error (.desync 2 "nothing to add"), .ok 0], later) := by
  obtain ⟨initial, isInitial, sought, -⟩ :=
    seek_path_independent (show load adding addedThrice none = .ok _ from rfl)
  obtain ⟨later, isSought⟩ := sought [2, 9, 1, 3, 0]
  cases isInitial
  exact ⟨_, later, rfl, isSought⟩

/-- Two additions, and the states before, between and after them. -/
theorem added_twice_replays : ∃ (log : ReplayLog Unit Unit Nat)
    (player later : ReplayPlayer Unit Unit Nat Nat), load adding log none = .ok player ∧
      player.seekAll adding [2, 1, 0] = some ([.ok 5, .ok 2, .ok 0], later) := by
  obtain ⟨player, loaded, sought⟩ := recorded_game_replays
    (show reconstructInitialState adding addedThrice.header none = .ok 0 from rfl)
    (.push 1 3 .submitted (.push 0 2 .submitted .start rfl) rfl) (by decide)
  obtain ⟨later, isSought⟩ := sought [2, 1, 0]
  exact ⟨_, player, later, loaded, isSought⟩

end Phase.Replay
