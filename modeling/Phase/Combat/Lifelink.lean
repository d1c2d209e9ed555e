import Phase.Combat.Drain

/-! Every lifelink gain is handed over once: what a batch owes is settled in one go or through any
number of suspensions, whatever happens in between. -/
namespace Phase.Combat
open List CombatDamageSubStep Deed

variable {engine : Engine}

/-- What the rest of the game does between the steps of the resolution. -/
inductive Elsewhere : Game engine → Game engine → Prop
  | moves {game : Game engine} {view : View engine.Rest engine.Prompt}
      (keeps : view.flags = game.view.flags) : Elsewhere game (game.setView view)
  | emits {game : Game engine} (new : List (PlainEvent engine.Event)) :
      Elsewhere game (game.emit (new.map .plain))
  | leaves {game : Game engine} (player : PlayerId) : Elsewhere game (dropOwedGains game player)
  | entersPhase {game : Game engine} : Elsewhere game (enterPhase game)

/-- The combat damage of a combat, with everything that happens on the way. -/
inductive LifelinkRun (start : Game engine) : Game engine → Prop
  | start : LifelinkRun start start
  | elsewhere {before after : Game engine} (run : LifelinkRun start before)
      (step : Elsewhere before after) : LifelinkRun start after
  | resolve {before after : Game engine} {waitingFor : Option (WaitingFor engine.Prompt)}
      (run : LifelinkRun start before)
      (resolved : resolveCombatDamage before = (waitingFor, after)) : LifelinkRun start after
  | answer {before after : Game engine} {waitingFor : WaitingFor engine.Prompt}
      {inner : Game engine → Except String (WaitingFor engine.Prompt × Game engine)}
      (run : LifelinkRun start before)
      (isElsewhere : ∀ waitingFor between, inner before = .ok (waitingFor, between) →
        Relation.ReflTransGen Elsewhere before between)
      (answered : handleReplacementChoice inner before = .ok (waitingFor, after)) :
      LifelinkRun start after
  | advance {before after : Game engine} {waitingFor : Option (WaitingFor engine.Prompt)}
      {canAnswer : WaitingFor engine.Prompt → Bool} (run : LifelinkRun start before)
      (advanced : autoAdvanceEliminated canAnswer before = (waitingFor, after)) :
      LifelinkRun start after

section
variable {E : Type}

def Deed.handed : Deed E → Option PendingLifelinkGain
  | .gain next => some next
  | _ => none

def Deed.emitted : Deed E → List (GameEvent E)
  | .damageToPlayers events => events
  | _ => []

def Deed.doneSubStep : Deed E → Option CombatDamageSubStep
  | .subStepDone subStep => some subStep
  | _ => none

/-- The deeds with which what is owed comes down to what is left. -/
inductive Settles (owed : List PendingLifelinkGain) :
    List (Deed E) → List PendingLifelinkGain → Prop
  | begin : Settles owed [] owed
  | gain {deeds : List (Deed E)} {next : PendingLifelinkGain} {left : List PendingLifelinkGain}
      (settles : Settles owed deeds (next :: left)) : Settles owed (deeds ++ [.gain next]) left
  | left {deeds : List (Deed E)} {left : List PendingLifelinkGain} (player : PlayerId)
      (settles : Settles owed deeds left) :
      Settles owed (deeds ++ [.left player]) (left.filter (·.controller ≠ player))

variable {owed left : List PendingLifelinkGain} {deeds : List (Deed E)}

theorem Settles.gains (handed : List PendingLifelinkGain)
    (settles : Settles owed deeds (handed ++ left)) :
    Settles owed (deeds ++ handed.map .gain) left := by
  induction handed generalizing deeds with
  | nil => simpa using settles
  | cons gain rest ih => simpa using ih settles.gain

/-- Only gains are handed over, and only players leave. -/
theorem Settles.deed (settles : Settles owed deeds left) :
    ∀ deed ∈ deeds, (∃ gain, deed = .gain gain) ∨ ∃ player, deed = .left player := by
  induction settles with
  | begin => exact nofun
  | gain _ ih =>
    intro deed isDeed
    rcases mem_append.mp isDeed with old | new
    · exact ih deed old
    · exact .inl ⟨_, mem_singleton.mp new⟩
  | left player _ ih =>
    intro deed isDeed
    rcases mem_append.mp isDeed with old | new
    · exact ih deed old
    · exact .inr ⟨player, mem_singleton.mp new⟩

theorem Settles.quiet (settles : Settles owed deeds left) :
    deeds.flatMap emitted = [] ∧ deeds.filterMap doneSubStep = [] := by
  rw [flatMap_eq_nil_iff, filterMap_eq_nil_iff]
  refine ⟨fun deed isDeed => ?_, fun deed isDeed => ?_⟩ <;>
    rcases settles.deed deed isDeed with ⟨gain, rfl⟩ | ⟨player, rfl⟩ <;> rfl

/-- What is owed is handed over in its order, forfeited by players who left, or left. -/
theorem Settles.accounts (settles : Settles owed deeds left) :
    ∃ forfeited, owed.Perm (deeds.filterMap handed ++ forfeited ++ left) ∧
      (deeds.filterMap handed ++ left).Sublist owed ∧
        ∀ gain ∈ forfeited, Deed.left gain.controller ∈ deeds := by
  induction settles with
  | begin => exact ⟨[], .refl _, .refl _, nofun⟩
  | @gain deeds next left _ ih =>
    obtain ⟨forfeited, all, order, theirs⟩ := ih
    have one : ([.gain next] : List (Deed E)).filterMap handed = [next] := rfl
    refine ⟨forfeited, ?_, ?_, fun gain isOne => mem_append_left _ (theirs gain isOne)⟩
    · have moved : (forfeited ++ next :: left).Perm (next :: (forfeited ++ left)) :=
        perm_middle
      refine all.trans ?_
      simpa [filterMap_append, one] using moved.append_left (deeds.filterMap handed)
    · simpa [filterMap_append, one] using order
  | @left deeds left player _ ih =>
    obtain ⟨forfeited, all, order, theirs⟩ := ih
    have none_ : ([.left player] : List (Deed E)).filterMap handed = [] := rfl
    refine ⟨forfeited ++ left.filter (·.controller = player), ?_, ?_, fun gain isOne => ?_⟩
    · have split_ : left.Perm (left.filter (·.controller = player) ++
          left.filter (·.controller ≠ player)) := by
        simpa using (filter_append_perm (·.controller = player) left).symm
      simpa [filterMap_append, none_] using
        all.trans (split_.append_left (deeds.filterMap handed ++ forfeited))
    · have shorter := (filter_sublist (p := (·.controller ≠ player)) (l := left)).append_left
        (deeds.filterMap handed)
      simpa [filterMap_append, none_] using shorter.trans order
    · rcases mem_append.mp isOne with old | new
      · exact mem_append_left _ (theirs gain old)
      · have isPlayer : gain.controller = player := by simpa using (mem_filter.mp new).2
        exact mem_append_right _ (mem_singleton.mpr (isPlayer ▸ rfl))

end

section
variable {E : Type}

/-- What is done once nothing is left to hand over. -/
def DealtBatch.completion (batch : DealtBatch E) : List (Deed E) :=
  .damageToPlayers batch.damageToPlayers :: riders batch.prevented ++ [.subStepDone batch.subStep]

inductive DealtBatch.Ended (batch : DealtBatch E) : Prop
  | completed {deeds : List (Deed E)} (settles : Settles batch.owed deeds [])
      (is : batch.deeds = deeds ++ batch.completion) : Ended batch
  | abandoned {deeds : List (Deed E)} {left : List PendingLifelinkGain}
      (settles : Settles batch.owed deeds left) (is : batch.deeds = deeds ++ [.abandoned]) :
      Ended batch

/-- The record has what is left of the batch. -/
structure Suspended (batch : DealtBatch E) (record : PendingCombatLifelink E) : Prop where
  settles : Settles batch.owed batch.deeds record.remaining
  damageToPlayers : record.damageToPlayers = batch.damageToPlayers
  preventionTally : record.preventionTally = batch.prevented
  subStep : record.subStep = batch.subStep

/-- At most the latest batch is suspended. -/
inductive Batches : Option (PendingCombatLifelink E) → List (DealtBatch E) → Prop
  | settled {history : List (DealtBatch E)} (ended : ∀ batch ∈ history, batch.Ended) :
      Batches none history
  | suspended {record : PendingCombatLifelink E} {batch : DealtBatch E}
      {earlier : List (DealtBatch E)} (isSuspended : Suspended batch record)
      (ended : ∀ batch ∈ earlier, batch.Ended) : Batches (some record) (batch :: earlier)

def doneSubSteps (history : List (DealtBatch E)) : List CombatDamageSubStep :=
  (history.flatMap (·.deeds)).filterMap doneSubStep

/-- The damage of players that the batches have emitted, in its order. -/
def emittedBy (history : List (DealtBatch E)) : List (GameEvent E) :=
  (history.reverse.flatMap (·.deeds)).flatMap emitted

def GameEvent.isPlayerDamage : GameEvent E → Bool
  | .combatDamageDealtToPlayer .. => true
  | .plain _ => false

def playerDamage (events : List (GameEvent E)) : List (GameEvent E) :=
  events.filter GameEvent.isPlayerDamage

theorem playerDamage_append (events later : List (GameEvent E)) :
    playerDamage (events ++ later) = playerDamage events ++ playerDamage later :=
  filter_append _ _

theorem playerDamage_plain (new : List (PlainEvent E)) : playerDamage (new.map .plain) = [] := by
  unfold playerDamage
  rw [filter_eq_nil_iff]
  intro event isEvent
  obtain ⟨_, _, rfl⟩ := mem_map.mp isEvent
  exact Bool.false_ne_true

theorem playerDamage_all (batch : DealtBatch E) :
    playerDamage batch.damageToPlayers = batch.damageToPlayers := by
  unfold playerDamage
  rw [filter_eq_self]
  intro event isEvent
  obtain ⟨_, _, rfl⟩ := mem_map.mp isEvent
  rfl

theorem riders_quiet (tally : List (AppliedReplacementKey × Int)) :
    (riders tally : List (Deed E)).flatMap emitted = [] ∧
      (riders tally : List (Deed E)).filterMap doneSubStep = [] := by
  rw [flatMap_eq_nil_iff, filterMap_eq_nil_iff]
  refine ⟨fun deed isDeed => ?_, fun deed isDeed => ?_⟩ <;>
    obtain ⟨_, _, rfl⟩ := mem_map.mp isDeed <;> rfl

theorem completion_emitted (batch : DealtBatch E) :
    batch.completion.flatMap emitted = batch.damageToPlayers := by
  unfold DealtBatch.completion
  rw [flatMap_append, flatMap_cons, (riders_quiet _).1]
  exact (append_nil _).trans (append_nil _)

theorem completion_done (batch : DealtBatch E) :
    batch.completion.filterMap doneSubStep = [batch.subStep] := by
  unfold DealtBatch.completion
  rw [filterMap_append, filterMap_cons_none rfl, (riders_quiet _).2]
  rfl

theorem doneSubSteps_cons (batch : DealtBatch E) (earlier : List (DealtBatch E)) :
    doneSubSteps (batch :: earlier) =
      batch.deeds.filterMap doneSubStep ++ doneSubSteps earlier := by
  unfold doneSubSteps
  rw [flatMap_cons, filterMap_append]

theorem emittedBy_cons (batch : DealtBatch E) (earlier : List (DealtBatch E)) :
    emittedBy (batch :: earlier) = emittedBy earlier ++ batch.deeds.flatMap emitted := by
  unfold emittedBy
  rw [reverse_cons, flatMap_append, flatMap_append, flatMap_singleton]

end

/-- What holds of the batches, of the flags and of the events in every run; `base` is the damage of
players that was emitted before. -/
structure Sound (base : List (GameEvent engine.Event)) (game : Game engine) : Prop where
  batches : Batches game.pendingCombatLifelink game.history
  keys : ∀ batch ∈ game.history, (batch.prevented.map (·.1)).Nodup
  once : (doneSubSteps game.history).Nodup
  done : ∀ subStep ∈ doneSubSteps game.history, game.view.flags.map subStep.flag = some true
  undone : ∀ record, game.pendingCombatLifelink = some record →
    game.view.flags.map record.subStep.flag = some false
  log : playerDamage game.events = base ++ emittedBy game.history

def Game.suspend (game : Game engine) (record : PendingCombatLifelink engine.Event) : Game engine :=
  { game with pendingCombatLifelink := some record }

section
variable {base : List (GameEvent engine.Event)} {before after last : Game engine}
variable {record : PendingCombatLifelink engine.Event} {batch : DealtBatch engine.Event}
variable {subStep : CombatDamageSubStep}

section
variable (sound : Sound base before)
include sound

/-- Only other events are new. -/
theorem Sound.still (pending : after.pendingCombatLifelink = before.pendingCombatLifelink)
    (flags : after.view.flags = before.view.flags) (history : after.history = before.history)
    (events : ∃ new, after.events = before.events ++ map .plain new) : Sound base after := by
  obtain ⟨batches, keys, once, done, undone, log⟩ := sound
  refine ⟨by rwa [pending, history], by rwa [history], by rwa [history],
    by rwa [history, flags], by rwa [pending, flags], ?_⟩
  obtain ⟨new, isEvents⟩ := events
  rw [isEvents, playerDamage_append, playerDamage_plain, append_nil, history]
  exact log

theorem Sound.setView {view : View engine.Rest engine.Prompt}
    (flags : view.flags = before.view.flags) : Sound base (before.setView view) :=
  sound.still rfl flags rfl ⟨[], (append_nil _).symm⟩

theorem Sound.emit (new : List (PlainEvent engine.Event)) :
    Sound base (before.emit (new.map .plain)) := sound.still rfl rfl rfl ⟨new, rfl⟩

theorem Sound.claimEvents (start : Nat) : Sound base (claimEvents before start) :=
  sound.setView (engine.claimEvents before.view before.events start).2

theorem Sound.ended (none_ : before.pendingCombatLifelink = none) :
    ∀ batch ∈ before.history, batch.Ended := by
  have batches := sound.batches
  rw [none_] at batches
  cases batches with
  | settled ended => exact ended

theorem Sound.latest (isSome : before.pendingCombatLifelink = some record) :
    ∃ batch earlier, before.history = batch :: earlier ∧ Suspended batch record ∧
      ∀ batch ∈ earlier, batch.Ended := by
  have batches := sound.batches
  rw [isSome] at batches
  cases isHistory : before.history with
  | nil => rw [isHistory] at batches; cases batches
  | cons batch earlier =>
    rw [isHistory] at batches
    cases batches with
    | suspended isSuspended ended => exact ⟨batch, earlier, rfl, isSuspended, ended⟩

/-- A batch that has just been dealt owes everything. -/
theorem Sound.deals (none_ : before.pendingCombatLifelink = none)
    (undone : before.view.flags.map subStep.flag = some false)
    (deals : Deals before subStep batch after record) : Sound base (after.suspend record) := by
  have settles : Settles batch.owed batch.deeds record.remaining := by
    rw [deals.new, deals.remaining]
    exact .begin
  have isHistory : (after.suspend record).history = batch :: before.history := deals.history
  have flags : (after.suspend record).view.flags = before.view.flags := deals.flags
  have isDone : doneSubSteps (batch :: before.history) = doneSubSteps before.history := by
    rw [doneSubSteps_cons, deals.new]
    rfl
  refine ⟨?_, ?_, ?_, ?_, ?_, ?_⟩
  · rw [isHistory]
    exact .suspended ⟨settles, deals.damageToPlayers, deals.preventionTally,
      deals.subStep.2.trans deals.subStep.1.symm⟩ (sound.ended none_)
  · rw [isHistory]
    exact forall_mem_cons.mpr ⟨deals.keys, sound.keys⟩
  · rw [isHistory, isDone]
    exact sound.once
  · rw [isHistory, isDone, flags]
    exact sound.done
  · rintro _ ⟨⟩
    rw [flags, deals.subStep.2]
    exact undone
  · rw [isHistory, emittedBy_cons, deals.new, flatMap_nil, append_nil]
    exact (congrArg playerDamage deals.events).trans sound.log

end

/-- What is left to be done about a suspended batch changes, and the deeds say how. -/
theorem Sound.settles (sound : Sound base (before.suspend record))
    {deeds : List (Deed engine.Event)} {left : List PendingLifelinkGain}
    {events : List (GameEvent engine.Event)} (writes : Writes before after deeds)
    (settles : ∀ batch : DealtBatch engine.Event, Settles batch.owed batch.deeds record.remaining →
        Settles batch.owed (batch.deeds ++ deeds) left) :
    Sound base (after.suspend { record with remaining := left, batchEvents := events }) := by
  obtain ⟨batch, earlier, isHistory, isSuspended, ended⟩ := sound.latest rfl
  have isAfter : (after.suspend { record with remaining := left, batchEvents := events }).history =
      { batch with deeds := batch.deeds ++ deeds } :: earlier := by
    refine writes.history.trans ?_
    rw [show before.history = batch :: earlier from isHistory]
    rfl
  have quiet := isSuspended.settles.quiet
  have quiet' := (settles batch isSuspended.settles).quiet
  have isDone : doneSubSteps ({ batch with deeds := batch.deeds ++ deeds } :: earlier) =
      doneSubSteps (before.suspend record).history := by
    rw [isHistory, doneSubSteps_cons, doneSubSteps_cons, quiet.2, quiet'.2]
  refine ⟨?_, ?_, ?_, ?_, ?_, ?_⟩
  · rw [isAfter]
    exact .suspended ⟨settles batch isSuspended.settles, isSuspended.damageToPlayers,
      isSuspended.preventionTally, isSuspended.subStep⟩ ended
  · rw [isAfter]
    have keys := sound.keys
    rw [isHistory] at keys
    exact forall_mem_cons.mpr (forall_mem_cons.mp keys)
  · rw [isAfter, isDone]
    exact sound.once
  · rw [isAfter, isDone]
    intro subStep isDone
    exact (congrArg (Option.map subStep.flag) writes.flags).trans (sound.done subStep isDone)
  · rintro _ ⟨⟩
    exact (congrArg (Option.map record.subStep.flag) writes.flags).trans (sound.undone record rfl)
  · rw [isAfter, emittedBy_cons, quiet'.1]
    have log := sound.log
    rw [isHistory, emittedBy_cons, quiet.1] at log
    exact (congrArg playerDamage writes.events).trans log

/-- Everything a suspended batch owes is done, and its sub-step is finished. -/
theorem Sound.completes (sound : Sound base (before.suspend record))
    (none_ : before.pendingCombatLifelink = none) {new more : List (PlainEvent engine.Event)}
    (writes : Writes before after (record.remaining.map .gain ++
      .damageToPlayers record.damageToPlayers :: riders record.preventionTally))
    (finished : Finished (after.emit (new.map .plain ++ record.damageToPlayers ++
      more.map .plain)) last record.subStep) :
    Sound base last ∧ last.pendingCombatLifelink = none := by
  obtain ⟨batch, earlier, isHistory, isSuspended, ended⟩ := sound.latest rfl
  have isNone : last.pendingCombatLifelink = none :=
    finished.pending.trans (writes.pending.trans none_)
  have flags : last.view.flags = before.view.flags.map record.subStep.setFlag :=
    finished.flags.trans (congrArg (Option.map record.subStep.setFlag) writes.flags)
  have settled : Settles batch.owed (batch.deeds ++ record.remaining.map .gain) [] :=
    Settles.gains record.remaining (by simpa using isSuspended.settles)
  have isDeeds : batch.deeds ++ (record.remaining.map .gain ++
      .damageToPlayers record.damageToPlayers :: riders record.preventionTally) ++
        [.subStepDone record.subStep] =
      batch.deeds ++ record.remaining.map .gain ++ batch.completion := by
    rw [isSuspended.damageToPlayers, isSuspended.preventionTally, isSuspended.subStep]
    simp [DealtBatch.completion]
  have isLast : last.history = { batch with
      deeds := batch.deeds ++ record.remaining.map .gain ++ batch.completion } :: earlier := by
    refine finished.history.trans ?_
    rw [show (after.emit _).history = after.history from rfl, writes.history,
      show before.history = batch :: earlier from isHistory, ← isDeeds]
    rfl
  have isDone : doneSubSteps last.history =
      record.subStep :: doneSubSteps (before.suspend record).history := by
    rw [isLast, isHistory, doneSubSteps_cons, doneSubSteps_cons, filterMap_append,
      settled.quiet.2, completion_done, isSuspended.settles.quiet.2, isSuspended.subStep]
    rfl
  refine ⟨⟨?_, ?_, ?_, ?_, ?_, ?_⟩, isNone⟩
  · rw [isNone, isLast]
    exact .settled (forall_mem_cons.mpr ⟨.completed settled rfl, ended⟩)
  · rw [isLast]
    have keys := sound.keys
    rw [isHistory] at keys
    exact forall_mem_cons.mpr (forall_mem_cons.mp keys)
  · rw [isDone]
    refine nodup_cons.mpr ⟨fun inside => ?_, sound.once⟩
    have isFalse := sound.undone record rfl
    rw [sound.done _ inside] at isFalse
    cases isFalse
  · rw [isDone, flags]
    have done := sound.done
    have undone := sound.undone record rfl
    rw [show (before.suspend record).view.flags = before.view.flags from rfl] at done undone
    intro subStep isOne
    cases isFlags : before.view.flags with
    | none => rw [isFlags] at undone; cases undone
    | some flags =>
      rw [Option.map_some, Option.map_some, flag_setFlag]
      rcases mem_cons.mp isOne with same | old
      · simp [same]
      · have isTrue := done subStep old
        rw [isFlags, Option.map_some, Option.some_inj] at isTrue
        simp [isTrue]
  · intro record isRecord
    rw [isNone] at isRecord
    cases isRecord
  · obtain ⟨later, isEvents⟩ := finished.events
    have log := sound.log
    rw [isHistory, emittedBy_cons, isSuspended.settles.quiet.1, append_nil] at log
    have isLog : playerDamage after.events = base ++ emittedBy earlier :=
      (congrArg playerDamage writes.events).trans log
    rw [isEvents, isLast, emittedBy_cons, flatMap_append, settled.quiet.1, completion_emitted]
    unfold Game.emit
    rw [playerDamage_append, playerDamage_append, playerDamage_append, playerDamage_append,
      playerDamage_plain, playerDamage_plain, playerDamage_plain, isLog,
      isSuspended.damageToPlayers, playerDamage_all]
    simp

theorem isSome_of_undone {flags : Option (Bool × Bool)} {flag : Bool × Bool → Bool}
    (undone : flags.map flag = some false) : flags.isSome := by
  cases flags with
  | none => cases undone
  | some flags => rfl

theorem Sound.resolveSubStep (sound : Sound base before)
    (none_ : before.pendingCombatLifelink = none)
    (undone : before.view.flags.map subStep.flag = some false) :
    Sound base (resolveSubStep before subStep).2 ∧ ((resolveSubStep before subStep).1 = none →
      (resolveSubStep before subStep).2.pendingCombatLifelink = none ∧
      (resolveSubStep before subStep).2.view.flags = before.view.flags.map subStep.setFlag) := by
  have collected := collectDamageAssignments_flags before.view.board subStep
  unfold Combat.resolveSubStep
  split
  · next prompt board isCollected =>
    rw [isCollected] at collected
    exact ⟨sound.setView collected, nofun⟩
  · next board isCollected =>
    rw [isCollected] at collected
    have flags : (takePendingDamage board).2.damageFlags = before.view.flags :=
      (takePendingDamage_flags board).trans collected
    obtain ⟨batch, dealt, record, drained, deals⟩ := applyCombatDamage_spec
      (before.setView (before.view.setBoard (takePendingDamage board).2))
      (takePendingDamage board).1 subStep
    have dealtFlags : dealt.view.flags = before.view.flags := deals.flags.trans flags
    have sound' : Sound base (before.setView (before.view.setBoard (takePendingDamage board).2)) :=
      sound.setView flags
    have suspended := sound'.deals none_ ((congrArg (Option.map subStep.flag) flags).trans undone)
      deals
    obtain ⟨old, isOld⟩ := deals.plain
    dsimp only
    generalize applyCombatDamage _ (takePendingDamage board).1 subStep = result at drained ⊢
    cases drained with
    | paused gains writes =>
      rw [isOld]
      rw [← map_append]
      refine ⟨((suspended.settles writes fun batch settles => Settles.gains _ ?_).emit
        _).claimEvents _, nofun⟩
      rwa [← gains]
    | @complete new more after writes =>
      rw [isOld]
      rw [← append_assoc, ← append_assoc, ← map_append]
      have isCombat : after.view.flags.isSome := by
        rw [writes.flags, dealtFlags]
        exact isSome_of_undone undone
      have finished := fun emitted =>
        @finishCombatDamageSubStep_spec engine (after.emit emitted) isCombat subStep
      obtain rfl : record.subStep = subStep := deals.subStep.2
      refine And.imp_right (fun isNone _ => ⟨isNone, ?_⟩)
        (suspended.completes (deals.pending.trans none_) writes (finished _ _))
      exact (finished _ _).flags.trans (congrArg (Option.map record.subStep.setFlag)
        (writes.flags.trans dealtFlags))

theorem beginSecondStep_flags (game : Game engine) :
    (beginSecondStep game).view.flags = game.view.flags := by
  unfold beginSecondStep
  split
  · exact (engine.recordStepBegin game.view).2
  · rfl

theorem Sound.beginSecondStep (sound : Sound base before) :
    Sound base (beginSecondStep before) := by
  unfold Combat.beginSecondStep
  split
  · exact sound.setView (engine.recordStepBegin before.view).2
  · exact sound

theorem beginSecondStep_pending (game : Game engine) :
    (beginSecondStep game).pendingCombatLifelink = game.pendingCombatLifelink := by
  unfold beginSecondStep
  split <;> rfl

theorem Sound.resolveSubSteps (sound : Sound base before)
    (none_ : before.pendingCombatLifelink = none) : Sound base (resolveSubSteps before).2 := by
  have regular : ∀ game : Game engine, Sound base game → game.pendingCombatLifelink = none →
      game.view.flags.map regular.flag = some false →
        Sound base (Combat.resolveSubStep (Combat.beginSecondStep game) .regular).2 :=
    fun game sound none_ undone => (sound.beginSecondStep.resolveSubStep
      ((beginSecondStep_pending game).trans none_) (by rwa [beginSecondStep_flags])).1
  unfold Combat.resolveSubSteps
  split
  · exact sound
  · next combat isCombat =>
    have isFlags : before.view.flags = some (combat.firstStrikeDone, combat.regularDamageDone) := by
      unfold View.flags GameState.damageFlags
      rw [isCombat]
      rfl
    split
    · exact sound
    · next undone =>
      have flags := snapshotParticipants_flags before.view.board
      have sound' : Sound base (before.setView (before.view.setBoard
          (snapshotParticipants before.view.board))) := sound.setView flags
      have regularUndone : (before.view.flags).map CombatDamageSubStep.regular.flag =
          some false := by
        rw [isFlags]
        simpa [flag] using undone
      dsimp only
      split
      · next isFirst =>
        have firstUndone : before.view.flags.map firstStrike.flag =
            some false := by
          rw [isFlags]
          simpa [flag] using (Bool.and_eq_true_iff.mp isFirst).2
        have first := sound'.resolveSubStep none_
          ((congrArg (Option.map firstStrike.flag) flags).trans firstUndone)
        split
        · next isResolved =>
          rw [isResolved] at first
          exact first.1
        · next isResolved =>
          rw [isResolved] at first
          obtain ⟨sound'', finished⟩ := first
          obtain ⟨isNone, isFlags'⟩ := finished rfl
          refine regular _ sound'' isNone ?_
          rw [isFlags', Option.map_map]
          refine (congrArg (Option.map _) flags).trans ?_
          exact regularUndone
      · exact regular _ sound' none_
          ((congrArg (Option.map CombatDamageSubStep.regular.flag) flags).trans regularUndone)

theorem suspend_pending (isPending : before.pendingCombatLifelink = some record) :
    before = ({ before with pendingCombatLifelink := none } : Game engine).suspend record := by
  obtain ⟨view, _, events, history⟩ := before
  cases isPending
  rfl

section
variable (sound : Sound base before)
include sound

theorem Sound.resume (start : Nat) : Sound base (resumePendingCombatLifelink before start).2 := by
  unfold resumePendingCombatLifelink
  cases isPending : before.pendingCombatLifelink with
  | none => exact sound
  | some parked =>
    dsimp only
    generalize isRecord : { parked with
      batchEvents := parked.batchEvents ++ before.events.drop start } = record
    have undone : before.view.flags.map record.subStep.flag = some false :=
      isRecord ▸ sound.undone parked isPending
    have isLength : (parked.batchEvents ++ before.events.drop start).length =
        record.batchEvents.length := isRecord ▸ rfl
    have isSubStep : parked.subStep = record.subStep := isRecord ▸ rfl
    -- The events that are folded in do not change what is owed.
    have suspended : Sound base
        (({ before with pendingCombatLifelink := none } : Game engine).suspend record) := by
      rw [suspend_pending isPending] at sound
      rw [← isRecord]
      exact sound.settles .refl fun batch settles => by simpa using settles
    have drained := drainCombatLifelink_spec
      ({ before with pendingCombatLifelink := none } : Game engine) record
    generalize drainCombatLifelink _ record = result at drained ⊢
    cases drained with
    | paused gains writes =>
      dsimp only
      rw [isLength, drop_left]
      refine ((suspended.settles writes fun batch settles => Settles.gains _ ?_).emit
        _).claimEvents _
      rwa [← gains]
    | @complete new more after writes =>
      dsimp only
      rw [isLength, drop_left]
      have isCombat : after.view.flags.isSome := by
        rw [writes.flags]
        exact isSome_of_undone undone
      have finished := fun emitted =>
        @finishCombatDamageSubStep_spec engine (after.emit emitted) isCombat record.subStep
      have completed := fun damageEvents => suspended.completes rfl writes (finished
        (new.map .plain ++ record.damageToPlayers ++ more.map .plain) damageEvents)
      rw [isSubStep]
      split
      · exact (completed _).1.claimEvents start
      · exact ((completed _).1.claimEvents start).resolveSubSteps (completed _).2

theorem Sound.resolve : Sound base (resolveCombatDamage before).2 := by
  unfold resolveCombatDamage
  split
  · split
    · exact sound.resume _
    · exact sound
  · next isNone => exact sound.resolveSubSteps isNone

theorem Sound.advance (canAnswer : WaitingFor engine.Prompt → Bool) :
    Sound base (autoAdvanceEliminated canAnswer before).2 := by
  have resumed := sound.resume before.events.length
  unfold autoAdvanceEliminated
  split
  · exact sound
  · generalize resumePendingCombatLifelink before before.events.length = result at resumed ⊢
    obtain ⟨waitingFor, after⟩ := result
    cases waitingFor with
    | none => exact resumed
    | some waitingFor =>
      dsimp only
      split
      · exact resumed.setView rfl
      · exact resumed

theorem Sound.leaves (player : PlayerId) : Sound base (dropOwedGains before player) := by
  unfold dropOwedGains
  split
  · exact sound
  · next record isPending =>
    rw [suspend_pending isPending] at sound
    exact sound.settles (.note (.left player)) fun batch settles => settles.left player

theorem Sound.entersPhase : Sound base (enterPhase before) := by
  unfold enterPhase
  split
  · exact sound
  · next record isPending =>
    obtain ⟨batch, earlier, isHistory, isSuspended, ended⟩ := sound.latest isPending
    have quiet := isSuspended.settles.quiet
    have isAfter : (({ before with pendingCombatLifelink := none } : Game engine).note
        .abandoned).history = { batch with deeds := batch.deeds ++ [.abandoned] } :: earlier := by
      rw [isHistory]
      rfl
    have isDone : doneSubSteps ({ batch with deeds := batch.deeds ++ [.abandoned] } :: earlier) =
        doneSubSteps before.history := by
      rw [isHistory, doneSubSteps_cons, doneSubSteps_cons, filterMap_append]
      exact congrArg (· ++ _) (append_nil _)
    refine ⟨?_, ?_, ?_, ?_, nofun, ?_⟩
    · rw [isAfter]
      exact .settled (forall_mem_cons.mpr ⟨.abandoned isSuspended.settles rfl, ended⟩)
    · rw [isAfter]
      have keys := sound.keys
      rw [isHistory] at keys
      exact forall_mem_cons.mpr (forall_mem_cons.mp keys)
    · rw [isAfter, isDone]
      exact sound.once
    · rw [isAfter, isDone]
      exact sound.done
    · rw [isAfter, emittedBy_cons, flatMap_append, quiet.1]
      have log := sound.log
      rwa [isHistory, emittedBy_cons, quiet.1] at log

theorem Sound.elsewhere (step : Elsewhere before after) : Sound base after := by
  cases step with
  | moves keeps => exact sound.setView keeps
  | emits new => exact sound.emit new
  | leaves player => exact sound.leaves player
  | entersPhase => exact sound.entersPhase

theorem Sound.answer {inner : Game engine → Except String (WaitingFor engine.Prompt × Game engine)}
    (isElsewhere : ∀ waitingFor between, inner before = .ok (waitingFor, between) →
      Relation.ReflTransGen Elsewhere before between) {waitingFor : WaitingFor engine.Prompt}
    (answered : handleReplacementChoice inner before = .ok (waitingFor, after)) :
    Sound base after := by
  unfold handleReplacementChoice at answered
  cases isInner : inner before with
  | error message => rw [isInner] at answered; cases answered
  | ok result =>
    obtain ⟨asked, between⟩ := result
    have sound' : Sound base between := by
      have path := isElsewhere _ _ isInner
      clear isInner
      induction path with
      | refl => exact sound
      | tail _ step ih => exact ih.elsewhere step
    rw [isInner] at answered
    change (if asked.isPriority then _ else _) = Except.ok (waitingFor, after) at answered
    split at answered
    · have asked_ : Sound base (between.setView (between.view.setWaiting asked)) :=
        sound'.setView rfl
      have resumed := asked_.resume before.events.length
      cases answered
      exact resumed
    · cases answered
      exact sound'

end

theorem LifelinkRun.sound {start game : Game engine} (run : LifelinkRun start game)
    (sound : Sound base start) : Sound base game := by
  induction run with
  | start => exact sound
  | elsewhere _ step ih => exact ih.elsewhere step
  | resolve _ resolved ih =>
    have resolved_ := ih.resolve
    rwa [resolved] at resolved_
  | answer _ isElsewhere answered ih => exact ih.answer isElsewhere answered
  | @advance before after waitingFor canAnswer _ advanced ih =>
    have advanced_ := ih.advance canAnswer
    rwa [advanced] at advanced_

end

end Phase.Combat
