import Phase.Combat.Resolve
import Phase.Combat.Totals

/-! What each part of the resolution does to a batch: the deeds it writes, and the events it
emits. -/
namespace Phase.Combat
open List

variable {engine : Engine}

theorem updateCombat_flags {board : GameState} {update : CombatState → CombatState}
    (keeps : ∀ combat, (update combat).firstStrikeDone = combat.firstStrikeDone ∧
      (update combat).regularDamageDone = combat.regularDamageDone) :
    (board.updateCombat update).damageFlags = board.damageFlags := by
  unfold GameState.updateCombat GameState.damageFlags
  rw [Option.map_map]
  congr 1
  funext combat
  exact Prod.ext (keeps combat).1 (keeps combat).2

theorem collectDamageAssignments_flags (board : GameState) (subStep : CombatDamageSubStep) :
    (collectDamageAssignments board subStep).2.damageFlags = board.damageFlags := by
  cases isCombat : board.combat with
  | none =>
    unfold collectDamageAssignments
    rw [isCombat]
  | some combat =>
    obtain ⟨now, is⟩ := @collectDamageAssignments_keeps board combat subStep isCombat
    rw [is]
    unfold GameState.damageFlags
    rw [isCombat]
    rfl

theorem takePendingDamage_flags (board : GameState) :
    (takePendingDamage board).2.damageFlags = board.damageFlags :=
  updateCombat_flags fun _ => ⟨rfl, rfl⟩

theorem snapshotParticipants_flags (board : GameState) :
    (snapshotParticipants board).damageFlags = board.damageFlags := by
  unfold snapshotParticipants
  split
  · rfl
  · next combat isCombat =>
    split
    · rfl
    · unfold GameState.damageFlags
      rw [isCombat]
      rfl

/-- Whether the sub-step is done. -/
def CombatDamageSubStep.flag : CombatDamageSubStep → Bool × Bool → Bool
  | .firstStrike => Prod.fst
  | .regular => Prod.snd

def CombatDamageSubStep.setFlag : CombatDamageSubStep → Bool × Bool → Bool × Bool
  | .firstStrike, flags => (true, flags.2)
  | .regular, flags => (flags.1, true)

theorem flag_setFlag (subStep other : CombatDamageSubStep) (flags : Bool × Bool) :
    other.flag (subStep.setFlag flags) = (decide (other = subStep) || other.flag flags) := by
  cases subStep <;> cases other <;> rfl

/-- The deeds are written to the latest batch, and all else is as it was. -/
structure Writes (before after : Game engine) (deeds : List (Deed engine.Event)) : Prop where
  pending : after.pendingCombatLifelink = before.pendingCombatLifelink
  events : after.events = before.events
  flags : after.view.flags = before.view.flags
  history : after.history = before.history.modifyHead fun batch =>
    { batch with deeds := batch.deeds ++ deeds }

section
variable {a b c : Game engine} {deeds later : List (Deed engine.Event)}

theorem modifyHead_nil (history : List (DealtBatch engine.Event)) :
    history.modifyHead (fun batch => { batch with deeds := batch.deeds ++ [] }) = history := by
  cases history with
  | nil => rfl
  | cons batch earlier => rw [modifyHead_cons, append_nil]

theorem Writes.view {view : View engine.Rest engine.Prompt} (keeps : view.flags = a.view.flags) :
    Writes a (a.setView view) [] :=
  ⟨rfl, rfl, keeps, (modifyHead_nil _).symm⟩

theorem Writes.refl : Writes a a [] := ⟨rfl, rfl, rfl, (modifyHead_nil _).symm⟩

theorem Writes.note (deed : Deed engine.Event) : Writes a (a.note deed) [deed] :=
  ⟨rfl, rfl, rfl, rfl⟩

theorem Writes.trans (first : Writes a b deeds) (next : Writes b c later) :
    Writes a c (deeds ++ later) := by
  refine ⟨next.pending.trans first.pending, next.events.trans first.events,
    next.flags.trans first.flags, ?_⟩
  rw [next.history, first.history]
  cases a.history with
  | nil => rfl
  | cons batch earlier =>
    simp only [modifyHead_cons, append_assoc]

end

theorem invalidateLoopRing_flags (view : View engine.Rest engine.Prompt) (lives : List Int) :
    (invalidateLoopRing view lives).flags = view.flags := by
  unfold invalidateLoopRing
  split
  · rfl
  · exact (engine.clearLoopDetectWindow view).2

/-- Every gain up to the suspended one is handed over, or every gain. -/
theorem drainGains_spec (waitingBefore : WaitingFor engine.Prompt)
    (gains : List PendingLifelinkGain) (events : List (GameEvent engine.Event))
    (game : Game engine) :
    let (left, events', after) := drainGains waitingBefore gains events game
    ∃ handed new, gains = handed ++ left.getD [] ∧ events' = events ++ map .plain new ∧
      Writes game after (handed.map .gain) := by
  induction gains generalizing events game with
  | nil => exact ⟨[], [], rfl, (append_nil _).symm, .refl⟩
  | cons gain rest ih =>
    unfold drainGains
    obtain ⟨outcome, new, next⟩ := engine.applyLifeGain game.view gain.controller gain.amount
    have handed : Writes game ((game.setView next.1).note (.gain gain)) [.gain gain] :=
      (Writes.view next.2).trans (.note _)
    dsimp only
    have goes : ∀ following, Writes ((game.setView next.1).note (.gain gain)) following [] →
        let (left, events', after) :=
          drainGains waitingBefore rest (events ++ new.map .plain) following
        ∃ handed new, gain :: rest = handed ++ left.getD [] ∧ events' = events ++ map .plain new ∧
          Writes game after (handed.map .gain) := by
      intro following writes
      obtain ⟨others, more, isRest, isEvents, writes'⟩ := ih (events ++ new.map .plain) following
      refine ⟨gain :: others, new ++ more, by rw [cons_append, ← isRest], ?_,
        (handed.trans writes).trans writes'⟩
      rw [isEvents, map_append, append_assoc]
    split
    · exact goes _ .refl
    · exact ⟨[gain], new, rfl, rfl, handed⟩
    · exact goes _ (.view rfl)

def riders {E : Type} (tally : List (AppliedReplacementKey × Int)) : List (Deed E) :=
  (tally.filter (0 < ·.2)).map fun entry => .rider entry.1 entry.2

theorem firePreventionRider_flags (view : View engine.Rest engine.Prompt)
    (key : AppliedReplacementKey) (total : Int) :
    (firePreventionRider view key total).2.flags = view.flags := by
  unfold firePreventionRider
  dsimp only
  split
  · exact (engine.consumeShieldCounter view _).2.2
  · split
    · rfl
    · split
      · rfl
      · exact (engine.resolveRider view _ total).2.2

theorem fireCombatPreventionRiders_spec (tally : List (AppliedReplacementKey × Int))
    (events : List (GameEvent engine.Event)) (game : Game engine) :
    ∃ new, (fireCombatPreventionRiders tally events game).1 = events ++ map .plain new ∧
      Writes game (fireCombatPreventionRiders tally events game).2 (riders tally) := by
  induction tally generalizing events game with
  | nil => exact ⟨[], (append_nil _).symm, .refl⟩
  | cons entry rest ih =>
    obtain ⟨key, total⟩ := entry
    by_cases none_ : total ≤ 0
    · rw [fireCombatPreventionRiders, if_pos none_]
      have isRiders : (riders ((key, total) :: rest) : List (Deed engine.Event)) =
          riders rest := by
        unfold riders
        rw [filter_cons_of_neg (by simpa using none_)]
      rw [isRiders]
      exact ih events game
    · rw [fireCombatPreventionRiders, if_neg none_]
      have isRiders : (riders ((key, total) :: rest) : List (Deed engine.Event)) =
          .rider key total :: riders rest := by
        unfold riders
        rw [filter_cons_of_pos (by simpa using none_)]
        rfl
      rw [isRiders]
      obtain ⟨more, isEvents, writes⟩ :=
        ih (events ++ (firePreventionRider game.view key total).1.map .plain)
          ((game.setView (firePreventionRider game.view key total).2).note (.rider key total))
      refine ⟨(firePreventionRider game.view key total).1 ++ more, isEvents.trans ?_,
        ((Writes.view (firePreventionRider_flags _ _ _)).trans (.note _)).trans writes⟩
      rw [map_append, append_assoc]

/-- A drained batch is suspended after the gains it handed over, or everything it owes is done. -/
inductive Drained (game : Game engine) (record : PendingCombatLifelink engine.Event) :
    CombatDamageBatch engine × Game engine → Prop
  | paused {handed left : List PendingLifelinkGain} {new : List (PlainEvent engine.Event)}
      {waitingFor : WaitingFor engine.Prompt} {after : Game engine}
      (gains : record.remaining = handed ++ left)
      (writes : Writes game after (handed.map .gain)) :
      Drained game record (.paused (record.batchEvents ++ new.map .plain) waitingFor,
        { after with pendingCombatLifelink := some { record with
          remaining := left
          batchEvents := record.batchEvents ++ new.map .plain } })
  | complete {new more : List (PlainEvent engine.Event)} {after : Game engine}
      (writes : Writes game after (record.remaining.map .gain ++
        .damageToPlayers record.damageToPlayers :: riders record.preventionTally)) :
      Drained game record (.complete (record.batchEvents ++
        (new.map .plain ++ record.damageToPlayers ++ more.map .plain)), after)

theorem drainCombatLifelink_spec (game : Game engine)
    (record : PendingCombatLifelink engine.Event) :
    Drained game record (drainCombatLifelink game record) := by
  have drained := drainGains_spec game.view.waitingFor record.remaining record.batchEvents game
  unfold drainCombatLifelink
  split
  · next left events after isDrained =>
    rw [isDrained] at drained
    obtain ⟨handed, new, isGains, rfl, writes⟩ := drained
    exact .paused isGains (append_nil (handed.map Deed.gain) ▸
        writes.trans (Writes.view (invalidateLoopRing_flags after.view record.livesBefore)))
  · next events after isDrained =>
    rw [isDrained] at drained
    obtain ⟨handed, new, isGains, rfl, writes⟩ := drained
    obtain rfl : record.remaining = handed := isGains.trans (append_nil handed)
    obtain ⟨more, isEvents, fired⟩ := fireCombatPreventionRiders_spec record.preventionTally
      (record.batchEvents ++ new.map .plain ++ record.damageToPlayers)
      (after.note (.damageToPlayers record.damageToPlayers))
    dsimp only
    rw [isEvents, append_assoc, append_assoc, ← append_assoc (new.map _)]
    refine .complete ?_
    have all := (writes.trans ((Writes.note _).trans fired)).trans (Writes.view
      (invalidateLoopRing_flags _ record.livesBefore))
    rwa [append_nil] at all

/-- The totals are those of the hits. -/
structure AppliedHits (before : View engine.Rest engine.Prompt) (applied : Applied engine) :
    Prop where
  totals : applied.totals = totalsOf applied.hits
  flags : applied.view.flags = before.flags

variable {applied : Applied engine} {before : View engine.Rest engine.Prompt}

theorem applySurvivor_spec (entry : BatchEntry engine.Details) (survivor : Option engine.Proposed)
    (sound : AppliedHits before applied) :
    AppliedHits before (applySurvivor entry survivor applied) := by
  unfold applySurvivor
  refine ⟨?_, ?_⟩
  · rw [totalsOf_concat, sound.totals]
  · cases survivor with
    | none => exact sound.flags
    | some proposed =>
      dsimp only
      obtain ⟨result, new, next⟩ :=
        engine.applyDamageAfterReplacement applied.view entry.ctx proposed
      cases result with
      | applied amount => exact next.2.trans sound.flags
      | needsChoice => exact next.2.trans sound.flags

theorem applySurvivors_spec (entries : List (BatchEntry engine.Details × Option engine.Proposed))
    (sound : AppliedHits before applied) : AppliedHits before (applySurvivors entries applied) := by
  induction entries generalizing applied with
  | nil => exact sound
  | cons entry rest ih => exact ih (applySurvivor_spec entry.1 entry.2 sound)

section
variable {E : Type} (batch : DealtBatch E)

def DealtBatch.owed : List PendingLifelinkGain := (totalsOf batch.hits).gains

def DealtBatch.damageToPlayers : List (GameEvent E) :=
  (totalsOf batch.hits).damageToPlayers E

end

/-- The record of a batch that has just been dealt. -/
structure Deals (before : Game engine) (subStep : CombatDamageSubStep)
    (batch : DealtBatch engine.Event) (after : Game engine)
    (record : PendingCombatLifelink engine.Event) : Prop where
  subStep : batch.subStep = subStep ∧ record.subStep = subStep
  keys : (batch.prevented.map (·.1)).Nodup
  new : batch.deeds = []
  pending : after.pendingCombatLifelink = before.pendingCombatLifelink
  events : after.events = before.events
  flags : after.view.flags = before.view.flags
  history : after.history = batch :: before.history
  remaining : record.remaining = batch.owed
  damageToPlayers : record.damageToPlayers = batch.damageToPlayers
  preventionTally : record.preventionTally = batch.prevented
  plain : ∃ new, record.batchEvents = map .plain new

theorem applyCombatDamage_spec (game : Game engine)
    (assignments : List (ObjectId × DamageAssignment)) (subStep : CombatDamageSubStep) :
    ∃ batch after record, Drained after record (applyCombatDamage game assignments subStep) ∧
      Deals game subStep batch after record := by
  have sound : ∀ entries events, (next : game.view.Next) → AppliedHits game.view
      (applySurvivors entries ⟨next.1, events, {}, []⟩) :=
    fun entries _ next => applySurvivors_spec entries ⟨rfl, next.2⟩
  have keys : ∀ tally : AList fun _ : AppliedReplacementKey => Int,
      ((tally.entries.map fun entry => (entry.1, entry.2)).map (·.1)).Nodup := by
    intro tally
    rw [map_map]
    exact tally.nodupKeys
  exact ⟨⟨subStep, _, _, []⟩, _, _, drainCombatLifelink_spec _ _, ⟨rfl, rfl⟩,
    ((perm_insertionSort _ _).map _).nodup_iff.mpr (keys _), rfl, rfl, rfl, (sound _ _ _).flags,
    rfl, congrArg BatchTotals.gains (sound _ _ _).totals,
    congrArg (BatchTotals.damageToPlayers engine.Event) (sound _ _ _).totals, rfl, _, rfl⟩

/-- The flag of the sub-step is set, and nothing else is done about the batch. -/
structure Finished (before after : Game engine) (subStep : CombatDamageSubStep) : Prop where
  pending : after.pendingCombatLifelink = before.pendingCombatLifelink
  events : ∃ new, after.events = before.events ++ map .plain new
  flags : after.view.flags = before.view.flags.map subStep.setFlag
  history : after.history = before.history.modifyHead fun batch =>
    { batch with deeds := batch.deeds ++ [.subStepDone subStep] }

theorem finish_flags (board : GameState) (subStep : CombatDamageSubStep) :
    (board.updateCombat (·.finish subStep)).damageFlags =
      board.damageFlags.map subStep.setFlag := by
  unfold GameState.updateCombat GameState.damageFlags
  rw [Option.map_map, Option.map_map]
  cases subStep <;> rfl

theorem Finished.view {before after : Game engine} {subStep : CombatDamageSubStep}
    (finished : Finished before after subStep) {view : View engine.Rest engine.Prompt}
    (keeps : view.flags = after.view.flags) : Finished before (after.setView view) subStep :=
  ⟨finished.pending, finished.events, keeps.trans finished.flags, finished.history⟩

theorem finishCombatDamageSubStep_spec {game : Game engine} (isCombat : game.view.flags.isSome)
    (subStep : CombatDamageSubStep) (damageEvents : List (GameEvent engine.Event)) :
    Finished game (finishCombatDamageSubStep game subStep damageEvents).2 subStep := by
  have done : ∀ include_, Finished game
      (processTriggers (game.setDone subStep) damageEvents include_) subStep := by
    intro include_
    have keeps := (engine.processCombatDamageTriggers (game.setDone subStep).view damageEvents
      include_).2.2
    cases isSome : game.view.board.combat with
    | none => simp [View.flags, GameState.damageFlags, isSome] at isCombat
    | some combat =>
      have isDone : game.setDone subStep =
          (game.setView (game.view.setBoard (game.view.board.updateCombat
            (·.finish subStep)))).note (.subStepDone subStep) := by
        unfold Game.setDone
        rw [isSome]
      refine ⟨by rw [isDone]; rfl, ⟨_, by rw [isDone]; rfl⟩, keeps.trans ?_, by rw [isDone]; rfl⟩
      rw [isDone]
      exact finish_flags game.view.board subStep
  unfold finishCombatDamageSubStep
  dsimp only
  split
  · exact done _
  · cases subStep with
    | regular => exact done _
    | firstStrike =>
      dsimp only
      split
      · exact done _
      · exact (done _).view (engine.resetPriority _).2

end Phase.Combat
