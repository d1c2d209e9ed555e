import Phase.Combat.Lifelink

/-! What a batch of combat damage comes to, wherever it is suspended and whichever door it is
resumed by. -/
namespace Phase.Combat
open List

variable {engine : Engine}

/-- How the deeds of a batch end: it is completed, abandoned with its step, or still suspended with
something left. -/
inductive DealtBatch.Ends (game : Game engine) (batch : DealtBatch engine.Event)
    (left : List PendingLifelinkGain) : List (Deed engine.Event) → Prop
  | completed (none_ : left = []) :
      Ends game batch left (.damageToPlayers batch.damageToPlayers :: riders batch.prevented ++
        [.subStepDone batch.subStep])
  | abandoned : Ends game batch left [.abandoned]
  | suspended {record : PendingCombatLifelink engine.Event}
      (isSuspended : game.pendingCombatLifelink = some record)
      (isLatest : game.history.head? = some batch) (isLeft : record.remaining = left) :
      Ends game batch left []

/-- Every gain is handed over, forfeited by a player who left, or left, in the order it is owed; the
damage of players, the riders and the flag come after the last gain. -/
structure DealtBatch.Accounted (game : Game engine) (batch : DealtBatch engine.Event)
    (settled ending : List (Deed engine.Event)) (forfeited left : List PendingLifelinkGain) :
    Prop where
  deeds : batch.deeds = settled ++ ending
  ends : batch.Ends game left ending
  settling : ∀ deed ∈ settled, (∃ gain, deed = .gain gain) ∨ ∃ player, deed = .left player
  all : batch.owed.Perm (settled.filterMap Deed.handed ++ forfeited ++ left)
  order : (settled.filterMap Deed.handed ++ left).Sublist batch.owed
  forfeits : ∀ gain ∈ forfeited, Deed.left gain.controller ∈ settled

/-- What is owed: one gain for each lifelink source and one event for each player. -/
structure DealtBatch.Owes (batch : DealtBatch engine.Event) : Prop where
  gains : ∃ entries, LifelinkTotals batch.hits entries ∧
    batch.owed = entries.map fun entry => ⟨entry.controller, entry.total⟩
  events : ∃ entries, PlayerTotals batch.hits entries ∧
    Forall₂ (fun entry event => ∃ incarnations, event =
      GameEvent.combatDamageDealtToPlayer entry.player entry.sources entry.total incarnations)
      entries batch.damageToPlayers
  shields : (batch.prevented.map (·.1)).Nodup

variable {game : Game engine} {base : List (GameEvent engine.Event)}

theorem DealtBatch.Ended.accounted {batch : DealtBatch engine.Event} (ended : batch.Ended) :
    ∃ settled ending forfeited left, batch.Accounted game settled ending forfeited left := by
  cases ended with
  | completed settles is =>
    obtain ⟨forfeited, all, order, theirs⟩ := settles.accounts
    exact ⟨_, _, forfeited, [], is, .completed rfl, settles.deed, all, order, theirs⟩
  | abandoned settles is =>
    obtain ⟨forfeited, all, order, theirs⟩ := settles.accounts
    exact ⟨_, _, forfeited, _, is, .abandoned, settles.deed, all, order, theirs⟩

theorem Sound.accounted (sound : Sound base game) : ∀ batch ∈ game.history,
      ∃ settled ending forfeited left, batch.Accounted game settled ending forfeited left := by
  cases isPending : game.pendingCombatLifelink with
  | none => exact fun batch isBatch => (sound.ended isPending batch isBatch).accounted
  | some record =>
    obtain ⟨latest, earlier, isHistory, isSuspended, ended⟩ := sound.latest isPending
    rw [isHistory]
    refine forall_mem_cons.mpr ⟨?_, fun batch isBatch => (ended batch isBatch).accounted⟩
    obtain ⟨forfeited, all, order, theirs⟩ := isSuspended.settles.accounts
    have isLatest : game.history.head? = some latest := by rw [isHistory]; rfl
    exact ⟨_, [], forfeited, _, (append_nil _).symm,
      .suspended isPending isLatest rfl, isSuspended.settles.deed, all, order, theirs⟩

theorem Sound.owes (sound : Sound base game) : ∀ batch ∈ game.history, batch.Owes := by
  refine fun batch isBatch => ⟨⟨_, totalsOf_lifelink batch.hits, rfl⟩,
    ⟨_, totalsOf_players batch.hits, ?_⟩, sound.keys batch isBatch⟩
  unfold DealtBatch.damageToPlayers BatchTotals.damageToPlayers
  rw [forall₂_map_right_iff]
  exact forall₂_same.mpr fun entry _ => ⟨_, rfl⟩

def tradeEngine : Engine where
  Rest := Bool
  Prompt := Unit
  Event := Unit
  Details := Unit
  Proposed := UInt32
  Rider := Unit
  isCommander _ _ := false
  fromSource view id :=
    (view.board.object id).map fun object => ⟨id, object.controller, none, true, ()⟩
  lkiController _ _ := none
  noDetails := ()
  preReplacementDamageGate _ _ _ amount := ([], some (UInt32.ofNat amount))
  replaceCombatDamageBatch view proposed := (proposed.map some, ∅, [], ⟨view, rfl⟩)
  applyDamageAfterReplacement view _ amount := (.applied amount, [], ⟨view, rfl⟩)
  applyLifeGain view _ amount :=
    if view.rest then (.ok amount, [], ⟨view, rfl⟩)
    else (.error .replacementChoice, [], ⟨{ view with rest := true, waitingFor := .other () }, rfl⟩)
  isShieldCounter _ := false
  consumeShieldCounter view _ := ([], ⟨view, rfl⟩)
  replacementDefinition _ _ := none
  resolveRider view _ _ := ([], ⟨view, rfl⟩)
  lives _ := []
  clearLoopDetectWindow view := ⟨view, rfl⟩
  processCombatDamageTriggers view _ _ := ([], ⟨view, rfl⟩)
  stackIsEmpty _ := true
  resetPriority view := ⟨view, rfl⟩
  claimEvents view _ _ := ⟨view, rfl⟩
  recordStepBegin view := ⟨view, rfl⟩

def tradeAttackers : List AttackerInfo := [⟨1, 1, .player 1, true⟩]

def trade : Game tradeEngine where
  view :=
    { board :=
        { objects := [{ id := 1, controller := 0, power := some 3, toughness := some 3 },
            { id := 2, controller := 1, power := some 2, toughness := some 2 }]
          players := [{ id := 0 }, { id := 1 }]
          activePlayer := 0
          combat := some
            { attackers := tradeAttackers
              blockerAssignments := AList.insert 1 [2] ∅
              blockerToAttacker := AList.insert 2 [1] ∅ } }
      waitingFor := .priority 0
      commanderDamage := []
      rest := false }
  pendingCombatLifelink := none
  events := []
  history := []

def tradeBatch (deeds : List (Deed Unit)) : DealtBatch Unit :=
  ⟨.regular, [⟨1, none, some 0, .object 2, 3⟩, ⟨2, none, some 1, .object 1, 2⟩], [], deeds⟩

def tradeSuspended : Game tradeEngine := (resolveCombatDamage trade).2

theorem trade_suspends : LifelinkRun trade tradeSuspended := .resolve .start rfl

def tradeAnswered : Game tradeEngine :=
  (resumePendingCombatLifelink
    (tradeSuspended.setView (tradeSuspended.view.setWaiting (.priority 0))) 0).2

/-- The answer leaves nothing to ask. -/
def tradeInner (game : Game tradeEngine) : Except String (WaitingFor Unit × Game tradeEngine) :=
  .ok (.priority 0, game)

theorem trade_answered : LifelinkRun trade tradeAnswered := by
  have isElsewhere : ∀ waitingFor between, tradeInner tradeSuspended = .ok (waitingFor, between) →
      Relation.ReflTransGen Elsewhere tradeSuspended between := by
    rintro _ _ ⟨⟩
    exact .refl
  have answered : handleReplacementChoice tradeInner tradeSuspended =
      .ok (.priority 0, tradeAnswered) := rfl
  exact .answer trade_suspends isElsewhere answered

/-- The second player leaves before the batch is resumed. -/
def tradeLeft : Game tradeEngine :=
  let left := dropOwedGains tradeSuspended 1
  (resolveCombatDamage (left.setView (left.view.setWaiting (.priority 0)))).2

theorem trade_left : LifelinkRun trade tradeLeft := by
  have left : LifelinkRun trade (dropOwedGains tradeSuspended 1) :=
    .elsewhere trade_suspends (.leaves 1)
  have settled : LifelinkRun trade ((dropOwedGains tradeSuspended 1).setView
      ((dropOwedGains tradeSuspended 1).view.setWaiting (.priority 0))) :=
    .elsewhere left (.moves rfl)
  exact .resolve settled rfl

end Phase.Combat
