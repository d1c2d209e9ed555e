import Mathlib.Data.List.TakeWhile
import Phase.Takeback.Rings

/-! Every move of a run keeps the points of the ledger on the branch of the live state. -/
namespace Phase.Takeback
open Branch List TakebackLedger

section
variable {S : Type}

/-- A target lies on the branch of the live state, and what its vote keeps of the rings lies
before it. -/
structure Targets (game : Game S) (history : List (TakebackPoint (Live S)))
    (turns : List (TurnPoint (Live S))) (number : Nat) (live : Live S)
    (pending : PendingTakeback (Live S)) : Prop where
  onBranch : OnBranch pending.targetState live
  turn : game.traced.turnNumber pending.targetState ≤ game.traced.turnNumber live
  current : game.traced.gameNumber pending.targetState = number
  points : ∀ p ∈ history.take pending.historyTruncateLen, ActedTo p pending.targetState ∧
    game.traced.turnNumber p.state ≤ game.traced.turnNumber pending.targetState
  turns : ∀ t ∈ turns, game.traced.turnNumber t.state ≤ game.traced.turnNumber pending.targetState →
      OnBranch t.state pending.targetState

structure Ancestral (game : Game S) (table : Table (Live S)) : Prop where
  rings : Rings game table.ledger.history table.ledger.turnPoints table.ledger.gameNumber
    table.state
  current : game.traced.gameNumber table.state = table.ledger.gameNumber
  vote : ∀ pending, table.ledger.pending = some pending → Targets game table.ledger.history
    table.ledger.turnPoints table.ledger.gameNumber table.state pending

variable {game : Game S} {history : List (TakebackPoint (Live S))}
  {turns : List (TurnPoint (Live S))} {number : Nat} {pre post : Live S} {deed : Deed}
  {events : List GameEvent} {ledger : TakebackLedger (Live S)} {table restored : Table (Live S)}
  {pending : PendingTakeback (Live S)} {aiSeats : List PlayerId}

theorem Targets.moved (targets : Targets game history turns number pre pending)
    (left : LeftBy deed pre post)
    (grows : game.traced.turnNumber pre ≤ game.traced.turnNumber post) :
    Targets game history turns number post pending where
  onBranch := .inr (targets.onBranch.before ⟨deed, left⟩)
  turn := targets.turn.trans grows
  current := targets.current
  points := targets.points
  turns := targets.turns

/-- The rings once the state has moved on and before the ledger has seen it. -/
structure Arriving (game : Game S) (ledger : TakebackLedger (Live S)) (pre post : Live S) :
    Prop where
  rings : Rings game ledger.history ledger.turnPoints ledger.gameNumber post
  points : ∀ p ∈ ledger.history, game.traced.turnNumber p.state ≤ game.traced.turnNumber pre
  turns : ∀ t ∈ ledger.turnPoints, OnBranch t.state pre ∧
    game.traced.turnNumber t.state ≤ game.traced.turnNumber pre

variable {T : Type} {player actor : PlayerId} {picked : Live S × Nat × Nat}

variable {view : GameView T}

theorem observe_of_ne {ledger : TakebackLedger T} {state : T}
    (differs : view.gameNumber state ≠ ledger.gameNumber) :
    ledger.observeTransition view events state =
      ({ ledger with clock := ledger.clock + 1
                     gameNumber := view.gameNumber state }.retire).recordTurnPoint view events
        state := by
  simp only [observeTransition, if_pos differs]

theorem observe_of_eq {ledger : TakebackLedger T} {state : T}
    (same : view.gameNumber state = ledger.gameNumber) :
    ledger.observeTransition view events state =
      { ledger with clock := ledger.clock + 1 }.recordTurnPoint view events state := by
  simp only [observeTransition, if_neg (not_not.mpr same)]

/-- A transition within the game keeps the rings and an open vote's target. -/
theorem Arriving.observe (arriving : Arriving game ledger pre post)
    (step : game.traced.Step pre deed events post)
    (preCurrent : game.traced.gameNumber pre = ledger.gameNumber)
    (same : game.traced.gameNumber post = ledger.gameNumber)
    (vote : ∀ pending, ledger.pending = some pending →
      Targets game ledger.history ledger.turnPoints ledger.gameNumber pre pending) :
    Ancestral game ⟨post, ledger.observeTransition game.traced.toGameView events post⟩ := by
  have left : LeftBy deed pre post := leftBy_of_step step
  have unchanged := same.trans preCurrent.symm
  have grows := game.traced.turn_grows step unchanged
  have starts (announced : .turnStarted (game.traced.turnNumber post) ∈ events) :
      game.traced.turnNumber pre < game.traced.turnNumber post :=
    game.traced.turn_announced step unchanged announced
  rw [observe_of_eq same]
  refine ⟨?_, ?_, fun pending isVote => ?_⟩
  · refine Rings.recordTurn arriving.rings (fun announced => ⟨fun p mem => ?_, fun t mem => ?_⟩) same
    · exact (arriving.points p mem).trans_lt (starts announced)
    · obtain ⟨on, turn⟩ := arriving.turns t mem
      exact ⟨on.before ⟨deed, left⟩, turn.trans_lt (starts announced)⟩
  · rw [recordTurnPoint_gameNumber]
    exact same
  · rw [recordTurnPoint_pending] at isVote
    have old := (vote pending isVote).moved left grows
    rw [recordTurnPoint_history, recordTurnPoint_gameNumber]
    refine ⟨old.onBranch, old.turn, old.current, old.points, fun t mem turn => ?_⟩
    rcases @recordTurnPoint_turns events _ game.traced.toGameView
      { ledger with clock := ledger.clock + 1 } post with fewer | ⟨announced, fewer⟩
    · exact old.turns t (fewer.subset mem) turn
    · rcases mem_append.mp (fewer.subset mem) with was | new
      · exact old.turns t was turn
      · cases mem_singleton.mp new
        have earlier := turn.trans (vote pending isVote).turn
        exact absurd earlier (not_le.mpr (starts announced))

theorem retire_turnPoints (ledger : TakebackLedger T) : ledger.retire.turnPoints = [] := by
  unfold turnPoints retire
  cases ledger.turnHistory <;> rfl

/-- Rings that were retired hold at most the state that starts a turn. -/
theorem Ancestral.retired (quiet : ledger.pending = none)
    (current : game.traced.gameNumber post = ledger.gameNumber) :
    Ancestral game ⟨post, ledger.retire.recordTurnPoint game.traced.toGameView events post⟩ := by
  have turns := retire_turnPoints ledger
  refine ⟨?_, ?_, fun pending isVote => ?_⟩
  · refine Rings.recordTurn ?_ (fun _ => ⟨nofun, fun t mem => ?_⟩) current
    · rw [turns]
      exact Rings.empty ..
    · rw [turns] at mem
      cases mem
  · rw [recordTurnPoint_gameNumber]
    exact current
  · rw [recordTurnPoint_pending] at isVote
    cases quiet.symm.trans isVote

/-- A new game starts with empty rings. -/
theorem observe_new_game (differs : game.traced.gameNumber post ≠ ledger.gameNumber)
    (quiet : ledger.pending = none) :
    Ancestral game ⟨post, ledger.observeTransition game.traced.toGameView events post⟩ := by
  rw [observe_of_ne differs]
  exact Ancestral.retired quiet rfl

/-- So does the game after a departure. -/
theorem observe_departure :
    Ancestral game ⟨post, ledger.observeMatchForfeit.2.observeTransition game.traced.toGameView
      events post⟩ := by
  by_cases same : game.traced.gameNumber post = ledger.observeMatchForfeit.2.gameNumber
  · rw [observe_of_eq same]
    exact @Ancestral.retired _ game post events { ledger with
      pending := none, clock := ledger.clock + 1 } rfl same
  · exact observe_new_game same rfl

/-- What an approved vote keeps lies before the state it restores. -/
theorem Ancestral.restore (ancestral : Ancestral game table)
    (resolves : table.tryResolve game.traced.toGameView aiSeats = some restored) :
    Ancestral game restored := by
  obtain ⟨pending, vote, -, isState, isLedger⟩ := tryResolve_some resolves
  have targets := ancestral.vote pending vote
  have left : LeftBy .restored pending.targetState restored.state := by
    rw [isState]
    exact leftBy_resume ..
  have turn : game.traced.turnNumber restored.state =
      game.traced.turnNumber pending.targetState := by
    rw [isState]
    exact game.traced.install_turn ..
  have number : game.traced.gameNumber restored.state = table.ledger.gameNumber := by
    rw [isState]
    exact (game.traced.install_game ..).trans targets.current
  have isTurns := tryResolve_turnPoints resolves
  have kept := ancestral.rings.sublist (take_sublist pending.historyTruncateLen _)
    (filter_sublist (p := fun point => decide (game.traced.turnNumber point.state ≤
      game.traced.turnNumber restored.state)))
  refine ⟨⟨?_, ?_, ?_, ?_, ?_⟩, ?_, ?_⟩
  · rw [isLedger]
    exact kept.history_order
  · rw [isLedger]
    intro p mem
    obtain ⟨acted, earlier⟩ := targets.points p mem
    refine ⟨acted.trans (.inr ⟨_, left⟩), ?_, (kept.history_live p mem).2.2⟩
    rw [turn]
    exact earlier
  · rw [isTurns]
    exact kept.turns_order
  · rw [isTurns]
    intro t mem
    obtain ⟨was, earlier⟩ := mem_filter.mp mem
    have earlier := of_decide_eq_true earlier
    refine ⟨.inr ?_, earlier, ?_⟩
    · exact (targets.turns t was (turn ▸ earlier)).before ⟨_, left⟩
    · rw [isLedger]
      exact (kept.turns_live t mem).2.2
  · rw [isTurns, isLedger]
    exact kept.crossing
  · rw [isLedger]
    exact number
  · rw [isLedger]
    exact fun _ vote => nomatch vote

/-- The last point of this player, with the points before it. -/
theorem pick_lastAction {ledger : TakebackLedger T} {picked : T × Nat × Nat}
    (picks : ledger.pick view player .lastAction = .ok picked) :
    ∃ before point after, ledger.history = before ++ point :: after ∧ point.actor = player ∧
      (∀ later ∈ after, later.actor ≠ player) ∧
      picked = (point.state, point.made, before.length) := by
  unfold pick at picks
  dsimp only at picks
  split at picks
  · cases picks
  · next point index found =>
    cases picks
    obtain ⟨isActor, behind, front, isReverse, others⟩ := find?_eq_some_iff_append.mp found
    have order : ledger.history.zipIdx = front.reverse ++ (point, index) :: behind.reverse := by
      rw [← reverse_reverse ledger.history.zipIdx, isReverse]
      simp
    have isIndex : index = front.length := by
      have there : ledger.history.zipIdx[front.length]? = some (point, index) := by
        rw [order]
        simp
      rw [getElem?_zipIdx] at there
      obtain ⟨_, _, same⟩ := Option.map_eq_some_iff.mp there
      have := congrArg Prod.snd same
      simpa using this.symm
    refine ⟨front.reverse.map (·.1), point, behind.reverse.map (·.1), ?_, by simpa using isActor,
      ?_, ?_⟩
    · have mapped := congrArg (List.map Prod.fst) order
      simpa using mapped
    · intro later mem
      obtain ⟨entry, isBehind, rfl⟩ := mem_map.mp mem
      simpa using others entry (mem_reverse.mp isBehind)
    · simp [isIndex]

theorem pick_turnStart {ledger : TakebackLedger T} {turnNumber : Nat} {picked : T × Nat × Nat}
    (picks : ledger.pick view player (.turnStart turnNumber) = .ok picked) :
    ∃ point ∈ ledger.turnPoints, view.turnNumber point.state = turnNumber ∧
      picked = (point.state, point.made, (ledger.history.takeWhile fun entry =>
        view.turnNumber entry.state < turnNumber).length) := by
  unfold pick at picks
  dsimp only at picks
  split at picks
  · cases picks
  · next ring isRing =>
    split at picks
    · cases picks
    · next point found =>
      cases picks
      refine ⟨point, ?_, by simpa using find?_some found, rfl⟩
      rw [turnPoints, isRing]
      exact mem_of_find?_eq_some found

/-- The points before a player's last action, and the turns up to it, lie on its branch. -/
theorem Ancestral.targets_lastAction (ancestral : Ancestral game table)
    (picks : table.ledger.pick game.traced.toGameView player .lastAction = .ok picked)
    (isTarget : pending.targetState = picked.1)
    (isLength : pending.historyTruncateLen = picked.2.2) :
    Targets game table.ledger.history table.ledger.turnPoints table.ledger.gameNumber table.state
      pending := by
  obtain ⟨before, point, after, isHistory, -, -, rfl⟩ := pick_lastAction picks
  have mem : point ∈ table.ledger.history := by simp [isHistory]
  obtain ⟨⟨action, left⟩, turn, number⟩ := ancestral.rings.history_live point mem
  have on : OnBranch point.state table.state := .inr ⟨_, left⟩
  refine ⟨?_, ?_, ?_, fun p kept => ?_, fun t there earlier => ?_⟩
  · rw [isTarget]
    exact on
  · rw [isTarget]
    exact turn
  · rw [isTarget]
    exact number
  · rw [isLength, isHistory, take_left] at kept
    rw [isTarget]
    have order := ancestral.rings.history_order
    rw [isHistory] at order
    exact (pairwise_append.mp order).2.2 p kept point mem_cons_self
  · rw [isTarget] at earlier ⊢
    have notLater := mt (ancestral.rings.crossing point mem t there).mpr (not_lt.mpr earlier)
    exact (ancestral.rings.turns_live t there).1.of_length on (not_lt.mp notLater)

theorem Rings.turn_before {live : Live S} (rings : Rings game history turns number live)
    {t u : TurnPoint (Live S)} (memT : t ∈ turns) (memU : u ∈ turns)
    (earlier : game.traced.turnNumber t.state ≤ game.traced.turnNumber u.state) :
    OnBranch t.state u.state := by
  obtain ⟨i, insideT, rfl⟩ := mem_iff_getElem.mp memT
  obtain ⟨j, insideU, rfl⟩ := mem_iff_getElem.mp memU
  have order := pairwise_iff_getElem.mp rings.turns_order
  rcases Nat.lt_trichotomy i j with below | rfl | above
  · exact .inr (order i j insideT insideU below).1
  · exact .inl rfl
  · exact absurd (order j i insideU insideT above).2 (not_lt.mpr earlier)

theorem Ancestral.targets_turnStart (ancestral : Ancestral game table) {turnNumber : Nat}
    (picks : table.ledger.pick game.traced.toGameView player (.turnStart turnNumber) = .ok picked)
    (isTarget : pending.targetState = picked.1)
    (isLength : pending.historyTruncateLen = picked.2.2) :
    Targets game table.ledger.history table.ledger.turnPoints table.ledger.gameNumber table.state
      pending := by
  obtain ⟨point, mem, rfl, rfl⟩ := pick_turnStart picks
  obtain ⟨on, turn, number⟩ := ancestral.rings.turns_live point mem
  refine ⟨?_, ?_, ?_, fun p kept => ?_, fun t there earlier => ?_⟩
  · rw [isTarget]
    exact on
  · rw [isTarget]
    exact turn
  · rw [isTarget]
    exact number
  · rw [isLength, ← prefix_iff_eq_take.mp (List.takeWhile_prefix _)] at kept
    rw [isTarget]
    have below : game.traced.turnNumber p.state < game.traced.turnNumber point.state := by
      simpa using mem_takeWhile_imp kept
    have was := takeWhile_subset _ kept
    obtain ⟨⟨action, left⟩, -⟩ := ancestral.rings.history_live p was
    have shorter := (ancestral.rings.crossing p was point mem).mp below
    exact ⟨⟨action, left.of_length on shorter⟩, below.le⟩
  · rw [isTarget] at earlier ⊢
    exact ancestral.rings.turn_before there mem earlier

theorem Ancestral.voting (ancestral : Ancestral game table) {player : PlayerId}
    {target : RewindTarget} {picked : Live S × Nat × Nat}
    (picks : table.ledger.pick game.traced.toGameView player target = .ok picked) :
    Ancestral game (table.voting player picked) where
  rings := ancestral.rings
  current := ancestral.current
  vote pending isVote := by
    cases isVote
    cases target with
    | lastAction => exact ancestral.targets_lastAction picks rfl rfl
    | turnStart turnNumber => exact ancestral.targets_turnStart picks rfl rfl

/-- A concession that removes no one stays in its game while a vote is open. -/
def KeepsGame {T : Type} (view : GameView T) (table : Table T) : Move T → Prop
  | .act _ _ _ _ post => table.ledger.pending.isSome = true →
      ¬Departs view table.state post → view.gameNumber post = view.gameNumber table.state
  | _ => True

theorem Ancestral.arrives (ancestral : Ancestral game table)
    (step : game.traced.Step table.state deed events post)
    (same : game.traced.gameNumber post = game.traced.gameNumber table.state) :
    Arriving game table.ledger table.state post where
  rings := ancestral.rings.moved (leftBy_of_step step) (game.traced.turn_grows step same)
  points p mem := (ancestral.rings.history_live p mem).2.1
  turns t mem := ⟨(ancestral.rings.turns_live t mem).1, (ancestral.rings.turns_live t mem).2.1⟩

theorem Ancestral.arriving (ancestral : Ancestral game table) {action : GameAction}
    {result : ActionResult} (quiet : table.ledger.pending = none)
    (step : game.traced.Step table.state (.acted actor action result.applied) events post)
    (same : game.traced.gameNumber post = table.ledger.gameNumber) :
    Arriving game (table.ledger.recordAction actor action result table.state) table.state post := by
  have left : LeftBy _ table.state post := leftBy_of_step step
  have unchanged := same.trans ancestral.current.symm
  have grows := game.traced.turn_grows step unchanged
  have old := ancestral.arrives step unchanged
  unfold recordAction recordPoint
  split
  · next recorded =>
    rw [recorded.2] at left
    rw [if_neg (by simp [quiet])]
    refine ⟨?_, fun p mem => ?_, old.turns⟩
    · exact (ancestral.rings.point left grows ancestral.current).sublist
        (pushBounded_sublist ..) (.refl _)
    · rcases mem_append.mp ((pushBounded_sublist ..).subset mem) with was | new
      · exact old.points p was
      · cases mem_singleton.mp new
        exact le_rfl
  · exact old

theorem Ancestral.moved (ancestral : Ancestral game table)
    (step : game.traced.Step table.state deed events post)
    (same : game.traced.gameNumber post = game.traced.gameNumber table.state) :
    Ancestral game { table with state := post } where
  rings := ancestral.rings.moved (leftBy_of_step step) (game.traced.turn_grows step same)
  current := same.trans ancestral.current
  vote pending isVote := (ancestral.vote pending isVote).moved (leftBy_of_step step)
    (game.traced.turn_grows step same)

theorem Arriving.noted (arriving : Arriving game ledger pre post) :
    Arriving game (ledger.noteConcession actor) pre post :=
  ⟨arriving.rings, arriving.points, arriving.turns⟩

theorem Arriving.withVote (arriving : Arriving game ledger pre post)
    (pending : Option (PendingTakeback (Live S))) : Arriving game { ledger with pending } pre post :=
  ⟨arriving.rings, arriving.points, arriving.turns⟩

theorem Ancestral.acted (ancestral : Ancestral game table) {actor : PlayerId}
    {action : GameAction} {result : ActionResult} (quiet : table.ledger.pending = none)
    (step : game.traced.Step table.state (.acted actor action result.applied) events post) :
    Ancestral game ⟨post, (let ledger := table.ledger.recordAction actor action result table.state
      if action = .concede then ledger.noteConcession actor
        else ledger).observeTransition game.traced.toGameView events post⟩ := by
  have noVote : (table.ledger.recordAction actor action result table.state).pending = none :=
    recordAction_pending.trans quiet
  have number : (table.ledger.recordAction actor action result table.state).gameNumber =
      table.ledger.gameNumber := recordAction_gameNumber
  have arrives := fun same => ancestral.arriving quiet step same
  generalize table.ledger.recordAction actor action result table.state = ledger at *
  have current := ancestral.current.trans number.symm
  have none_ {ledger : TakebackLedger (Live S)} (noVote : ledger.pending = none)
      (pending : PendingTakeback (Live S)) (isVote : ledger.pending = some pending) :
      Targets game ledger.history ledger.turnPoints ledger.gameNumber table.state pending := by
    rw [noVote] at isVote
    cases isVote
  by_cases same : game.traced.gameNumber post = ledger.gameNumber
  · have arriving := arrives (same.trans number)
    by_cases concede : action = .concede
    · simp only [if_pos concede]
      exact arriving.noted.observe step current same (none_ noVote)
    · simp only [if_neg concede]
      exact arriving.observe step current same (none_ noVote)
  · by_cases concede : action = .concede
    · simp only [if_pos concede]
      exact observe_new_game same noVote
    · simp only [if_neg concede]
      exact observe_new_game same noVote

theorem Ancestral.play (ancestral : Ancestral game table) {move : Move (Live S)}
    (admitted : game.traced.Admits table move)
    (keeps : KeepsGame game.traced.toGameView table move) :
    Ancestral game (table.play game.traced.toGameView aiSeats move).2 := by
  have played := @play_played _ game.traced.toGameView aiSeats table move
  generalize table.play game.traced.toGameView aiSeats move = answer at played
  cases played with
  | refused => exact ancestral
  | acted quiet stays => exact ancestral.acted quiet admitted
  | departed | forfeited => exact observe_departure
  | @selfConceded actor known result post pending vote stays requester =>
    have same := keeps (by simp [vote]) stays
    have arriving : Arriving game { table.ledger.noteConcession actor with pending := none }
        table.state post := (ancestral.arrives admitted same).noted.withVote none
    exact arriving.observe admitted ancestral.current (same.trans ancestral.current) nofun
  | held vote stays other waits =>
    have same := keeps (by simp [vote]) stays
    exact (ancestral.arrives admitted same).noted.observe admitted ancestral.current
      (same.trans ancestral.current) ancestral.vote
  | @installed actor known result post pending restored vote stays other resolves =>
    have same := keeps (by simp [vote]) stays
    have there := ancestral.moved admitted same
    have noted : Ancestral game ⟨post, table.ledger.noteConcession actor⟩ :=
      ⟨there.rings, there.current, there.vote⟩
    have after := noted.restore resolves
    exact ⟨after.rings, after.current, after.vote⟩
  | @driven events post =>
    obtain ⟨quiet, step⟩ := admitted
    by_cases same : game.traced.gameNumber post = table.ledger.gameNumber
    · have unchanged := same.trans ancestral.current.symm
      exact (ancestral.arrives step unchanged).observe step ancestral.current same ancestral.vote
    · exact observe_new_game same quiet
  | requested quiet human picks settled =>
    rcases settle_cases settled with ⟨-, rfl, -⟩ | ⟨-, resolves⟩
    · exact ancestral.voting picks
    · exact (ancestral.voting picks).restore resolves
  | @answered player pending outcome after vote voter settled =>
    have old := ancestral.vote pending vote
    have approved : Ancestral game (table.approvedBy pending player) := by
      refine ⟨ancestral.rings, ancestral.current, fun other isVote => ?_⟩
      cases isVote
      exact ⟨old.onBranch, old.turn, old.current, old.points, old.turns⟩
    rcases settle_cases settled with ⟨-, rfl, -⟩ | ⟨-, resolves⟩
    · exact approved
    · exact approved.restore resolves
  | declined | cancelled => exact ⟨ancestral.rings, ancestral.current, nofun⟩

end

end Phase.Takeback
