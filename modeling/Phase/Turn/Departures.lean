import Phase.Turn.Projection

/-! Players leave while turns wait for them: who is still in the game when a turn begins. -/
namespace Phase.TurnOrder
open Priority List

/-- `apply_resolved_player_leave` for a player who is in the game. -/
def markEliminated (table : Table) (player : PlayerId) : Table :=
  match table.players.findIdx? fun seat => seat.id = player with
  | none => table
  | some index => { table with
      players := table.players.modify index fun seat => { seat with isEliminated := true } }

namespace ControlledGame

/-- Every control effect of the player who leaves, or on their team's turn, ends. -/
def releaseDeparting (state : ControlledGame) (player leaving : PlayerId) : ControlledGame :=
  match _released : (state.scheduledTurnControls.findIdx? fun scheduled =>
      scheduled.controller = player || scheduled.targetPlayer = leaving).bind
        state.releaseControlAt with
  | none => state
  | some (released, _) => releaseDeparting released player leaving
termination_by state.scheduledTurnControls.length
decreasing_by
  obtain ⟨idx, -, ok⟩ := Option.bind_eq_some_iff.mp _released
  have fewer := (releaseControlAt_spec ok).2.2
  omega

/-- What `do_eliminate` does to the turns. The extra turns that wait are left as they are. -/
def doEliminate (state : ControlledGame) (player : PlayerId) : ControlledGame :=
  let state := { state with order := { state.order with
    table := markEliminated state.order.table player } }
  let leaving := state.order.table.normalizeSharedTurnRecipient player
  let state := state.releaseDeparting player leaving
  if state.turnDecisionController.isSome && state.turnKey = leaving then
    recomputeActivePlayerControl { state with
      activeFullTurnControl := none
      activeCombatPhaseControl := none }
  else state

/-- The extra turn that the next pass takes, once the completed turn's effects have ended. -/
def waitingExtraTurn (state : ControlledGame) (events : List GameEvent) : Option ExtraTurn :=
  (state.endTurnControl events).1.order.extraTurns.getLast?

/-- The extra turn that comes next is that of a player, or of a team, who has left. -/
def awaitsDeparted (state : ControlledGame) (events : List GameEvent) : Bool :=
  (state.waitingExtraTurn events).any fun entry =>
    !state.order.table.isAlive (state.order.table.normalizeSharedTurnRecipient entry.player)

end ControlledGame

/-- Two players, of two teams where teams take turns, are in the game. -/
def Opposed (table : Table) : Prop :=
  ∃ a b, table.isAlive a = true ∧ table.isAlive b = true ∧ table.teamId a ≠ table.teamId b

section
variable {table table' : Table}

/-- Two tables with the same players at the same seats. -/
structure SameSeats (table table' : Table) : Prop where
  players : table'.players = table.players
  seatOrder : table'.seatOrder = table.seatOrder
  formatConfig : table'.formatConfig = table.formatConfig

theorem isAlive_congr (same : SameSeats table table') (player : PlayerId) :
    table'.isAlive player = table.isAlive player := by
  simp only [Table.isAlive, same.players]

theorem seated_congr (same : SameSeats table table') (seated : table.Seated) : table'.Seated where
  seat := by
    rw [same.players, same.seatOrder]
    exact seated.seat
  team := by
    rw [same.players, same.formatConfig]
    exact seated.team

theorem ids_markEliminated (table : Table) (player : PlayerId) :
    (markEliminated table player).players.map (·.id) = table.players.map (·.id) := by
  unfold markEliminated
  split
  · rfl
  · next index _ =>
    refine ext_getElem? fun k => ?_
    simp only [getElem?_map, getElem?_modify]
    split
    · cases table.players[k]? <;> rfl
    · simp

theorem seated_markEliminated (seated : table.Seated) (player : PlayerId) :
    (markEliminated table player).Seated := by
  have ids : ∀ p ∈ (markEliminated table player).players, ∃ q ∈ table.players, q.id = p.id := by
    intro p mem
    have := mem_map_of_mem (f := (·.id)) mem
    rw [ids_markEliminated] at this
    exact mem_map.mp this
  have seats : (markEliminated table player).seatOrder = table.seatOrder := by
    unfold markEliminated
    split <;> rfl
  have format : (markEliminated table player).formatConfig = table.formatConfig := by
    unfold markEliminated
    split <;> rfl
  constructor
  · intro p mem
    obtain ⟨q, inside, same⟩ := ids p mem
    rw [← same, seats]
    exact seated.seat q inside
  · intro teamSize teamCount turns topology p mem
    obtain ⟨q, inside, same⟩ := ids p mem
    rw [format] at topology
    rw [← same]
    exact seated.team teamSize teamCount turns topology q inside

/-- The natural order passes over whoever has left, wherever it resumes. -/
theorem nextTurnRepresentative_alive (seated : table.Seated) (opposed : Opposed table)
    (current : PlayerId) : table.isAlive (table.nextTurnRepresentative current) = true := by
  obtain ⟨a, b, aliveA, aliveB, apart⟩ := opposed
  obtain ⟨other, alive, foreign⟩ : ∃ other, table.isAlive other = true ∧
      table.teamId other ≠ table.teamId current := by
    by_cases own : table.teamId a = table.teamId current
    · exact ⟨b, aliveB, own ▸ apart.symm⟩
    · exact ⟨a, aliveA, own⟩
  have hasSeat : other ∈ table.seatOrder := by
    obtain ⟨p, mem, rfl, -⟩ := Table.isAlive_iff.mp alive
    exact seated.seat p mem
  have start : (if current ∈ table.seatOrder then table.seatOrder.idxOf current else 0) <
      table.seatOrder.length := by
    split
    · exact idxOf_lt_length_of_mem ‹_›
    · exact length_pos_of_mem hasSeat
  have met := @Table.mem_walk table _ table.turnDirection other start hasSeat
  by_cases shared : table.formatConfig.topology.hasSharedTeamTurns = true
  · have occupied : table.seatOrder.isEmpty = false := by
      cases empty : table.seatOrder with
      | nil => simp [empty] at hasSeat
      | cons => rfl
    simp only [Table.nextTurnRepresentative, shared, occupied, Bool.not_true, Bool.false_eq_true,
      ↓reduceIte]
    split
    · next candidate found =>
      have meets := find?_some found
      simp only [Bool.and_eq_true] at meets
      have here := Table.representative_alive seated meets.1
      simpa [Table.priorityPassRepresentative, shared] using here
    · next none_ =>
      have missed := find?_eq_none.mp none_ other met
      simp [alive, foreign] at missed
  · simp only [Table.nextTurnRepresentative, shared, Bool.not_false, ↓reduceIte,
      Table.nextPlayerInTurnOrder, Table.nextPlayerWalking]
    cases found : ((range table.seatOrder.length).map fun offset =>
        table.seatOrder.getD (Table.turnOrderIndex
          (if current ∈ table.seatOrder then table.seatOrder.idxOf current else 0) (offset + 1)
          table.seatOrder.length table.turnDirection) 0).find? table.isAlive with
    | none => exact absurd alive (find?_eq_none.mp found other met)
    | some candidate => exact find?_some found

theorem opposed_congr (same : SameSeats table table') (opposed : Opposed table) :
    Opposed table' := by
  obtain ⟨a, b, aliveA, aliveB, apart⟩ := opposed
  refine ⟨a, b, ?_, ?_, ?_⟩
  · rwa [isAlive_congr same]
  · rwa [isAlive_congr same]
  · simpa only [Table.teamId, same.formatConfig] using apart

theorem SameSeats.refl (table : Table) : SameSeats table table := ⟨rfl, rfl, rfl⟩

theorem SameSeats.trans {last : Table} (first : SameSeats table table')
    (second : SameSeats table' last) : SameSeats table last :=
  ⟨second.players.trans first.players, second.seatOrder.trans first.seatOrder,
    second.formatConfig.trans first.formatConfig⟩

end

namespace ControlledGame

section
variable {replaceEvent : Nat → BeginTurn → ReplacementResult} {state next : ControlledGame}
  {events events' : List GameEvent}

theorem enqueueExtraTurn_table (order : GameState) (player anchor : PlayerId)
    (events : List GameEvent) : (enqueueExtraTurn order player anchor events).1.table =
      order.table := rfl

theorem endTurnControl_table (state : ControlledGame) (events : List GameEvent) :
    (state.endTurnControl events).1.order.table = state.order.table := by
  unfold endTurnControl
  split
  · have first := (releaseActive_spec state state.turnKey .nextCombatPhase).1
    have second := (releaseActive_spec (state.releaseActive state.turnKey .nextCombatPhase).1
      state.turnKey .nextTurn).1
    rw [recompute_order]
    split
    · rw [enqueueExtraTurn_table, second, first]
    · rw [second, first]
  · rfl

theorem selectTurn_sameSeats (order : GameState) :
    SameSeats order.table order.selectTurn.1.table := by
  exact ⟨rfl, rfl, rfl⟩

theorem pass_cases (state : ControlledGame) (events : List GameEvent) :
    ∃ next, (startNextTurnPass replaceEvent state events =
        .begins next (state.endTurnControl events).2 ∧
      next.order = (state.endTurnControl events).1.order.selectTurn.1) ∨
      startNextTurnPass replaceEvent state events = .recurs next (state.endTurnControl events).2 ∧
        SameSeats state.order.table next.order.table := by
  have seats := selectTurn_sameSeats (state.endTurnControl events).1.order
  rw [endTurnControl_table] at seats
  unfold startNextTurnPass
  dsimp only
  split
  · exact ⟨_, .inr ⟨rfl, seats⟩⟩
  · split
    · exact ⟨_, .inr ⟨rfl, seats⟩⟩
    · exact ⟨_, .inl ⟨rfl, (activate_spec _ _ _).1⟩⟩
    · exact ⟨_, .inl ⟨rfl, (activate_spec _ _ _).1⟩⟩

/-- A turn begins for a player who is in the game, unless it is the extra turn of one who left. -/
theorem begins_alive_iff (seated : state.order.table.Seated) (opposed : Opposed state.order.table)
    (begins : startNextTurnPass replaceEvent state events = .begins next events') :
    next.order.table.isAlive next.activePlayer = true ↔ state.awaitsDeparted events = false := by
  have kept := endTurnControl_table state events
  have seats := selectTurn_sameSeats (state.endTurnControl events).1.order
  obtain ⟨_, ⟨same, order⟩ | ⟨other, -⟩⟩ := @pass_cases replaceEvent state events
  · rw [same] at begins
    obtain ⟨rfl, -⟩ := Pass.begins.inj begins
    rw [activePlayer, order, isAlive_congr seats, awaitsDeparted, waitingExtraTurn]
    obtain drained | ⟨queue, entry, queued⟩ :=
      eq_nil_or_concat' (state.endTurnControl events).1.order.extraTurns
    · rw [GameState.selectTurn_drained drained, drained, kept]
      simp [nextTurnRepresentative_alive seated opposed]
    · rw [GameState.selectTurn_queued queued, queued, kept]
      simp
  · rw [other] at begins
    cases begins

theorem recurs_sameSeats
    (recurs : startNextTurnPass replaceEvent state events = .recurs next events') :
    SameSeats state.order.table next.order.table := by
  obtain ⟨_, ⟨same, -⟩ | ⟨same, seats⟩⟩ := @pass_cases replaceEvent state events
  · rw [same] at recurs
    cases recurs
  · rw [same] at recurs
    obtain ⟨rfl, -⟩ := Pass.recurs.inj recurs
    exact seats

theorem begins_sameSeats
    (begins : startNextTurnPass replaceEvent state events = .begins next events') :
    SameSeats state.order.table next.order.table := by
  have seats := selectTurn_sameSeats (state.endTurnControl events).1.order
  rw [endTurnControl_table] at seats
  obtain ⟨_, ⟨same, order⟩ | ⟨same, -⟩⟩ := @pass_cases replaceEvent state events
  · rw [same] at begins
    obtain ⟨rfl, -⟩ := Pass.begins.inj begins
    rw [order]
    exact seats
  · rw [same] at begins
    cases begins

end

section
variable {replaceEvent : Nat → BeginTurn → ReplacementResult} {start state next : ControlledGame}
  {events events' : List GameEvent}

/-- The turns passed over by a call of `start_next_turn`, each of which starts the next one. -/
inductive PassesOver (replaceEvent : Nat → BeginTurn → ReplacementResult) (start : ControlledGame)
    (events : List GameEvent) : ControlledGame → List GameEvent → Prop
  | start : PassesOver replaceEvent start events start events
  | recurs {state next : ControlledGame} {events' events'' : List GameEvent} :
      PassesOver replaceEvent start events state events' →
      startNextTurnPass replaceEvent state events' = .recurs next events'' →
      PassesOver replaceEvent start events next events''

variable {last : ControlledGame} {middle : List GameEvent}

theorem PassesOver.sameSeats (passed : PassesOver replaceEvent start events last middle) :
    SameSeats start.order.table last.order.table := by
  induction passed with
  | start => exact .refl _
  | recurs _ again ih => exact ih.trans (recurs_sameSeats again)

/-- A turn that began: the game at the last pass, and the game right after. -/
structure TurnStarted where
  before : ControlledGame
  pending : List GameEvent
  after : ControlledGame

def TurnStarted.living (turn : TurnStarted) : Bool :=
  turn.after.order.table.isAlive turn.after.activePlayer

def TurnStarted.departed (turn : TurnStarted) : Bool := turn.before.awaitsDeparted turn.pending

/-- Turns are completed, extra turns are created and players leave, in any order. While turns are
completed, two players or teams are in the game. -/
inductive Run (replaceEvent : Nat → BeginTurn → ReplacementResult) (start : ControlledGame) :
    ControlledGame → List GameEvent → List TurnStarted → Prop
  | start : Run replaceEvent start start [] []
  | enqueue {state : ControlledGame} {events : List GameEvent} {turns : List TurnStarted}
      (player anchor : PlayerId) : Run replaceEvent start state events turns →
      Run replaceEvent start
        { state with order := (enqueueExtraTurn state.order player anchor events).1 }
        (enqueueExtraTurn state.order player anchor events).2 turns
  | eliminate {state : ControlledGame} {events : List GameEvent} {turns : List TurnStarted}
      (player : PlayerId) : Run replaceEvent start state events turns →
      state.order.table.isAlive player = true →
      Run replaceEvent start (state.doEliminate player) events turns
  | complete {state last next : ControlledGame} {events middle events' : List GameEvent}
      {turns : List TurnStarted} : Run replaceEvent start state events turns →
      Opposed state.order.table → PassesOver replaceEvent state events last middle →
      startNextTurnPass replaceEvent last middle = .begins next events' →
      Run replaceEvent start next events' (turns ++ [⟨last, middle, next⟩])

theorem releaseDeparting_order (state : ControlledGame) (player leaving : PlayerId) :
    (state.releaseDeparting player leaving).order = state.order := by
  induction state using releaseDeparting.induct player leaving with
  | case1 state none_ => rw [releaseDeparting, none_]
  | case2 state released _ found ih =>
    obtain ⟨idx, -, ok⟩ := Option.bind_eq_some_iff.mp found
    rw [releaseDeparting, found]
    exact ih.trans (releaseControlAt_spec ok).1

theorem doEliminate_table (state : ControlledGame) (player : PlayerId) :
    (state.doEliminate player).order.table = markEliminated state.order.table player := by
  unfold doEliminate
  dsimp only
  split
  · rw [recompute_order, releaseDeparting_order]
  · rw [releaseDeparting_order]

theorem Run.seated {turns : List TurnStarted} (run : Run replaceEvent start state events turns)
    (seated : start.order.table.Seated) : state.order.table.Seated := by
  induction run with
  | start => exact seated
  | enqueue _ _ _ ih => exact ih
  | eliminate player _ _ ih =>
    rw [doEliminate_table]
    exact seated_markEliminated ih player
  | complete _ _ passed begins ih =>
    exact seated_congr (passed.sameSeats.trans (begins_sameSeats begins)) ih

/-- In every run, the turns that begin for players who have left are those that begin as an extra
turn of a player, or of a team, that left before it came up. -/
theorem turns_of_the_living_iff {turns : List TurnStarted}
    (run : Run replaceEvent start state events turns) (seated : start.order.table.Seated) :
    (∀ turn ∈ turns, turn.living = true) ↔ ∀ turn ∈ turns, turn.departed = false := by
  have each : ∀ turn ∈ turns, turn.living = true ↔ turn.departed = false := by
    induction run with
    | start => simp
    | enqueue _ _ _ ih => exact ih
    | eliminate _ _ _ ih => exact ih
    | complete before opposed passed begins ih =>
      intro turn mem
      rcases mem_append.mp mem with earlier | last
      · exact ih turn earlier
      · obtain rfl := mem_singleton.mp last
        have seats := passed.sameSeats
        exact begins_alive_iff (seated_congr seats (before.seated seated))
          (opposed_congr seats opposed) begins
  exact forall₂_congr each

/-- Three players, the first of whom is on turn. -/
def threeSeats : ControlledGame where
  order := {
    table := {
      players := [⟨0, false⟩, ⟨1, false⟩, ⟨2, false⟩]
      seatOrder := [0, 1, 2]
      formatConfig := ⟨.constructed, false, none⟩
      activePlayer := 0
      turnDirection := .normal }
    turnNumber := 1
    extraTurns := []
    extraTurnSequenceAnchor := none
    turnsToSkip := [0, 0, 0] }
  scheduledTurnControls := []
  activeFullTurnControl := none
  activeCombatPhaseControl := none
  turnDecisionController := none
  turnDecisionControlTimestamp := none
  proposals := 0

theorem threeSeats_seated : threeSeats.order.table.Seated where
  seat := by decide
  team := by
    intro teamSize teamCount turns topology
    cases topology

def withoutSecond (extraTurns : List ExtraTurn) : ControlledGame :=
  { threeSeats with order := { threeSeats.order with
      extraTurns
      table := { threeSeats.order.table with
        players := [⟨0, false⟩, ⟨1, true⟩, ⟨2, false⟩] } } }

theorem withoutSecond_opposed (extraTurns : List ExtraTurn) :
    Opposed (withoutSecond extraTurns).order.table :=
  ⟨0, 2, rfl, rfl, show (0 : Nat) ≠ 2 by decide⟩

theorem second_leaves (extraTurns : List ExtraTurn) :
    { threeSeats with order := { threeSeats.order with extraTurns } }.doEliminate 1 =
      withoutSecond extraTurns := by
  unfold doEliminate
  dsimp only
  rw [releaseDeparting]
  rfl

/-- The turn the pass from `state` begins, when every turn may begin. -/
def begunFrom (state : ControlledGame) (events : List GameEvent) : ControlledGame :=
  match startNextTurnPass (fun _ _ => .execute) state events with
  | .begins next _ => next
  | .recurs next _ => next

/-- An extra turn is created for the second player, who then leaves. The turn begins. -/
theorem departed_player_begins_a_turn :
    let before := withoutSecond [⟨1, 0⟩]
    let turn : TurnStarted := ⟨before, [.extraTurnCreated 1 0],
      begunFrom before [.extraTurnCreated 1 0]⟩
    threeSeats.order.table.Seated ∧ Opposed before.order.table ∧
      Run (fun _ _ => .execute) threeSeats turn.after [.extraTurnCreated 1 0] [turn] ∧
      turn.after.activePlayer = 1 ∧ turn.living = false := by
  refine ⟨threeSeats_seated, withoutSecond_opposed _, ?_, rfl, rfl⟩
  have queued := Run.enqueue 1 0 (@Run.start (fun _ _ => .execute) threeSeats)
  have left := Run.eliminate 1 queued rfl
  rw [show ({ threeSeats with order := (enqueueExtraTurn threeSeats.order 1 0 []).1 } :
    ControlledGame) = { threeSeats with order := { threeSeats.order with
      extraTurns := [⟨1, 0⟩] } } from rfl, second_leaves] at left
  exact .complete left (withoutSecond_opposed _) .start rfl

/-- Without the extra turn the third player's turn comes next. -/
theorem third_player_begins_a_turn :
    let turn : TurnStarted := ⟨withoutSecond [], [], begunFrom (withoutSecond []) []⟩
    turn.after.activePlayer = 2 ∧ turn.living = true := by
  have left := Run.eliminate 1 (@Run.start (fun _ _ => .execute) threeSeats) rfl
  rw [show threeSeats = { threeSeats with order := { threeSeats.order with
    extraTurns := [] } } from rfl, second_leaves] at left
  have run := Run.complete left (withoutSecond_opposed _) .start rfl
  exact ⟨rfl, (turns_of_the_living_iff run threeSeats_seated).mpr (by decide) _ mem_cons_self⟩

end
end ControlledGame
end Phase.TurnOrder
