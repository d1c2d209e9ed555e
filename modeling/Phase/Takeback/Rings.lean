import Phase.Takeback.Run

/-! The points of a ledger are states on the branch that led to the live state. -/
namespace Phase.Takeback
open Branch List

def TakebackLedger.turnPoints {S : Type} (ledger : TakebackLedger S) : List (TurnPoint S) :=
  ledger.turnHistory.getD []

/-- The branch of `state` leaves the point by an applied action of its actor. -/
def ActedTo {S : Type} (point : TakebackPoint (Live S)) (state : Live S) : Prop :=
  ∃ action, LeftBy (.acted point.actor action true) point.state state

/-- Both rings hold states of one game, on the branch of the live state and in its order. -/
structure Rings {S : Type} (game : Game S) (history : List (TakebackPoint (Live S)))
    (turns : List (TurnPoint (Live S))) (number : Nat) (live : Live S) : Prop where
  history_order : history.Pairwise fun p q => ActedTo p q.state ∧
    game.traced.turnNumber p.state ≤ game.traced.turnNumber q.state
  history_live : ∀ p ∈ history, ActedTo p live ∧
    game.traced.turnNumber p.state ≤ game.traced.turnNumber live ∧
    game.traced.gameNumber p.state = number
  turns_order : turns.Pairwise fun t u => Before t.state u.state ∧
    game.traced.turnNumber t.state < game.traced.turnNumber u.state
  turns_live : ∀ t ∈ turns, OnBranch t.state live ∧
    game.traced.turnNumber t.state ≤ game.traced.turnNumber live ∧
    game.traced.gameNumber t.state = number
  crossing : ∀ p ∈ history, ∀ t ∈ turns,
    game.traced.turnNumber p.state < game.traced.turnNumber t.state ↔
      p.state.past.length < t.state.past.length

section
variable {S : Type} {game : Game S} {history history' : List (TakebackPoint (Live S))}
  {turns turns' : List (TurnPoint (Live S))} {number made : Nat} {pre post live : Live S}
  {deed : Deed} {events : List GameEvent}

theorem ActedTo.trans {point : TakebackPoint (Live S)} (acted : ActedTo point pre)
    (on : OnBranch pre post) : ActedTo point post :=
  acted.imp fun _ left => left.trans on

theorem leftBy_of_step (step : game.traced.Step pre deed events post) : LeftBy deed pre post := by
  rw [step.2]
  exact leftBy_move ..

theorem Rings.empty (game : Game S) (number : Nat) (live : Live S) :
    Rings game [] [] number live where
  history_order := .nil
  history_live := nofun
  turns_order := .nil
  turns_live := nofun
  crossing := nofun

theorem Rings.sublist (rings : Rings game history turns number live)
    (fewer : history'.Sublist history) (fewerTurns : turns'.Sublist turns) :
    Rings game history' turns' number live where
  history_order := rings.history_order.sublist fewer
  history_live p mem := rings.history_live p (fewer.subset mem)
  turns_order := rings.turns_order.sublist fewerTurns
  turns_live t mem := rings.turns_live t (fewerTurns.subset mem)
  crossing p mem t mem' := rings.crossing p (fewer.subset mem) t (fewerTurns.subset mem')

theorem Rings.moved (rings : Rings game history turns number pre) (left : LeftBy deed pre post)
    (grows : game.traced.turnNumber pre ≤ game.traced.turnNumber post) :
    Rings game history turns number post where
  history_order := rings.history_order
  history_live p mem := by
    obtain ⟨acted, turn, number⟩ := rings.history_live p mem
    exact ⟨acted.trans (.inr ⟨deed, left⟩), turn.trans grows, number⟩
  turns_order := rings.turns_order
  turns_live t mem := by
    obtain ⟨on, turn, number⟩ := rings.turns_live t mem
    exact ⟨.inr (on.before ⟨deed, left⟩), turn.trans grows, number⟩
  crossing := rings.crossing

/-- The state before an applied action joins the points. -/
theorem Rings.point (rings : Rings game history turns number pre) {actor : PlayerId}
    {action : GameAction} (left : LeftBy (.acted actor action true) pre post)
    (grows : game.traced.turnNumber pre ≤ game.traced.turnNumber post)
    (current : game.traced.gameNumber pre = number) :
    Rings game (history ++ [{ actor, made, state := pre }]) turns number post where
  history_order := by
    refine pairwise_append.mpr ⟨rings.history_order, pairwise_singleton .., ?_⟩
    intro p mem q mem'
    cases mem_singleton.mp mem'
    obtain ⟨acted, turn, -⟩ := rings.history_live p mem
    exact ⟨acted, turn⟩
  history_live p mem := by
    rcases mem_append.mp mem with old | new
    · exact (rings.moved left grows).history_live p old
    · cases mem_singleton.mp new
      exact ⟨⟨action, left⟩, grows, current⟩
  turns_order := rings.turns_order
  turns_live := (rings.moved left grows).turns_live
  crossing p mem t mem' := by
    rcases mem_append.mp mem with old | new
    · exact rings.crossing p old t mem'
    · cases mem_singleton.mp new
      obtain ⟨on, turn, -⟩ := rings.turns_live t mem'
      exact iff_of_false (not_lt.mpr turn) (not_lt.mpr on.length_le)

/-- A state that rests in a turn it just started joins the turn points. -/
theorem Rings.turn (rings : Rings game history turns number live)
    (later : ∀ p ∈ history, game.traced.turnNumber p.state < game.traced.turnNumber live)
    (laterTurns : ∀ t ∈ turns, Before t.state live ∧
      game.traced.turnNumber t.state < game.traced.turnNumber live)
    (current : game.traced.gameNumber live = number) :
    Rings game history (turns ++ [{ made, state := live }]) number live where
  history_order := rings.history_order
  history_live := rings.history_live
  turns_order := by
    refine pairwise_append.mpr ⟨rings.turns_order, pairwise_singleton .., ?_⟩
    intro t mem u mem'
    cases mem_singleton.mp mem'
    exact laterTurns t mem
  turns_live t mem := by
    rcases mem_append.mp mem with old | new
    · exact rings.turns_live t old
    · cases mem_singleton.mp new
      exact ⟨.inl rfl, le_rfl, current⟩
  crossing p mem t mem' := by
    rcases mem_append.mp mem' with old | new
    · exact rings.crossing p mem t old
    · cases mem_singleton.mp new
      obtain ⟨⟨_, left⟩, -⟩ := rings.history_live p mem
      exact iff_of_true (later p mem) left.length_lt

theorem pushBounded_sublist {α : Type} (depth : Nat) (ring : List α) (entry : α) :
    (pushBounded depth ring entry).Sublist (ring ++ [entry]) := by
  unfold pushBounded
  split
  · exact (drop_sublist 1 ring).append_right [entry]
  · exact Sublist.refl _

theorem turnStarted_mem {turn : Nat} (started : TakebackLedger.turnStarted events = some turn) :
    .turnStarted turn ∈ events := by
  obtain ⟨event, mem, isTurn⟩ := exists_of_findSome?_eq_some started
  cases event with
  | turnStarted other =>
    cases isTurn
    exact mem_reverse.mp mem
  | other => cases isTurn

/-- Nothing happens, or the state is recorded as the start of the turn it announced. -/
theorem recordTurnPoint_cases {T : Type} {view : GameView T} (ledger : TakebackLedger T)
    (events : List GameEvent) (state : T) :
    ledger.recordTurnPoint view events state = ledger ∨
      .turnStarted (view.turnNumber state) ∈ events ∧ ∃ ring, ledger.turnHistory = some ring ∧
        ledger.recordTurnPoint view events state = { ledger with
          turnHistory := some (pushBounded maxTurnRewindHistory ring ⟨ledger.clock, state⟩) } := by
  unfold TakebackLedger.recordTurnPoint
  split
  · next ring started isRing isStarted =>
    split
    · exact .inl rfl
    · next same =>
      refine .inr ⟨?_, ring, isRing, rfl⟩
      rw [← not_not.mp same]
      exact turnStarted_mem isStarted
  · exact .inl rfl

section
variable {T : Type} {view : GameView T} {ledger : TakebackLedger T} {state : T}

@[simp]
theorem recordTurnPoint_history :
    (ledger.recordTurnPoint view events state).history = ledger.history := by
  rcases recordTurnPoint_cases ledger events state with same | ⟨_, _, _, recorded⟩
  · rw [same]
  · rw [recorded]

@[simp]
theorem recordTurnPoint_pending :
    (ledger.recordTurnPoint view events state).pending = ledger.pending := by
  rcases recordTurnPoint_cases ledger events state with same | ⟨_, _, _, recorded⟩
  · rw [same]
  · rw [recorded]

@[simp]
theorem recordTurnPoint_gameNumber :
    (ledger.recordTurnPoint view events state).gameNumber = ledger.gameNumber := by
  rcases recordTurnPoint_cases ledger events state with same | ⟨_, _, _, recorded⟩
  · rw [same]
  · rw [recorded]

@[simp]
theorem recordTurnPoint_clock :
    (ledger.recordTurnPoint view events state).clock = ledger.clock := by
  rcases recordTurnPoint_cases ledger events state with same | ⟨_, _, _, recorded⟩
  · rw [same]
  · rw [recorded]

@[simp]
theorem recordTurnPoint_noopConcessions :
    (ledger.recordTurnPoint view events state).noopConcessions = ledger.noopConcessions := by
  rcases recordTurnPoint_cases ledger events state with same | ⟨_, _, _, recorded⟩
  · rw [same]
  · rw [recorded]

theorem recordTurnPoint_turns :
    (ledger.recordTurnPoint view events state).turnPoints.Sublist ledger.turnPoints ∨
      .turnStarted (view.turnNumber state) ∈ events ∧
        (ledger.recordTurnPoint view events state).turnPoints.Sublist
          (ledger.turnPoints ++ [⟨ledger.clock, state⟩]) := by
  rcases recordTurnPoint_cases ledger events state with same | ⟨announced, ring, isRing, recorded⟩
  · rw [same]
    exact .inl (.refl _)
  · have isPoints : ledger.turnPoints = ring := by
      rw [TakebackLedger.turnPoints, isRing]
      rfl
    refine .inr ⟨announced, ?_⟩
    rw [recorded, isPoints]
    exact pushBounded_sublist ..

theorem observeTransition_pending :
    (ledger.observeTransition view events state).pending = ledger.pending := by
  unfold TakebackLedger.observeTransition
  rw [recordTurnPoint_pending]
  split <;> rfl

theorem tryResolve_turnPoints {aiSeats : List PlayerId} {table restored : Table T}
    (resolves : table.tryResolve view aiSeats = some restored) :
    restored.ledger.turnPoints = table.ledger.turnPoints.filter fun point =>
      view.turnNumber point.state ≤ view.turnNumber restored.state := by
  obtain ⟨pending, -, -, -, isLedger⟩ := tryResolve_some resolves
  rw [isLedger]
  unfold TakebackLedger.turnPoints
  cases table.ledger.turnHistory <;> rfl

end

variable {ledger : TakebackLedger (Live S)}

theorem Rings.recordTurn
    (rings : Rings game ledger.history ledger.turnPoints ledger.gameNumber live)
    (starts : .turnStarted (game.traced.turnNumber live) ∈ events →
      (∀ p ∈ ledger.history, game.traced.turnNumber p.state < game.traced.turnNumber live) ∧
      ∀ t ∈ ledger.turnPoints, Before t.state live ∧
        game.traced.turnNumber t.state < game.traced.turnNumber live)
    (current : game.traced.gameNumber live = ledger.gameNumber) :
    Rings game (ledger.recordTurnPoint game.traced.toGameView events live).history
      (ledger.recordTurnPoint game.traced.toGameView events live).turnPoints
      (ledger.recordTurnPoint game.traced.toGameView events live).gameNumber live := by
  rw [recordTurnPoint_history, recordTurnPoint_gameNumber]
  rcases @recordTurnPoint_turns events _ game.traced.toGameView ledger live with
    fewer | ⟨announced, fewer⟩
  · exact rings.sublist (.refl _) fewer
  · obtain ⟨later, laterTurns⟩ := starts announced
    exact (rings.turn later laterTurns current).sublist (.refl _) fewer

end

end Phase.Takeback
