import Phase.Lib.Stacked
import Phase.Turn.Order

/-! Whole runs of turns: extra turns interrupt the natural order and leave it as it was. -/
namespace Phase.TurnOrder
open Priority Stacked GameState List

/-- A turn that began, with the number of extra turns created before it. -/
structure Begun where
  created : Nat
  turn : BeginTurn
  deriving DecidableEq

/-- The turns after the first, and the extra turns created so far. -/
structure Game where
  state : GameState
  events : List GameEvent
  turns : List Begun

namespace Game

def active (game : Game) : PlayerId := game.state.table.activePlayer

def created (game : Game) : List PlayerId :=
  game.events.map fun | .extraTurnCreated player _ => player

def services (game : Game) : List (Service PlayerId) :=
  game.turns.map fun begun =>
    ⟨begun.created, if begun.turn.isExtraTurn then some begun.turn.playerId else none⟩

def naturalTurns (game : Game) : List PlayerId :=
  (game.turns.filter fun begun => !begun.turn.isExtraTurn).map (·.turn.playerId)

def enqueue (game : Game) (player anchor : PlayerId) : Game :=
  let queued := enqueueExtraTurn game.state player anchor game.events
  { game with state := queued.1, events := queued.2 }

def complete (game : Game) (grantExtraTurnAfter : Bool) : Game :=
  let next := game.state.startNextTurn grantExtraTurnAfter game.events
  { state := next.1, events := next.2.2,
    turns := game.turns ++ [⟨next.2.2.length, next.2.1⟩] }

def grant (game : Game) (grantExtraTurnAfter : Bool) : Game :=
  let granted := game.state.grantExtraTurn grantExtraTurnAfter game.events
  { game with state := granted.1, events := granted.2 }

def select (game : Game) : Game where
  state := game.state.selectTurn.1
  events := game.events
  turns := game.turns ++ [⟨game.events.length, game.state.selectTurn.2⟩]

/-- The turn that the next completion proposes is not one its player skips. -/
def Unskipped (game : Game) (grantExtraTurnAfter : Bool) : Prop :=
  (game.state.grantExtraTurn grantExtraTurnAfter game.events).1.selectTurn.1.skipsTurn = false

theorem complete_unskipped {game : Game} {grantExtraTurnAfter : Bool}
    (unskipped : game.Unskipped grantExtraTurnAfter) :
    game.complete grantExtraTurnAfter = (game.grant grantExtraTurnAfter).select := by
  simp only [complete, startNextTurn_unskipped unskipped]
  rfl

/-- Before any extra turn. -/
structure Fresh (game : Game) : Prop where
  events : game.events = []
  turns : game.turns = []
  extraTurns : game.state.extraTurns = []
  anchor : game.state.extraTurnSequenceAnchor = none

end Game

/-- Any number of extra turns is created during a turn, each behind that turn; then the
turn is completed. -/
inductive Step : Game → Game → Prop where
  | enqueue {game : Game} (player anchor : PlayerId) :
      game.state.table.normalizeSharedTurnRecipient anchor =
        game.state.table.normalizeSharedTurnRecipient game.active →
      Step game (game.enqueue player anchor)
  | oweSkips {game : Game} (turnsToSkip : List Nat) :
      Step game { game with state := { game.state with turnsToSkip } }
  | complete {game : Game} (grantExtraTurnAfter : Bool) :
      game.Unskipped grantExtraTurnAfter → Step game (game.complete grantExtraTurnAfter)

abbrev Run : Game → Game → Prop := Relation.ReflTransGen Step

/-- The players of the natural order, from the turn of `first` on. -/
def rotation (table : Table) (first : PlayerId) (turns : Nat) : List PlayerId :=
  (range turns).map fun k => table.nextTurnRepresentative^[k] first

theorem rotation_succ (table : Table) (first : PlayerId) (turns : Nat) :
    rotation table first (turns + 1) =
      rotation table first turns ++ [table.nextTurnRepresentative^[turns] first] := by
  simp [rotation, range_succ]

/-- The player whose natural turn came last. -/
def lastNatural (table : Table) (first : PlayerId) (game : Game) : PlayerId :=
  table.nextTurnRepresentative^[game.naturalTurns.length] first

/-- The latch names the natural turn that the running extra turns interrupted; during a
natural turn it is empty, and every extra turn waiting is anchored at that turn. -/
def Latched (table : Table) (natural : PlayerId) (state : GameState) : Prop :=
  match state.extraTurnSequenceAnchor with
  | some anchor => anchor = table.normalizeSharedTurnRecipient natural
  | none => state.table.activePlayer = natural ∧
      ∀ entry ∈ state.extraTurns, entry.anchor = table.normalizeSharedTurnRecipient natural

structure Sound (table : Table) (first : PlayerId) (game : Game) : Prop where
  seats : game.state.table = { table with activePlayer := game.active }
  normal : ∀ entry ∈ game.state.extraTurns,
    table.normalizeSharedTurnRecipient entry.player = entry.player
  served : ∃ taken, Serves game.created (game.state.extraTurns.map (·.player)) game.services taken
  rotates : first :: game.naturalTurns = rotation table first (game.naturalTurns.length + 1)
  latched : Latched table (lastNatural table first game) game.state

variable {state : GameState} {table : Table} {natural : PlayerId}

theorem Latched.resume {table : Table} (seated : table.Seated) {natural : PlayerId}
    {state : GameState} (h : Latched table natural state) :
    table.nextTurnRepresentative
        (state.extraTurnSequenceAnchor.getD state.table.activePlayer) =
      table.nextTurnRepresentative natural := by
  unfold Latched at h
  cases latch : state.extraTurnSequenceAnchor with
  | some anchor =>
    simp only [latch] at h
    simp [h, Table.nextTurnRepresentative_normalize seated]
  | none =>
    simp only [latch] at h
    simp [h.1]

theorem Latched.interrupt (h : Latched table natural state) {entry : ExtraTurn}
    (queued : entry ∈ state.extraTurns) :
    state.extraTurnSequenceAnchor.getD entry.anchor =
      table.normalizeSharedTurnRecipient natural := by
  unfold Latched at h
  cases latch : state.extraTurnSequenceAnchor with
  | some anchor =>
    simp only [latch] at h
    simp [h]
  | none =>
    simp only [latch] at h
    simp [h.2 entry queued]

theorem Latched.queue (h : Latched table natural state) {player anchor : PlayerId}
    (anchored : table.normalizeSharedTurnRecipient anchor =
      table.normalizeSharedTurnRecipient state.table.activePlayer) :
    Latched table natural { state with
      extraTurns := state.extraTurns ++ [⟨player, table.normalizeSharedTurnRecipient anchor⟩] } := by
  unfold Latched at h ⊢
  cases latch : state.extraTurnSequenceAnchor with
  | some anchor => simpa only [latch] using h
  | none =>
    simp only [latch] at h ⊢
    refine ⟨h.1, fun entry inside => ?_⟩
    rcases mem_append.mp inside with old | new
    · exact h.2 entry old
    · rw [mem_singleton.mp new, anchored, h.1]

namespace Sound

variable {table : Table} {first : PlayerId} {game : Game}

theorem start (fresh : game.Fresh) (h : game.state.table = table) :
    Sound table game.active game where
  seats := by rw [← h]; rfl
  normal := by simp [fresh.extraTurns]
  served := ⟨[], by
    simpa [Game.created, Game.services, fresh.events, fresh.turns, fresh.extraTurns] using
      serves_start⟩
  rotates := by simp [Game.naturalTurns, fresh.turns, rotation]
  latched := by
    simp [Latched, fresh.anchor, fresh.extraTurns, lastNatural, Game.naturalTurns, fresh.turns,
      Game.active]

section
variable (h : Sound table first game)
include h

theorem normalize (player : PlayerId) :
    game.state.table.normalizeSharedTurnRecipient player =
      table.normalizeSharedTurnRecipient player := by
  rw [h.seats]
  rfl

theorem reseat (player : PlayerId) : { game.state.table with activePlayer := player } =
      { table with activePlayer := player } := by
  rw [h.seats]

theorem enqueue {player anchor : PlayerId}
    (anchored : game.state.table.normalizeSharedTurnRecipient anchor =
      game.state.table.normalizeSharedTurnRecipient game.active) :
    Sound table first (game.enqueue player anchor) where
  seats := h.seats
  normal := by
    intro entry inside
    rcases mem_append.mp inside with old | new
    · exact h.normal entry old
    · rw [mem_singleton.mp new, h.normalize]
      exact Table.normalize_idem table player
  served := by
    obtain ⟨taken, served⟩ := h.served
    refine ⟨taken, ?_⟩
    simpa [Game.enqueue, enqueueExtraTurn, Game.created, Game.services] using
      served.create (game.state.table.normalizeSharedTurnRecipient player)
  rotates := h.rotates
  latched := by
    have anchored : table.normalizeSharedTurnRecipient anchor =
        table.normalizeSharedTurnRecipient game.active := by
      rw [← h.normalize, ← h.normalize, anchored]
    have normalized : game.state.table.normalizeSharedTurnRecipient anchor =
        table.normalizeSharedTurnRecipient anchor := h.normalize anchor
    simp only [Game.enqueue, enqueueExtraTurn, normalized]
    exact h.latched.queue anchored

theorem oweSkips (turnsToSkip : List Nat) :
    Sound table first { game with state := { game.state with turnsToSkip } } :=
  ⟨h.seats, h.normal, h.served, h.rotates, h.latched⟩

theorem grant (grantExtraTurnAfter : Bool) :
    Sound table first (game.grant grantExtraTurnAfter) := by
  cases grantExtraTurnAfter with
  | false => simpa [Game.grant, grantExtraTurn] using h
  | true =>
    refine h.enqueue ?_
    rw [h.normalize, h.normalize, h.normalize]
    exact Table.normalize_idem table game.active

/-- The newest extra turn waiting is taken. -/
theorem interrupt {queue : List ExtraTurn} {entry : ExtraTurn}
    (queued : game.state.extraTurns = queue ++ [entry]) : Sound table first game.select := by
  have here : entry ∈ game.state.extraTurns := by simp [queued]
  have player : game.state.table.normalizeSharedTurnRecipient entry.player = entry.player := by
    rw [h.normalize, h.normal entry here]
  have same : game.select.naturalTurns = game.naturalTurns := by
    simp [Game.select, Game.naturalTurns, selectTurn_queued queued]
  refine ⟨?_, ?_, ?_, by rw [same]; exact h.rotates, ?_⟩
  · simp only [Game.select, Game.active, selectTurn_queued queued, h.reseat]
  · intro other inside
    rw [Game.select, selectTurn_queued queued] at inside
    exact h.normal other (queued ▸ mem_append_left _ inside)
  · obtain ⟨taken, served⟩ := h.served
    rw [queued, map_append] at served
    obtain ⟨i, took⟩ := served.take
    refine ⟨taken ++ [i], ?_⟩
    simpa [Game.select, Game.services, Game.created, selectTurn_queued queued, player] using took
  · simp only [Latched, lastNatural, same]
    simp only [Game.select, selectTurn_queued queued]
    exact h.latched.interrupt here

end

section
variable (seated : table.Seated) (h : Sound table first game)
include seated h

/-- Nothing waits, and the natural order goes on from where it was left. -/
theorem resume (drained : game.state.extraTurns = []) : Sound table first game.select := by
  have next : game.state.table.nextTurnRepresentative
        (game.state.extraTurnSequenceAnchor.getD game.state.table.activePlayer) =
      table.nextTurnRepresentative (lastNatural table first game) := by
    rw [← h.latched.resume seated]
    conv_lhs => rw [h.seats]
    rfl
  have natural : game.select.naturalTurns =
      game.naturalTurns ++ [table.nextTurnRepresentative (lastNatural table first game)] := by
    simp [Game.select, Game.naturalTurns, selectTurn_drained drained, next]
  have last : lastNatural table first game.select =
      table.nextTurnRepresentative (lastNatural table first game) := by
    rw [lastNatural, natural, length_append, length_singleton, Function.iterate_succ_apply']
    rfl
  refine ⟨?_, ?_, ?_, ?_, ?_⟩
  · simp only [Game.select, Game.active, selectTurn_drained drained, h.reseat]
  · simp [Game.select, selectTurn_drained drained, drained]
  · obtain ⟨taken, served⟩ := h.served
    rw [drained] at served
    refine ⟨taken, ?_⟩
    simpa [Game.select, Game.services, Game.created, selectTurn_drained drained,
      drained] using served.idle
  · rw [rotation_succ, natural, ← cons_append, h.rotates, length_append,
      length_singleton, Function.iterate_succ_apply']
    rfl
  · simp only [Latched, last]
    simp only [Game.select, selectTurn_drained drained, drained, next]
    simp

theorem complete {grantExtraTurnAfter : Bool} (unskipped : game.Unskipped grantExtraTurnAfter) :
    Sound table first (game.complete grantExtraTurnAfter) := by
  rw [Game.complete_unskipped unskipped]
  rcases eq_nil_or_concat (game.grant grantExtraTurnAfter).state.extraTurns with
    drained | ⟨queue, entry, queued⟩
  · exact (h.grant grantExtraTurnAfter).resume seated drained
  · exact (h.grant grantExtraTurnAfter).interrupt (queued.trans (concat_eq_append ..))

theorem step {next : Game} (step : Step game next) : Sound table first next := by
  cases step with
  | enqueue player anchor anchored => exact h.enqueue anchored
  | oweSkips turnsToSkip => exact h.oweSkips turnsToSkip
  | complete grantExtraTurnAfter unskipped => exact h.complete seated unskipped

end

end Sound

theorem sound_of_run {start game : Game} (seated : start.state.table.Seated)
    (fresh : start.Fresh) (run : Run start game) :
    Sound start.state.table start.active game := by
  induction run with
  | refl => exact Sound.start fresh rfl
  | tail _ last ih => exact ih.step seated last

/-- Every extra turn is taken once, the newest one waiting first and all of them before the
next natural turn; without the extra turns, the turns are the natural rotation. -/
theorem extra_turns_leave_the_rotation {start game : Game}
    (seated : start.state.table.Seated) (fresh : start.Fresh) (run : Run start game) :
    (∃ taken, taken.Nodup ∧
      Serves game.created (game.state.extraTurns.map (·.player)) game.services taken) ∧
    start.active :: game.naturalTurns =
      rotation start.state.table start.active (game.naturalTurns.length + 1) := by
  have sound := sound_of_run seated fresh run
  obtain ⟨taken, served⟩ := sound.served
  exact ⟨⟨taken, served.newestFirst.nodup, served⟩, sound.rotates⟩

/-- Three players, before any extra turn is created. -/
def threePlayers : Game where
  state :=
    { table :=
        { players := [⟨0, false⟩, ⟨1, false⟩, ⟨2, false⟩], seatOrder := [0, 1, 2],
          formatConfig := ⟨.constructed, false, none⟩, activePlayer := 0,
          turnDirection := .normal }
      turnNumber := 1
      extraTurns := []
      extraTurnSequenceAnchor := none
      turnsToSkip := [0, 0, 0] }
  events := []
  turns := []

theorem threePlayers_seated : threePlayers.state.table.Seated where
  seat := by decide
  team := by
    intro teamSize teamCount turns topology
    cases topology

/-- During the first turn an extra turn is created for the third player, and during that one
an extra turn for the second. -/
def threeTurns : Game :=
  let first := ((threePlayers.enqueue 2 0).grant false).select
  let second := ((first.enqueue 1 2).grant false).select
  (second.grant false).select

theorem run_threeTurns : Run threePlayers threeTurns := by
  have pass {game next : Game} (unskipped : game.Unskipped false)
      (passed : (game.grant false).select = next) : Step game next := by
    rw [← passed, ← Game.complete_unskipped unskipped]
    exact .complete false unskipped
  refine .tail (.tail (.tail (.tail (.tail .refl (.enqueue 2 0 rfl)) (pass ?_ rfl))
    (.enqueue 1 2 rfl)) (pass ?_ rfl)) (pass ?_ rfl)
  all_goals rfl

theorem threeTurns_leave_the_rotation :
    threeTurns.turns.map (·.turn) = [⟨2, true⟩, ⟨1, true⟩, ⟨1, false⟩] ∧
    (∃ taken, taken.Nodup ∧ Serves [2, 1] [] threeTurns.services taken) ∧
    [0, 1] = rotation threePlayers.state.table 0 2 :=
  ⟨by decide, extra_turns_leave_the_rotation threePlayers_seated ⟨rfl, rfl, rfl, rfl⟩
    run_threeTurns⟩

end Phase.TurnOrder
