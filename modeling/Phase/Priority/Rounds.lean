import Phase.Priority.Passing

/-! Rounds of passes over whole runs: what it takes for the end of a round to
mean that everybody still in the game has passed. -/
namespace Phase.Priority
open List Table

/-- A game together with the seats that have passed since the last reset. -/
structure Window where
  game : GameState
  since : List PlayerId

inductive Action where
  | pass (limit : Option Nat) (seat : PlayerId)
  | resetPriority
  | clearPriorityPasses
  | eliminatePlayers (players : List PlayerId)
  | play

inductive Window.Step (w : World) : Window → Action → Window → Prop
  | handOn {v : Window} (limit : Option Nat) (seat : PlayerId)
      (holds : prioritySeat v.game = seat) (continues : endsRound v.game seat = false) :
      Step w v (.pass limit seat)
        ⟨(handlePriorityPass w limit v.game seat).1,
          v.game.priorityPassRepresentative seat :: v.since⟩
  | endRound {v : Window} (limit : Option Nat) (seat : PlayerId)
      (holds : prioritySeat v.game = seat) (ends : endsRound v.game seat = true) :
      Step w v (.pass limit seat) ⟨(handlePriorityPass w limit v.game seat).1, []⟩
  | resetPriority {v : Window} : Step w v .resetPriority ⟨resetPriority v.game, []⟩
  | clearPriorityPasses {v : Window} :
      Step w v .clearPriorityPasses ⟨clearPriorityPasses v.game, []⟩
  | eliminatePlayers {v : Window} (players : List PlayerId) :
      Step w v (.eliminatePlayers players) ⟨eliminatePlayers w v.game players, v.since⟩
  | play {v : Window} {game : GameState} (undisturbed : Undisturbed v.game game) :
      Step w v .play ⟨game, v.since⟩

/-- The run opens on a seated table with no pass on record. -/
def Window.Opening (v : Window) : Prop :=
  v.game.Seated ∧ v.game.priorityPasses = ∅ ∧ v.since = []

/-- Windows reached by steps that all meet `allowed`. -/
inductive Window.Run (w : World) (allowed : Window → Action → Prop) : Window → Prop
  | opening {v : Window} : v.Opening → Run w allowed v
  | step {u v : Window} {action : Action} : Run w allowed u → allowed u action →
      Window.Step w u action v → Run w allowed v

/-- With the pass of `seat`, every participant has passed since the last reset,
and every recorded pass is a participant's. -/
def Window.PassedByAll (v : Window) (seat : PlayerId) : Prop :=
  (∀ player ∈ v.game.priorityPassParticipants,
    player ∈ v.game.priorityPassRepresentative seat :: v.since) ∧
  ∀ player ∈ (recordPass v.game seat).priorityPasses, player ∈ v.game.priorityPassParticipants

/-- A pass comes from a side still in the game, and a departure takes nobody
whose pass is on record. -/
def Window.Clean (v : Window) : Action → Prop
  | .pass _ seat => v.game.isAlive (v.game.priorityPassRepresentative seat) = true
  | .eliminatePlayers players =>
    ∀ player ∈ leavingSet v.game players, player ∉ v.game.priorityPasses
  | .resetPriority | .clearPriorityPasses | .play => True

structure Window.Sound (v : Window) : Prop where
  seated : v.game.Seated
  participants : ∀ player ∈ v.game.priorityPasses, player ∈ v.game.priorityPassParticipants
  since : ∀ player ∈ v.game.priorityPasses, player ∈ v.since

/-- The table `t'` is `t` after some of `leaving` left the game. -/
structure Table.Shrinks (leaving : List PlayerId) (t t' : Table) : Prop where
  seatOrder : t'.seatOrder = t.seatOrder
  formatConfig : t'.formatConfig = t.formatConfig
  ids : t'.players.map (·.id) = t.players.map (·.id)
  living : ∀ player, t'.isAlive player = true → t.isAlive player = true
  stays : ∀ player, player ∉ leaving → t.isAlive player = true → t'.isAlive player = true

theorem Table.Shrinks.refl (leaving : List PlayerId) (t : Table) : t.Shrinks leaving t :=
  ⟨rfl, rfl, rfl, fun _ h => h, fun _ _ h => h⟩

variable {leaving : List PlayerId} {t' t : Table} {player seat : PlayerId} {state : GameState}
  {v : Window} {w : World}

theorem Table.Shrinks.trans {a b c : Table} (ab : a.Shrinks leaving b) (bc : b.Shrinks leaving c) :
    a.Shrinks leaving c :=
  ⟨bc.seatOrder.trans ab.seatOrder, bc.formatConfig.trans ab.formatConfig, bc.ids.trans ab.ids,
    fun player h => ab.living player (bc.living player h),
    fun player out h => bc.stays player out (ab.stays player out h)⟩

theorem Table.seated_of_ids (seated : t.Seated) (seatOrder : t'.seatOrder = t.seatOrder)
    (formatConfig : t'.formatConfig = t.formatConfig)
    (ids : t'.players.map (·.id) = t.players.map (·.id)) : t'.Seated := by
  have known : ∀ p ∈ t'.players, ∃ q ∈ t.players, q.id = p.id := by
    intro p hp
    have : p.id ∈ t.players.map (·.id) := ids ▸ mem_map_of_mem hp
    simpa using this
  constructor
  · intro p hp
    obtain ⟨q, hq, same⟩ := known p hp
    rw [seatOrder, ← same]
    exact seated.seat q hq
  · intro teamSize teamCount turns topology p hp
    obtain ⟨q, hq, same⟩ := known p hp
    rw [← same]
    exact seated.team teamSize teamCount turns (formatConfig ▸ topology) q hq

theorem Table.teamId_congr (formatConfig : t'.formatConfig = t.formatConfig) (player : PlayerId) :
    t'.teamId player = t.teamId player := by
  simp only [teamId, formatConfig]

/-- A team's roster only loses members, in the order it had. -/
theorem Table.Shrinks.teamMembers (h : t.Shrinks leaving t') (player : PlayerId) :
    t'.teamMembers player = (t.teamMembers player).filter t'.isAlive := by
  have both : ∀ id, (t'.isAlive id && t.isAlive id) = t'.isAlive id := by
    intro id
    cases alive : t'.isAlive id with
    | false => rfl
    | true => simp [h.living id alive]
  simp only [Table.teamMembers, h.formatConfig, h.seatOrder, h.ids, teamId_congr h.formatConfig]
  split
  · simp only [filter_filter]
    refine filter_congr fun id _ => ?_
    rw [← both id]
    cases t'.isAlive id <;> cases t.isAlive id <;> simp
  · split
    · rfl
    · simp only [filter_filter]
      refine filter_congr fun id _ => ?_
      rw [← both id]
      cases t'.isAlive id <;> cases t.isAlive id <;> simp
  · split
    all_goals
      simp only [filter_filter]
      refine filter_congr fun id _ => ?_
      rw [← both id]
      cases t'.isAlive id <;> cases t.isAlive id <;> simp

/-- A participant who stays in the game still stands for their own team. -/
theorem Table.Shrinks.participant (h : t.Shrinks leaving t') (seated : t.Seated)
    (member : player ∈ t.priorityPassParticipants) (stays : player ∉ leaving) :
    player ∈ t'.priorityPassParticipants := by
  obtain ⟨alive, self⟩ := (mem_participants seated).mp member
  have alive' := h.stays player stays alive
  refine (mem_participants (seated_of_ids seated h.seatOrder h.formatConfig h.ids)).mpr ⟨alive', ?_⟩
  by_cases shared : t.formatConfig.topology.hasSharedTeamTurns = true
  · have head := representative_mem_teamMembers seated alive shared
    rw [self] at head
    obtain ⟨rest, members⟩ := head?_eq_some_iff.mp head
    have roster := h.teamMembers player
    rw [members, filter_cons_of_pos alive'] at roster
    simp [priorityPassRepresentative, normalizeSharedTurnRecipient, h.formatConfig, shared, roster]
  · simp [priorityPassRepresentative, h.formatConfig, shared]

theorem markLeft_ids (players : List Player) (player : PlayerId) :
    (markLeft players player).map (·.id) = players.map (·.id) := by
  induction players with
  | nil => rfl
  | cons p ps ih =>
    unfold markLeft
    split <;> simp_all

theorem any_markLeft {players : List Player} {other : PlayerId} :
    ((markLeft players player).any fun p => p.id = other && !p.isEliminated) = true →
      (players.any fun p => p.id = other && !p.isEliminated) = true := by
  induction players with
  | nil => simp [markLeft]
  | cons p ps ih =>
    unfold markLeft
    split
    · simp only [any_cons, Bool.not_true, Bool.and_false, Bool.false_or]
      intro h
      simp [h]
    · simp only [any_cons, Bool.or_eq_true]
      exact Or.imp id ih

theorem any_markLeft_of_ne {players : List Player} {other : PlayerId} (ne : other ≠ player) :
    ((markLeft players player).any fun p => p.id = other && !p.isEliminated) =
      players.any fun p => p.id = other && !p.isEliminated := by
  induction players with
  | nil => rfl
  | cons p ps ih =>
    unfold markLeft
    split
    · next same =>
      have : (p.id == other) = false := by simp [same, Ne.symm ne]
      simp_all
    · simp [ih]

theorem doEliminate_shrinks (state : GameState) (leaves : player ∈ leaving) :
    state.toTable.Shrinks leaving (doEliminate state player).toTable where
  seatOrder := rfl
  formatConfig := rfl
  ids := markLeft_ids _ _
  living := fun _ h => any_markLeft h
  stays := fun other out alive => by
    have ne : other ≠ player := fun same => out (same ▸ leaves)
    simpa only [isAlive, doEliminate, any_markLeft_of_ne ne] using alive

/-- Nothing but the table changes while players leave. -/
theorem foldl_eliminateLiving (players : List PlayerId) (state : GameState)
    (among : ∀ p ∈ players, state.isAlive p = true → p ∈ leaving) :
    state.toTable.Shrinks leaving (players.foldl eliminateLiving state).toTable ∧
      (players.foldl eliminateLiving state).priorityPasses = state.priorityPasses := by
  induction players generalizing state with
  | nil => exact ⟨Shrinks.refl _ _, rfl⟩
  | cons p ps ih =>
    have first : state.toTable.Shrinks leaving (eliminateLiving state p).toTable ∧
        (eliminateLiving state p).priorityPasses = state.priorityPasses := by
      unfold eliminateLiving
      split
      · exact ⟨doEliminate_shrinks state (among p (by simp) ‹_›), rfl⟩
      · exact ⟨Shrinks.refl _ _, rfl⟩
    have rest := ih (eliminateLiving state p) fun q hq alive =>
      among q (mem_cons_of_mem p hq) (first.1.living q alive)
    exact ⟨first.1.trans rest.1, rest.2.trans first.2⟩

theorem Table.Shrinks.hasSharedLife (h : t.Shrinks leaving t') (player : PlayerId) :
    t'.hasSharedLife player = t.hasSharedLife player := by
  have archenemy : t'.archenemy = t.archenemy := by simp only [archenemy, h.formatConfig]
  simp only [Table.hasSharedLife, archenemy, h.formatConfig]

theorem Table.Shrinks.teammates (h : t.Shrinks leaving t') {mate : PlayerId}
    (mem : mate ∈ t'.teammates player) : mate ∈ t.teammates player := by
  simp only [Table.teammates, h.formatConfig, h.teamMembers] at mem ⊢
  split <;> simp_all

/-- Whoever leaves together with `player` was counted into the leaving set of
the state the batch started from. -/
theorem eliminateWithTeam_shrinks {start : GameState}
    (h : start.toTable.Shrinks leaving state.toTable) (player : PlayerId)
    (among : ∀ p ∈ leavingSet start [player], p ∈ leaving) :
    state.toTable.Shrinks leaving (eliminateWithTeam state player).toTable ∧
      (eliminateWithTeam state player).priorityPasses = state.priorityPasses := by
  unfold eliminateWithTeam
  by_cases alive : state.isAlive player = true
  · have startAlive := h.living player alive
    have own : player ∈ leaving := among player (by
      by_cases sharing : start.hasSharedLife player = true <;>
        simp [leavingSet, startAlive, sharing])
    have left := doEliminate_shrinks state own
    rw [if_neg (by simp [alive])]
    simp only
    split
    · next sharing =>
      have startSharing : start.hasSharedLife player = true := by
        rw [← (h.trans left).hasSharedLife player]
        exact sharing
      have mates : ∀ mate ∈ (doEliminate state player).teammates player,
          (doEliminate state player).isAlive mate = true → mate ∈ leaving := by
        intro mate mem mateAlive
        refine among mate ?_
        simp [leavingSet, startAlive, startSharing, (h.trans left).teammates mem,
          (h.trans left).living mate mateAlive]
      have rest := foldl_eliminateLiving _ _ mates
      exact ⟨left.trans rest.1, rest.2⟩
    · exact ⟨left, rfl⟩
  · rw [if_pos (by simpa using alive)]
    exact ⟨Shrinks.refl _ _, rfl⟩

theorem foldl_eliminateWithTeam {start : GameState} (players : List PlayerId) (state : GameState)
    (h : start.toTable.Shrinks leaving state.toTable)
    (among : ∀ p ∈ leavingSet start players, p ∈ leaving) :
    start.toTable.Shrinks leaving (players.foldl eliminateWithTeam state).toTable ∧
      (players.foldl eliminateWithTeam state).priorityPasses = state.priorityPasses := by
  induction players generalizing state with
  | nil => exact ⟨h, rfl⟩
  | cons p ps ih =>
    have first := eliminateWithTeam_shrinks h p fun q hq =>
      among q (by simp only [leavingSet, flatMap_cons] at hq ⊢; simp_all)
    have rest := ih (eliminateWithTeam state p) (h.trans first.1) fun q hq =>
      among q (by simp only [leavingSet, flatMap_cons] at hq ⊢; simp_all)
    exact ⟨rest.1, rest.2.trans first.2⟩

theorem Undisturbed.refl (s : GameState) : Undisturbed s s := ⟨rfl, rfl, rfl, rfl⟩

theorem Undisturbed.trans {a b c : GameState} (ab : Undisturbed a b) (bc : Undisturbed b c) :
    Undisturbed a c :=
  ⟨bc.seatOrder.trans ab.seatOrder, bc.formatConfig.trans ab.formatConfig,
    bc.players.trans ab.players, bc.priorityPasses.trans ab.priorityPasses⟩

theorem Undisturbed.shrinks {s s' : GameState} (h : Undisturbed s s') (leaving : List PlayerId) :
    s.toTable.Shrinks leaving s'.toTable where
  seatOrder := h.seatOrder
  formatConfig := h.formatConfig
  ids := by rw [h.players]
  living := fun _ alive => by simpa only [isAlive, h.players] using alive
  stays := fun _ _ alive => by simpa only [isAlive, h.players] using alive

theorem checkGameOver_undisturbed (state : GameState) :
    Undisturbed state (checkGameOver state) := by
  unfold checkGameOver
  split
  · exact Undisturbed.refl state
  · exact ⟨rfl, rfl, rfl, rfl⟩
  · dsimp only
    repeat' split
    all_goals exact ⟨rfl, rfl, rfl, rfl⟩
  · exact Undisturbed.refl state

theorem repointWindow_undisturbed (state : GameState) :
    Undisturbed state (repointWindow state) := by
  unfold repointWindow
  repeat' split
  all_goals exact ⟨rfl, rfl, rfl, rfl⟩

/-- A departure shrinks the table by its leaving set and keeps the pass record
as it was, passes of the departed included. -/
theorem eliminatePlayers_shrinks (w : World) (state : GameState) (players : List PlayerId) :
    state.toTable.Shrinks (leavingSet state players) (eliminatePlayers w state players).toTable ∧
      (eliminatePlayers w state players).priorityPasses = state.priorityPasses := by
  have left := foldl_eliminateWithTeam players state
    (Shrinks.refl (leavingSet state players) state.toTable) fun _ hp => hp
  simp only [eliminatePlayers]
  split
  · exact left
  · have judged := (w.sweep_undisturbed (leavingSet state players)
      (players.foldl eliminateWithTeam state)).trans (checkGameOver_undisturbed _)
    split
    · exact ⟨left.1.trans (judged.shrinks _), judged.priorityPasses.trans left.2⟩
    · have settled := judged.trans ((w.settle_undisturbed _).trans (repointWindow_undisturbed _))
      exact ⟨left.1.trans (settled.shrinks _), settled.priorityPasses.trans left.2⟩
    · have settled := judged.trans ((w.settle_undisturbed _).trans (repointWindow_undisturbed _))
      exact ⟨left.1.trans (settled.shrinks _), settled.priorityPasses.trans left.2⟩

theorem Continues.trans {a b c : GameState} (ab : Continues a b) (bc : Continues b c) :
    Continues a c :=
  ⟨bc.seatOrder.trans ab.seatOrder, bc.formatConfig.trans ab.formatConfig, bc.ids.trans ab.ids,
    fun cleared => bc.cleared (ab.cleared cleared)⟩

theorem advanceTurn_continues (w : World) (state : GameState) :
    Continues state (advanceTurn w state).1 := by
  have publish (s : GameState) (waitingFor : WaitingFor) :
      Continues s { s with waitingFor } := ⟨rfl, rfl, rfl, id⟩
  simp only [advanceTurn]
  split
  · exact ⟨rfl, rfl, rfl, id⟩
  · split
    · exact (w.advance_continues state).trans (publish _ _)
    · split
      · exact ⟨rfl, rfl, rfl, id⟩
      · next entered moved =>
        exact (w.phase_continues state entered moved).trans
          ((w.advance_continues entered).trans (publish _ _))

theorem resolveStack_continues (w : World) (limit : Option Nat) (state : GameState) :
    Continues state (resolveStack w limit state).1 := by
  have resolved := w.resolve_continues limit state
  simp only [resolveStack]
  split
  · exact resolved.trans ⟨rfl, rfl, rfl, fun _ => rfl⟩
  · exact resolved
  · exact resolved

/-- The end of a round leaves no pass on record. -/
theorem handlePriorityPass_endsRound (w : World) (limit : Option Nat)
    (ends : endsRound state seat = true) :
    Continues (clearPriorityPasses state) (handlePriorityPass w limit state seat).1 := by
  have recorded : Continues (clearPriorityPasses state)
      (clearPriorityPasses (recordPass state seat)) := ⟨rfl, rfl, rfl, fun _ => rfl⟩
  simp only [handlePriorityPass, ends, ↓reduceIte]
  split
  · exact recorded.trans (advanceTurn_continues w _)
  · exact recorded.trans (resolveStack_continues w limit _)

theorem sound_of_cleared (seated : v.game.Seated) (cleared : v.game.priorityPasses = ∅) : v.Sound :=
  ⟨seated, by simp [cleared], by simp [cleared]⟩

theorem step_sound {u : Window} {action : Action} (step : u.Step w action v)
    (clean : u.Clean action) (sound : u.Sound) : v.Sound := by
  cases step with
  | handOn limit seat holds continues =>
    have next : (handlePriorityPass w limit u.game seat).1.toTable = u.game.toTable ∧
        (handlePriorityPass w limit u.game seat).1.priorityPasses =
          (recordPass u.game seat).priorityPasses := by
      simp [handlePriorityPass, continues, recordPass]
    have own := representative_mem_participants sound.seated clean
    constructor
    · rw [next.1]
      exact sound.seated
    · intro player mem
      rw [next.2, recordPass, Finset.mem_insert] at mem
      rw [next.1]
      rcases mem with rfl | earlier
      · exact own
      · exact sound.participants player earlier
    · intro player mem
      rw [next.2, recordPass, Finset.mem_insert] at mem
      rcases mem with rfl | earlier
      · exact mem_cons_self
      · exact mem_cons_of_mem _ (sound.since player earlier)
  | endRound limit seat holds ends =>
    have next := handlePriorityPass_endsRound w limit ends
    exact sound_of_cleared (seated_of_ids sound.seated next.seatOrder next.formatConfig next.ids)
      (next.cleared rfl)
  | resetPriority => exact sound_of_cleared sound.seated rfl
  | clearPriorityPasses => exact sound_of_cleared sound.seated rfl
  | eliminatePlayers players =>
    obtain ⟨shrinks, passes⟩ := eliminatePlayers_shrinks w u.game players
    constructor
    · exact seated_of_ids sound.seated shrinks.seatOrder shrinks.formatConfig shrinks.ids
    · intro player mem
      rw [passes] at mem
      exact shrinks.participant sound.seated (sound.participants player mem)
        fun leaves => clean player leaves mem
    · intro player mem
      rw [passes] at mem
      exact sound.since player mem
  | play undisturbed =>
    have shrinks := undisturbed.shrinks []
    constructor
    · exact seated_of_ids sound.seated shrinks.seatOrder shrinks.formatConfig shrinks.ids
    · intro player mem
      rw [undisturbed.priorityPasses] at mem
      exact shrinks.participant sound.seated (sound.participants player mem) (by simp)
    · intro player mem
      rw [undisturbed.priorityPasses] at mem
      exact sound.since player mem

theorem run_sound (run : v.Run w Window.Clean) : v.Sound := by
  induction run with
  | opening h => exact sound_of_cleared h.1 h.2.1
  | step _ clean step sound => exact step_sound step clean sound

/-- A record of participants that is as long as the list of participants holds
each of them. -/
theorem Window.Sound.passedByAll (sound : v.Sound)
    (alive : v.game.isAlive (v.game.priorityPassRepresentative seat) = true)
    (ends : endsRound v.game seat = true) : v.PassedByAll seat := by
  have recorded : ∀ player ∈ (recordPass v.game seat).priorityPasses,
      player ∈ v.game.priorityPassParticipants := by
    intro player mem
    rcases Finset.mem_insert.mp mem with rfl | earlier
    · exact representative_mem_participants sound.seated alive
    · exact sound.participants player earlier
  refine ⟨fun player participant => ?_, recorded⟩
  have subset : (recordPass v.game seat).priorityPasses ⊆
      v.game.priorityPassParticipants.toFinset := fun player mem =>
    mem_toFinset.mpr (recorded player mem)
  have all : (recordPass v.game seat).priorityPasses =
      v.game.priorityPassParticipants.toFinset := by
    refine Finset.eq_of_subset_of_card_le subset ?_
    calc v.game.priorityPassParticipants.toFinset.card
        ≤ v.game.priorityPassParticipants.length := toFinset_card_le _
      _ ≤ (recordPass v.game seat).priorityPasses.card := by simpa [endsRound] using ends
  have mem : player ∈ (recordPass v.game seat).priorityPasses := by
    rw [all]
    exact mem_toFinset.mpr participant
  rcases Finset.mem_insert.mp mem with rfl | earlier
  · exact mem_cons_self
  · exact mem_cons_of_mem _ (sound.since player earlier)

theorem endsRound_of_movesOn {limit : Option Nat}
    (moves : (handlePriorityPass w limit state seat).2.movesOn = true) :
    endsRound state seat = true := by
  by_contra open_
  simp [handlePriorityPass, open_, PassEffect.movesOn] at moves

/-- **Nobody is skipped.** In a run whose passes come from sides still in the
game and whose departures take nobody with a pass on record, a pass that
resolves the stack or ends the step completes a round of everybody left. -/
theorem round_passed_by_all (w : World) {u : Window} {limit : Option Nat} {seat : PlayerId}
    (run : u.Run w Window.Clean) (clean : u.Clean (.pass limit seat))
    (moves : (handlePriorityPass w limit u.game seat).2.movesOn = true) :
    u.PassedByAll seat :=
  (run_sound run).passedByAll clean (endsRound_of_movesOn moves)

/-- A free-for-all of three with one object on the stack, the first player to pass. -/
def threePlayers : GameState where
  players := [⟨0, false⟩, ⟨1, false⟩, ⟨2, false⟩]
  seatOrder := [0, 1, 2]
  formatConfig := ⟨.constructed, false, none⟩
  activePlayer := 0
  turnDirection := .normal
  priorityPlayer := 0
  priorityPasses := ∅
  priorityPassCount := 0
  stack := [7]
  phase := .preCombatMain
  regularDamageDone := none
  waitingFor := .priority 0
  eliminatedPlayers := []
  matchPhase := .inGame
  gameEnd := none

/-- A stack of objects without effect, over a turn that stays where it is. -/
def idleWorld : World where
  resolveNextWithLimit := fun _ state => ({ state with stack := state.stack.tail }, 1)
  autoAdvance := fun state => (state, .priority state.activePlayer, false)
  advancePhaseOnce := some
  phaseTransitionRequiresSettlement := fun _ => false
  sweepDeparture := fun _ state => state
  settleDeparture := id
  resolve_continues := fun _ _ => ⟨rfl, rfl, rfl, id⟩
  advance_continues := fun _ => ⟨rfl, rfl, rfl, id⟩
  phase_continues := fun s s' same => by
    obtain rfl := Option.some.inj same
    exact ⟨rfl, rfl, rfl, id⟩
  sweep_undisturbed := fun _ s => ⟨rfl, rfl, rfl, rfl⟩
  settle_undisturbed := fun s => ⟨rfl, rfl, rfl, rfl⟩

def passed (state : GameState) (seat : PlayerId) : GameState :=
  (handlePriorityPass idleWorld none state seat).1

theorem threePlayers_opening : Window.Opening ⟨threePlayers, []⟩ := by
  refine ⟨⟨by decide, ?_⟩, rfl, rfl⟩
  intro teamSize teamCount turns topology
  simp [threePlayers, FormatConfig.topology] at topology

theorem three_passes_resolve : Window.PassedByAll ⟨passed (passed threePlayers 0) 1, [1, 0]⟩ 2 := by
  have clean0 : Window.Clean ⟨threePlayers, []⟩ (.pass none 0) :=
    show threePlayers.isAlive _ = true by decide
  have clean1 : Window.Clean ⟨passed threePlayers 0, [0]⟩ (.pass none 1) :=
    show (passed threePlayers 0).isAlive _ = true by decide
  have clean2 : Window.Clean ⟨passed (passed threePlayers 0) 1, [1, 0]⟩ (.pass none 2) :=
    show (passed (passed threePlayers 0) 1).isAlive _ = true by decide
  have first : Window.Run idleWorld Window.Clean ⟨passed threePlayers 0, [0]⟩ :=
    .step (.opening threePlayers_opening) clean0 (.handOn none 0 rfl (by decide))
  have second : Window.Run idleWorld Window.Clean ⟨passed (passed threePlayers 0) 1, [1, 0]⟩ :=
    .step first clean1 (.handOn none 1 (by decide) (by decide))
  exact round_passed_by_all idleWorld second clean2 (by decide)

/-- The first player passes and concedes; the second player's pass then resolves
the stack although the third never passed. -/
theorem departed_pass_stands_in :
    ¬ ∀ (w : World) (u v : Window) (limit : Option Nat) (seat : PlayerId),
      u.Run w (fun _ _ => True) → u.Step w (.pass limit seat) v →
      (handlePriorityPass w limit u.game seat).2.movesOn = true → u.PassedByAll seat := by
  intro claim
  have first : Window.Run idleWorld (fun _ _ => True) ⟨passed threePlayers 0, [0]⟩ :=
    .step (.opening threePlayers_opening) trivial (.handOn none 0 rfl (by decide))
  have second : Window.Run idleWorld (fun _ _ => True)
      ⟨eliminatePlayers idleWorld (passed threePlayers 0) [0], [0]⟩ :=
    .step first trivial (.eliminatePlayers [0])
  have all := claim idleWorld _ _ none 1 second
    (.endRound none 1 (by decide) (by decide)) (by decide)
  exact absurd (all.1 2 (by decide)) (by decide)

end Phase.Priority
