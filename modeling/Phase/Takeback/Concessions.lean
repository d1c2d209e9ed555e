import Phase.Takeback.Ancestry

/-! The clock of the ledger tells which concessions a vote counts: those on the branch of the live
state that were made since the target. -/
namespace Phase.Takeback
open Branch List

section
variable {S : Type}

/-- A concession of this seat that removed no one. -/
def NoopConcession (game : Game S) (seat : PlayerId) (moment : Moment S Deed) : Prop :=
  (∃ applied, moment.label = .acted seat .concede applied) ∧
    ¬Departs game.toGameView moment.state moment.after

/-- Every state a request can reach, with the clock it was live at. -/
def TakebackLedger.marks {T : Type} (ledger : TakebackLedger T) : List (Nat × T) :=
  ledger.history.map (fun point => (point.made, point.state)) ++
    ledger.turnPoints.map (fun point => (point.made, point.state)) ++
    ledger.pending.toList.map fun pending => (pending.targetAt, pending.targetState)

/-- The clock orders the states a request can reach and the concessions on the branch as they
came about. -/
structure Dated (game : Game S) (marks : List (Nat × Live S)) (clock : Nat)
    (noopConcessions : PlayerId → Option Nat) (live : Live S) : Prop where
  marked : ∀ mark ∈ marks, mark.1 ≤ clock ∧ mark.2.time ≤ live.time
  noted : ∀ seat made, noopConcessions seat = some made → made < clock ∧
    ∃ moment ∈ live.past, NoopConcession game seat moment ∧ ∀ mark ∈ marks,
      (mark.1 ≤ made → mark.2.time ≤ moment.time) ∧ (made < mark.1 → moment ∈ mark.2.past)

variable {game : Game S} {marks marks' : List (Nat × Live S)} {clock : Nat}
  {noopConcessions noopConcessions' : PlayerId → Option Nat} {pre live : Live S} {deed : Deed}
  {post : S}

theorem Dated.fewer (dated : Dated game marks clock noopConcessions live)
    (fewer : ∀ mark ∈ marks', mark ∈ marks)
    (forgets : ∀ seat made, noopConcessions' seat = some made → noopConcessions seat = some made) :
    Dated game marks' clock noopConcessions' live where
  marked mark mem := dated.marked mark (fewer mark mem)
  noted seat made isNoted := by
    obtain ⟨earlier, moment, mem, noop, order⟩ := dated.noted seat made (forgets seat made isNoted)
    exact ⟨earlier, moment, mem, noop, fun mark mem => order mark (fewer mark mem)⟩

/-- The live state can be marked with the clock. -/
theorem Dated.mark (dated : Dated game marks clock noopConcessions live) :
    Dated game ((clock, live) :: marks) clock noopConcessions live where
  marked mark mem := by
    rcases mem_cons.mp mem with rfl | old
    · exact ⟨le_rfl, le_rfl⟩
    · exact dated.marked mark old
  noted seat made isNoted := by
    obtain ⟨earlier, moment, mem, noop, order⟩ := dated.noted seat made isNoted
    refine ⟨earlier, moment, mem, noop, fun mark mem' => ?_⟩
    rcases mem_cons.mp mem' with rfl | old
    · exact ⟨fun later => absurd later (not_le.mpr earlier), fun _ => mem⟩
    · exact order mark old

theorem Dated.move (dated : Dated game marks clock noopConcessions pre) (deed : Deed) (post : S) :
    Dated game marks (clock + 1) noopConcessions (pre.move deed post) where
  marked mark mem := by
    obtain ⟨made, time⟩ := dated.marked mark mem
    exact ⟨made.trans (Nat.le_succ _), time.trans (Nat.le_succ _)⟩
  noted seat made isNoted := by
    obtain ⟨earlier, moment, mem, noop, order⟩ := dated.noted seat made isNoted
    exact ⟨earlier.trans (Nat.lt_succ_self _), moment, mem_append_left _ mem, noop, order⟩

/-- The concession that is noted is the moment that was just left. -/
theorem Dated.concede (dated : Dated game marks clock noopConcessions pre) {actor : PlayerId}
    {applied : Bool} (stays : ¬Departs game.toGameView pre.now post) :
    Dated game marks (clock + 1) (fun seat =>
        if seat = actor then some ((noopConcessions actor).getD clock) else noopConcessions seat)
      (pre.move (.acted actor .concede applied) post) where
  marked := (dated.move (.acted actor .concede applied) post).marked
  noted seat made isNoted := by
    have old := (dated.move (.acted actor .concede applied) post).noted seat made
    by_cases isActor : seat = actor
    · subst isActor
      rw [if_pos rfl] at isNoted
      cases before : noopConcessions seat with
      | some first =>
        rw [before] at isNoted
        cases isNoted
        exact old before
      | none =>
        rw [before] at isNoted
        cases isNoted
        refine ⟨Nat.lt_succ_self clock, ⟨pre.now, _, post, pre.time⟩,
          mem_append_right _ (mem_singleton_self _), ⟨⟨applied, rfl⟩, stays⟩,
          fun mark mem => ?_⟩
        obtain ⟨earlier, time⟩ := dated.marked mark mem
        exact ⟨fun _ => time, fun later => absurd earlier (not_le.mpr later)⟩
    · rw [if_neg isActor] at isNoted
      exact old isNoted

/-- A rollback keeps the concessions that its target had behind it. -/
theorem Dated.resume (dated : Dated game marks clock noopConcessions live) {target : Nat × Live S}
    (mem : target ∈ marks) :
    Dated game marks clock (fun seat => (noopConcessions seat).filter (· < target.1))
      (target.2.resume live deed post) where
  marked mark mem' := by
    obtain ⟨made, time⟩ := dated.marked mark mem'
    exact ⟨made, time.trans (Nat.le_succ _)⟩
  noted seat made isNoted := by
    obtain ⟨isNoted, earlier⟩ := Option.filter_eq_some_iff.mp isNoted
    obtain ⟨before, moment, -, noop, order⟩ := dated.noted seat made isNoted
    have there := (order target mem).2 (of_decide_eq_true earlier)
    exact ⟨before, moment, mem_append_left _ there, noop, order⟩

end

section
variable {T : Type} {view : GameView T} {aiSeats : List PlayerId} {ledger : TakebackLedger T}
  {mark : Nat × T}

theorem mem_marks : mark ∈ ledger.marks ↔
    (∃ p ∈ ledger.history, (p.made, p.state) = mark) ∨
    (∃ t ∈ ledger.turnPoints, (t.made, t.state) = mark) ∨
    ∃ pending, ledger.pending = some pending ∧ (pending.targetAt, pending.targetState) = mark := by
  simp [TakebackLedger.marks]

theorem marks_mono {ledger' : TakebackLedger T} (mem : mark ∈ ledger'.marks)
    (history : ledger'.history.Sublist ledger.history)
    (turns : ledger'.turnPoints.Sublist ledger.turnPoints)
    (pending : ∀ pending, ledger'.pending = some pending →
      (pending.targetAt, pending.targetState) ∈ ledger.marks) : mark ∈ ledger.marks := by
  rcases mem_marks.mp mem with ⟨p, there, rfl⟩ | ⟨t, there, rfl⟩ | ⟨vote, isVote, rfl⟩
  · exact mem_marks.mpr (.inl ⟨p, history.subset there, rfl⟩)
  · exact mem_marks.mpr (.inr (.inl ⟨t, turns.subset there, rfl⟩))
  · exact pending vote isVote

theorem pending_mem_marks {pending : PendingTakeback T} (vote : ledger.pending = some pending) :
    (pending.targetAt, pending.targetState) ∈ ledger.marks :=
  mem_marks.mpr (.inr (.inr ⟨pending, vote, rfl⟩))

theorem recordAction_marks {actor : PlayerId} {action : GameAction} {result : ActionResult}
    {pre : T} (mem : mark ∈ (ledger.recordAction actor action result pre).marks) :
    mark ∈ (ledger.clock, pre) :: ledger.marks := by
  unfold TakebackLedger.recordAction TakebackLedger.recordPoint at mem
  split at mem
  · split at mem
    · exact mem_cons_of_mem _ mem
    · rcases mem_marks.mp mem with ⟨p, there, rfl⟩ | old | old
      · rcases mem_append.mp ((pushBounded_sublist ..).subset there) with was | new
        · exact mem_cons_of_mem _ (mem_marks.mpr (.inl ⟨p, was, rfl⟩))
        · cases mem_singleton.mp new
          exact mem_cons_self
      · exact mem_cons_of_mem _ (mem_marks.mpr (.inr (.inl old)))
      · exact mem_cons_of_mem _ (mem_marks.mpr (.inr (.inr old)))
  · exact mem_cons_of_mem _ mem

variable {events : List GameEvent}

theorem recordTurnPoint_marks {state : T}
    (mem : mark ∈ (ledger.recordTurnPoint view events state).marks) :
    mark ∈ (ledger.clock, state) :: ledger.marks := by
  rcases mem_marks.mp mem with ⟨p, there, rfl⟩ | ⟨t, there, rfl⟩ | ⟨pending, vote, rfl⟩
  · rw [recordTurnPoint_history] at there
    exact mem_cons_of_mem _ (mem_marks.mpr (.inl ⟨p, there, rfl⟩))
  · rcases @recordTurnPoint_turns events _ view ledger state with fewer | ⟨-, fewer⟩
    · exact mem_cons_of_mem _ (mem_marks.mpr (.inr (.inl ⟨t, fewer.subset there, rfl⟩)))
    · rcases mem_append.mp (fewer.subset there) with was | new
      · exact mem_cons_of_mem _ (mem_marks.mpr (.inr (.inl ⟨t, was, rfl⟩)))
      · cases mem_singleton.mp new
        exact mem_cons_self
  · rw [recordTurnPoint_pending] at vote
    exact mem_cons_of_mem _ (pending_mem_marks vote)

theorem retire_marks (mem : mark ∈ ledger.retire.marks) : mark ∈ ledger.marks := by
  have turns : ledger.retire.turnPoints.Sublist ledger.turnPoints := by
    rw [retire_turnPoints]
    exact nil_sublist _
  exact marks_mono mem (nil_sublist _) turns fun pending vote => pending_mem_marks vote

theorem closed_marks (mem : mark ∈ ({ ledger with pending := none } : TakebackLedger T).marks) :
    mark ∈ ledger.marks :=
  marks_mono mem (.refl _) (.refl _) fun _ vote => nomatch vote

theorem recordAction_known {actor : PlayerId} {action : GameAction} {result : ActionResult}
    {pre : T} : (ledger.recordAction actor action result pre).clock = ledger.clock ∧
      (ledger.recordAction actor action result pre).noopConcessions = ledger.noopConcessions := by
  unfold TakebackLedger.recordAction TakebackLedger.recordPoint
  split
  · split <;> exact ⟨rfl, rfl⟩
  · exact ⟨rfl, rfl⟩

/-- What the ledger knows after a transition: what it knew, and the state it led to. -/
theorem observe_known {events : List GameEvent} {state : T} :
    (∀ mark ∈ (ledger.observeTransition view events state).marks,
      mark ∈ (ledger.clock + 1, state) :: ledger.marks) ∧
    (ledger.observeTransition view events state).clock = ledger.clock + 1 ∧
    ∀ seat made, (ledger.observeTransition view events state).noopConcessions seat = some made →
      ledger.noopConcessions seat = some made := by
  by_cases same : view.gameNumber state = ledger.gameNumber
  · rw [observe_of_eq same, recordTurnPoint_clock, recordTurnPoint_noopConcessions]
    exact ⟨fun mark mem => recordTurnPoint_marks mem, rfl, fun _ _ => id⟩
  · rw [observe_of_ne same, recordTurnPoint_clock, recordTurnPoint_noopConcessions]
    refine ⟨fun mark mem => ?_, rfl, nofun⟩
    rcases mem_cons.mp (recordTurnPoint_marks mem) with rfl | old
    · exact mem_cons_self
    · exact mem_cons_of_mem _ (retire_marks old)

theorem pick_mem_marks {player : PlayerId} {target : RewindTarget} {picked : T × Nat × Nat}
    (picks : ledger.pick view player target = .ok picked) : (picked.2.1, picked.1) ∈ ledger.marks := by
  cases target with
  | lastAction =>
    obtain ⟨before, point, after, isHistory, -, -, rfl⟩ := pick_lastAction picks
    exact mem_marks.mpr (.inl ⟨point, by simp [isHistory], rfl⟩)
  | turnStart turnNumber =>
    obtain ⟨point, mem, -, rfl⟩ := pick_turnStart picks
    exact mem_marks.mpr (.inr (.inl ⟨point, mem, rfl⟩))

end

section
variable {S : Type} {game : Game S} {aiSeats : List PlayerId} {table : Table (Live S)}
  {ledger : TakebackLedger (Live S)} {live : Live S} {events : List GameEvent}

abbrev DatedTable (game : Game S) (table : Table (Live S)) : Prop :=
  Dated game table.ledger.marks table.ledger.clock table.ledger.noopConcessions table.state

theorem Dated.observe
    (dated : Dated game ledger.marks (ledger.clock + 1) ledger.noopConcessions live) :
    DatedTable game ⟨live, ledger.observeTransition game.traced.toGameView events live⟩ := by
  obtain ⟨marks, clock, noted⟩ := @observe_known _ game.traced.toGameView ledger events live
  unfold DatedTable
  rw [clock]
  exact dated.mark.fewer marks noted

theorem Dated.restore {restored : Table (Live S)} {clock : Nat}
    (dated : Dated game table.ledger.marks clock table.ledger.noopConcessions table.state)
    (resolves : table.tryResolve game.traced.toGameView aiSeats = some restored) :
    Dated game restored.ledger.marks clock restored.ledger.noopConcessions restored.state := by
  obtain ⟨pending, vote, -, isState, isLedger⟩ := tryResolve_some resolves
  have noted : restored.ledger.noopConcessions = fun seat =>
      (table.ledger.noopConcessions seat).filter (· < pending.targetAt) := by rw [isLedger]
  have resumed := @Dated.resume _ game _ clock _ table.state .restored
    (game.install pending.targetState.now table.state.now) dated _ (pending_mem_marks vote)
  rw [isState, noted]
  refine resumed.fewer (fun mark mem => marks_mono mem ?_ ?_ ?_) fun _ _ => id
  · rw [isLedger]
    exact take_sublist ..
  · rw [tryResolve_turnPoints resolves]
    exact filter_sublist
  · rw [isLedger]
    exact nofun

theorem tryResolve_clock {T : Type} {view : GameView T} {table restored : Table T}
    (resolves : table.tryResolve view aiSeats = some restored) :
    restored.ledger.clock = table.ledger.clock := by
  obtain ⟨_, -, -, -, isLedger⟩ := tryResolve_some resolves
  rw [isLedger]

theorem Dated.restored {restored : Table (Live S)} (dated : DatedTable game table)
    (resolves : table.tryResolve game.traced.toGameView aiSeats = some restored) :
    DatedTable game restored := by
  have after := Dated.restore dated resolves
  rw [← tryResolve_clock resolves] at after
  exact after

variable {post : Live S}

section
variable (dated : DatedTable game table)
include dated

theorem Dated.acted {actor : PlayerId} {action : GameAction} {result : ActionResult} {post : Live S}
    (stays : action = .concede → ¬Departs game.traced.toGameView table.state post)
    (step : game.traced.Step table.state (.acted actor action result.applied) events post) :
    DatedTable game ⟨post, (let ledger := table.ledger.recordAction actor action result table.state
      if action = .concede then ledger.noteConcession actor
        else ledger).observeTransition game.traced.toGameView events post⟩ := by
  obtain ⟨clock, noted⟩ := @recordAction_known _ table.ledger actor action result table.state
  have recorded : Dated game (table.ledger.recordAction actor action result table.state).marks
      (table.ledger.recordAction actor action result table.state).clock
      (table.ledger.recordAction actor action result table.state).noopConcessions table.state := by
    rw [clock, noted]
    exact (Dated.mark dated).fewer (fun _ mem => recordAction_marks mem) fun _ _ => id
  split
  · next concede =>
    subst concede
    have conceded := @Dated.concede _ _ _ _ _ _ _ recorded actor result.applied (stays rfl)
    rw [← step.2] at conceded
    exact conceded.observe
  · refine Dated.observe ?_
    rw [step.2]
    exact recorded.move ..

theorem Dated.departure {deed : Deed} (step : game.traced.Step table.state deed events post) :
    DatedTable game ⟨post, table.ledger.observeMatchForfeit.2.observeTransition
      game.traced.toGameView events post⟩ := by
  refine Dated.observe ?_
  have moved := Dated.move dated deed post.now
  rw [← step.2] at moved
  exact moved.fewer (fun _ mem => closed_marks (retire_marks mem)) nofun

theorem DatedTable.voting {player : PlayerId} {target : RewindTarget} {picked : Live S × Nat × Nat}
    (picks : table.ledger.pick game.traced.toGameView player target = .ok picked) :
    DatedTable game (table.voting player picked) := by
  refine Dated.fewer dated (fun mark mem => marks_mono mem (.refl _) (.refl _) ?_) fun _ _ => id
  intro pending isVote
  cases isVote
  exact pick_mem_marks picks

theorem DatedTable.approvedBy {player : PlayerId} {pending : PendingTakeback (Live S)}
    (vote : table.ledger.pending = some pending) :
    DatedTable game (table.approvedBy pending player) := by
  refine Dated.fewer dated (fun mark mem => marks_mono mem (.refl _) (.refl _) ?_) fun _ _ => id
  intro other isVote
  cases isVote
  exact mem_marks.mpr (.inr (.inr ⟨pending, vote, rfl⟩))

theorem DatedTable.concession {actor : PlayerId} {applied : Bool} {events : List GameEvent}
    (stays : ¬Departs game.traced.toGameView table.state post)
    (step : game.traced.Step table.state (.acted actor .concede applied) events post) :
    Dated game table.ledger.marks (table.ledger.clock + 1)
      (table.ledger.noteConcession actor).noopConcessions post := by
  rw [step.2]
  exact dated.concede stays

theorem DatedTable.play {move : Move (Live S)} (admitted : game.traced.Admits table move) :
    DatedTable game (table.play game.traced.toGameView aiSeats move).2 := by
  have played := @play_played _ game.traced.toGameView aiSeats table move
  generalize table.play game.traced.toGameView aiSeats move = answer at played
  cases played with
  | refused => exact dated
  | acted quiet stays => exact Dated.acted dated stays admitted
  | departed | forfeited => exact Dated.departure dated admitted
  | @selfConceded actor known result post pending vote stays requester =>
    have conceded := DatedTable.concession dated stays admitted
    exact (conceded.fewer (fun _ mem => closed_marks mem) fun _ _ => id).observe
  | held vote stays other waits =>
    have conceded := DatedTable.concession dated stays admitted
    exact conceded.observe
  | @installed actor known result post pending restored vote stays other resolves =>
    have after := Dated.restore (DatedTable.concession dated stays admitted) resolves
    have clock := tryResolve_clock resolves
    change restored.ledger.clock = table.ledger.clock at clock
    rw [← clock] at after
    exact after
  | @driven events post =>
    have moved := Dated.move dated .driven post.now
    rw [← admitted.2.2] at moved
    exact moved.observe
  | @requested player target picked outcome after quiet human picks settled =>
    have voting := @DatedTable.voting _ game table dated player target picked picks
    rcases settle_cases settled with ⟨-, rfl, -⟩ | ⟨-, resolves⟩
    · exact voting
    · exact Dated.restored voting resolves
  | @answered player pending outcome after vote voter settled =>
    have approved := @DatedTable.approvedBy _ game table dated player pending vote
    rcases settle_cases settled with ⟨-, rfl, -⟩ | ⟨-, resolves⟩
    · exact approved
    · exact Dated.restored approved resolves
  | declined | cancelled => exact Dated.fewer dated (fun _ mem => closed_marks mem) fun _ _ => id

end

theorem Run.dated {turnRewind : Bool} {start : S}
    {allowed : Table (Live S) → Move (Live S) → Prop} {ballot : Option (Ballot (Live S))}
    (run : Run game.traced aiSeats allowed
      (.opened game.traced.toGameView turnRewind ⟨start, [], 0⟩) table ballot) :
    DatedTable game table := by
  induction run with
  | start =>
    cases turnRewind with
    | true => exact ⟨nofun, nofun⟩
    | false => exact ⟨nofun, nofun⟩
  | move run move admitted meets ih => exact DatedTable.play ih admitted

end

end Phase.Takeback
