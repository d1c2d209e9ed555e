import Phase.Takeback.Run

/-! The ledger reads no more of a state than the game shows of it: a run of states that carry
their branch is a run of the states alone, and every run of these comes from one. -/
namespace Phase.Takeback
open Branch Table Option

/-- A map of states that keeps everything the ledger reads. -/
structure Erases {T S : Type} (view : GameView T) (view' : GameView S) (f : T → S) : Prop where
  players : ∀ state, view'.players (f state) = view.players state
  eliminatedPlayers : ∀ state, view'.eliminatedPlayers (f state) = view.eliminatedPlayers state
  turnNumber : ∀ state, view'.turnNumber (f state) = view.turnNumber state
  gameNumber : ∀ state, view'.gameNumber (f state) = view.gameNumber state
  waitingFor : ∀ state, view'.waitingFor (f state) = view.waitingFor state
  install : ∀ target replaced, view'.install (f target) (f replaced) =
    f (view.install target replaced)

section
variable {T S : Type} (f : T → S)

def TakebackPoint.map (point : TakebackPoint T) : TakebackPoint S :=
  { point with state := f point.state }

def TurnPoint.map (point : TurnPoint T) : TurnPoint S := { point with state := f point.state }

def PendingTakeback.map (pending : PendingTakeback T) : PendingTakeback S :=
  { pending with targetState := f pending.targetState }

def TakebackLedger.map (ledger : TakebackLedger T) : TakebackLedger S :=
  { ledger with
    history := ledger.history.map (TakebackPoint.map f)
    turnHistory := ledger.turnHistory.map (·.map (TurnPoint.map f))
    pending := ledger.pending.map (PendingTakeback.map f) }

def Table.map (table : Table T) : Table S := ⟨f table.state, table.ledger.map f⟩

def Move.map : Move T → Move S
  | .act actor known action result post => .act actor known action result (f post)
  | .drive events post => .drive events (f post)
  | .forfeit events post => .forfeit events (f post)
  | .request player target => .request player target
  | .respond player approve => .respond player approve
  | .cancel player => .cancel player

def Ballot.map (ballot : Ballot T) : Ballot S := { ballot with opening := ballot.opening.map f }

end

section
variable {T S : Type} {view : GameView T} {view' : GameView S} {f : T → S}
  {aiSeats : List PlayerId} {ledger : TakebackLedger T} {table : Table T}

theorem pushBounded_map {α β : Type} (g : α → β) (depth : Nat) (ring : List α) (entry : α) :
    pushBounded depth (ring.map g) (g entry) = (pushBounded depth ring entry).map g := by
  unfold pushBounded
  rw [List.length_map]
  split <;> simp

theorem recordPoint_map (actor : PlayerId) (state : T) :
    (ledger.map f).recordPoint actor (f state) = (ledger.recordPoint actor state).map f := by
  unfold TakebackLedger.recordPoint
  have isSome : (ledger.map f).pending.isSome = ledger.pending.isSome := isSome_map
  rw [isSome]
  split
  · rfl
  · have pushed := pushBounded_map (TakebackPoint.map f) maxTakebackHistory ledger.history
      ⟨actor, ledger.clock, state⟩
    simpa [TakebackLedger.map, TakebackPoint.map] using pushed

theorem recordAction_map (actor : PlayerId) (action : GameAction) (result : ActionResult)
    (state : T) : (ledger.map f).recordAction actor action result (f state) =
      (ledger.recordAction actor action result state).map f := by
  unfold TakebackLedger.recordAction
  split
  · exact recordPoint_map ..
  · rfl

theorem retire_map : (ledger.map f).retire = ledger.retire.map f := by
  unfold TakebackLedger.retire TakebackLedger.map
  cases ledger.turnHistory <;> rfl

section
variable (erases : Erases view view' f)
include erases

theorem recordTurnPoint_map (events : List GameEvent) (state : T) :
    (ledger.map f).recordTurnPoint view' events (f state) =
      (ledger.recordTurnPoint view events state).map f := by
  unfold TakebackLedger.recordTurnPoint
  rw [erases.turnNumber]
  cases isRing : ledger.turnHistory with
  | none => simp [TakebackLedger.map, isRing]
  | some ring =>
    cases started : TakebackLedger.turnStarted events with
    | none => simp [TakebackLedger.map, isRing]
    | some turn =>
      have pushed := pushBounded_map (TurnPoint.map f) maxTurnRewindHistory ring
        ⟨ledger.clock, state⟩
      by_cases same : turn = view.turnNumber state
      · simpa [TakebackLedger.map, isRing, same, TurnPoint.map] using pushed
      · simp [TakebackLedger.map, isRing, same]

theorem observeTransition_map (events : List GameEvent) (state : T) :
    (ledger.map f).observeTransition view' events (f state) =
      (ledger.observeTransition view events state).map f := by
  unfold TakebackLedger.observeTransition
  dsimp only
  rw [erases.gameNumber, ← recordTurnPoint_map erases]
  split
  · next differs =>
    rw [if_pos (by exact differs), ← retire_map]
    rfl
  · next same =>
    rw [if_neg (by exact same)]
    rfl

theorem voters_map (pending : PendingTakeback T) :
    (table.map f).voters view' aiSeats (pending.map f) = table.voters view aiSeats pending := by
  unfold voters candidates map PendingTakeback.map TakebackLedger.map
  simp only [erases.players, erases.eliminatedPlayers]

theorem tryResolve_map :
    (table.map f).tryResolve view' aiSeats = (table.tryResolve view aiSeats).map (map f) := by
  unfold tryResolve
  cases vote : table.ledger.pending with
  | none =>
    have noVote : (table.map f).ledger.pending = none := by
      simp [map, TakebackLedger.map, vote]
    rw [noVote]
    rfl
  | some pending =>
    have isVote : (table.map f).ledger.pending = some (pending.map f) := by
      simp [map, TakebackLedger.map, vote]
    rw [isVote]
    dsimp only
    rw [voters_map erases]
    split
    · next all =>
      rw [if_pos (by exact all)]
      have installed : view'.install (pending.map f).targetState (table.map f).state =
          f (view.install pending.targetState table.state) := erases.install ..
      rw [installed]
      refine congrArg some ?_
      unfold map TakebackLedger.map
      congr 1
      simp only [List.map_take, map_map, map_none]
      congr 1
      cases table.ledger.turnHistory with
      | none => rfl
      | some ring =>
        simp only [map_some, Function.comp, List.filter_map, erases.turnNumber]
        refine congrArg (fun kept => some (kept.map (TurnPoint.map f)))
          (List.filter_congr fun point _ => ?_)
        simp [TurnPoint.map, erases.turnNumber]
    · next some_ =>
      rw [if_neg (by exact some_)]
      rfl

theorem settle_map :
    (table.map f).settle view' aiSeats = ((table.settle view aiSeats).1,
      (table.settle view aiSeats).2.map f) := by
  unfold settle
  rw [tryResolve_map erases]
  cases table.tryResolve view aiSeats <;> rfl

theorem pick_map (player : PlayerId) (target : RewindTarget) :
    (ledger.map f).pick view' player target =
      (ledger.pick view player target).map fun picked => (f picked.1, picked.2) := by
  unfold TakebackLedger.pick
  cases target with
  | lastAction =>
    have found : (ledger.map f).history.zipIdx.reverse.find? (fun entry =>
        entry.1.actor = player) = (ledger.history.zipIdx.reverse.find? fun entry =>
          entry.1.actor = player).map (Prod.map (TakebackPoint.map f) id) := by
      change ((ledger.history.map (TakebackPoint.map f)).zipIdx.reverse.find? _) = _
      rw [List.zipIdx_map, ← List.map_reverse, List.find?_map]
      rfl
    rw [found]
    cases ledger.history.zipIdx.reverse.find? fun entry => entry.1.actor = player with
    | none => rfl
    | some entry => rfl
  | turnStart turnNumber =>
    cases isRing : ledger.turnHistory with
    | none => simp [TakebackLedger.map, isRing, Except.map]
    | some ring =>
      have isRing' : (ledger.map f).turnHistory = some (ring.map (TurnPoint.map f)) := by
        simp [TakebackLedger.map, isRing]
      have found : (ring.map (TurnPoint.map f)).find? (fun point =>
          view'.turnNumber point.state = turnNumber) = (ring.find? fun point =>
            view.turnNumber point.state = turnNumber).map (TurnPoint.map f) := by
        rw [List.find?_map]
        congr 2
        funext point
        simp [TurnPoint.map, erases.turnNumber]
      have kept : ((ledger.map f).history.takeWhile fun entry =>
          view'.turnNumber entry.state < turnNumber).length =
          (ledger.history.takeWhile fun entry =>
            view.turnNumber entry.state < turnNumber).length := by
        change ((ledger.history.map (TakebackPoint.map f)).takeWhile _).length = _
        rw [List.takeWhile_map, List.length_map]
        congr 2
        funext point
        simp [TakebackPoint.map, erases.turnNumber]
      rw [isRing']
      dsimp only
      rw [found]
      cases ring.find? fun point => view.turnNumber point.state = turnNumber with
      | none => rfl
      | some point =>
        simp only [map_some, kept]
        rfl

theorem isHumanSeat_map (state : T) (player : PlayerId) :
    isHumanSeat view' aiSeats (f state) player =
      isHumanSeat view aiSeats state player := by
  unfold isHumanSeat
  rw [erases.players]

end

theorem pending_map : (table.map f).ledger.pending = table.ledger.pending.map (.map f) :=
  rfl

theorem request_map (erases : Erases view view' f) (player : PlayerId) (target : RewindTarget) :
    (table.map f).request view' aiSeats player target =
      ((table.request view aiSeats player target).1,
        (table.request view aiSeats player target).2.map f) := by
  unfold request
  have waiting : view'.waitingFor (table.map f).state = view.waitingFor table.state :=
    erases.waitingFor _
  have vote : (table.map f).ledger.pending.isSome = table.ledger.pending.isSome :=
    isSome_map
  have human : isHumanSeat view' aiSeats (table.map f).state player =
      isHumanSeat view aiSeats table.state player := isHumanSeat_map erases ..
  have picks : (table.map f).ledger.pick view' player target =
      (table.ledger.pick view player target).map fun picked => (f picked.1, picked.2) :=
    pick_map erases ..
  rw [waiting, vote, human, picks]
  by_cases contest : view.waitingFor table.state = .physicalContest
  · simp only [if_pos contest]
  by_cases ended : view.waitingFor table.state = .gameOver
  · simp only [if_neg contest, if_pos ended]
  by_cases isVote : table.ledger.pending.isSome = true
  · simp only [if_neg contest, if_neg ended, if_pos isVote]
  by_cases outsider : (!isHumanSeat view aiSeats table.state player) = true
  · simp only [if_neg contest, if_neg ended, if_neg isVote, if_pos outsider]
  simp only [if_neg contest, if_neg ended, if_neg isVote, if_neg outsider]
  cases table.ledger.pick view player target with
  | error reason => rfl
  | ok picked =>
    have settled := @settle_map _ _ _ _ _ aiSeats (table.voting player picked) erases
    exact congrArg (fun settled => (Except.ok settled.1, settled.2)) settled

theorem respond_map (erases : Erases view view' f) (player : PlayerId) (approve : Bool) :
    (table.map f).respond view' aiSeats player approve =
      ((table.respond view aiSeats player approve).1,
        (table.respond view aiSeats player approve).2.map f) := by
  unfold respond
  have human : isHumanSeat view' aiSeats (table.map f).state player =
      isHumanSeat view aiSeats table.state player := isHumanSeat_map erases ..
  rw [human, pending_map]
  cases vote : table.ledger.pending with
  | none => rfl
  | some pending =>
    simp only [map_some, voters_map erases]
    by_cases outsider : (!isHumanSeat view aiSeats table.state player) = true
    · simp only [if_pos outsider]
    by_cases unasked : player ∉ table.voters view aiSeats pending
    · simp only [if_neg outsider, if_pos unasked]
    simp only [if_neg outsider, if_neg unasked]
    cases approve with
    | false => rfl
    | true =>
      have settled := @settle_map _ _ _ _ _ aiSeats (table.approvedBy pending player) erases
      exact congrArg (fun settled => (Except.ok settled.1, settled.2)) settled

theorem cancel_map (player : PlayerId) : (ledger.map f).cancel player =
    ((ledger.cancel player).1, (ledger.cancel player).2.map f) := by
  unfold TakebackLedger.cancel
  have isVote : (ledger.map f).pending = ledger.pending.map (.map f) := rfl
  rw [isVote]
  cases ledger.pending with
  | none => rfl
  | some pending =>
    by_cases requester : pending.requestedBy = player
    · have same : (pending.map f).requestedBy = player := requester
      simp only [map_some, if_pos requester, if_pos same]
      rfl
    · have other : (pending.map f).requestedBy ≠ player := requester
      simp only [map_some, if_neg requester, if_neg other]

theorem observeMatchForfeit_map : (ledger.map f).observeMatchForfeit =
    (ledger.observeMatchForfeit.1, ledger.observeMatchForfeit.2.map f) := by
  refine Prod.ext ?_ ?_
  · exact map_map ..
  · exact @retire_map _ _ f { ledger with pending := none }

theorem noopConcede_map (erases : Erases view view' f) (actor : PlayerId) :
    noopConcede view' aiSeats (table.map f) actor =
      ((noopConcede view aiSeats table actor).1,
        (noopConcede view aiSeats table actor).2.1,
        (noopConcede view aiSeats table actor).2.2.map f) := by
  have isVote : ((table.map f).ledger.noteConcession actor).pending =
      table.ledger.pending.map (.map f) := rfl
  unfold noopConcede
  cases vote : table.ledger.pending with
  | none =>
    rw [vote] at isVote
    have noVote : (table.ledger.noteConcession actor).pending = none := vote
    simp only [isVote, noVote, map_none]
    rfl
  | some pending =>
    rw [vote] at isVote
    have isVote' : (table.ledger.noteConcession actor).pending = some pending := vote
    simp only [isVote, isVote', map_some]
    by_cases requester : pending.requestedBy = actor
    · have same : (pending.map f).requestedBy = actor := requester
      simp only [if_pos requester, if_pos same]
      rfl
    · have other : (pending.map f).requestedBy ≠ actor := requester
      simp only [if_neg requester, if_neg other]
      have resolved := @tryResolve_map _ _ _ _ _ aiSeats
        ⟨table.state, table.ledger.noteConcession actor⟩ erases
      have noted : (⟨(table.map f).state, (table.map f).ledger.noteConcession actor⟩ : Table S) =
          (⟨table.state, table.ledger.noteConcession actor⟩ : Table T).map f := rfl
      rw [noted, resolved]
      cases tryResolve view aiSeats ⟨table.state, table.ledger.noteConcession actor⟩ with
      | none => rfl
      | some restored => rfl

theorem concession_map (erases : Erases view view' f) (actor : PlayerId)
    (eliminatedBefore : List PlayerId) :
    concession view' aiSeats (table.map f) actor eliminatedBefore =
      ((concession view aiSeats table actor eliminatedBefore).1,
        (concession view aiSeats table actor eliminatedBefore).2.1,
        (concession view aiSeats table actor eliminatedBefore).2.2.map f) := by
  have eliminated : view'.eliminatedPlayers (table.map f).state =
      view.eliminatedPlayers table.state := erases.eliminatedPlayers _
  unfold concession
  rw [eliminated]
  split
  · have forfeits := @observeMatchForfeit_map _ _ f table.ledger
    exact congrArg (fun forfeits => (forfeits.1, false, mk _ forfeits.2)) forfeits
  · exact noopConcede_map erases actor

theorem recordCapture_map (known : Bool) (actor : PlayerId)
    (action : GameAction) (result : ActionResult) (pre : T) :
    (ledger.map f).recordCapture actor (TakebackLedger.capture view' (f pre)
        (if known then some action else none)) action result =
      (ledger.recordCapture actor (TakebackLedger.capture view pre
        (if known then some action else none)) action result).map f := by
  rw [recordCapture_eq, recordCapture_eq]
  exact recordAction_map ..

theorem closeAction_map (erases : Erases view view' f) (events : List GameEvent)
    (conceded : Option TakebackResolution × Bool × Table T) :
    closeAction view' events (conceded.1, conceded.2.1, conceded.2.2.map f) =
      ((closeAction view events conceded).1, (closeAction view events conceded).2.map f) := by
  obtain ⟨resolution, installed, table⟩ := conceded
  cases installed with
  | true => rfl
  | false =>
    have observed := @observeTransition_map _ _ _ _ _ table.ledger erases events table.state
    exact congrArg (fun ledger => (resolution, mk (f table.state) ledger)) observed

theorem recordHumanAction_map (erases : Erases view view' f) (actor : PlayerId) (known : Bool)
    (action : GameAction) (result : ActionResult) (post : T) :
    recordHumanAction view' aiSeats { table.map f with state := f post } actor
        (TakebackLedger.capture view' (f table.state) (if known then some action else none))
        action result =
      (fun recorded : Option TakebackResolution × Table T => (recorded.1, recorded.2.map f))
        (recordHumanAction view aiSeats { table with state := post } actor
          (TakebackLedger.capture view table.state (if known then some action else none))
          action result) := by
  have recorded := @recordCapture_map _ _ view view' f table.ledger known actor action result
    table.state
  have eliminated := erases.eliminatedPlayers table.state
  unfold recordHumanAction
  generalize isLedger : table.ledger.recordCapture actor (TakebackLedger.capture view table.state
    (if known then some action else none)) action result = ledger at *
  have ledger' : (table.map f).ledger.recordCapture actor (TakebackLedger.capture view' (f table.state)
    (if known then some action else none)) action result = ledger.map f := recorded
  simp only [ledger']
  by_cases concede : action = .concede
  · simp only [if_pos concede]
    have conceded := @concession_map _ _ _ _ _ aiSeats ⟨post, ledger⟩ erases actor
      (view.eliminatedPlayers table.state)
    have closed := closeAction_map erases result.events
      (concession view aiSeats ⟨post, ledger⟩ actor (view.eliminatedPlayers table.state))
    rw [← conceded] at closed
    simp only [TakebackLedger.capture, eliminated]
    exact closed
  · simp only [if_neg concede]
    exact closeAction_map erases result.events (none, false, ⟨post, ledger⟩)

theorem play_map (erases : Erases view view' f) (move : Move T) :
    (table.map f).play view' aiSeats (move.map f) =
      ((table.play view aiSeats move).1, (table.play view aiSeats move).2.map f) := by
  cases move with
  | act actor known action result post =>
    have admits : (table.map f).ledger.admitAction action = table.ledger.admitAction action := by
      unfold TakebackLedger.admitAction TakebackLedger.refuseWhilePending
      rw [pending_map, isSome_map]
    simp only [Move.map, play]
    rw [admits]
    split
    · rfl
    · have recorded := @recordHumanAction_map _ _ _ _ _ aiSeats table erases actor known action
        result post
      exact congrArg (fun recorded => (Answer.done recorded.1, recorded.2)) recorded
  | drive events post =>
    have observed := @observeTransition_map _ _ _ _ _ table.ledger erases events post
    exact congrArg (fun ledger => (Answer.done none, mk (f post) ledger)) observed
  | forfeit events post =>
    have forfeits := @observeMatchForfeit_map _ _ f table.ledger
    have observed := @observeTransition_map _ _ _ _ _ table.ledger.observeMatchForfeit.2 erases
      events post
    have ledger : (table.map f).ledger = table.ledger.map f := rfl
    simp only [Move.map, play, ledger, forfeits, observed]
    rfl
  | request player target =>
    have requested := @request_map _ _ _ _ _ aiSeats table erases player target
    exact congrArg (fun answer => (Answer.of answer.1, answer.2)) requested
  | respond player approve =>
    have responded := @respond_map _ _ _ _ _ aiSeats table erases player approve
    exact congrArg (fun answer => (Answer.of answer.1, answer.2)) responded
  | cancel player =>
    have cancelled := @cancel_map _ _ f table.ledger player
    exact congrArg (fun answer => (Answer.of (answer.1.map fun _ => .resolved .cancelled),
      mk (f table.state) answer.2)) cancelled

end

section
variable {S : Type} {game : Game S} {aiSeats : List PlayerId}

theorem erases_now (game : Game S) :
    Erases game.traced.toGameView game.toGameView (Traced.now (L := Deed)) :=
  ⟨fun _ => rfl, fun _ => rfl, fun _ => rfl, fun _ => rfl, fun _ => rfl, fun _ _ => rfl⟩

/-- The same move from a state that carries its branch. -/
def Move.trace (live : Live S) : Move S → Move (Live S)
  | .act actor known action result post =>
    .act actor known action result (live.move (.acted actor action result.applied) post)
  | .drive events post => .drive events (live.move .driven post)
  | .forfeit events post => .forfeit events (live.move .forfeited post)
  | .request player target => .request player target
  | .respond player approve => .respond player approve
  | .cancel player => .cancel player

theorem trace_now (live : Live S) (move : Move S) : (move.trace live).map Traced.now = move := by
  cases move <;> rfl

theorem trace_admitted {table : Table (Live S)} {move : Move S}
    (admitted : game.Admits (table.map Traced.now) move) :
    game.traced.Admits table (move.trace table.state) := by
  cases move with
  | act actor known action result post => exact ⟨admitted, rfl⟩
  | drive events post =>
    obtain ⟨quiet, step⟩ := admitted
    exact ⟨map_eq_none_iff.mp quiet, step, rfl⟩
  | forfeit events post => exact ⟨admitted, rfl⟩
  | request | respond | cancel => trivial

theorem cast_map {T : Type} {f : T → S} (ballot : Option (Ballot T)) (table : Table T)
    (move : Move T) (answer : Answer) :
    Ballot.cast (ballot.map (.map f)) (table.map f) (move.map f) answer =
      (Ballot.cast ballot table move answer).map (.map f) := by
  cases move with
  | request player target => cases answer <;> rfl
  | respond player approve =>
    cases approve with
    | true =>
      cases answer with
      | refused => rfl
      | done ended => cases ballot <;> rfl
    | false => cases answer <;> rfl
  | act | drive | forfeit | cancel => rfl

theorem next_map {T : Type} {f : T → S} (ballot : Option (Ballot T)) (table : Table T)
    (move : Move T) (played : Answer × Table T) :
    Ballot.next (ballot.map (.map f)) (table.map f) (move.map f) (played.1, played.2.map f) =
      (Ballot.next ballot table move played).map (.map f) := by
  unfold Ballot.next
  rw [cast_map]
  change (if (played.2.ledger.pending.map _).isSome then _ else _) = _
  rw [isSome_map]
  split <;> rfl

/-- Every run is what is left of one whose states carry their branches. -/
theorem Run.lift {allowed : Table S → Move S → Prop}
    {allowed' : Table (Live S) → Move (Live S) → Prop}
    (weaker : ∀ table move, allowed (table.map Traced.now) (move.map Traced.now) →
      allowed' table move)
    {turnRewind : Bool} {state : S} {table : Table S} {ballot : Option (Ballot S)}
    (run : Run game aiSeats allowed (.opened game.toGameView turnRewind state) table ballot) :
    ∃ table' ballot', Run game.traced aiSeats allowed'
        (.opened game.traced.toGameView turnRewind ⟨state, [], 0⟩) table' ballot' ∧
      table'.map Traced.now = table ∧ ballot'.map (.map Traced.now) = ballot := by
  induction run with
  | start =>
    refine ⟨_, _, .start, ?_, rfl⟩
    cases turnRewind <;> rfl
  | move run move admitted meets ih =>
    obtain ⟨table', ballot', run', rfl, rfl⟩ := ih
    have same := trace_now table'.state move
    have played := @play_map _ _ _ _ _ aiSeats table' (erases_now game) (move.trace table'.state)
    rw [same] at played
    refine ⟨_, _, run'.move (move.trace table'.state) (trace_admitted admitted)
      (weaker _ _ (same.symm ▸ meets)), ?_, ?_⟩
    · rw [played]
    · rw [played, ← next_map, same]

end

end Phase.Takeback
