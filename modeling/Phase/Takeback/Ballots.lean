import Phase.Takeback.Rings

/-! The ledger's open vote is the one that was requested, with the approvals it was given. -/
namespace Phase.Takeback

section
variable {S : Type} {view : GameView S} {aiSeats : List PlayerId} {table table' : Table S}
  {move : Move S} {ballot : Option (Ballot S)}

/-- The table at which a move asks whether a vote is over. -/
inductive Votes (view : GameView S) (aiSeats : List PlayerId) (table : Table S) :
    Move S → Table S → Prop
  | request {player : PlayerId} {target : RewindTarget} {picked : S × Nat × Nat}
      (quiet : table.ledger.pending = none)
      (picks : table.ledger.pick view player target = .ok picked) :
      Votes view aiSeats table (.request player target) (table.voting player picked)
  | answer {player : PlayerId} {pending : PendingTakeback S}
      (vote : table.ledger.pending = some pending)
      (voter : player ∈ table.voters view aiSeats pending) :
      Votes view aiSeats table (.respond player true) (table.approvedBy pending player)
  | concession {actor : PlayerId} {known : Bool} {result : ActionResult} {post : S}
      {pending : PendingTakeback S} (vote : table.ledger.pending = some pending)
      (stays : ¬Departs view table.state post) (other : pending.requestedBy ≠ actor) :
      Votes view aiSeats table (.act actor known .concede result post)
        ⟨post, table.ledger.noteConcession actor⟩

/-- The state that a move leads to, before a vote replaces it. -/
def Move.arrival (table : Table S) : Move S → S
  | .act _ _ _ _ post | .drive _ post | .forfeit _ post => post
  | .request _ _ | .respond _ _ | .cancel _ => table.state

theorem Votes.arrival {voting : Table S} (votes : Votes view aiSeats table move voting) :
    voting.state = move.arrival table := by
  cases votes <;> rfl

/-- A vote is approved when one of these tables resolves. -/
theorem Played.approved (played : Played view aiSeats table move (.done (some .approved), table')) :
    ∃ voting restored, Votes view aiSeats table move voting ∧
      voting.tryResolve view aiSeats = some restored ∧ table'.state = restored.state := by
  generalize isAnswer : (Answer.done (some .approved), table') = answer at played
  cases played with
  | refused | acted | selfConceded | held | driven | declined | cancelled => cases isAnswer
  | departed | forfeited =>
    cases vote : table.ledger.pending <;> rw [vote] at isAnswer <;> cases isAnswer
  | installed vote stays other resolves =>
    cases isAnswer
    exact ⟨_, _, .concession vote stays other, resolves, rfl⟩
  | requested quiet human picks settled =>
    rcases settle_cases settled with ⟨rfl, rfl, -⟩ | ⟨rfl, resolves⟩
    · cases isAnswer
    · cases isAnswer
      exact ⟨_, _, .request quiet picks, resolves, rfl⟩
  | answered vote voter settled =>
    rcases settle_cases settled with ⟨rfl, rfl, -⟩ | ⟨rfl, resolves⟩
    · cases isAnswer
    · cases isAnswer
      exact ⟨_, _, .answer vote voter, resolves, rfl⟩

/-- The ledger's vote and the one that was requested. -/
structure Agrees (view : GameView S) (pending : PendingTakeback S) (ballot : Ballot S) : Prop where
  requester : pending.requestedBy = ballot.requester
  picks : ballot.opening.pick view ballot.requester ballot.target =
    .ok (pending.targetState, pending.targetAt, pending.historyTruncateLen)
  approvals : ∀ seat, seat ∈ pending.approvals ↔ seat = ballot.requester ∨ seat ∈ ballot.approved

theorem Votes.agrees {voting : Table S} (votes : Votes view aiSeats table move voting)
    (agrees : Option.Rel (Agrees view) table.ledger.pending ballot)
    (ended : Option TakebackResolution) :
    ∃ pending cast, voting.ledger.pending = some pending ∧
      Ballot.cast ballot table move (.done ended) = some cast ∧ Agrees view pending cast := by
  cases votes with
  | request quiet picks =>
    exact ⟨_, _, rfl, rfl, rfl, picks, fun seat => by simp⟩
  | @answer player pending vote voter =>
    rw [vote] at agrees
    cases agrees with
    | some agrees =>
      refine ⟨_, _, rfl, rfl, agrees.requester, agrees.picks, fun seat => ?_⟩
      rw [Finset.mem_insert, agrees.approvals, List.mem_append, List.mem_singleton]
      tauto
  | concession vote stays other =>
    rw [vote] at agrees
    cases agrees with
    | some agrees => exact ⟨_, _, vote, rfl, agrees⟩

theorem agrees_next {answer : Answer} {after : Table S}
    (vote : after.ledger.pending = none ∨ ∃ pending cast, after.ledger.pending = some pending ∧
      Ballot.cast ballot table move answer = some cast ∧ Agrees view pending cast) :
    Option.Rel (Agrees view) after.ledger.pending
      (Ballot.next ballot table move (answer, after)) := by
  unfold Ballot.next
  rcases vote with noVote | ⟨pending, cast, isVote, isCast, agrees⟩
  · rw [noVote]
    exact .none
  · rw [isVote, isCast]
    exact .some agrees

theorem agrees_kept {answer : Answer} {after : Table S}
    (agrees : Option.Rel (Agrees view) table.ledger.pending ballot)
    (same : after.ledger.pending = table.ledger.pending)
    (isCast : Ballot.cast ballot table move answer = ballot) :
    Option.Rel (Agrees view) after.ledger.pending
      (Ballot.next ballot table move (answer, after)) := by
  refine agrees_next ?_
  rw [same, isCast]
  generalize table.ledger.pending = pending at agrees
  cases agrees with
  | none => exact .inl rfl
  | some agrees => exact .inr ⟨_, _, rfl, rfl, agrees⟩

theorem cast_refused : Ballot.cast ballot table move .refused = ballot := by
  cases move with
  | respond player approve => cases approve <;> rfl
  | act | drive | forfeit | request | cancel => rfl

theorem Played.agrees {played : Answer × Table S} (isPlayed : Played view aiSeats table move played)
    (agrees : Option.Rel (Agrees view) table.ledger.pending ballot) :
    Option.Rel (Agrees view) played.2.ledger.pending (Ballot.next ballot table move played) := by
  have closed {events : List GameEvent} {post : S} {ledger : TakebackLedger S}
      (noVote : ledger.pending = none) :
      (ledger.observeTransition view events post).pending = none :=
    observeTransition_pending.trans noVote
  cases isPlayed with
  | refused => exact agrees_kept agrees rfl cast_refused
  | acted quiet stays =>
    refine agrees_next (.inl (closed ?_))
    split
    · exact recordAction_pending.trans quiet
    · exact recordAction_pending.trans quiet
  | departed | forfeited | selfConceded => exact agrees_next (.inl (closed rfl))
  | held => exact agrees_kept agrees observeTransition_pending rfl
  | installed vote stays other resolves =>
    obtain ⟨_, -, -, -, isLedger⟩ := tryResolve_some resolves
    exact agrees_next (.inl (by rw [isLedger]))
  | driven => exact agrees_kept agrees observeTransition_pending rfl
  | @requested player target picked _ _ quiet human picks settled =>
    have votes : Votes view aiSeats table (.request player target) (table.voting player picked) :=
      .request quiet picks
    rcases settle_cases settled with ⟨rfl, rfl, -⟩ | ⟨rfl, resolves⟩
    · exact agrees_next (.inr (votes.agrees agrees none))
    · obtain ⟨_, -, -, -, isLedger⟩ := tryResolve_some resolves
      exact agrees_next (.inl (by rw [isLedger]))
  | answered vote voter settled =>
    rcases settle_cases settled with ⟨rfl, rfl, -⟩ | ⟨rfl, resolves⟩
    · exact agrees_next (.inr ((Votes.answer vote voter).agrees agrees none))
    · obtain ⟨_, -, -, -, isLedger⟩ := tryResolve_some resolves
      exact agrees_next (.inl (by rw [isLedger]))
  | declined | cancelled => exact agrees_next (.inl rfl)

/-- In every run the ledger has the vote that was requested. -/
theorem Run.agrees {game : Game S} {allowed : Table S → Move S → Prop} {start : Table S}
    (run : Run game aiSeats allowed start table ballot) (quiet : start.ledger.pending = none) :
    Option.Rel (Agrees game.toGameView) table.ledger.pending ballot := by
  induction run with
  | start =>
    rw [quiet]
    exact .none
  | move run move admitted meets ih => exact (play_played move).agrees ih

theorem opened_pending {turnRewind : Bool} {state : S} :
    (Table.opened view turnRewind state).ledger.pending = none := by
  cases turnRewind <;> rfl

end

end Phase.Takeback
