import Phase.Takeback.Concessions
import Phase.Takeback.Rollback

/-! An approved takeback was approved by everyone whose approval it needs, and no vote is stuck. -/
namespace Phase.Takeback
open Branch Table List

section
variable {S : Type} {view : GameView S} {aiSeats : List PlayerId} {table : Table S}

variable {pending : PendingTakeback S}

theorem tryResolve_eq_none {pending : PendingTakeback S} (vote : table.ledger.pending = some pending) :
    table.tryResolve view aiSeats = none ↔
      ∃ seat ∈ table.voters view aiSeats pending, seat ∉ pending.approvals := by
  unfold tryResolve
  rw [vote]
  dsimp only
  split
  · next all => simpa using all
  · next missing => simpa using missing

theorem tryResolve_quiet (quiet : table.ledger.pending = none) :
    table.tryResolve view aiSeats = none := by
  unfold tryResolve
  rw [quiet]

/-- Who is asked besides the seats in the game now depends only on the concessions. -/
theorem voters_mono {other : TakebackLedger S}
    (forgets : ∀ seat made, other.noopConcessions seat = some made →
      table.ledger.noopConcessions seat = some made) {seat : PlayerId}
    (voter : seat ∈ table.voters view aiSeats pending) :
    seat ∈ voters view aiSeats { table with ledger := other } pending := by
  unfold voters at voter ⊢
  dsimp only at voter ⊢
  split
  · next some_ =>
    rw [if_pos some_] at voter
    exact voter
  · next none_ =>
    rw [if_neg none_] at voter
    obtain ⟨candidate, asked⟩ := mem_filter.mp voter
    obtain ⟨there, before⟩ := Bool.and_eq_true_iff.mp asked
    refine mem_filter.mpr ⟨candidate, Bool.and_eq_true_iff.mpr ⟨there, ?_⟩⟩
    cases isNoted : other.noopConcessions seat with
    | none => rfl
    | some made =>
      rw [forgets seat made isNoted] at before
      exact before

/-- Nobody waits for a vote that is over. -/
theorem Played.waits {move : Move S} {played : Answer × Table S}
    (isPlayed : Played view aiSeats table move played)
    (waits : table.tryResolve view aiSeats = none)
    (driven : ∀ events post, move = .drive events post → table.ledger.pending = none) :
    played.2.tryResolve view aiSeats = none := by
  have closed {events : List GameEvent} {post : S} {ledger : TakebackLedger S}
      (noVote : ledger.pending = none) :
      tryResolve view aiSeats ⟨post, ledger.observeTransition view events post⟩ = none :=
    tryResolve_quiet (observeTransition_pending.trans noVote)
  have restored {voting after : Table S} (resolves : voting.tryResolve view aiSeats = some after) :
      after.tryResolve view aiSeats = none := by
    obtain ⟨_, -, -, -, isLedger⟩ := tryResolve_some resolves
    exact tryResolve_quiet (by rw [isLedger])
  cases isPlayed with
  | refused => exact waits
  | acted quiet stays =>
    refine closed ?_
    split
    · exact recordAction_pending.trans quiet
    · exact recordAction_pending.trans quiet
  | departed | forfeited | selfConceded => exact closed rfl
  | @held actor known result post pending vote stays other missing =>
    have isVote : (table.ledger.noteConcession actor).pending = some pending := vote
    obtain ⟨seat, voter, absent⟩ := (@tryResolve_eq_none _ _ _ ⟨post, _⟩ _ isVote).mp missing
    have forgets := (@observe_known _ view (table.ledger.noteConcession actor) result.events
      post).2.2
    exact (@tryResolve_eq_none _ _ _ ⟨post, _⟩ _ (observeTransition_pending.trans isVote)).mpr
      ⟨seat, voters_mono forgets voter, absent⟩
  | installed vote stays other resolves =>
    obtain ⟨_, -, -, -, isLedger⟩ := tryResolve_some resolves
    exact tryResolve_quiet (by rw [isLedger])
  | driven => exact closed (driven _ _ rfl)
  | requested quiet human picks settled =>
    rcases settle_cases settled with ⟨-, rfl, missing⟩ | ⟨-, resolves⟩
    · exact missing
    · exact restored resolves
  | answered vote voter settled =>
    rcases settle_cases settled with ⟨-, rfl, missing⟩ | ⟨-, resolves⟩
    · exact missing
    · exact restored resolves
  | declined | cancelled => exact tryResolve_quiet rfl

theorem Run.waits {game : Game S} {allowed : Table S → Move S → Prop} {start : Table S}
    {ballot : Option (Ballot S)} (run : Run game aiSeats allowed start table ballot)
    (quiet : start.ledger.pending = none) : table.tryResolve game.toGameView aiSeats = none := by
  induction run with
  | start => exact tryResolve_quiet quiet
  | move run move admitted meets ih =>
    refine (play_played move).waits ih fun events post isMove => ?_
    subst isMove
    exact admitted.1

end

section
variable {S : Type} {game : Game S} {aiSeats : List PlayerId}

/-- A human seat of this table besides the requester. -/
def OtherHuman (view : GameView S) (aiSeats : List PlayerId) (requester : PlayerId) (state : S)
    (seat : PlayerId) : Prop :=
  seat ∈ view.players state ∧ seat ≠ requester ∧ seat ∉ aiSeats

/-- On the branch of the live state, the seat conceded after the target without a departure. -/
def ConcededSince (game : Game S) (target live : Live S) (seat : PlayerId) : Prop :=
  ∃ moment ∈ live.past, target.time ≤ moment.time ∧ NoopConcession game seat moment

/-- Everyone whose approval a rollback needs has approved it since it was requested. -/
structure ApprovedByAll (game : Game S) (aiSeats : List PlayerId) (cast : Ballot (Live S))
    (live : Live S) : Prop where
  present : ∀ seat, OtherHuman game.toGameView aiSeats cast.requester live.now seat →
    seat ∉ game.eliminatedPlayers live.now → seat ∈ cast.approved
  departed : (∀ seat, OtherHuman game.toGameView aiSeats cast.requester live.now seat →
      seat ∈ game.eliminatedPlayers live.now) →
    ∃ target, Requested game.traced.toGameView cast target ∧
      ∀ seat, OtherHuman game.toGameView aiSeats cast.requester live.now seat →
        seat ∉ game.eliminatedPlayers target.now → ¬ConcededSince game target live seat →
        seat ∈ cast.approved

variable {pending : PendingTakeback S} {view : GameView S} {seat : PlayerId}

theorem mem_candidates {state : S} : seat ∈ candidates view aiSeats pending state ↔
      OtherHuman view aiSeats pending.requestedBy state seat := by
  simp [candidates, OtherHuman]

theorem present_mem_voters {table : Table S}
    (other : OtherHuman view aiSeats pending.requestedBy table.state seat)
    (stays : seat ∉ view.eliminatedPlayers table.state) :
    seat ∈ table.voters view aiSeats pending := by
  have current : seat ∈ (candidates view aiSeats pending table.state).filter fun seat =>
      !(view.eliminatedPlayers table.state).contains seat :=
    mem_filter.mpr ⟨mem_candidates.mpr other, by simpa using stays⟩
  unfold voters
  rw [if_pos (by simpa using ne_nil_of_mem current)]
  exact current

theorem departed_mem_voters {table : Table S}
    (gone : ∀ seat, OtherHuman view aiSeats pending.requestedBy table.state seat →
      seat ∈ view.eliminatedPlayers table.state)
    (other : OtherHuman view aiSeats pending.requestedBy table.state seat)
    (stayed : seat ∉ view.eliminatedPlayers pending.targetState)
    (before : (table.ledger.noopConcessions seat).all (· < pending.targetAt) = true) :
    seat ∈ table.voters view aiSeats pending := by
  have nobody : (candidates view aiSeats pending table.state).filter (fun seat =>
      !(view.eliminatedPlayers table.state).contains seat) = [] := by
    refine filter_eq_nil_iff.mpr fun seat candidate => ?_
    simpa using gone seat (mem_candidates.mp candidate)
  unfold voters
  dsimp only
  rw [nobody]
  exact mem_filter.mpr ⟨mem_candidates.mpr other, by simp [stayed, before]⟩

variable {voting table : Table (Live S)}

/-- Where a move asks whether the vote is over, the clock is right about the concessions. -/
theorem Votes.dated {move : Move (Live S)}
    (votes : Votes game.traced.toGameView aiSeats table move voting) (dated : DatedTable game table)
    (admitted : game.traced.Admits table move) :
    ∃ clock, Dated game voting.ledger.marks clock voting.ledger.noopConcessions voting.state := by
  cases votes with
  | request quiet picks => exact ⟨_, DatedTable.voting dated picks⟩
  | answer vote voter => exact ⟨_, DatedTable.approvedBy dated vote⟩
  | concession vote stays other => exact ⟨_, DatedTable.concession dated stays admitted⟩

/-- A vote that is over has the approvals it needs. -/
theorem Agrees.approvedByAll {pending : PendingTakeback (Live S)} {cast : Ballot (Live S)}
    {clock : Nat} (agrees : Agrees game.traced.toGameView pending cast)
    (vote : voting.ledger.pending = some pending)
    (dated : Dated game voting.ledger.marks clock voting.ledger.noopConcessions voting.state)
    (all : ∀ seat ∈ voting.voters game.traced.toGameView aiSeats pending,
      seat ∈ pending.approvals) : ApprovedByAll game aiSeats cast voting.state := by
  have approved {seat : PlayerId} (voter : seat ∈ voting.voters game.traced.toGameView aiSeats pending)
      (other : seat ≠ cast.requester) : seat ∈ cast.approved :=
    ((agrees.approvals seat).mp (all seat voter)).resolve_left other
  have requester := agrees.requester
  constructor
  · intro seat other stays
    refine approved (present_mem_voters ?_ stays) other.2.1
    rw [requester]
    exact other
  · intro gone
    refine ⟨pending.targetState, agrees.requested, fun seat other stayed notSince => ?_⟩
    refine approved (departed_mem_voters ?_ ?_ stayed ?_) other.2.1
    · rw [requester]
      exact gone
    · rw [requester]
      exact other
    · cases noted : voting.ledger.noopConcessions seat with
      | none => rfl
      | some made =>
        refine decide_eq_true (not_le.mp fun since => notSince ?_)
        obtain ⟨-, moment, mem, noop, order⟩ := dated.noted seat made noted
        exact ⟨moment, mem, (order _ (pending_mem_marks vote)).1 since, noop⟩

theorem DatedTable.approvedByAll {after : Table (Live S)} {move : Move (Live S)}
    {ballot : Option (Ballot (Live S))} (dated : DatedTable game table)
    (agrees : Option.Rel (Agrees game.traced.toGameView) table.ledger.pending ballot)
    (admitted : game.traced.Admits table move)
    (played : Played game.traced.toGameView aiSeats table move (.done (some .approved), after)) :
    ∃ cast, Ballot.cast ballot table move (.done (some .approved)) = some cast ∧
      ApprovedByAll game aiSeats cast (move.arrival table) := by
  obtain ⟨voting, restored, votes, resolves, -⟩ := played.approved
  obtain ⟨pending, cast, isVote, isCast, agrees⟩ := votes.agrees agrees (some .approved)
  obtain ⟨_, isPending, all, -⟩ := tryResolve_some resolves
  cases isVote.symm.trans isPending
  obtain ⟨clock, dated⟩ := votes.dated dated admitted
  refine ⟨cast, isCast, ?_⟩
  rw [← votes.arrival]
  exact agrees.approvedByAll isVote dated all

end

section
variable {S : Type} {view : GameView S} {aiSeats : List PlayerId} {table : Table S}
  {pending : PendingTakeback S} {player : PlayerId}

theorem voter_other (voter : player ∈ table.voters view aiSeats pending) :
    OtherHuman view aiSeats pending.requestedBy table.state player := by
  unfold voters at voter
  dsimp only at voter
  split at voter
  · exact mem_candidates.mp (mem_filter.mp voter).1
  · exact mem_candidates.mp (mem_filter.mp voter).1

theorem respond_unasked (approve : Bool) (unasked : ∀ pending, table.ledger.pending = some pending →
      player ∉ table.voters view aiSeats pending) :
    table.play view aiSeats (.respond player approve) = (.refused, table) := by
  simp only [play, respond]
  cases vote : table.ledger.pending with
  | none => rfl
  | some pending =>
    dsimp only
    rw [if_pos (unasked pending vote)]
    split <;> rfl

section
variable (vote : table.ledger.pending = some pending)
include vote

theorem respond_voter (voter : player ∈ table.voters view aiSeats pending) :
    table.play view aiSeats (.respond player false) =
        (.done (some .declined), { table with ledger := { table.ledger with pending := none } }) ∧
      table.play view aiSeats (.respond player true) =
        (.of (.ok (settle view aiSeats (table.approvedBy pending player)).1),
          (settle view aiSeats (table.approvedBy pending player)).2) := by
  obtain ⟨there, -, human⟩ := voter_other voter
  have isHuman : isHumanSeat view aiSeats table.state player = true := by
    simp [isHumanSeat, there, human]
  simp only [play, respond, vote, isHuman, voter]
  exact ⟨rfl, rfl⟩

/-- An approval that was given before is there already. -/
theorem approvedBy_again (given : player ∈ pending.approvals) :
    table.approvedBy pending player = table := by
  unfold approvedBy
  rw [Finset.insert_eq_self.mpr given, ← vote]

theorem respond_again (given : player ∈ pending.approvals)
    (waits : table.tryResolve view aiSeats = none) :
    (table.play view aiSeats (.respond player true)).2 = table ∧
      (table.play view aiSeats (.respond player true)).1 ≠ .done (some .approved) := by
  by_cases voter : player ∈ table.voters view aiSeats pending
  · have settled : settle view aiSeats (table.approvedBy pending player) = (.pending, table) := by
      rw [approvedBy_again vote given]
      unfold settle
      rw [waits]
    rw [(respond_voter vote voter).2, settled]
    exact ⟨rfl, nofun⟩
  · rw [respond_unasked true fun other isVote => ?_]
    · exact ⟨rfl, nofun⟩
    · cases vote.symm.trans isVote
      exact voter

end

/-- A vote that ends in any other way leaves the state to the move that ended it. -/
theorem Played.closed {move : Move S} {ended : TakebackResolution} {after : Table S}
    (played : Played view aiSeats table move (.done (some ended), after))
    (unapproved : ended ≠ .approved) :
    after.ledger.pending = none ∧ after.state = move.arrival table := by
  generalize isAnswer : (Answer.done (some ended), after) = answer at played
  cases played with
  | refused | acted | held | driven => cases isAnswer
  | departed | forfeited | selfConceded =>
    obtain ⟨-, rfl⟩ := Prod.mk.inj isAnswer
    exact ⟨observeTransition_pending, rfl⟩
  | installed =>
    cases isAnswer
    exact absurd rfl unapproved
  | requested quiet human picks settled =>
    rcases settle_cases settled with ⟨rfl, -, -⟩ | ⟨rfl, -⟩
    · cases isAnswer
    · cases isAnswer
      exact absurd rfl unapproved
  | answered vote voter settled =>
    rcases settle_cases settled with ⟨rfl, -, -⟩ | ⟨rfl, -⟩
    · cases isAnswer
    · cases isAnswer
      exact absurd rfl unapproved
  | declined | cancelled =>
    cases isAnswer
    exact ⟨rfl, rfl⟩

/-- What can happen to a vote besides its approval. -/
structure OrderlyVote (game : Game S) (aiSeats : List PlayerId) (table : Table S)
    (ballot : Option (Ballot S)) : Prop where
  unasked : ∀ player approve, (player ∈ aiSeats ∨ player ∉ game.players table.state ∨
      ∀ pending, table.ledger.pending = some pending →
        player ∉ table.voters game.toGameView aiSeats pending) →
    table.play game.toGameView aiSeats (.respond player approve) = (.refused, table)
  again : ∀ cast player, ballot = some cast → player ∈ cast.approved →
    (table.play game.toGameView aiSeats (.respond player true)).2 = table ∧
      (table.play game.toGameView aiSeats (.respond player true)).1 ≠ .done (some .approved)
  closed : ∀ move ended, (table.play game.toGameView aiSeats move).1 = .done (some ended) →
    ended ≠ .approved → (table.play game.toGameView aiSeats move).2.ledger.pending = none ∧
      (table.play game.toGameView aiSeats move).2.state = move.arrival table
  missing : ∀ pending, table.ledger.pending = some pending → ∃ cast seat, ballot = some cast ∧
    seat ∈ table.voters game.toGameView aiSeats pending ∧ seat ∉ cast.approved ∧
    ∀ approve, (table.play game.toGameView aiSeats (.respond seat approve)).1 ≠ .refused

theorem Run.orderly {game : Game S} {allowed : Table S → Move S → Prop} {start : Table S}
    {ballot : Option (Ballot S)} (run : Run game aiSeats allowed start table ballot)
    (quiet : start.ledger.pending = none) : OrderlyVote game aiSeats table ballot where
  unasked player approve reason := by
    refine respond_unasked approve fun pending vote voter => ?_
    obtain ⟨there, -, human⟩ := voter_other voter
    rcases reason with isAi | outside | unasked
    · exact human isAi
    · exact outside there
    · exact unasked pending vote voter
  again cast player isBallot given := by
    have agrees := run.agrees quiet
    rw [isBallot] at agrees
    cases vote : table.ledger.pending with
    | none =>
      rw [vote] at agrees
      cases agrees
    | some pending =>
      rw [vote] at agrees
      cases agrees with
      | some agrees =>
        exact respond_again vote ((agrees.approvals player).mpr (.inr given)) (run.waits quiet)
  closed move ended isEnded unapproved := by
    have played := @play_played _ game.toGameView aiSeats table move
    generalize table.play game.toGameView aiSeats move = answer at played isEnded
    obtain ⟨_, after⟩ := answer
    cases isEnded
    exact played.closed unapproved
  missing pending vote := by
    have agrees := run.agrees quiet
    obtain ⟨seat, voter, absent⟩ := (tryResolve_eq_none vote).mp (run.waits quiet)
    rw [vote] at agrees
    cases agrees with
    | @some _ cast agrees =>
      refine ⟨cast, seat, rfl, voter, fun given => ?_, fun approve => ?_⟩
      · exact absent ((agrees.approvals seat).mpr (.inr given))
      · obtain ⟨declines, approves⟩ := respond_voter vote voter
        cases approve with
        | false =>
          rw [declines]
          exact nofun
        | true =>
          rw [approves]
          rcases (settle game.toGameView aiSeats (table.approvedBy pending seat)).1
          · exact nofun
          · exact nofun

end

/-- The table at which seat 1 is asked. -/
def asks : Table (GameState Unit) :=
  (((opened freeGame.toGameView true twoLeft).play freeGame.toGameView [] plays).2.play
    freeGame.toGameView [] (.request 0 .lastAction)).2

end Phase.Takeback
