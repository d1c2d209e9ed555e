import Phase.Vote.Tally
import Mathlib.Data.UInt

/-! A vote that only its winners get: which positions those are, and which the code resolves. -/
namespace Phase.Vote
open List

variable {Data : Type} {outcome : Nat → Outcome} {round : Round Data} {game : Game Data}

/-- A position with a tally that is not zero and that no other tally exceeds. -/
def Top (tallies : List UInt32) (position : Nat) : Prop :=
  ∃ votes, tallies[position]? = some votes ∧ 0 < votes ∧ ∀ others ∈ tallies, others ≤ votes

/-- The only position at the top. -/
def UniqueTop (tallies : List UInt32) (position : Nat) : Prop :=
  Top tallies position ∧ ∀ other, Top tallies other → other = position

/-- The positions that should win. -/
def Wins (tallies : List UInt32) : TieResolution → Nat → Prop
  | .allTied, position => Top tallies position
  | .breaker idx, position => UniqueTop tallies position ∨
      position = idx.toNat ∧ ∀ other, ¬UniqueTop tallies other

/-- The bodies of some positions, one after the other, and the end of the vote. -/
def resolveWinners (outcome : Nat → Outcome) (round : Round Data) (winners : List Nat) :
    Resolving Data Unit := do
  modify fun game => { game with lastVoteBallots := round.ballots }
  winners.forM (resolveAt outcome round)
  record (.effectResolved round.sourceId)

section
variable {α : Type} [DecidableEq α]

def positions (values : List α) (value : α) : List Nat :=
  (values.zipIdx.filter (·.1 = value)).map (·.2)

theorem mem_positions {values : List α} {value : α} {position : Nat} :
    position ∈ positions values value ↔ values[position]? = some value := by
  unfold positions
  rw [mem_map]
  constructor
  · rintro ⟨⟨found, at_⟩, mem, rfl⟩
    obtain ⟨inside, same⟩ := mem_filter.mp mem
    rw [← of_decide_eq_true same]
    exact mem_zipIdx_iff_getElem?.mp inside
  · intro here
    refine ⟨(value, position), mem_filter.mpr ⟨?_, ?_⟩, rfl⟩
    · exact mem_zipIdx_iff_getElem?.mpr here
    · exact decide_eq_true rfl

theorem positions_sorted (values : List α) (value : α) :
    (positions values value).Pairwise (· < ·) := by
  have all : (values.zipIdx.map (·.2)).Pairwise (· < ·) := by
    rw [show values.zipIdx.map (·.2) = range' 0 values.length from zipIdx_map_snd _ _]
    exact pairwise_lt_range'
  exact all.sublist (filter_sublist.map _)

theorem length_positions (values : List α) (value : α) :
    (positions values value).length = values.countP (· = value) := by
  unfold positions
  rw [length_map, ← countP_eq_length_filter]
  have all : (values.zipIdx.map (·.1)).countP (· = value) =
      values.zipIdx.countP ((fun found => decide (found = value)) ∘ (·.1)) := countP_map
  rw [show values.zipIdx.map (·.1) = values from zipIdx_map_fst _ _] at all
  exact all.symm

theorem findIdx?_of_unique {values : List α} {value : α} {position : Nat}
    (unique : positions values value = [position]) :
    values.findIdx? (· = value) = some position := by
  have here : values[position]? = some value := mem_positions.mp (by rw [unique]; simp)
  cases found : values.findIdx? (· = value) with
  | none =>
    have absent := findIdx?_eq_none_iff.mp found value (mem_of_getElem? here)
    simp at absent
  | some first =>
    obtain ⟨low, same, -⟩ := findIdx?_eq_some_iff_getElem.mp found
    have at_ : values[first]? = some value := by
      rw [getElem?_eq_getElem low, of_decide_eq_true same]
    have mem := mem_positions.mpr at_
    rw [unique, mem_singleton] at mem
    rw [mem]

end

instance lawfulMax : Std.LawfulOrderMax UInt32 where
  max_eq_or a b := by
    rw [show max a b = if a ≤ b then b else a from rfl]
    split
    · exact .inr rfl
    · exact .inl rfl
  max_le_iff a b c := by
    rw [show max a b = if a ≤ b then b else a from rfl]
    simp only [UInt32.le_iff_toNat_le]
    split <;> omega

def topTally (tallies : List UInt32) : UInt32 := tallies.max?.getD 0

variable {position : Nat}

theorem top_iff {tallies : List UInt32} :
    Top tallies position ↔ 0 < topTally tallies ∧ tallies[position]? = some (topTally tallies) := by
  unfold topTally
  constructor
  · rintro ⟨votes, at_, some, most⟩
    have highest : tallies.max? = .some votes :=
      max?_eq_some_iff.mpr ⟨mem_of_getElem? at_, most⟩
    rw [highest]
    exact ⟨some, at_⟩
  · rintro ⟨some, at_⟩
    refine ⟨_, at_, some, ?_⟩
    cases highest : tallies.max? with
    | none =>
      rw [highest] at some
      exact absurd some (by decide)
    | some votes => exact (max?_eq_some_iff.mp highest).2

theorem top_of_positive {tallies : List UInt32} (some : 0 < topTally tallies) :
    Top tallies position ↔ position ∈ positions tallies (topTally tallies) := by
  rw [top_iff, mem_positions]
  exact and_iff_right some

/-- The test of the tie breaker finds out whether there is one top position. -/
theorem breakerWinner_cases (tallies : List UInt32) (idx : UInt8) :
    (∃ position, UniqueTop tallies position ∧
      breakerWinner tallies idx = UInt8.ofNat position) ∨
    (∀ position, ¬UniqueTop tallies position) ∧ breakerWinner tallies idx = idx := by
  obtain ⟨top, isTop⟩ : ∃ top, topTally tallies = top := ⟨_, rfl⟩
  unfold breakerWinner
  rw [show tallies.max?.getD 0 = top from isTop]
  dsimp only
  by_cases lone : 0 < top ∧ tallies.countP (· = top) = 1
  · left
    rw [← length_positions] at lone
    obtain ⟨position, unique⟩ := length_eq_one_iff.mp lone.2
    refine ⟨position, ?_, ?_⟩
    · constructor
      · rw [top_of_positive (isTop ▸ lone.1), isTop, unique]
        exact mem_singleton_self _
      · intro other top'
        rw [top_of_positive (isTop ▸ lone.1), isTop, unique] at top'
        exact mem_singleton.mp top'
    · rw [← length_positions, if_pos (by simpa using lone), findIdx?_of_unique unique]
      rfl
  · right
    refine ⟨?_, ?_⟩
    · rintro position ⟨here, others⟩
      obtain ⟨positive, -⟩ := top_iff.mp here
      apply lone
      rw [← length_positions]
      refine ⟨isTop ▸ positive, ?_⟩
      have all : ∀ other ∈ positions tallies top, other = position := by
        intro other mem
        exact others other ((top_of_positive positive).mpr (isTop ▸ mem))
      have sorted := positions_sorted tallies top
      rw [top_of_positive positive, isTop] at here
      cases found : positions tallies top with
      | nil =>
        rw [found] at here
        cases here
      | cons first rest =>
        rw [found] at all sorted
        cases rest with
        | nil => rfl
        | cons second rest =>
          have less := (pairwise_cons.mp sorted).1 second mem_cons_self
          rw [all first mem_cons_self, all second (mem_cons_of_mem _ mem_cons_self)] at less
          exact absurd less (Nat.lt_irrefl _)
    · rw [if_neg (by simpa using lone)]

/-- The history after a resolution, whether it failed or not. -/
def logAfter : EStateM.Result Unit (Game Data) Unit → List (Entry Data)
  | .ok _ game => game.log
  | .error _ game => game.log

/-- The first thing that is logged tells which body a position has. -/
theorem log_resolveAt (position : Nat) : ∃ rest,
    logAfter ((do
      resolveAt outcome round position
      record (.effectResolved round.sourceId) : Resolving Data Unit).run game) =
    game.log ++ ((round.bodyAt position).elim (.effectResolved round.sourceId) .started) ::
      rest := by
  unfold resolveAt
  cases round.bodyAt position with
  | none => exact ⟨[], rfl⟩
  | some body =>
    unfold resolveAbilityChain record
    simp only [EStateM.run_bind, EStateM.run_get, EStateM.run_modify]
    cases here : outcome game.begun with
    | finishes => exact ⟨[.finished body, .effectResolved round.sourceId], by simp [logAfter]⟩
    | parks => exact ⟨[.effectResolved round.sourceId], by simp [logAfter]⟩
    | fails => exact ⟨[.failed body], by simp [logAfter]⟩

theorem resolveAt_inj {other : Nat} (same : (do
      resolveAt outcome round position
      record (.effectResolved round.sourceId) : Resolving Data Unit).run game = (do
      resolveAt outcome round other
      record (.effectResolved round.sourceId) : Resolving Data Unit).run game) :
    round.bodyAt position = round.bodyAt other := by
  obtain ⟨rest, log⟩ := @log_resolveAt _ outcome round game position
  obtain ⟨rest', log'⟩ := @log_resolveAt _ outcome round game other
  rw [same, log'] at log
  have first := (cons.inj (append_cancel_left log)).1
  cases here : round.bodyAt position with
  | none =>
    cases there : round.bodyAt other with
    | none => rfl
    | some body =>
      rw [here, there] at first
      cases first
  | some body =>
    cases there : round.bodyAt other with
    | none =>
      rw [here, there] at first
      cases first
    | some body' =>
      rw [here, there] at first
      cases first
      rfl

theorem resolveAt_congr {other : Nat} (same : round.bodyAt position = round.bodyAt other) :
    resolveAt outcome round position = resolveAt outcome round other := by
  unfold resolveAt
  rw [same]

theorem resolveWinners_one (position : Nat) :
    resolveWinners outcome round [position] = (do
      modify fun game => { game with lastVoteBallots := round.ballots }
      resolveAt outcome round position
      record (.effectResolved round.sourceId)) := by
  unfold resolveWinners
  simp

theorem bodyAt_object {template : AbilityDefinition Data} {winner : ObjectId}
    (object : round.outcomeTemplate = some template)
    (candidate : round.candidateObjects[position]? = some winner) :
    ∃ body, round.bodyAt position = some body ∧ body.definition = template ∧
      body.targets = [winner] := by
  unfold Round.bodyAt
  rw [object, candidate]
  exact ⟨_, rfl, rfl, rfl⟩

/-- The code resolves the positions that win, once each and in order, except that the position of
a unique top is cut to eight bits where the vote has a tie breaker. -/
theorem winners_exact (tie : TieResolution) (mode : round.tallyMode = .topVotes tie)
    (game : Game Data) :
    ∃ winners : List Nat, winners.Pairwise (· < ·) ∧
      (∀ position, position ∈ winners ↔ Wins round.tallies tie position) ∧
      (∀ template, round.outcomeTemplate = some template →
        ∀ position ∈ winners, ∀ winner, round.candidateObjects[position]? = some winner →
          ∃ body, round.bodyAt position = some body ∧ body.definition = template ∧
            body.targets = [winner]) ∧
      ((resolveTally outcome round).run game = (resolveWinners outcome round winners).run game ↔
        ∀ idx position, tie = .breaker idx → UniqueTop round.tallies position →
          round.bodyAt (position % 256) = round.bodyAt position) := by
  have objects : ∀ winners : List Nat, ∀ template, round.outcomeTemplate = some template →
      ∀ position ∈ winners, ∀ winner, round.candidateObjects[position]? = some winner →
        ∃ body, round.bodyAt position = some body ∧ body.definition = template ∧
          body.targets = [winner] :=
    fun _ _ object _ _ _ candidate => bodyAt_object object candidate
  have unfolded : resolveTally outcome round = resolveTopVotesTally outcome round tie := by
    unfold resolveTally
    rw [mode]
  rw [unfolded]
  cases tie with
  | allTied =>
    by_cases some : 0 < topTally round.tallies
    · refine ⟨positions round.tallies (topTally round.tallies), positions_sorted _ _,
        fun position => (top_of_positive some).symm, objects _, iff_of_true ?_ nofun⟩
      have each : (positions round.tallies (topTally round.tallies)).forM
          (resolveAt outcome round) =
          (round.tallies.zipIdx.filter (·.1 = topTally round.tallies)).forM fun winner =>
            resolveAt outcome round winner.2 := forM_map
      unfold resolveTopVotesTally resolveWinners
      rw [each]
      dsimp only
      rw [if_pos (show 0 < round.tallies.max?.getD 0 from some)]
      rfl
    · refine ⟨[], .nil, fun position => iff_of_false not_mem_nil ?_, objects _,
        iff_of_true ?_ nofun⟩
      · intro top
        exact some (top_iff.mp top).1
      · unfold resolveTopVotesTally resolveWinners
        dsimp only
        rw [if_neg (show ¬0 < round.tallies.max?.getD 0 from some)]
        rfl
  | breaker idx =>
    obtain ⟨position, top, winner⟩ | ⟨none, winner⟩ := breakerWinner_cases round.tallies idx
    · refine ⟨[position], pairwise_singleton _ _, ?_, objects _, ?_⟩
      · intro other
        rw [mem_singleton]
        constructor
        · rintro rfl
          exact .inl top
        · rintro (top' | ⟨-, none⟩)
          · exact top.2 other top'.1
          · exact absurd top (none position)
      · rw [resolveWinners_one]
        unfold resolveTopVotesTally
        dsimp only
        rw [winner, UInt8.toNat_ofNat']
        constructor
        · intro same idx' position' _ top'
          rw [top.2 position' top'.1]
          exact resolveAt_inj same
        · intro narrow
          rw [resolveAt_congr (narrow idx position rfl top)]
    · refine ⟨[idx.toNat], pairwise_singleton _ _, ?_, objects _, ?_⟩
      · intro other
        rw [mem_singleton]
        constructor
        · rintro rfl
          exact .inr ⟨rfl, none⟩
        · rintro (top' | ⟨same, -⟩)
          · exact absurd top' (none other)
          · exact same
      · rw [resolveWinners_one]
        unfold resolveTopVotesTally
        dsimp only
        rw [winner]
        exact iff_of_true rfl fun _ position _ top => absurd top (none position)

/-- An object vote in which the candidate at the last position gets the only ballot. -/
def objectRound (candidates : Nat) (tie : TieResolution) : Round Nat where
  sourceId := 7
  controller := 0
  perChoiceEffect := []
  tallies := replicate (candidates - 1) 0 ++ [1]
  ballots := [(0, UInt32.ofNat (candidates - 1))]
  tallyMode := .topVotes tie
  candidateObjects := range' 100 candidates
  outcomeTemplate := some ⟨false, false, 0⟩
  chainRootTargets := []

theorem winners_exact_three : ∃ winners : List Nat, winners.Pairwise (· < ·) ∧
    (∀ position, position ∈ winners ↔ Wins [0, 0, 1] (.breaker 0) position) ∧
    (resolveTally (fun _ => .finishes) (objectRound 3 (.breaker 0))).run
        ⟨.voteChoice, none, [], [], 0, []⟩ =
      (resolveWinners (fun _ => .finishes) (objectRound 3 (.breaker 0)) winners).run
        ⟨.voteChoice, none, [], [], 0, []⟩ := by
  obtain ⟨winners, sorted, exact_, -, run⟩ := @winners_exact Nat (fun _ => .finishes)
    (objectRound 3 (.breaker 0)) (.breaker 0) rfl ⟨.voteChoice, none, [], [], 0, []⟩
  refine ⟨winners, sorted, exact_, run.mpr ?_⟩
  intro idx position _ top
  have low : position < 3 := by
    obtain ⟨⟨votes, at_, -⟩, -⟩ := top
    exact (List.getElem?_eq_some_iff.mp at_).1
  rw [Nat.mod_eq_of_lt (by omega)]

/-- Of 257 candidates the last one wins, and the first one is the target. -/
theorem winners_exact_fails : UniqueTop (objectRound 257 (.breaker 3)).tallies 256 ∧
    (objectRound 257 (.breaker 3)).candidateObjects[256]? = some 356 ∧
    logAfter ((resolveTally (fun _ => .finishes) (objectRound 257 (.breaker 3))).run
        ⟨.voteChoice, none, [], [], 0, []⟩) =
      [.started ⟨⟨false, false, 0⟩, 7, 0, [], [100], none, none⟩,
        .finished ⟨⟨false, false, 0⟩, 7, 0, [], [100], none, none⟩, .effectResolved 7] := by
  have top : topTally (objectRound 257 (.breaker 3)).tallies = 1 := by decide +kernel
  have lone : positions (objectRound 257 (.breaker 3)).tallies 1 = [256] := by decide +kernel
  refine ⟨⟨?_, ?_⟩, by decide +kernel, by decide +kernel⟩
  · rw [top_of_positive (by rw [top]; decide), top, lone]
    exact mem_singleton_self _
  · intro other
    rw [top_of_positive (by rw [top]; decide), top, lone]
    exact mem_singleton.mp

end Phase.Vote
