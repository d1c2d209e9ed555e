import Phase.Vote.FanOut

/-! Every ballot takes effect once: what a vote should log, and exactly when it does, from its
ballots to the answer of its last prompt. -/
namespace Phase.Vote
open List

section
variable {Data : Type} {outcome : Nat → Outcome} {round : Round Data}

/-- A body that a vote owes, for a ballot or for a choice as a whole. -/
structure Call (Data : Type) where
  idx : Nat
  body : ResolvedAbility Data
  perBallot : Bool
  deriving DecidableEq

namespace Round

/-- The voters of a choice, once for each of their ballots. -/
def votersFor (round : Round Data) (idx : Nat) : List PlayerId :=
  (round.ballots.filter fun ballot => ballot.2.toNat = idx).map (·.1)

/-- What a choice that got votes owes. -/
def callsOf (round : Round Data) (template : AbilityDefinition Data) (idx : Nat) :
    List (Call Data) :=
  if round.votersFor idx = [] then []
  else if template.playerScoped || template.countsVotes then [⟨idx, round.body template, false⟩]
  else (ballotBodies template round.sourceId round.controller round.chainRootTargets
    (round.votersFor idx)).map (⟨idx, ·, true⟩)

end Round

abbrev Choices (Data : Type) := List ((AbilityDefinition Data × UInt32) × Nat)

def callsFrom (round : Round Data) (choices : Choices Data) : List (Call Data) :=
  choices.flatMap fun choice => round.callsOf choice.1.1 choice.2

/-- One body after the other, each finished before the next starts, and the end of the vote. -/
def expectedLog (round : Round Data) (calls : List (Call Data)) : List (Entry Data) :=
  paired (calls.map (·.body)) ++ [.effectResolved round.sourceId]

/-- Only ballots of the last choice that got votes park a prompt. -/
def ParksLast (outcome : Nat → Outcome) (n : Nat) (calls : List (Call Data)) : Prop :=
  ∀ k call, calls[k]? = some call → outcome (n + k) = .parks →
    call.perBallot = true ∧ calls.getLast?.map (·.idx) = some call.idx

/-- No choice with votes has a tally of zero. -/
def Counted (round : Round Data) (choices : Choices Data) : Prop :=
  ∀ choice ∈ choices, round.votersFor choice.2 ≠ [] → choice.1.2 ≠ 0

/-- A tally that is not zero counts votes, and the fan-out finds them. -/
def Consistent (round : Round Data) (choices : Choices Data) : Prop :=
  ∀ choice ∈ choices, choice.1.2 ≠ 0 →
    round.votersFor choice.2 ≠ [] ∧ round.choiceBallots choice.2 = round.votersFor choice.2

variable {idx : Nat} {template : AbilityDefinition Data} {choices : Choices Data}
  {calls' calls : List (Call Data)}

theorem callsOf_idx {call : Call Data} (mem : call ∈ round.callsOf template idx) :
    call.idx = idx := by
  unfold Round.callsOf at mem
  split at mem
  · cases mem
  · split at mem
    · rw [mem_singleton.mp mem]
    · obtain ⟨body, -, rfl⟩ := mem_map.mp mem
      rfl

theorem callsOf_whole (some : round.votersFor idx ≠ [])
    (whole : template.playerScoped || template.countsVotes) :
    round.callsOf template idx = [⟨idx, round.body template, false⟩] := by
  unfold Round.callsOf
  rw [if_neg some, if_pos whole]

theorem callsOf_ballots (some : round.votersFor idx ≠ [])
    (each : ¬(template.playerScoped || template.countsVotes)) :
    round.callsOf template idx = (ballotBodies template round.sourceId round.controller
      round.chainRootTargets (round.votersFor idx)).map (⟨idx, ·, true⟩) := by
  unfold Round.callsOf
  rw [if_neg some, if_neg each]

theorem callsFrom_idx {choices : Choices Data} {call : Call Data}
    (mem : call ∈ callsFrom round choices) : call.idx ∈ choices.map (·.2) := by
  obtain ⟨choice, inside, mem⟩ := mem_flatMap.mp mem
  rw [callsOf_idx mem]
  exact mem_map_of_mem inside

theorem callsFrom_nil :
    callsFrom round choices = [] ↔ ∀ choice ∈ choices, round.votersFor choice.2 = [] := by
  unfold callsFrom
  rw [flatMap_eq_nil_iff]
  apply forall₂_congr
  intro choice _
  unfold Round.callsOf
  by_cases none : round.votersFor choice.2 = []
  · simp [none]
  · rw [if_neg none]
    split <;> simp [none, ballotBodies]

theorem last_append (some : calls' ≠ []) :
    (calls ++ calls').getLast? = calls'.getLast? := getLast?_append_of_ne_nil _ some

/-- Calls that finish put off the question to the calls after them. -/
theorem parksLast_append {n : Nat} (clean : ∀ t < calls.length, outcome (n + t) ≠ .parks) :
    ParksLast outcome n (calls ++ calls') ↔ ParksLast outcome (n + calls.length) calls' := by
  constructor
  · intro parks k call at_ parked
    have nonempty : calls' ≠ [] := by
      rintro rfl
      cases at_
    have := parks (calls.length + k) call (by rw [getElem?_append_right (by omega)]; simpa)
      (by rw [← Nat.add_assoc]; exact parked)
    rwa [last_append nonempty] at this
  · intro parks k call at_ parked
    by_cases early : k < calls.length
    · exact absurd parked (clean k early)
    · rw [getElem?_append_right (by omega)] at at_
      have nonempty : calls' ≠ [] := by
        rintro rfl
        cases at_
      rw [last_append nonempty]
      apply parks (k - calls.length) call at_
      rw [show n + calls.length + (k - calls.length) = n + k by omega]
      exact parked

section
variable {choices : Choices Data} (consistent : Consistent round choices) (n : Nat)
  (pending : Option (ResolvedAbility Data))
include consistent n pending

theorem head_logOf (body : ResolvedAbility Data) :
    (logOf outcome round choices n pending).head? ≠ some (.finished body) := by
  induction choices generalizing n pending with
  | nil => simp [logOf]
  | cons choice rest ih =>
    obtain ⟨⟨template, votes⟩, idx⟩ := choice
    have later : Consistent round rest := fun choice mem =>
      consistent choice (mem_cons_of_mem _ mem)
    unfold logOf
    by_cases none : votes = 0
    · rw [if_pos none]
      exact ih later n pending
    · rw [if_neg none]
      split
      · split <;> simp
      · obtain ⟨some, same⟩ := consistent _ mem_cons_self none
        rw [same]
        obtain ⟨voter, voters, split⟩ := exists_cons_of_ne_nil some
        rw [split]
        dsimp only
        split <;> simp [ballotBodies]

theorem length_logOf_le :
    (logOf outcome round choices n pending).length ≤
      2 * (callsFrom round choices).length + 1 + pending.toList.length := by
  induction choices generalizing n pending with
  | nil =>
    simp only [logOf, length_cons, length_map]
    omega
  | cons choice rest ih =>
    obtain ⟨⟨template, votes⟩, idx⟩ := choice
    have later : Consistent round rest := fun choice mem =>
      consistent choice (mem_cons_of_mem _ mem)
    have more : (callsFrom round ((((template, votes), idx)) :: rest)).length =
        (round.callsOf template idx).length + (callsFrom round rest).length := by
      simp [callsFrom]
    unfold logOf
    by_cases none : votes = 0
    · rw [if_pos none]
      have := ih later n pending
      omega
    · rw [if_neg none]
      obtain ⟨some, same⟩ := consistent _ mem_cons_self none
      by_cases whole : template.playerScoped || template.countsVotes
      · have one : (round.callsOf template idx).length = 1 := by
          rw [callsOf_whole some whole]
          rfl
        rw [if_pos whole]
        split
        · have := ih later (n + 1) (.some (round.body template))
          simp only [length_cons, Option.toList_some, length_nil] at this ⊢
          omega
        · have := ih later (n + 1) pending
          simp only [paired_cons, paired_nil, cons_append, nil_append, length_cons]
          omega
      · have each : (round.callsOf template idx).length = (round.votersFor idx).length := by
          rw [callsOf_ballots some whole]
          simp [ballotBodies]
        rw [if_neg whole, same]
        dsimp only
        split
        · rw [length_append, length_paired]
          simp only [ballotBodies, length_map, length_cons, length_nil]
          omega
        · have := ih later (n + (round.votersFor idx).length) pending
          rw [length_append, length_paired]
          simp only [ballotBodies, length_map]
          omega

end

theorem expectedLog_append (calls calls' : List (Call Data)) :
    expectedLog round (calls ++ calls') =
      paired (calls.map (·.body)) ++ expectedLog round calls' := by
  simp [expectedLog]

theorem length_expectedLog (calls : List (Call Data)) :
    (expectedLog round calls).length = 2 * calls.length + 1 := by
  rw [expectedLog, length_append, length_paired]
  simp

theorem counted_cons {votes : UInt32} {rest : Choices Data}
    (here : round.votersFor idx ≠ [] → votes ≠ 0) :
    Counted round (((template, votes), idx) :: rest) ↔ Counted round rest := by
  unfold Counted
  rw [forall_mem_cons]
  exact and_iff_right here

/-- A vote logs what it should exactly when all its votes are counted and only ballots of the last
voted choice park. -/
theorem logOf_eq_iff (consistent : Consistent round choices) (distinct : (choices.map (·.2)).Nodup)
    (n : Nat) :
    logOf outcome round choices n none = expectedLog round (callsFrom round choices) ↔
      Counted round choices ∧ ParksLast outcome n (callsFrom round choices) := by
  induction choices generalizing n with
  | nil =>
    refine iff_of_true rfl ⟨?_, ?_⟩
    · intro choice mem
      cases mem
    · intro k call at_
      cases at_
  | cons choice rest ih =>
    obtain ⟨⟨template, votes⟩, idx⟩ := choice
    have later : Consistent round rest := fun choice mem =>
      consistent choice (mem_cons_of_mem _ mem)
    rw [map_cons, nodup_cons] at distinct
    have calls : callsFrom round (((template, votes), idx) :: rest) =
        round.callsOf template idx ++ callsFrom round rest := by
      simp [callsFrom]
    rw [calls, expectedLog_append]
    unfold logOf
    by_cases zero : votes = 0
    · rw [if_pos zero]
      by_cases empty : round.votersFor idx = []
      · have owes : round.callsOf template idx = [] := by
          unfold Round.callsOf
          rw [if_pos empty]
        rw [owes, counted_cons (absurd empty)]
        exact ih later distinct.2 n
      · -- Bodies are missing for good.
        constructor
        · intro same
          have least := @length_logOf_le _ outcome _ _ later n none
          have owes : 0 < (round.callsOf template idx).length := by
            by_cases whole : template.playerScoped || template.countsVotes
            · rw [callsOf_whole empty whole]
              simp
            · rw [callsOf_ballots empty whole]
              simpa [ballotBodies, length_pos_iff] using empty
          rw [same, length_append, length_paired, length_expectedLog, length_map] at least
          simp only [Option.toList_none, length_nil] at least
          omega
        · rintro ⟨counted, -⟩
          exact absurd zero (counted _ mem_cons_self empty)
    · rw [if_neg zero, counted_cons fun _ => zero]
      obtain ⟨some, same⟩ := consistent _ mem_cons_self zero
      by_cases whole : template.playerScoped || template.countsVotes
      · rw [if_pos whole, callsOf_whole some whole]
        by_cases parks : outcome n = .parks
        · rw [if_pos parks]
          constructor
          · intro logged
            have second := (cons.inj logged).2
            have head := @head_logOf _ outcome _ _ later (n + 1) (.some (round.body template))
              (round.body template)
            rw [second] at head
            simp at head
          · rintro ⟨-, last⟩
            have := (last 0 _ rfl parks).1
            cases this
        · have clean : ∀ t < [(⟨idx, round.body template, false⟩ : Call Data)].length,
              outcome (n + t) ≠ .parks := by
            intro t low
            obtain rfl : t = 0 := by simpa using low
            exact parks
          rw [if_neg parks, parksLast_append clean, ← ih later distinct.2]
          exact append_right_inj _
      · rw [if_neg whole, callsOf_ballots some whole, same]
        dsimp only
        have bodies : ((ballotBodies template round.sourceId round.controller
            round.chainRootTargets (round.votersFor idx)).map
              fun body => (⟨idx, body, true⟩ : Call Data)).map (·.body) =
            ballotBodies template round.sourceId round.controller round.chainRootTargets
              (round.votersFor idx) := by
          rw [map_map]
          exact map_id _
        rw [bodies]
        split
        · next parks =>
          rw [append_right_inj]
          constructor
          · intro logged
            have none : callsFrom round rest = [] := by
              have sizes := congrArg length logged
              rw [length_expectedLog, length_singleton] at sizes
              exact length_eq_zero_iff.mp (by omega)
            refine ⟨fun choice mem votes => absurd (callsFrom_nil.mp none choice mem) votes, ?_⟩
            rw [none, append_nil]
            intro k call at_ _
            obtain ⟨body, -, rfl⟩ := mem_map.mp (mem_of_getElem? at_)
            refine ⟨rfl, ?_⟩
            rw [getLast?_map]
            cases last : (ballotBodies template round.sourceId round.controller
                round.chainRootTargets (round.votersFor idx)).getLast? with
            | none =>
              rw [getLast?_eq_none_iff.mp last] at at_
              cases at_
            | some body' => rfl
          · rintro ⟨-, last⟩
            obtain ⟨t, low, parked⟩ := parks
            obtain ⟨voter, at_⟩ : ∃ voter, (round.votersFor idx)[t]? = .some voter :=
              ⟨_, getElem?_eq_getElem low⟩
            have here := (last t ⟨idx, buildPerBallotAbility template voter round.sourceId
              round.controller round.chainRootTargets, true⟩ (by
                rw [getElem?_append_left (by simpa [ballotBodies] using low)]
                simp [ballotBodies, at_]) parked).2
            obtain none | ⟨others, call, final⟩ := eq_nil_or_concat (callsFrom round rest)
            · rw [none]
              rfl
            · rw [concat_eq_append] at final
              rw [final, last_append (by simp), getLast?_concat] at here
              have inside := @callsFrom_idx _ round rest call (by rw [final]; simp)
              rw [show call.idx = idx from Option.some.inj here] at inside
              exact absurd inside distinct.1
        · next clean =>
          rw [parksLast_append]
          · rw [append_right_inj]
            simp only [ballotBodies, length_map]
            exact ih later distinct.2 _
          · intro t low parked
            exact clean ⟨t, by simpa [ballotBodies] using low, parked⟩

end

variable {Data : Type} {outcome : Nat → Outcome}

/-- The tallies count the ballots, up to the width of a tally. -/
structure Tallied (choices : Nat) (cast : Ballots) : Prop where
  length : cast.tallies.length = choices
  bounded : ∀ ballot ∈ cast.ballots, ballot.2.toNat < choices
  counts : ∀ idx < choices, cast.tallies[idx]? =
    some (UInt32.ofNat (cast.ballots.filter fun ballot => ballot.2.toNat = idx).length)

theorem Cast.tallied {choices : Nat} {cast : Ballots} (run : Cast choices cast) :
    Tallied choices cast := by
  induction run with
  | none =>
    constructor
    · exact length_replicate
    · nofun
    · intro idx low
      simp [Ballots.none, low]
  | @append cast player idx _ low ih =>
    constructor
    · simpa [Ballots.append] using ih.length
    · intro ballot mem
      obtain old | new := mem_append.mp mem
      · exact ih.bounded ballot old
      · rw [mem_singleton.mp new]
        exact low
    · intro idx' low'
      have old := ih.counts idx' low'
      simp only [Ballots.append, getElem?_modify, old, filter_append]
      by_cases here : idx.toNat = idx'
      · simp [here]
      · simp [here]

/-- The choices of a round, with their tallies and positions. -/
def Round.choices (round : Round Data) : Choices Data :=
  (round.perChoiceEffect.zip round.tallies).zipIdx

variable {round : Round Data}

theorem choices_nodup : (round.choices.map (·.2)).Nodup := by
  unfold Round.choices
  rw [show ((round.perChoiceEffect.zip round.tallies).zipIdx.map (·.2)) =
    range' 0 (round.perChoiceEffect.zip round.tallies).length from zipIdx_map_snd _ _]
  exact nodup_range'

theorem choices_tally {choice : (AbilityDefinition Data × UInt32) × Nat}
    (mem : choice ∈ round.choices) : round.tallies[choice.2]? = some choice.1.2 := by
  have at_ := mem_zipIdx_iff_getElem?.mp mem
  exact (getElem?_zip_eq_some.mp at_).2

/-- A ballot is found under the position of its choice. -/
theorem choiceBallots_eq {idx : Nat} (some : round.votersFor idx ≠ []) :
    round.choiceBallots idx = round.votersFor idx := by
  have narrow : idx < UInt32.size := by
    obtain ⟨voter, mem⟩ := exists_mem_of_ne_nil _ some
    obtain ⟨ballot, cast, -⟩ := mem_map.mp mem
    rw [← of_decide_eq_true (mem_filter.mp cast).2]
    exact ballot.2.toNat_lt
  unfold Round.choiceBallots Round.votersFor
  congr 1
  apply filter_congr
  intro ballot _
  rw [decide_eq_decide, ← UInt32.toNat_inj, UInt32.toNat_ofNat_of_lt' narrow]

section
variable {choices : Nat} (tallied : Tallied choices ⟨round.tallies, round.ballots⟩)

include tallied

theorem Tallied.of_choice {choice : (AbilityDefinition Data × UInt32) × Nat}
    (mem : choice ∈ round.choices) :
    choice.1.2 = UInt32.ofNat (round.votersFor choice.2).length := by
  have at_ := choices_tally mem
  have low : choice.2 < choices := by
    rw [← tallied.length]
    exact (List.getElem?_eq_some_iff.mp at_).1
  have counts := tallied.counts choice.2 low
  rw [at_] at counts
  rw [Option.some.inj counts, Round.votersFor, length_map]

theorem Tallied.consistent : Consistent round round.choices := by
  intro choice mem counted
  have some : round.votersFor choice.2 ≠ [] := by
    intro none
    rw [tallied.of_choice mem, none] at counted
    exact counted rfl
  exact ⟨some, choiceBallots_eq some⟩

/-- A tally is zero only when it has wrapped around. -/
theorem Tallied.counted : Counted round round.choices ↔
    ∀ choice ∈ round.choices, round.votersFor choice.2 ≠ [] →
      ¬2 ^ 32 ∣ (round.votersFor choice.2).length := by
  apply forall₂_congr
  intro choice mem
  apply imp_congr_right
  intro _
  rw [tallied.of_choice mem, not_iff_not, ← UInt32.toNat_inj]
  exact Nat.dvd_iff_mod_eq_zero.symm

end

/-- The ballots of a vote for each of the voted choices, in any number of rounds of prompts, take
effect once each and in order exactly when no tally wraps around to zero and only ballots of the
last voted choice park a prompt. -/
theorem each_ballot_once {game : Game Data}
    (cast : Cast round.perChoiceEffect.length ⟨round.tallies, round.ballots⟩)
    (mode : round.tallyMode = .perVote) (sound : ∀ n, outcome n ≠ .fails)
    (waits : game.waitingFor = .voteChoice) (stack : game.resolutionStack = []) :
    ∃ middle, (resolveTally outcome round).run game = .ok () middle ∧
      (∃ last, Settles outcome middle last) ∧
      ∀ last, Settles outcome middle last →
        (last.log = game.log ++ expectedLog round (callsFrom round round.choices) ↔
          (∀ choice ∈ round.choices, round.votersFor choice.2 ≠ [] →
            ¬2 ^ 32 ∣ (round.votersFor choice.2).length) ∧
          ParksLast outcome game.begun (callsFrom round round.choices)) := by
  have tallied := cast.tallied
  have sane : Sane game := by
    intro n prompts
    rw [waits] at prompts
    cases prompts
  have idle : game.pending = none := by
    unfold Game.pending
    rw [waits]
  obtain ⟨middle, last, run, settles, log⟩ := @fanOut_log _ outcome
    { game with lastVoteBallots := round.ballots } round sound round.choices sane stack
  refine ⟨middle, ?_, ⟨last, settles⟩, ?_⟩
  · unfold resolveTally
    rw [mode]
    exact run
  · intro last' settles'
    rw [settles'.unique settles, log, append_right_inj, ← tallied.counted]
    rw [show Game.pending { game with lastVoteBallots := round.ballots } = none from idle]
    exact logOf_eq_iff tallied.consistent choices_nodup game.begun

/-- Three players vote for the second and the third choice. -/
def threeBallots : Ballots :=
  (((Ballots.none 3).append 0 2).append 1 1).append 2 2

theorem threeBallots_cast : Cast 3 threeBallots :=
  .append 2 2 (.append 1 1 (.append 0 2 Cast.none (by decide)) (by decide)) (by decide)

def threeRound : Round Nat where
  sourceId := 7
  controller := 0
  perChoiceEffect := [⟨false, false, 0⟩, ⟨false, false, 1⟩, ⟨false, false, 2⟩]
  tallies := threeBallots.tallies
  ballots := threeBallots.ballots
  tallyMode := .perVote
  candidateObjects := []
  outcomeTemplate := none
  chainRootTargets := []

def voted : Game Nat := ⟨.voteChoice, none, [], [], 0, []⟩

/-- The second and the third body park a prompt each. Both belong to the last voted choice. -/
def lastParks (n : Nat) : Outcome := if n = 0 then .finishes else .parks

theorem each_ballot_once_last : ∃ middle, (resolveTally lastParks threeRound).run voted =
      .ok () middle ∧ (∃ last, Settles lastParks middle last) ∧
      ∀ last, Settles lastParks middle last →
        last.log = expectedLog threeRound (callsFrom threeRound threeRound.choices) := by
  have sound : ∀ n, lastParks n ≠ .fails := by
    intro n
    unfold lastParks
    split <;> nofun
  obtain ⟨middle, run, settles, exact_⟩ := @each_ballot_once _ lastParks threeRound voted
    threeBallots_cast rfl sound rfl rfl
  refine ⟨middle, run, settles, fun last settled => (exact_ last settled).mpr ⟨by decide, ?_⟩⟩
  intro k call at_ parks
  match k with
  | 0 => cases parks
  | 1 | 2 =>
    cases at_
    exact ⟨rfl, rfl⟩
  | k + 3 => cases at_

/-- The first body parks its prompt: the ballots of the third choice take no effect. -/
def firstParks (n : Nat) : Outcome := if n = 0 then .parks else .finishes

theorem each_ballot_once_fails : ∃ middle last,
    (resolveTally firstParks threeRound).run voted = .ok () middle ∧
    Settles firstParks middle last ∧
    last.log ≠ expectedLog threeRound (callsFrom threeRound threeRound.choices) ∧
    last.log = expectedLog threeRound ((callsFrom threeRound threeRound.choices).take 1) := by
  refine ⟨_, _, rfl, .answered rfl (.idle ?_), ?_, ?_⟩
  · nofun
  · decide
  · decide

end Phase.Vote
