import Phase.Vote.Tally

/-! What a whole vote logs: the fan-out over the choices, and every prompt it parks answered. -/
namespace Phase.Vote
open EStateM Game

variable {Data : Type} {outcome : Nat → Outcome} {game game' : Game Data}

/-- The answers go on until no prompt is left. -/
inductive Settles (outcome : Nat → Outcome) : Game Data → Game Data → Prop
  | idle {game : Game Data} : (∀ n, game.waitingFor ≠ .prompt n) → Settles outcome game game
  | answered {game game' : Game Data} {n : Nat} : game.waitingFor = .prompt n →
      Settles outcome (answer outcome game) game' → Settles outcome game game'

theorem Settles.unique {a b : Game Data} (ha : Settles outcome game a)
    (hb : Settles outcome game b) : a = b := by
  induction ha with
  | idle none =>
    cases hb with
    | idle => rfl
    | answered waits => exact absurd waits (none _)
  | answered waits _ ih =>
    cases hb with
    | idle none => exact absurd waits (none _)
    | answered _ rest => exact ih rest

/-- A prompt that waits is that of a body which was started and is parked. -/
def Sane (game : Game Data) : Prop :=
  ∀ n, game.waitingFor = .prompt n → n < game.begun ∧ game.parked.isSome

/-- The body whose prompt waits. -/
def Game.pending (game : Game Data) : Option (ResolvedAbility Data) :=
  match game.waitingFor with
  | .prompt _ => game.parked
  | _ => none

def paired (bodies : List (ResolvedAbility Data)) : List (Entry Data) :=
  bodies.flatMap fun body => [.started body, .finished body]

@[simp] theorem paired_nil : paired ([] : List (ResolvedAbility Data)) = [] := rfl

@[simp] theorem paired_cons (body : ResolvedAbility Data) (bodies : List (ResolvedAbility Data)) :
    paired (body :: bodies) = .started body :: .finished body :: paired bodies := rfl

@[simp] theorem paired_append (bodies bodies' : List (ResolvedAbility Data)) :
    paired (bodies ++ bodies') = paired bodies ++ paired bodies' := List.flatMap_append

theorem length_paired (bodies : List (ResolvedAbility Data)) :
    (paired bodies).length = 2 * bodies.length := by
  induction bodies with
  | nil => rfl
  | cons body bodies ih =>
    rw [paired_cons, List.length_cons, List.length_cons, List.length_cons]
    omega

def Game.afterFinished (body : ResolvedAbility Data) (game : Game Data) : Game Data :=
  { game with begun := game.begun + 1, log := game.log ++ [.started body, .finished body] }

def Game.afterParked (body : ResolvedAbility Data) (game : Game Data) : Game Data :=
  { game with
    waitingFor := .prompt game.begun
    parked := some body
    begun := game.begun + 1
    log := game.log ++ [.started body] }

theorem resolve_finishes (body : ResolvedAbility Data) (finishes : outcome game.begun = .finishes) :
    (resolveAbilityChain outcome body).run game = .ok () (game.afterFinished body) := by
  unfold resolveAbilityChain record
  simp only [run_bind, run_get, run_modify, finishes]
  rw [afterFinished]
  simp

theorem resolve_parks (body : ResolvedAbility Data) (parks : outcome game.begun = .parks) :
    (resolveAbilityChain outcome body).run game = .ok () (game.afterParked body) := by
  unfold resolveAbilityChain record
  simp only [run_bind, run_get, run_modify, parks]
  rfl

theorem finishes_or_parks (sound : ∀ n, outcome n ≠ .fails) (n : Nat) :
    outcome n = .finishes ∨ outcome n = .parks := by
  have sound := sound n
  cases here : outcome n with
  | finishes => exact .inl rfl
  | parks => exact .inr rfl
  | fails => exact absurd here sound

theorem Sane.prompt_fresh (sane : Sane game) : WaitingFor.prompt game.begun ≠ game.waitingFor := by
  intro same
  have := (sane _ same.symm).1
  omega

theorem Sane.afterFinished (sane : Sane game) (body : ResolvedAbility Data) :
    Sane (game.afterFinished body) := by
  intro n waits
  obtain ⟨old, parked⟩ := sane n waits
  exact ⟨Nat.lt_succ_of_lt old, parked⟩

theorem sane_afterParked (body : ResolvedAbility Data) : Sane (game.afterParked body) := by
  intro n waits
  cases waits
  exact ⟨Nat.lt_succ_self _, rfl⟩

section
variable (template : AbilityDefinition Data) (sourceId : ObjectId) (controller : PlayerId)
  (chainRootTargets : List ObjectId)

def ballotBodies (voters : List PlayerId) : List (ResolvedAbility Data) :=
  voters.map fun voter =>
    buildPerBallotAbility template voter sourceId controller chainRootTargets

/-- The ballots all finish, and nothing else changes. -/
structure Finished (game : Game Data) (voters : List PlayerId) (game' : Game Data) : Prop where
  log : game'.log = game.log ++
    paired (ballotBodies template sourceId controller chainRootTargets voters)
  begun : game'.begun = game.begun + voters.length
  waitingFor : game'.waitingFor = game.waitingFor
  parked : game'.parked = game.parked
  stack : game'.resolutionStack = game.resolutionStack
  clean : ∀ t < voters.length, outcome (game.begun + t) = .finishes

/-- The ballot of a voter parks its prompt, and the voters after it are parked. -/
structure Suspended (game : Game Data) (before : List PlayerId) (voter : PlayerId)
    (after : List PlayerId) (game' : Game Data) : Prop where
  log : game'.log = game.log ++
    paired (ballotBodies template sourceId controller chainRootTargets before) ++
      [.started (buildPerBallotAbility template voter sourceId controller chainRootTargets)]
  waitingFor : game'.waitingFor = .prompt (game.begun + before.length)
  begun : game'.begun = game.begun + before.length + 1
  parked : game'.parked =
    some (buildPerBallotAbility template voter sourceId controller chainRootTargets)
  stack : game'.resolutionStack =
    { abilityTemplate := template, remainingVoters := after, sourceId, controller,
      chainRootTargets } :: game.resolutionStack
  parks : outcome (game.begun + before.length) = .parks

theorem resolveBallots_cases (sound : ∀ n, outcome n ≠ .fails) (voters : List PlayerId)
    (sane : Sane game) :
    (∃ game', (resolveBallots outcome template sourceId controller chainRootTargets
        game.waitingFor voters).run game = .ok false game' ∧
      @Finished _ outcome template sourceId controller chainRootTargets game voters game') ∨
    ∃ before voter after game', voters = before ++ voter :: after ∧
      (resolveBallots outcome template sourceId controller chainRootTargets
        game.waitingFor voters).run game = .ok true game' ∧
      @Suspended _ outcome template sourceId controller chainRootTargets game before voter after
        game' := by
  induction voters generalizing game with
  | nil =>
    refine .inl ⟨game, rfl, ?_⟩
    constructor <;> simp [ballotBodies]
  | cons voter voters ih =>
    obtain ⟨body, isBody⟩ : ∃ body, buildPerBallotAbility template voter sourceId controller
      chainRootTargets = body := ⟨_, rfl⟩
    obtain finishes | parks := finishes_or_parks sound game.begun
    · have run : (resolveBallots outcome template sourceId controller chainRootTargets
          game.waitingFor (voter :: voters)).run game =
          (resolveBallots outcome template sourceId controller chainRootTargets
            (game.afterFinished body).waitingFor voters).run (game.afterFinished body) := by
        rw [resolveBallots, isBody]
        simp only [run_bind, resolve_finishes body finishes, run_get]
        rw [if_neg (by simp [afterFinished])]
        rfl
      rw [run]
      obtain ⟨game', rest, finished⟩ | ⟨before, voter', after, game', rfl, rest, suspended⟩ :=
        ih (sane.afterFinished body)
      · refine .inl ⟨game', rest, ?_⟩
        constructor
        · rw [finished.log]
          simp [afterFinished, ballotBodies, isBody]
        · rw [finished.begun, List.length_cons]
          simp only [afterFinished]
          omega
        · exact finished.waitingFor
        · exact finished.parked
        · exact finished.stack
        · intro t low
          cases t with
          | zero => exact finishes
          | succ t =>
            have := finished.clean t (Nat.lt_of_succ_lt_succ low)
            rw [show game.begun + (t + 1) = (game.afterFinished body).begun + t by
              simp only [afterFinished]
              omega]
            exact this
      · refine .inr ⟨voter :: before, voter', after, game', rfl, rest, ?_⟩
        have shift : (game.afterFinished body).begun + before.length =
            game.begun + (voter :: before).length := by
          simp only [afterFinished, List.length_cons]
          omega
        constructor
        · rw [suspended.log]
          simp [afterFinished, ballotBodies, isBody]
        · rw [suspended.waitingFor, shift]
        · rw [suspended.begun, shift]
        · exact suspended.parked
        · exact suspended.stack
        · rw [← shift]
          exact suspended.parks
    · refine .inr ⟨[], voter, voters, { game.afterParked body with
        resolutionStack := ⟨template, voters, sourceId, controller, chainRootTargets⟩ ::
          game.resolutionStack }, rfl, ?_, ?_⟩
      · rw [resolveBallots, isBody]
        simp only [run_bind, resolve_parks body parks, run_get]
        rw [if_pos (by simpa [afterParked] using sane.prompt_fresh)]
        rfl
      · constructor
        · simp [afterParked, ballotBodies, isBody]
        · rfl
        · rfl
        · exact congrArg some isBody.symm
        · rfl
        · exact parks

/-- Once a ballot has parked its prompt, the answers bring in the voters after it, and the end. -/
theorem settle_suspended (sound : ∀ n, outcome n ≠ .fails) {n : Nat}
    {body : ResolvedAbility Data} {voters : List PlayerId}
    (waits : game.waitingFor = .prompt n) (parked : game.parked = some body)
    (stack : game.resolutionStack =
      [⟨template, voters, sourceId, controller, chainRootTargets⟩]) :
    ∃ game', Settles outcome game game' ∧ game'.log = game.log ++ .finished body ::
      paired (ballotBodies template sourceId controller chainRootTargets voters) ++
        [.effectResolved sourceId] := by
  obtain ⟨size, length⟩ : ∃ size, voters.length = size := ⟨_, rfl⟩
  induction size using Nat.strongRecOn generalizing game voters n body with
  | ind size ih =>
    obtain ⟨freed, isFreed⟩ : ∃ freed : Game Data, { game with
      waitingFor := .priority
      parked := none
      resolutionStack := []
      log := game.log ++ [.finished body] } = freed := ⟨_, rfl⟩
    have sane : Sane freed := by
      rw [← isFreed]
      intro n waits
      cases waits
    have logged : freed.log = game.log ++ [.finished body] := by rw [← isFreed]
    have empty : freed.resolutionStack = [] := by rw [← isFreed]
    have idle : freed.waitingFor = .priority := by rw [← isFreed]
    have drained {parks : Bool} {left : Game Data} (run : (resolveBallots outcome template sourceId
        controller chainRootTargets freed.waitingFor voters).run freed = .ok parks left) :
        answer outcome game = bif parks then left else
          { left with log := left.log ++ [.effectResolved sourceId] } := by
      rw [← isFreed] at run
      unfold answer drainActiveVoteBallot
      simp only [waits, parked, stack]
      rw [run]
      cases parks <;> rfl
    obtain ⟨game', run, finished⟩ | ⟨before, voter, after, game', rfl, run, suspended⟩ :=
      @resolveBallots_cases _ outcome freed template sourceId controller chainRootTargets sound
        voters sane
    · refine ⟨_, .answered waits (.idle ?_), ?_⟩
      · rw [drained run, cond_false, finished.waitingFor, idle]
        exact fun _ asks => by cases asks
      · rw [drained run]
        change game'.log ++ _ = _
        rw [finished.log, logged]
        simp
    · obtain ⟨last, settles, log⟩ := ih after.length (by rw [← length]; simp; omega)
        suspended.waitingFor suspended.parked (by rw [suspended.stack, empty]) rfl
      refine ⟨last, .answered waits (by rw [drained run]; exact settles), ?_⟩
      rw [log, suspended.log, logged]
      simp [ballotBodies]

end

/-- A prompt without ballots behind it is answered once. -/
theorem settle_alone (sane : Sane game) (stack : game.resolutionStack = []) :
    ∃ game', Settles outcome game game' ∧
      game'.log = game.log ++ (game.pending.toList.map Entry.finished) := by
  unfold pending
  cases waits : game.waitingFor with
  | voteChoice =>
    exact ⟨game, .idle (by rw [waits]; nofun), by simp⟩
  | priority =>
    exact ⟨game, .idle (by rw [waits]; nofun), by simp⟩
  | prompt n =>
    obtain ⟨body, parked⟩ := Option.isSome_iff_exists.mp (sane n waits).2
    refine ⟨answer outcome game, .answered waits (.idle ?_), ?_⟩
    · unfold answer drainActiveVoteBallot
      simp [waits, parked, stack]
    · unfold answer drainActiveVoteBallot
      simp [waits, parked, stack]

variable {round : Round Data}

/-- What is logged from a choice on, when `n` bodies were started before and the prompt of
`pending` waits. A body with its own scope, and one that counts the votes, is not waited for. -/
def logOf (outcome : Nat → Outcome) (round : Round Data) :
    List ((AbilityDefinition Data × UInt32) × Nat) → Nat → Option (ResolvedAbility Data) →
      List (Entry Data)
  | [], _, pending => .effectResolved round.sourceId :: pending.toList.map Entry.finished
  | ((template, votes), idx) :: rest, n, pending =>
    if votes = 0 then logOf outcome round rest n pending
    else if template.playerScoped || template.countsVotes then
      if outcome n = .parks then
        .started (round.body template) ::
          logOf outcome round rest (n + 1) (some (round.body template))
      else paired [round.body template] ++ logOf outcome round rest (n + 1) pending
    else
      let voters := round.choiceBallots idx
      let bodies := ballotBodies template round.sourceId round.controller
        round.chainRootTargets voters
      if ∃ t < voters.length, outcome (n + t) = .parks then
        paired bodies ++ [.effectResolved round.sourceId]
      else paired bodies ++ logOf outcome round rest (n + voters.length) pending

/-- The fan-out and the answers to its prompts log exactly that. -/
theorem fanOut_log (sound : ∀ n, outcome n ≠ .fails)
    (choices : List ((AbilityDefinition Data × UInt32) × Nat)) (sane : Sane game)
    (stack : game.resolutionStack = []) :
    ∃ middle last, (fanOut outcome round choices).run game = .ok () middle ∧
      Settles outcome middle last ∧
      last.log = game.log ++ logOf outcome round choices game.begun game.pending := by
  induction choices generalizing game with
  | nil =>
    obtain ⟨last, settles, log⟩ := @settle_alone _ outcome
      { game with log := game.log ++ [.effectResolved round.sourceId] } sane stack
    refine ⟨_, last, rfl, settles, ?_⟩
    rw [log]
    simp [logOf, pending]
  | cons choice rest ih =>
    obtain ⟨⟨template, votes⟩, idx⟩ := choice
    unfold fanOut logOf
    by_cases none : votes = 0
    · rw [if_pos none, if_pos none]
      exact ih sane stack
    · rw [if_neg none, if_neg none]
      have alone : ∃ middle last, (do
              resolveAbilityChain outcome (round.body template)
              fanOut outcome round rest : Resolving Data Unit).run game = .ok () middle ∧
            Settles outcome middle last ∧ last.log = game.log ++ if outcome game.begun = .parks then
                .started (round.body template) ::
                  logOf outcome round rest (game.begun + 1) (some (round.body template))
              else paired [round.body template] ++
                logOf outcome round rest (game.begun + 1) game.pending := by
        obtain finishes | parks := finishes_or_parks sound game.begun
        · obtain ⟨middle, last, run, settles, log⟩ :=
            ih (sane.afterFinished (round.body template)) stack
          refine ⟨middle, last, ?_, settles, ?_⟩
          · simp only [run_bind, resolve_finishes _ finishes]
            exact run
          · rw [if_neg (by rw [finishes]; nofun), log]
            simp [afterFinished, pending]
        · obtain ⟨middle, last, run, settles, log⟩ :=
            ih (sane_afterParked (round.body template)) stack
          refine ⟨middle, last, ?_, settles, ?_⟩
          · simp only [run_bind, resolve_parks _ parks]
            exact run
          · rw [if_pos parks, log]
            simp [afterParked, pending]
      by_cases own : template.playerScoped
      · rw [if_pos own, if_pos (by simp [own])]
        exact alone
      · by_cases counts : template.countsVotes
        · rw [if_neg own, if_pos counts, if_pos (by simp [counts])]
          exact alone
        · rw [if_neg own, if_neg counts, if_neg (by simp [own, counts])]
          obtain ⟨game', run, finished⟩ | ⟨before, voter, after, game', split, run, suspended⟩ :=
            @resolveBallots_cases _ outcome game template round.sourceId round.controller
              round.chainRootTargets sound (round.choiceBallots idx) sane
          · have sane' : Sane game' := by
              intro n waits
              rw [finished.waitingFor] at waits
              obtain ⟨old, parked⟩ := sane n waits
              rw [finished.begun, finished.parked]
              exact ⟨by omega, parked⟩
            obtain ⟨middle, last, rest', settles, log⟩ := ih sane' (finished.stack.trans stack)
            refine ⟨middle, last, ?_, settles, ?_⟩
            · simp only [run_bind, run_get, run]
              exact rest'
            · have clean : ¬∃ t < (round.choiceBallots idx).length,
                  outcome (game.begun + t) = .parks := by
                rintro ⟨t, low, parks⟩
                rw [finished.clean t low] at parks
                cases parks
              rw [if_neg clean, log, finished.log, finished.begun]
              simp [pending, finished.waitingFor, finished.parked]
          · obtain ⟨last, settles, log⟩ := settle_suspended template round.sourceId
              round.controller round.chainRootTargets sound suspended.waitingFor suspended.parked
              (by rw [suspended.stack, stack])
            refine ⟨game', last, ?_, settles, ?_⟩
            · simp only [run_bind, run_get, run]
              rfl
            · have parks : ∃ t < (round.choiceBallots idx).length,
                  outcome (game.begun + t) = .parks :=
                ⟨before.length, by rw [split]; simp, suspended.parks⟩
              rw [if_pos parks, log, suspended.log, split]
              simp [ballotBodies]

end Phase.Vote
