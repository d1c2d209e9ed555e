import Phase.Combat.Shares

/-! Every creature contributes once: the run of prompts and answers of a sub-step, and the two
sub-steps of a combat. -/
namespace Phase.Combat
open List Progress

/-- The prompts and answers of a sub-step, from the state it begins in. -/
inductive Assigning (allowed : DamageAnswer → Prop) (subStep : CombatDamageSubStep)
    (base : GameState) : Option DamagePrompt → GameState → Prop
  | begin {prompt : Option DamagePrompt} {state : GameState}
      (collected : collectDamageAssignments base subStep = (prompt, state)) :
      Assigning allowed subStep base prompt state
  | answer {asked : DamagePrompt} {answer : DamageAnswer} {state after next : GameState}
      {prompt : Option DamagePrompt} (run : Assigning allowed subStep base (some asked) state)
      (isAllowed : allowed answer) (accepted : Accepts state after asked answer)
      (collected : collectDamageAssignments after subStep = (prompt, next)) :
      Assigning allowed subStep base prompt next

/-- No damage has been assigned yet. -/
structure Fresh (combat : CombatState) : Prop where
  pending : combat.pendingDamage = []
  cursor : combat.damageStepIndex = none
  recorded : combat.damageAssignments = ∅

section
variable (base : GameState) (combat : CombatState) (subStep : CombatDamageSubStep)

def AttackerDeals (info : AttackerInfo) (total : Nat) : Prop :=
  match dealer subStep combat.participants base info.objectId with
  | none => total = 0
  | some object => AttackerShare base combat info object total

def BlockerDeals (blocker : ObjectId) (total : Nat) : Prop :=
  match dealer subStep combat.participants base blocker with
  | none => total = 0
  | some object => total =
      if (combat.blockerToAttacker.lookup blocker).getD [] = [] then 0
        else combatDamageAmount object

/-- Each attacker and each blocker contributes its share, and nothing else contributes. -/
structure Contributes (pending : List (ObjectId × DamageAssignment)) : Prop where
  attackers : ∀ info ∈ combat.attackers,
    AttackerDeals base combat subStep info (dealt pending info.objectId)
  blockers : ∀ blocker ∈ combat.blockerToAttacker.keys,
    BlockerDeals base combat subStep blocker (dealt pending blocker)
  others : ∀ entry ∈ pending, entry.1 ∈ combat.attackers.map (·.objectId) ∨
    entry.1 ∈ combat.blockerToAttacker.keys

def Recorded (now : Progress) (blocker : ObjectId) : Prop :=
  (now.damageAssignments.lookup blocker).getD [] ≠ []

structure Assigned (i : Nat) (now : Progress) : Prop where
  attackers : ∀ j info, j < i → combat.attackers[j]? = some info →
    AttackerDeals base combat subStep info (dealt now.pendingDamage info.objectId)
  sources : ∀ entry ∈ now.pendingDamage,
    (∃ j info, j < i ∧ combat.attackers[j]? = some info ∧ entry.1 = info.objectId) ∨
      Recorded now entry.1
  blockers : ∀ blocker, Recorded now blocker → blocker ∈ combat.blockerToAttacker.keys ∧
    BlockerDeals base combat subStep blocker (dealt now.pendingDamage blocker)
  late : ∀ blocker, Recorded now blocker → combat.attackers.length ≤ i

/-- The blockers that are left have not been dealt with. -/
structure Blocking (start : Progress) (rest : List ObjectId) (now : Progress) : Prop where
  assigned : Assigned base combat subStep combat.attackers.length now
  cursor : now.damageStepIndex = some combat.attackers.length
  once : rest.Nodup
  keys : ∀ blocker ∈ rest, blocker ∈ combat.blockerToAttacker.keys
  same : ∀ blocker ∈ rest,
    now.damageAssignments.lookup blocker = start.damageAssignments.lookup blocker
  done : ∀ blocker ∈ combat.blockerToAttacker.keys, blocker ∈ rest ∨ Recorded now blocker ∨
    (combat.blockerToAttacker.lookup blocker).getD [] = [] ∨
      dealer subStep combat.participants base blocker = none

end

section
variable {base : GameState} {combat : CombatState} {subStep : CombatDamageSubStep}
variable {now start : Progress} {i : Nat} {info : AttackerInfo} {object : GameObject}
variable {entries : List (ObjectId × DamageAssignment)} {blocker : ObjectId}
variable {rest : List ObjectId}

theorem attacker_ne {j : Nat} {other : AttackerInfo} (at_ : combat.attackers[i]? = some info)
    (before : j < i) (other_ : combat.attackers[j]? = some other) :
    other.objectId ≠ info.objectId := by
  intro same
  have ids : (combat.attackers.map (·.objectId))[j]? = (combat.attackers.map (·.objectId))[i]? := by
    rw [getElem?_map, getElem?_map, at_, other_, Option.map_some, Option.map_some, same]
  have bound : j < (combat.attackers.map (·.objectId)).length := by
    rw [length_map]
    exact (List.getElem?_eq_some_iff.mp other_).1
  exact absurd ((getElem?_inj bound combat.once).mp ids) (by omega)

theorem attacker_ne_blocker (at_ : combat.attackers[i]? = some info)
    (blocks : blocker ∈ combat.blockerToAttacker.keys) : blocker ≠ info.objectId := by
  rintro rfl
  exact combat.apart _ (mem_map_of_mem (mem_of_getElem? at_)) blocks

section
variable (assigned : Assigned base combat subStep i now)
include assigned

/-- Nothing is pending from the attacker at the cursor. -/
theorem Assigned.attacker_new (at_ : combat.attackers[i]? = some info) :
    dealt now.pendingDamage info.objectId = 0 := by
  refine dealt_other fun entry isEntry same => ?_
  rcases assigned.sources entry isEntry with ⟨j, other, before, other_, is⟩ | recorded
  · exact attacker_ne at_ before other_ (is.symm.trans same)
  · exact attacker_ne_blocker at_ (assigned.blockers _ recorded).1 same

/-- Nothing is pending from a blocker that is not recorded. -/
theorem Assigned.blocker_new (blocks : blocker ∈ combat.blockerToAttacker.keys)
    (unrecorded : ¬Recorded now blocker) : dealt now.pendingDamage blocker = 0 := by
  refine dealt_other fun entry isEntry same => ?_
  rcases assigned.sources entry isEntry with ⟨j, other, -, other_, is⟩ | recorded
  · exact attacker_ne_blocker other_ blocks (same.symm.trans is)
  · exact unrecorded (same ▸ recorded)

/-- The attacker at the cursor gets its share. -/
theorem Assigned.add_attacker (at_ : combat.attackers[i]? = some info)
    (own : ∀ entry ∈ entries, entry.1 = info.objectId)
    (deals : AttackerDeals base combat subStep info (dealt entries info.objectId))
    (cursor : Option Nat) :
    Assigned base combat subStep (i + 1) { now.add entries with damageStepIndex := cursor } := by
  have elsewhere : ∀ id ≠ info.objectId,
      dealt (now.pendingDamage ++ entries) id = dealt now.pendingDamage id := by
    intro id differs
    rw [dealt_append, dealt_other fun entry isEntry same => differs ((own entry isEntry).symm.trans
      same).symm]
    rfl
  refine ⟨fun j other before other_ => ?_, fun entry isEntry => ?_, fun blocker recorded => ?_,
    fun blocker recorded => (assigned.late blocker recorded).trans (Nat.le_succ i)⟩
  · dsimp only [add]
    rcases Nat.lt_succ_iff_lt_or_eq.mp before with before | rfl
    · rw [elsewhere _ (attacker_ne at_ before other_)]
      exact assigned.attackers j other before other_
    · obtain rfl := Option.some_inj.mp (at_.symm.trans other_)
      rw [dealt_append, assigned.attacker_new at_, Nat.zero_add]
      exact deals
  · rcases mem_append.mp isEntry with old | new
    · exact (assigned.sources entry old).imp
        (fun ⟨j, other, before, found⟩ => ⟨j, other, before.trans (Nat.lt_succ_self i), found⟩) id
    · exact .inl ⟨i, info, Nat.lt_succ_self i, at_, own entry new⟩
  · obtain ⟨blocks, deals⟩ := assigned.blockers blocker recorded
    refine ⟨blocks, ?_⟩
    dsimp only [add]
    rwa [elsewhere _ (attacker_ne_blocker at_ blocks)]

end

/-- A blocker that is not recorded yet gets its share. -/
theorem Assigned.add_blocker (assigned : Assigned base combat subStep combat.attackers.length now)
    (blocks : blocker ∈ combat.blockerToAttacker.keys) (unrecorded : ¬Recorded now blocker)
    (own : ∀ entry ∈ entries, entry.1 = blocker)
    (deals : BlockerDeals base combat subStep blocker (dealt entries blocker))
    {recorded : List DamageAssignment} (some_ : recorded ≠ []) :
    Assigned base combat subStep combat.attackers.length
      ((now.add entries).record blocker recorded) := by
  have elsewhere : ∀ id ≠ blocker,
      dealt (now.pendingDamage ++ entries) id = dealt now.pendingDamage id := by
    intro id differs
    rw [dealt_append, dealt_other fun entry isEntry same => differs ((own entry isEntry).symm.trans
      same).symm]
    rfl
  have here : Recorded ((now.add entries).record blocker recorded) blocker := by
    unfold Recorded record
    rwa [AList.lookup_insert]
  have others : ∀ other ≠ blocker,
      (Recorded ((now.add entries).record blocker recorded) other ↔ Recorded now other) := by
    intro other differs
    unfold Recorded record
    rw [AList.lookup_insert_ne differs]
    rfl
  refine ⟨fun j info before at_ => ?_, fun entry isEntry => ?_, fun other isRecorded => ?_,
    fun _ _ => Nat.le_refl _⟩
  · dsimp only [record, add]
    rw [elsewhere _ (attacker_ne_blocker at_ blocks).symm]
    exact assigned.attackers j info before at_
  · rcases mem_append.mp isEntry with old | new
    · rcases assigned.sources entry old with found | isRecorded
      · exact .inl found
      · have differs : entry.1 ≠ blocker := fun same => unrecorded (same ▸ isRecorded)
        exact .inr ((others _ differs).mpr isRecorded)
    · exact .inr (own entry new ▸ here)
  · dsimp only [record, add]
    by_cases same : other = blocker
    · rw [same, dealt_append, assigned.blocker_new blocks unrecorded, Nat.zero_add]
      exact ⟨blocks, deals⟩
    · rw [elsewhere _ same]
      exact assigned.blockers other ((others other same).mp isRecorded)

/-- The blockers that are recorded do not matter to the attackers. -/
theorem attackerRule (isCombat : base.combat = some combat)
    (recorded : AList fun _ : ObjectId => List DamageAssignment) :
    AttackerRule base combat subStep combat.participants fun i now =>
      Assigned base combat subStep i now ∧ now.damageAssignments = recorded where
  passed i info now at_ := by
    rintro ⟨assigned, same⟩ none_
    have deals : AttackerDeals base combat subStep info (dealt [] info.objectId) := by
      unfold AttackerDeals
      rw [none_]
      rfl
    have next := assigned.add_attacker at_ (forall_mem_nil _) deals now.damageStepIndex
    exact ⟨by simpa [add] using next, same⟩
  assigned i info now object at_ := by
    rintro ⟨assigned, same⟩ isDealer unasked
    have deals : AttackerDeals base combat subStep info
        (dealt (autoEntries (base.during combat now) info object combat) info.objectId) := by
      unfold AttackerDeals
      rw [isDealer]
      exact autoEntries_share isCombat unasked
    exact ⟨assigned.add_attacker at_ autoEntries_own deals _, same⟩

theorem blockerRule :
    BlockerRule base combat subStep combat.participants start
      (Blocking base combat subStep start) where
  passed blocker rest now blocking reason := by
    obtain ⟨assigned, cursor, once, keys, same, done⟩ := blocking
    obtain ⟨here, later⟩ := forall_mem_cons.mp same
    refine ⟨assigned, cursor, (nodup_cons.mp once).2, (forall_mem_cons.mp keys).2,
      later, fun other blocks => ?_⟩
    rcases done other blocks with isOne | isDone
    · rcases mem_cons.mp isOne with rfl | left
      · refine .inr (reason.imp_left fun recorded => ?_)
        unfold Recorded
        rwa [here]
      · exact .inl left
    · exact .inr isDone
  assigned blocker rest now object first others blocking unrecorded isAttackers isDealer := by
    obtain ⟨assigned, cursor, once, keys, same, done⟩ := blocking
    obtain ⟨here, later⟩ := forall_mem_cons.mp same
    have new : ¬Recorded now blocker := by
      unfold Recorded
      rw [here, unrecorded]
      exact fun none_ => none_ rfl
    have deals : BlockerDeals base combat subStep blocker (dealt (distributeBlockerDamage blocker
        (combatDamageAmount object) (first :: others)) blocker) := by
      unfold BlockerDeals
      rw [isDealer, isAttackers]
      exact distributeBlockerDamage_total _ _ (cons_ne_nil _ _)
    have next := assigned.add_blocker (keys _ mem_cons_self) new
      (distributeBlockerDamage_own _ _ _) deals
        (cons_ne_nil (⟨.object first, combatDamageAmount object⟩ : DamageAssignment) [])
    refine ⟨next, cursor, (nodup_cons.mp once).2, (forall_mem_cons.mp keys).2,
      fun other left => ?_, fun other blocks => ?_⟩
    · have differs : other ≠ blocker := fun is => (nodup_cons.mp once).1 (is ▸ left)
      rw [← later other left]
      exact AList.lookup_insert_ne differs
    · by_cases is : other = blocker
      · refine .inr (.inl ?_)
        unfold Recorded record
        rw [is]
        rw [AList.lookup_insert]
        exact cons_ne_nil _ _
      · rcases done other blocks with isOne | recorded | isDone
        · exact .inl ((mem_cons.mp isOne).resolve_left is)
        · refine .inr (.inl ?_)
          unfold Recorded record at *
          rwa [AList.lookup_insert_ne is]
        · exact .inr (.inr isDone)

theorem Blocking.contributes (blocking : Blocking base combat subStep start [] now) :
    Contributes base combat subStep now.pendingDamage where
  attackers info attacks := by
    obtain ⟨i, bound, rfl⟩ := getElem_of_mem attacks
    exact blocking.assigned.attackers i _ bound (getElem?_eq_getElem bound)
  blockers blocker blocks := by
    by_cases recorded : Recorded now blocker
    · exact (blocking.assigned.blockers blocker recorded).2
    · rw [blocking.assigned.blocker_new blocks recorded]
      unfold BlockerDeals
      rcases blocking.done blocker blocks with left | isRecorded | none_ | none_
      · cases left
      · exact absurd isRecorded recorded
      · cases dealer subStep combat.participants base blocker with
        | none => rfl
        | some object => exact (if_pos none_).symm
      · rw [none_]
  others entry isEntry := by
    rcases blocking.assigned.sources entry isEntry with ⟨j, info, -, at_, is⟩ | recorded
    · exact .inl (is ▸ mem_map_of_mem (mem_of_getElem? at_))
    · exact .inr (blocking.assigned.blockers _ recorded).1

/-- What holds when the assignment stops: at an attacker or a blocker that is asked about, or at
the end. -/
inductive Stops (base : GameState) (combat : CombatState) (subStep : CombatDamageSubStep) :
    Option DamagePrompt → GameState → Prop
  | attacker {i : Nat} {info : AttackerInfo} {object : GameObject} {now : Progress}
      (at_ : combat.attackers[i]? = some info) (assigned : Assigned base combat subStep i now)
      (deals : dealer subStep combat.participants base info.objectId = some object)
      (asks : needsInteractiveAssignment base info object combat (combatDamageAmount object)
        (object.hasKeyword .deathtouch) (trampleKind object)) :
      Stops base combat subStep
        (some (.assignCombatDamage (attackerPrompt (base.during combat now) info object combat)))
        (base.during combat { now with damageStepIndex := some i })
  | blocker {blocker : ObjectId} {object : GameObject} {now : Progress}
      (assigned : Assigned base combat subStep combat.attackers.length now)
      (cursor : now.damageStepIndex = some combat.attackers.length)
      (blocks : blocker ∈ combat.blockerToAttacker.keys) (unrecorded : ¬Recorded now blocker)
      (some_ : (combat.blockerToAttacker.lookup blocker).getD [] ≠ [])
      (deals : dealer subStep combat.participants base blocker = some object) :
      Stops base combat subStep
        (some (.assignBlockerDamage ⟨base.activePlayer, blocker, combatDamageAmount object,
          (combat.blockerToAttacker.lookup blocker).getD []⟩))
        (base.during combat now)
  | done {now : Progress} (contributes : Contributes base combat subStep now.pendingDamage) :
      Stops base combat subStep none (base.during combat now)

theorem blockers_perm : combat.blockers.Perm combat.blockerToAttacker.keys :=
  perm_insertionSort _ _

variable {state : GameState} {prompt : Option DamagePrompt}

/-- The assignment is taken up where it stopped. -/
theorem Assigned.collect (isCombat : base.combat = some combat)
    (cursor : now.damageStepIndex.getD 0 = i) (assigned : Assigned base combat subStep i now)
    (within : i ≤ combat.attackers.length)
    (collected : collectDamageAssignments (base.during combat now) subStep = (prompt, state)) :
    Stops base combat subStep prompt state := by
  subst cursor
  have next : ∀ later, Assigned base combat subStep
      (max (now.damageStepIndex.getD 0) combat.attackers.length) later ∧
        later.damageAssignments = now.damageAssignments →
          Blocking base combat subStep now combat.blockers
            { later with damageStepIndex := some combat.attackers.length } := by
    rintro later ⟨assigned, same⟩
    rw [max_eq_right within] at assigned
    exact {
      assigned := ⟨assigned.attackers, assigned.sources, assigned.blockers, assigned.late⟩
      cursor := rfl
      once := blockers_perm.nodup_iff.mpr combat.blockerToAttacker.keys_nodup
      keys := fun blocker isOne => blockers_perm.mem_iff.mp isOne
      same := fun blocker _ => congrArg (AList.lookup blocker) same
      done := fun blocker blocks => .inl (blockers_perm.mem_iff.mpr blocks) }
  have ways := collectDamageAssignments_during (attackerRule isCombat now.damageAssignments)
    blockerRule ⟨assigned, rfl⟩ next
  rw [collected] at ways
  rcases ways with ⟨i, info, object, later, at_, holds, deals, asks, is⟩ |
    ⟨blocker, rest, object, later, holds, unrecorded, blocks, deals, is⟩ | ⟨later, holds, is⟩
  · cases is
    exact .attacker at_ holds.1 deals asks
  · cases is
    refine .blocker holds.assigned holds.cursor (holds.keys _ mem_cons_self) ?_ blocks deals
    unfold Recorded
    rw [holds.same _ mem_cons_self, unrecorded]
    exact fun none_ => none_ rfl
  · cases is
    exact .done holds.contributes

theorem Stops.answer (isCombat : base.combat = some combat) {next : Option DamagePrompt}
    {asked : DamagePrompt} {answer : DamageAnswer} {state after last : GameState}
    (stops : Stops base combat subStep (some asked) state)
    (fits : answer.amounts.sum < 2 ^ 32) (accepted : Accepts state after asked answer)
    (collected : collectDamageAssignments after subStep = (next, last)) :
    Stops base combat subStep next last := by
  cases stops with
  | @attacker i info object now at_ assigned deals asks =>
    cases accepted with
    | attacker accepted =>
      obtain ⟨entries, own, share, rfl⟩ := handleAssignCombatDamage_share isCombat
        (mem_of_getElem? at_) asks fits accepted
      have isDeals : AttackerDeals base combat subStep info (dealt entries info.objectId) := by
        unfold AttackerDeals
        rw [deals]
        exact share
      have bound := (List.getElem?_eq_some_iff.mp at_).1
      have again := assigned.add_attacker at_ own isDeals (some (i + 1))
      have past : ({ now.add entries with damageStepIndex := some (i + 1) } : Progress).damageStepIndex.getD
          0 = i + 1 := rfl
      exact again.collect isCombat past bound collected
  | @blocker blocker object now assigned cursor blocks unrecorded some_ deals =>
    cases accepted with
    | blocker accepted =>
      have amount : combatDamageAmount object ≠ 0 := by
        have is := (Option.filter_eq_some_iff.mp deals).2
        simp only [Bool.and_eq_true, decide_eq_true_eq] at is
        exact is.2
      obtain ⟨entries, recorded, own, isSome, all, rfl⟩ :=
        handleAssignBlockerDamage_share fits amount accepted
      have isDeals : BlockerDeals base combat subStep blocker (dealt entries blocker) := by
        unfold BlockerDeals
        rw [deals]
        exact all.trans (if_neg some_).symm
      have again := assigned.add_blocker blocks unrecorded own isDeals isSome
      have atEnd : ((now.add entries).record blocker recorded).damageStepIndex.getD 0 =
          combat.attackers.length := congrArg (Option.getD · 0) cursor
      exact again.collect isCombat atEnd (Nat.le_refl _) collected

theorem Fresh.assigned (fresh : Fresh combat) : Assigned base combat subStep 0 combat.progress := by
  have none_ : ∀ blocker, ¬Recorded combat.progress blocker := by
    intro blocker recorded
    unfold Recorded CombatState.progress at recorded
    rw [fresh.recorded] at recorded
    exact recorded rfl
  refine ⟨nofun, fun entry isEntry => ?_, fun blocker recorded => absurd recorded (none_ blocker),
    fun blocker recorded => absurd recorded (none_ blocker)⟩
  unfold CombatState.progress at isEntry
  rw [fresh.pending] at isEntry
  cases isEntry

/-- Wherever the assignment stops, and so at its end. -/
theorem Assigning.stops (isCombat : base.combat = some combat) (fresh : Fresh combat)
    (run : Assigning (fun answer => answer.amounts.sum < 2 ^ 32) subStep base prompt state) :
    Stops base combat subStep prompt state := by
  induction run with
  | begin collected =>
    rw [← during_progress isCombat] at collected
    exact fresh.assigned.collect isCombat (congrArg (Option.getD · 0) fresh.cursor)
      (Nat.zero_le _) collected
  | answer run isAllowed accepted collected ih => exact ih.answer isCombat isAllowed accepted collected

end

/-- The creatures that strike first are settled when the first damage is assigned. -/
def snapshotParticipants (state : GameState) : GameState :=
  match state.combat with
  | none => state
  | some combat =>
    match combat.firstStrikeParticipants with
    | some _ => state
    | none => { state with combat := some { combat with
        firstStrikeParticipants := some (combatFirstStrikeParticipants state combat) } }

/-- The sub-step that is resolved next. -/
def CombatState.nextSubStep (combat : CombatState) : CombatDamageSubStep :=
  if !combat.participants.isEmpty && !combat.firstStrikeDone then .firstStrike else .regular

/-- The damage is taken, and the next sub-step is assigned afresh. -/
def CombatState.finishFirstStrike (combat : CombatState) : CombatState :=
  { combat with
    pendingDamage := []
    firstStrikeDone := true
    damageStepIndex := none
    damageAssignments := ∅ }

/-- A sub-step whose damage is assigned: the state it began in, and what is pending at its end. -/
structure Batch where
  subStep : CombatDamageSubStep
  base : GameState
  combat : CombatState
  pending : List (ObjectId × DamageAssignment)

/-- Whatever happens between the sub-steps, the assignment of damage is left alone. -/
structure Untouched (before after : CombatState) : Prop where
  progress : after.progress = before.progress
  participants : after.firstStrikeParticipants = before.firstStrikeParticipants
  firstStrikeDone : after.firstStrikeDone = before.firstStrikeDone

/-- The damage of a combat: in one sub-step when no creature strikes first, else in two. -/
inductive DamageRun (allowed : DamageAnswer → Prop) (start : GameState) : List Batch → Prop
  | one {base last : GameState} {combat assigned : CombatState}
      (isBase : snapshotParticipants start = base) (isCombat : base.combat = some combat)
      (isNext : combat.nextSubStep = .regular)
      (run : Assigning allowed .regular base none last)
      (isAssigned : last.combat = some assigned) :
      DamageRun allowed start [⟨.regular, base, combat, assigned.pendingDamage⟩]
  | two {base first middle last : GameState} {combat struck combat' assigned : CombatState}
      (isBase : snapshotParticipants start = base) (isCombat : base.combat = some combat)
      (isNext : combat.nextSubStep = .firstStrike)
      (run : Assigning allowed .firstStrike base none first)
      (isStruck : first.combat = some struck)
      (isCombat' : middle.combat = some combat')
      (between : Untouched struck.finishFirstStrike combat')
      (run' : Assigning allowed .regular middle none last)
      (isAssigned : last.combat = some assigned) :
      DamageRun allowed start [⟨.firstStrike, base, combat, struck.pendingDamage⟩,
        ⟨.regular, middle, combat', assigned.pendingDamage⟩]

/-- No damage has been dealt in this combat, and none is assigned. -/
structure Begins (combat : CombatState) : Prop where
  fresh : Fresh combat
  participants : combat.firstStrikeParticipants = none
  firstStrikeDone : combat.firstStrikeDone = false

/-- Whether a creature was in combat with first strike or double strike. -/
def StrikesFirst (start : GameState) (combat : CombatState) (id : ObjectId) : Prop :=
  (id ∈ combat.attackers.map (·.objectId) ∨ id ∈ combat.blockerToAttacker.keys) ∧
    ∃ object, start.object id = some object ∧
      (object.hasKeyword .firstStrike ∨ object.hasKeyword .doubleStrike)

section
variable {start : GameState} {combat : CombatState}

theorem mem_participants (id : ObjectId) :
    id ∈ combatFirstStrikeParticipants start combat ↔ StrikesFirst start combat id := by
  unfold combatFirstStrikeParticipants StrikesFirst
  rw [mem_filter, mem_append, Option.any_eq_true]
  simp only [Bool.or_eq_true]

theorem Fresh.snapshot (fresh : Fresh combat) (participants : Option (List ObjectId)) :
    Fresh { combat with firstStrikeParticipants := participants } :=
  ⟨fresh.pending, fresh.cursor, fresh.recorded⟩

theorem snapshot_of_begins (isCombat : start.combat = some combat) (begins : Begins combat) :
    snapshotParticipants start = { start with combat := some { combat with
      firstStrikeParticipants := some (combatFirstStrikeParticipants start combat) } } := by
  unfold snapshotParticipants
  rw [isCombat]
  dsimp only
  rw [begins.participants]

variable {subStep : CombatDamageSubStep}

theorem Assigning.contributes {base last : GameState} {assigned : CombatState}
    (isCombat : base.combat = some combat) (fresh : Fresh combat)
    (run : Assigning (fun answer => answer.amounts.sum < 2 ^ 32) subStep base none last)
    (isAssigned : last.combat = some assigned) :
    Contributes base combat subStep assigned.pendingDamage ∧
      assigned.firstStrikeParticipants = combat.firstStrikeParticipants := by
  cases run.stops isCombat fresh with
  | done contributes => cases isAssigned; exact ⟨contributes, rfl⟩

theorem deals_iff {state : GameState} {id : ObjectId} {object : GameObject}
    (is : state.object id = some object) :
    dealsInSubstep object subStep (combatFirstStrikeParticipants start combat) ↔
      match subStep with
      | .firstStrike => StrikesFirst start combat id
      | .regular => StrikesFirst start combat id → object.hasKeyword .doubleStrike := by
  have isId : object.id = id := by simpa using find?_some is
  cases subStep with
  | firstStrike => simp [dealsInSubstep, isId, mem_participants]
  | regular =>
    simp only [dealsInSubstep, isId, mem_participants, Bool.or_eq_true, decide_eq_true_eq]
    exact imp_iff_not_or.symm

end

/-- As long as no answer wraps, every creature contributes its amount once to each sub-step it
deals damage in, or nothing without a recipient. Creatures that strike first deal damage in the
first sub-step, those with double strike in both, and all others in the regular one. -/
theorem combat_damage_once (start : GameState) (combat : CombatState) (batches : List Batch)
    (isCombat : start.combat = some combat) (begins : Begins combat)
    (run : DamageRun (fun answer => answer.amounts.sum < 2 ^ 32) start batches) :
    (batches.map (·.subStep) = [.regular] ∧ (∀ id, ¬StrikesFirst start combat id) ∨
      batches.map (·.subStep) = [.firstStrike, .regular] ∧ ∃ id, StrikesFirst start combat id) ∧
    ∀ batch ∈ batches, Contributes batch.base batch.combat batch.subStep batch.pending ∧
      ∀ id object, batch.base.object id = some object →
        (dealsInSubstep object batch.subStep batch.combat.participants ↔
          match batch.subStep with
          | .firstStrike => StrikesFirst start combat id
          | .regular => StrikesFirst start combat id → object.hasKeyword .doubleStrike) := by
  have snapshot := snapshot_of_begins isCombat begins
  cases run with
  | one isBase isBaseCombat isNext run isAssigned =>
    rw [snapshot] at isBase
    subst isBase
    cases isBaseCombat
    have none_ : combatFirstStrikeParticipants start combat = [] := by
      simpa [CombatState.nextSubStep, CombatState.participants, begins.firstStrikeDone] using isNext
    have contributes := run.contributes rfl (begins.fresh.snapshot _) isAssigned
    refine ⟨.inl ⟨rfl, fun id strikes => ?_⟩, fun batch isOne => ?_⟩
    · have inside := (mem_participants id).mpr strikes
      rw [none_] at inside
      cases inside
    · cases mem_singleton.mp isOne
      exact ⟨contributes.1, fun id object is => deals_iff is⟩
  | @two base first middle last _ struck later assigned isBase isBaseCombat isNext run isStruck
      isLater between run' isAssigned =>
      rw [snapshot] at isBase
      subst isBase
      cases isBaseCombat
      obtain ⟨contributes, same⟩ := run.contributes rfl (begins.fresh.snapshot _) isStruck
      have fresh : Fresh later :=
        ⟨congrArg pendingDamage between.progress,
          congrArg damageStepIndex between.progress,
          congrArg damageAssignments between.progress⟩
      have isSnapshot : later.participants = combatFirstStrikeParticipants start combat := by
        rw [CombatState.participants, between.participants]
        exact congrArg (Option.getD · []) same
      have some_ : combatFirstStrikeParticipants start combat ≠ [] := by
        intro none_
        simp [CombatState.nextSubStep, CombatState.participants, none_] at isNext
      obtain ⟨id, inside⟩ := exists_mem_of_ne_nil _ some_
      refine ⟨.inr ⟨rfl, id, (mem_participants id).mp inside⟩, fun batch isOne => ?_⟩
      rcases mem_pair.mp isOne with rfl | rfl
      · exact ⟨contributes, fun id object is => deals_iff is⟩
      · refine ⟨(run'.contributes isLater fresh isAssigned).1, fun id object is => ?_⟩
        rw [isSnapshot]
        exact deals_iff is

def doubleBlockStart : GameState :=
  { doubleBlock with combat := some { doubleBlockCombat with firstStrikeParticipants := none } }

theorem doubleBlock_run {allowed : DamageAnswer → Prop} {answer : CombatDamageAnswer}
    {after last : GameState} {assigned : CombatState}
    (isAllowed : allowed (.assignCombatDamage answer))
    (accepted : handleAssignCombatDamage doubleBlockAsked doubleBlockPrompt answer = .ok after)
    (collected : collectDamageAssignments after .regular = (none, last))
    (isAssigned : last.combat = some assigned) :
    DamageRun allowed doubleBlockStart
      [⟨.regular, doubleBlock, doubleBlockCombat, assigned.pendingDamage⟩] :=
  .one rfl rfl rfl (.answer (.begin doubleBlock_asks) isAllowed (.attacker accepted) collected)
    isAssigned

theorem doubleBlock_contributes :
    let batch : Batch := ⟨.regular, doubleBlock, doubleBlockCombat,
      [(1, ⟨.object 2, 1⟩), (1, ⟨.object 3, 2⟩), (2, ⟨.object 1, 1⟩), (3, ⟨.object 1, 2⟩)]⟩
    Contributes batch.base batch.combat batch.subStep batch.pending :=
  ((combat_damage_once doubleBlockStart _ _ rfl ⟨⟨rfl, rfl, rfl⟩, rfl, rfl⟩
    (@doubleBlock_run _ { assignments := [(2, 1), (3, 2)] } _ _ _ (by decide) rfl rfl rfl)).2 _
      mem_cons_self).1

/-- A creature with power three contributes `2^32 + 3`. -/
theorem wrapping_answer_contributes : ∃ batches, DamageRun (fun _ => True) doubleBlockStart batches ∧
    ∃ batch ∈ batches, ¬Contributes batch.base batch.combat batch.subStep batch.pending := by
  refine ⟨_, @doubleBlock_run _ { assignments := [(2, 4294967295), (3, 4)] } _ _ _ trivial rfl rfl
    rfl, _, mem_cons_self, fun contributes => ?_⟩
  have share : ∃ mode ∈ [CombatDamageAssignmentMode.normal], 4294967299 =
      if hasRecipient doubleBlock doubleBlockCombat ⟨1, 1, .player 1, true⟩ none mode then 3 else 0 :=
    contributes.attackers _ mem_cons_self
  exact absurd share (by decide)

end Phase.Combat
