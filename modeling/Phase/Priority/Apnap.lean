import Phase.Priority.Navigation

/-! APNAP order from any anchor: everyone alive once, team by team, from the anchor on. -/
namespace Phase.Priority
open List

/-- Whom an effect may name as the one to begin. -/
inductive ControllerRef where
  | you
  | opponent
  | scopedPlayer
  | targetPlayer
  | targetOpponent
  | declaredPlayer (group : Nat)
  | parentTargetController
  | eventTargetController
  | parentTargetOwner
  | defendingPlayer
  | sourceChosenPlayer
  | chosenPlayer (index : Nat)
  | triggeringPlayer
  | enchantedPlayer
  | activePlayer
  | specificPlayer (id : PlayerId)
  deriving DecidableEq

namespace Table

def startPlayer (table : Table) (controller : PlayerId) : Option ControllerRef → PlayerId
  | some .you => controller
  | some (.specificPlayer id) => id
  | _ => table.activePlayer

def apnapOrderFrom (table : Table) (startingWith : Option ControllerRef) (controller : PlayerId) :
    List PlayerId :=
  if table.seatOrder = [] then []
  else
    let seats := table.turnOrderFrom (table.startPlayer controller startingWith)
    if table.formatConfig.topology.hasSharedTeamTurns then
      (table.apnapChoiceGroups seats []).flatten
    else seats.filter table.isAlive

variable {table : Table}

theorem map_range_shift {α : Type} (f : Nat → α) (n : Nat) :
    (range (n + 1)).map (fun k => f (k + 1)) = ((range (n + 1)).map f).tail ++ [f (n + 1)] := by
  rw [range_succ, map_append, map_singleton, ← range_succ, range_succ_eq_map, map_cons, map_map]
  rfl

/-- The seats at or after an anchor: its own, then those that a walk meets. -/
theorem turnOrderFrom_split {start seat : PlayerId} {before after : List PlayerId}
    (split : table.seatOrder = before ++ seat :: after)
    (place : (if start ∈ table.seatOrder then table.seatOrder.idxOf start else 0) =
      before.length) :
    table.turnOrderFrom start = match table.turnDirection with
      | .normal => seat :: (after ++ before)
      | .reversed => seat :: (before.reverse ++ after.reverse) := by
  have length : table.seatOrder.length = before.length + after.length + 1 := by
    simp [split]
    omega
  have first : table.seatOrder.getD
      (turnOrderIndex before.length 0 table.seatOrder.length table.turnDirection) 0 = seat := by
    have here : turnOrderIndex before.length 0 table.seatOrder.length table.turnDirection =
        before.length := by
      cases table.turnDirection with
      | normal => exact Nat.mod_eq_of_lt (by omega)
      | reversed =>
        rw [turnOrderIndex, Nat.zero_mod, Nat.sub_zero, Nat.add_mod_right]
        exact Nat.mod_eq_of_lt (by omega)
    rw [here, split]
    simp
  rw [length] at first
  have shifted : table.walk table.turnDirection start =
      (table.turnOrderFrom start).tail ++ [seat] := by
    have again : turnOrderIndex before.length (before.length + after.length + 1)
        (before.length + after.length + 1) table.turnDirection =
        turnOrderIndex before.length 0 (before.length + after.length + 1) table.turnDirection := by
      cases table.turnDirection <;> simp [turnOrderIndex]
    rw [walk, turnOrderFrom]
    simp only [place]
    rw [length, map_range_shift fun offset => table.seatOrder.getD (turnOrderIndex before.length
      offset (before.length + after.length + 1) table.turnDirection) 0, again, first]
  have walked := shifted.symm
  have head : table.turnOrderFrom start = seat :: (table.turnOrderFrom start).tail := by
    rw [turnOrderFrom]
    simp only [place, length, range_succ_eq_map, map_cons, tail_cons]
    rw [first]
  rw [head]
  cases direction : table.turnDirection with
  | normal =>
    rw [direction, walk_normal split place, ← append_assoc] at walked
    rw [append_cancel_right walked]
  | reversed =>
    rw [direction, walk_reversed split place, ← append_assoc] at walked
    rw [append_cancel_right walked]

/-- The table has each player once, and each seat. -/
structure Proper (table : Table) : Prop where
  seated : table.Seated
  seats : table.seatOrder.Nodup
  players : (table.players.map (·.id)).Nodup

theorem exists_start (start : PlayerId) (occupied : table.seatOrder ≠ []) :
    ∃ before seat after, table.seatOrder = before ++ seat :: after ∧
      (if start ∈ table.seatOrder then table.seatOrder.idxOf start else 0) = before.length ∧
      (seat = start ∨ start ∉ table.seatOrder ∧ before = []) := by
  by_cases seated : start ∈ table.seatOrder
  · obtain ⟨before, after, split, out⟩ := eq_append_cons_of_mem seated
    refine ⟨before, start, after, split, ?_, .inl rfl⟩
    rw [if_pos seated, split, idxOf_append_of_notMem out, idxOf_cons_self, Nat.add_zero]
  · obtain ⟨seat, after, split⟩ := exists_cons_of_ne_nil occupied
    exact ⟨[], seat, after, split, if_neg seated, .inr ⟨seated, rfl⟩⟩

theorem turnOrderFrom_perm (start : PlayerId) :
    (table.turnOrderFrom start).Perm table.seatOrder := by
  by_cases occupied : table.seatOrder = []
  · simp [turnOrderFrom, occupied]
  · obtain ⟨before, seat, after, split, place, -⟩ := exists_start start occupied
    rw [turnOrderFrom_split split place, split]
    refine Perm.trans ?_ perm_middle.symm
    cases table.turnDirection with
    | normal => exact perm_append_comm.cons seat
    | reversed => exact ((before.reverse_perm).append after.reverse_perm).cons seat

namespace Proper
variable (proper : table.Proper)
include proper

theorem teamMembers_nodup (player : PlayerId) : (table.teamMembers player).Nodup := by
  rw [teamMembers]
  split
  · exact proper.seats.filter _
  · split
    · exact nodup_nil
    · exact proper.players.filter _
  · split <;> exact proper.seats.filter _

/-- The members of a player's team are those of it that are alive. -/
theorem mem_teamMembers {first player : PlayerId} :
    player ∈ table.teamMembers first ↔
      table.isAlive player = true ∧ table.teamId player = table.teamId first := by
  constructor
  · exact fun member => ⟨mem_teamMembers_alive member, mem_teamMembers_team member⟩
  · rintro ⟨lives, same⟩
    rw [← teamMembers_congr_team same]
    exact self_mem_teamMembers proper.seated lives

end Proper

/-- The groups are the teams of one member each, the first living seat of a team that is met. -/
theorem apnapChoiceGroups_firsts (seats : List PlayerId) (seen : List Nat) :
    ∃ firsts : List PlayerId,
    table.apnapChoiceGroups seats seen = firsts.map table.teamMembers ∧
    (firsts.map table.teamId).Nodup ∧
    (∀ first ∈ firsts, table.isAlive first = true ∧ table.teamId first ∉ seen) ∧
    firsts.head? = seats.find? fun seat =>
      table.isAlive seat && !decide (table.teamId seat ∈ seen) := by
  induction seats generalizing seen with
  | nil => exact ⟨[], rfl, nodup_nil, fun _ there => (nomatch there), rfl⟩
  | cons seat seats ih =>
    rw [apnapChoiceGroups]
    by_cases alive : table.isAlive seat = true
    · by_cases known : table.teamId seat ∈ seen
      · obtain ⟨firsts, same, distinct, each, head⟩ := ih seen
        exact ⟨firsts, by simp [alive, known, same], distinct, each, by simp [alive, known, head]⟩
      · obtain ⟨firsts, same, distinct, each, -⟩ := ih (table.teamId seat :: seen)
        refine ⟨seat :: firsts, by simp [alive, known, same], ?_, ?_, by simp [alive, known]⟩
        · rw [map_cons, nodup_cons]
          refine ⟨fun again => ?_, distinct⟩
          obtain ⟨first, there, team⟩ := mem_map.mp again
          exact (each first there).2 (team ▸ mem_cons_self)
        · refine forall_mem_cons.mpr ⟨⟨alive, known⟩, fun first there => ?_⟩
          obtain ⟨lives, unseen⟩ := each first there
          exact ⟨lives, fun inside => unseen (mem_cons_of_mem _ inside)⟩
    · obtain ⟨firsts, same, distinct, each, head⟩ := ih seen
      exact ⟨firsts, by simp [alive, same], distinct, each, by simp [alive, head]⟩

theorem foldl_pushDistinct_same {reps acc : List PlayerId} {rep : PlayerId}
    (inside : rep ∈ acc) (same : ∀ other ∈ reps, other = rep) :
    reps.foldl pushDistinct acc = acc := by
  induction reps with
  | nil => rfl
  | cons other reps ih =>
    obtain ⟨rfl, others⟩ := forall_mem_cons.mp same
    rw [foldl_cons, pushDistinct, if_pos inside, ih others]

/-- Of each group the one representative is kept. -/
theorem foldl_pushDistinct_groups {groups : List (List PlayerId)} {reps acc : List PlayerId}
    (each : Forall₂ (fun group rep => group ≠ [] ∧ ∀ other ∈ group, other = rep) groups reps)
    (distinct : (acc ++ reps).Nodup) :
    groups.flatten.foldl pushDistinct acc = acc ++ reps := by
  induction each generalizing acc with
  | nil => simp
  | @cons group rep groups reps same _ ih =>
    obtain ⟨some_, same⟩ := same
    have out : rep ∉ acc := fun inside =>
      disjoint_of_nodup_append distinct inside mem_cons_self
    obtain ⟨other, rest, rfl⟩ := exists_cons_of_ne_nil some_
    obtain ⟨rfl, same⟩ := forall_mem_cons.mp same
    rw [flatten_cons, foldl_append, foldl_cons, pushDistinct, if_neg out,
      foldl_pushDistinct_same (by simp) same]
    have later : ((acc ++ [other]) ++ reps).Nodup := by simpa using distinct
    simpa using ih later

section
variable (proper : table.Proper)
include proper

theorem Proper.mem_seatOrder {player : PlayerId} (alive : table.isAlive player = true) :
    player ∈ table.seatOrder := by
  obtain ⟨p, known, rfl, -⟩ := isAlive_iff.mp alive
  exact proper.seated.seat p known

theorem Proper.mem_order {start player : PlayerId}
    (shared : table.formatConfig.topology.hasSharedTeamTurns = true) :
    player ∈ (table.apnapChoiceGroups (table.turnOrderFrom start) []).flatten ↔
      table.isAlive player = true := by
  refine ⟨apnapChoiceGroups_alive, fun alive => ?_⟩
  exact mem_apnapChoiceGroups (mem_turnOrderFrom.mpr (proper.mem_seatOrder alive)) alive
    not_mem_nil (self_mem_teamMembers proper.seated alive)

/-- Under shared turns the order is one team after the other. -/
theorem Proper.teams (start : PlayerId) : ∃ firsts : List PlayerId,
    table.apnapChoiceGroups (table.turnOrderFrom start) [] = firsts.map table.teamMembers ∧
    (firsts.map table.teamId).Nodup ∧ (∀ first ∈ firsts, table.isAlive first = true) ∧
    firsts.head? = (table.turnOrderFrom start).find? table.isAlive ∧
    (firsts.map table.teamMembers).flatten.Nodup := by
  obtain ⟨firsts, same, distinct, each, head⟩ :=
    table.apnapChoiceGroups_firsts (table.turnOrderFrom start) []
  refine ⟨firsts, same, distinct, fun first there => (each first there).1, by simpa using head, ?_⟩
  refine nodup_flatten.mpr ⟨fun group there => ?_, ?_⟩
  · obtain ⟨first, -, rfl⟩ := mem_map.mp there
    exact proper.teamMembers_nodup first
  · rw [pairwise_map]
    refine (pairwise_map.mp distinct).imp fun apart player here there => apart ?_
    exact (mem_teamMembers_team here).symm.trans (mem_teamMembers_team there)

theorem Proper.apnapOrderFrom_spec (startingWith : Option ControllerRef) (controller : PlayerId) :
    ((table.apnapOrderFrom startingWith controller).Nodup ∧
      ∀ player, player ∈ table.apnapOrderFrom startingWith controller ↔
        table.isAlive player = true) ∧
    (∀ first, (table.turnOrderFrom (table.startPlayer controller startingWith)).find?
        table.isAlive = some first → ∃ team rest,
      table.apnapOrderFrom startingWith controller = team ++ rest ∧
        if table.formatConfig.topology.hasSharedTeamTurns then
          ∀ player, player ∈ team ↔
            table.isAlive player = true ∧ table.teamId player = table.teamId first
        else team = [first]) ∧
    (table.formatConfig.topology.hasSharedTeamTurns = true → ∃ groups : List (List PlayerId),
      table.apnapOrderFrom startingWith controller = groups.flatten ∧
        ∀ group ∈ groups, ∃ first ∈ group, ∀ player, player ∈ group ↔
          table.isAlive player = true ∧ table.teamId player = table.teamId first) := by
  have order : table.apnapOrderFrom startingWith controller =
      if table.formatConfig.topology.hasSharedTeamTurns then
        (table.apnapChoiceGroups
          (table.turnOrderFrom (table.startPlayer controller startingWith)) []).flatten
      else (table.turnOrderFrom (table.startPlayer controller startingWith)).filter
        table.isAlive := by
    rw [apnapOrderFrom]
    split
    · next empty => simp [turnOrderFrom, empty, apnapChoiceGroups]
    · rfl
  rw [order]
  generalize table.startPlayer controller startingWith = start
  by_cases shared : table.formatConfig.topology.hasSharedTeamTurns = true
  · simp only [shared, if_true]
    obtain ⟨firsts, same, -, alive, head, once⟩ := proper.teams start
    have members : ∀ player, player ∈ (firsts.map table.teamMembers).flatten ↔
        table.isAlive player = true := same ▸ fun player => proper.mem_order shared
    rw [same]
    refine ⟨⟨once, members⟩, fun first met => ?_, fun _ => ⟨_, rfl, fun group there => ?_⟩⟩
    · rw [← head] at met
      obtain ⟨rest, rfl⟩ := head?_eq_some_iff.mp met
      exact ⟨table.teamMembers first, _, flatten_cons, fun player => proper.mem_teamMembers⟩
    · obtain ⟨first, known, rfl⟩ := mem_map.mp there
      exact ⟨first, self_mem_teamMembers proper.seated (alive first known),
        fun player => proper.mem_teamMembers⟩
  · simp only [shared, Bool.false_eq_true, if_false]
    have once : (table.turnOrderFrom start).Nodup :=
      (turnOrderFrom_perm start).nodup_iff.mpr proper.seats
    refine ⟨⟨once.filter _, fun player => ?_⟩, fun first met => ?_, fun impossible =>
      impossible.elim⟩
    · rw [mem_filter, mem_turnOrderFrom]
      exact ⟨fun there => there.2, fun alive => ⟨proper.mem_seatOrder alive, alive⟩⟩
    · rw [← head?_filter] at met
      obtain ⟨rest, shown⟩ := head?_eq_some_iff.mp met
      exact ⟨[first], rest, shown, rfl⟩

theorem map_sublist_flatten {firsts : List PlayerId} {rep : PlayerId → PlayerId}
    (member : ∀ first ∈ firsts, rep first ∈ table.teamMembers first) :
    (firsts.map rep).Sublist (firsts.map table.teamMembers).flatten := by
  induction firsts with
  | nil => exact Sublist.slnil
  | cons first firsts ih =>
    obtain ⟨own, others⟩ := forall_mem_cons.mp member
    rw [map_cons, map_cons, flatten_cons]
    exact (singleton_sublist.mpr own).append (ih others)

/-- Of each living team one member stands for it in a round of priority passes, and they stand in
the order of the teams. -/
theorem Proper.participants_spec :
    table.priorityPassParticipants.Sublist table.apnapOrder ∧
    (∀ rep ∈ table.priorityPassParticipants, table.isAlive rep = true) ∧
    ∀ player, table.isAlive player = true →
      ∃! rep, rep ∈ table.priorityPassParticipants ∧ table.teamId rep = table.teamId player := by
  have living : ∀ rep ∈ table.priorityPassParticipants, table.isAlive rep = true :=
    fun rep there => ((mem_participants proper.seated).mp there).1
  by_cases shared : table.formatConfig.topology.hasSharedTeamTurns = true
  · obtain ⟨firsts, same, distinct, alive, -, once⟩ := proper.teams table.activePlayer
    have rep : ∀ first ∈ firsts, (table.teamMembers first).head? =
        some (table.priorityPassRepresentative first) := fun first there =>
      representative_mem_teamMembers proper.seated (alive first there) shared
    have sublist := map_sublist_flatten proper fun first there => mem_of_head? (rep first there)
    have order : table.apnapOrder = (firsts.map table.teamMembers).flatten := by
      rw [apnapOrder]
      simp only [shared, if_true, same]
    have groups : Forall₂ (fun group rep => group ≠ [] ∧ ∀ other ∈ group, other = rep)
        (firsts.map fun first => (table.teamMembers first).map table.priorityPassRepresentative)
        (firsts.map table.priorityPassRepresentative) := by
      rw [forall₂_map_left_iff, forall₂_map_right_iff, forall₂_same]
      intro first there
      have own := mem_of_head? (rep first there)
      refine ⟨by simpa using ne_nil_of_mem own, fun other inside => ?_⟩
      obtain ⟨member, known, rfl⟩ := mem_map.mp inside
      have team := mem_teamMembers_team known
      rw [priorityPassRepresentative, priorityPassRepresentative]
      simp only [shared, Bool.not_true, Bool.false_eq_true, if_false]
      exact normalize_congr_team proper.seated (mem_teamMembers_alive known) shared team
    have kept := foldl_pushDistinct_groups groups
      (show ([] ++ firsts.map table.priorityPassRepresentative).Nodup from sublist.nodup once)
    have participants : table.priorityPassParticipants =
        firsts.map table.priorityPassRepresentative := by
      rw [priorityPassParticipants, order, map_flatten, map_map]
      simp only [shared, Bool.not_true, Bool.false_eq_true, if_false]
      exact kept
    refine ⟨by rw [participants, order]; exact sublist, living, fun player lives => ?_⟩
    have met : player ∈ (firsts.map table.teamMembers).flatten :=
      same ▸ (proper.mem_order shared).mpr lives
    obtain ⟨group, there, inside⟩ := mem_flatten.mp met
    obtain ⟨first, known, rfl⟩ := mem_map.mp there
    have own (first : PlayerId) (known : first ∈ firsts) :
        table.teamId (table.priorityPassRepresentative first) = table.teamId first :=
      mem_teamMembers_team (mem_of_head? (rep first known))
    refine ⟨table.priorityPassRepresentative first, ⟨?_, ?_⟩, ?_⟩
    · rw [participants]
      exact mem_map_of_mem known
    · exact (own first known).trans (mem_teamMembers_team inside).symm
    · rintro other ⟨there, team⟩
      rw [participants] at there
      obtain ⟨first', known', rfl⟩ := mem_map.mp there
      have equal : first' = first := inj_on_of_nodup_map distinct known' known
        ((own first' known').symm.trans (team.trans (mem_teamMembers_team inside)))
      rw [equal]
  · have all : table.priorityPassParticipants = table.apnapOrder := by
      simp [priorityPassParticipants, shared]
    have alone : table.formatConfig.topology = .individualSeats := by
      cases format : table.formatConfig.format <;> cases based : table.formatConfig.teamBased <;>
          simp_all [FormatConfig.topology, FormatTopology.hasSharedTeamTurns]
    have own (player : PlayerId) : table.teamId player = player := by rw [teamId, alone]
    refine ⟨by rw [all], living, fun player lives => ⟨player, ⟨?_, rfl⟩, fun other same => ?_⟩⟩
    · rw [all]
      exact (mem_apnapOrder proper.seated).mpr lives
    · rw [own, own] at same
      exact same.2

/-- APNAP order from any anchor is complete and begins at the anchor, and the participants of a
priority round stand for the teams in it. -/
theorem apnap_complete_and_anchored (startingWith : Option ControllerRef) (controller : PlayerId) :
    ((table.apnapOrderFrom startingWith controller).Nodup ∧
      ∀ player, player ∈ table.apnapOrderFrom startingWith controller ↔
        table.isAlive player = true) ∧
    (∀ before seat after, table.seatOrder = before ++ seat :: after →
      (seat = table.startPlayer controller startingWith ∨
        table.startPlayer controller startingWith ∉ table.seatOrder ∧ before = []) →
      table.turnOrderFrom (table.startPlayer controller startingWith) =
        match table.turnDirection with
        | .normal => seat :: (after ++ before)
        | .reversed => seat :: (before.reverse ++ after.reverse)) ∧
    (∀ first, (table.turnOrderFrom (table.startPlayer controller startingWith)).find?
        table.isAlive = some first → ∃ team rest,
      table.apnapOrderFrom startingWith controller = team ++ rest ∧
        if table.formatConfig.topology.hasSharedTeamTurns then
          ∀ player, player ∈ team ↔
            table.isAlive player = true ∧ table.teamId player = table.teamId first
        else team = [first]) ∧
    (table.formatConfig.topology.hasSharedTeamTurns = true → ∃ groups : List (List PlayerId),
      table.apnapOrderFrom startingWith controller = groups.flatten ∧
        ∀ group ∈ groups, ∃ first ∈ group, ∀ player, player ∈ group ↔
          table.isAlive player = true ∧ table.teamId player = table.teamId first) ∧
    table.priorityPassParticipants.Sublist table.apnapOrder ∧
    (∀ rep ∈ table.priorityPassParticipants, table.isAlive rep = true) ∧
    ∀ player, table.isAlive player = true →
      ∃! rep, rep ∈ table.priorityPassParticipants ∧ table.teamId rep = table.teamId player := by
  obtain ⟨complete, anchored, contiguous⟩ := proper.apnapOrderFrom_spec startingWith controller
  refine ⟨complete, fun before seat after split at_ => turnOrderFrom_split split ?_, anchored,
    contiguous, proper.participants_spec⟩
  rcases at_ with rfl | ⟨unseated, rfl⟩
  · exact startIdx_split proper.seats split
  · exact if_neg unseated

end
end Table

/-- Two-Headed Giant with a dead first member of the second team, from a dead anchor. -/
def twoHeads : Table where
  players := [⟨0, false⟩, ⟨1, false⟩, ⟨2, true⟩, ⟨3, false⟩]
  seatOrder := [0, 1, 2, 3]
  formatConfig := ⟨.twoHeadedGiant, true, none⟩
  activePlayer := 2
  turnDirection := .normal

theorem twoHeads_proper : twoHeads.Proper where
  seated := ⟨by decide, fun teamSize teamCount turns same => by cases same; decide⟩
  seats := by decide
  players := by decide

theorem twoHeads_anchored : (∃ team rest, twoHeads.apnapOrderFrom none 0 = team ++ rest ∧
      ∀ player, player ∈ team ↔
        twoHeads.isAlive player = true ∧ twoHeads.teamId player = twoHeads.teamId 3) ∧
    ∃! rep, rep ∈ twoHeads.priorityPassParticipants ∧ twoHeads.teamId rep = 1 := by
  obtain ⟨-, -, anchored, -, -, -, one⟩ :=
    Table.apnap_complete_and_anchored twoHeads_proper none 0
  exact ⟨anchored 3 (by decide), one 3 (by decide)⟩

end Phase.Priority
