import Mathlib.Data.Finset.Card
import Mathlib.Data.List.GetD

/-! Seats, teams and APNAP order: who takes part in a round of priority passes. -/
namespace Phase.Priority
open List

abbrev PlayerId := Nat

/-- The formats the seat topology tells apart; every other format is `constructed`. -/
inductive GameFormat where
  | constructed
  | twoHeadedGiant
  | twoHeadedGiantCommander
  | archenemy
  | archenemyCommander
  deriving DecidableEq

inductive TurnStructure where
  | individualTurns
  | sharedTeamTurns
  deriving DecidableEq

inductive FormatTopology where
  | individualSeats
  | fixedTeams (teamSize teamCount : Nat) (turnStructure : TurnStructure)
  | oneVsMany (archenemy : PlayerId) (turnStructure : TurnStructure)
  deriving DecidableEq

structure FormatConfig where
  format : GameFormat
  teamBased : Bool
  archenemyPlayer : Option PlayerId
  deriving DecidableEq

namespace FormatConfig

def topology (config : FormatConfig) : FormatTopology :=
  match config.format with
  | .twoHeadedGiant => .fixedTeams 2 2 .sharedTeamTurns
  | .twoHeadedGiantCommander => .fixedTeams 2 2 .sharedTeamTurns
  | .archenemyCommander => .oneVsMany (config.archenemyPlayer.getD 0) .sharedTeamTurns
  | .archenemy => .oneVsMany (config.archenemyPlayer.getD 0) .sharedTeamTurns
  | .constructed =>
    if config.teamBased then .fixedTeams 2 2 .sharedTeamTurns else .individualSeats

end FormatConfig

def FormatTopology.hasSharedTeamTurns : FormatTopology → Bool
  | .individualSeats => false
  | .fixedTeams _ _ turns => turns = .sharedTeamTurns
  | .oneVsMany _ turns => turns = .sharedTeamTurns

def GameFormat.isTwoHeadedGiantFamily (format : GameFormat) : Bool :=
  format = .twoHeadedGiant ∨ format = .twoHeadedGiantCommander

inductive TurnDirection where
  | normal
  | reversed
  deriving DecidableEq

structure Player where
  id : PlayerId
  isEliminated : Bool
  deriving DecidableEq

/-- The part of the game state that seats the players. -/
structure Table where
  players : List Player
  seatOrder : List PlayerId
  formatConfig : FormatConfig
  activePlayer : PlayerId
  turnDirection : TurnDirection
  deriving DecidableEq

namespace Table

def isAlive (table : Table) (player : PlayerId) : Bool :=
  table.players.any fun p => p.id = player && !p.isEliminated

def turnOrderIndex (startIdx offset len : Nat) : TurnDirection → Nat
  | .normal => (startIdx + offset) % len
  | .reversed => (startIdx + len - offset % len) % len

/-- The seats of the table read from `start` in the current turn order. -/
def turnOrderFrom (table : Table) (start : PlayerId) : List PlayerId :=
  let len := table.seatOrder.length
  let startIdx := if start ∈ table.seatOrder then table.seatOrder.idxOf start else 0
  (range len).map fun offset =>
    table.seatOrder.getD (turnOrderIndex startIdx offset len table.turnDirection) 0

def teamId (table : Table) (player : PlayerId) : Nat :=
  match table.formatConfig.topology with
  | .individualSeats => player
  | .fixedTeams teamSize _ _ => player / teamSize
  | .oneVsMany archenemy _ => if player = archenemy then 0 else 1

def teamMembers (table : Table) (player : PlayerId) : List PlayerId :=
  match table.formatConfig.topology with
  | .individualSeats => table.seatOrder.filter fun id => id = player && table.isAlive id
  | .fixedTeams _ teamCount _ =>
    if teamCount ≤ table.teamId player then []
    else (table.players.map (·.id)).filter fun id =>
      table.teamId id = table.teamId player && table.isAlive id
  | .oneVsMany archenemy _ =>
    if player = archenemy then
      table.seatOrder.filter fun id => id = archenemy && table.isAlive id
    else table.seatOrder.filter fun id => id ≠ archenemy && table.isAlive id

def teammates (table : Table) (player : PlayerId) : List PlayerId :=
  match table.formatConfig.topology with
  | .individualSeats => []
  | .fixedTeams .. | .oneVsMany .. => (table.teamMembers player).filter fun id => id ≠ player

def archenemy (table : Table) : Option PlayerId :=
  match table.formatConfig.topology with
  | .oneVsMany archenemy _ => some archenemy
  | .individualSeats | .fixedTeams .. => none

/-- Team loss rides with shared life: the Two-Headed Giant family, and the
heroes of Archenemy Commander. -/
def hasSharedLife (table : Table) (player : PlayerId) : Bool :=
  if table.formatConfig.format.isTwoHeadedGiantFamily then true
  else if table.formatConfig.format = .archenemyCommander then
    some player ≠ table.archenemy
  else false

/-- One group of choosers per team, each team at its first living seat. -/
def apnapChoiceGroups (table : Table) : List PlayerId → List Nat → List (List PlayerId)
  | [], _ => []
  | candidate :: seats, seen =>
    if !table.isAlive candidate then table.apnapChoiceGroups seats seen
    else if table.teamId candidate ∈ seen then table.apnapChoiceGroups seats seen
    else table.teamMembers candidate ::
      table.apnapChoiceGroups seats (table.teamId candidate :: seen)

def apnapOrder (table : Table) : List PlayerId :=
  let seats := table.turnOrderFrom table.activePlayer
  if table.formatConfig.topology.hasSharedTeamTurns then
    (table.apnapChoiceGroups seats []).flatten
  else seats.filter table.isAlive

def normalizeSharedTurnRecipient (table : Table) (player : PlayerId) : PlayerId :=
  if !table.formatConfig.topology.hasSharedTeamTurns then player
  else (table.teamMembers player).head?.getD player

def priorityPassRepresentative (table : Table) (player : PlayerId) : PlayerId :=
  if !table.formatConfig.topology.hasSharedTeamTurns then player
  else table.normalizeSharedTurnRecipient player

def pushDistinct (reps : List PlayerId) (rep : PlayerId) : List PlayerId :=
  if rep ∈ reps then reps else reps ++ [rep]

def priorityPassParticipants (table : Table) : List PlayerId :=
  if !table.formatConfig.topology.hasSharedTeamTurns then table.apnapOrder
  else (table.apnapOrder.map table.priorityPassRepresentative).foldl pushDistinct []

/-- The walk shared by `next_player` and `previous_player`: the first living
seat met from `current`, or `current` when nobody else is alive. -/
def nextPlayerWalking (table : Table) (direction : TurnDirection) (current : PlayerId) :
    PlayerId :=
  let len := table.seatOrder.length
  let currentIdx := if current ∈ table.seatOrder then table.seatOrder.idxOf current else 0
  (((range len).map fun offset =>
    table.seatOrder.getD (turnOrderIndex currentIdx (offset + 1) len direction) 0).find?
      table.isAlive).getD current

def nextPlayer (table : Table) (current : PlayerId) : PlayerId :=
  table.nextPlayerWalking .normal current

def nextPlayerInTurnOrder (table : Table) (current : PlayerId) : PlayerId :=
  table.nextPlayerWalking table.turnDirection current

/-- Who takes the turn after `current`'s in the natural order: with shared team turns,
the first living team met from `current` other than its own. -/
def nextTurnRepresentative (table : Table) (current : PlayerId) : PlayerId :=
  if !table.formatConfig.topology.hasSharedTeamTurns then table.nextPlayerInTurnOrder current
  else if table.seatOrder.isEmpty then table.normalizeSharedTurnRecipient current
  else
    let len := table.seatOrder.length
    let currentTeam := table.teamId current
    let currentIdx := if current ∈ table.seatOrder then table.seatOrder.idxOf current else 0
    match ((range len).map fun offset =>
        table.seatOrder.getD
          (turnOrderIndex currentIdx (offset + 1) len table.turnDirection) 0).find?
        fun candidate => table.isAlive candidate && table.teamId candidate ≠ currentTeam with
    | some candidate => table.normalizeSharedTurnRecipient candidate
    | none => table.normalizeSharedTurnRecipient current

/-- Every player has a seat and, in a format of fixed teams, a team. -/
structure Seated (table : Table) : Prop where
  seat : ∀ p ∈ table.players, p.id ∈ table.seatOrder
  team : ∀ teamSize teamCount turns,
    table.formatConfig.topology = .fixedTeams teamSize teamCount turns →
      ∀ p ∈ table.players, p.id / teamSize < teamCount

variable {player : PlayerId} {table : Table}

theorem isAlive_iff :
    table.isAlive player = true ↔ ∃ p ∈ table.players, p.id = player ∧ p.isEliminated = false := by
  simp [isAlive]

theorem turnOrderIndex_surjective {start len index : Nat} (direction : TurnDirection)
    (hs : start < len) (hi : index < len) :
    ∃ offset < len, turnOrderIndex start offset len direction = index := by
  cases direction with
  | normal =>
    refine ⟨(index + len - start) % len, Nat.mod_lt _ (by omega), ?_⟩
    simp only [turnOrderIndex]
    rw [Nat.add_mod_mod, show start + (index + len - start) = index + len by omega,
      Nat.add_mod_right, Nat.mod_eq_of_lt hi]
  | reversed =>
    simp only [turnOrderIndex]
    by_cases le : index ≤ start
    · refine ⟨start - index, by omega, ?_⟩
      rw [Nat.mod_eq_of_lt (show start - index < len by omega),
        show start + len - (start - index) = index + len by omega,
        Nat.add_mod_right, Nat.mod_eq_of_lt hi]
    · refine ⟨start + len - index, by omega, ?_⟩
      rw [Nat.mod_eq_of_lt (show start + len - index < len by omega),
        show start + len - (start + len - index) = index by omega, Nat.mod_eq_of_lt hi]

theorem turnOrderIndex_lt (start offset : Nat) {len : Nat} (direction : TurnDirection)
    (positive : 0 < len) : turnOrderIndex start offset len direction < len := by
  cases direction <;> exact Nat.mod_lt _ positive

theorem mem_turnOrderFrom {start : PlayerId} :
    player ∈ table.turnOrderFrom start ↔ player ∈ table.seatOrder := by
  simp only [turnOrderFrom, mem_map, mem_range]
  constructor
  · rintro ⟨offset, bound, rfl⟩
    have inside := turnOrderIndex_lt
      (if start ∈ table.seatOrder then table.seatOrder.idxOf start else 0) offset
      table.turnDirection (Nat.zero_lt_of_lt bound)
    rw [getD_eq_getElem _ _ inside]
    exact getElem_mem inside
  · intro seated
    obtain ⟨index, bound, rfl⟩ := mem_iff_getElem.mp seated
    have startBound : (if start ∈ table.seatOrder then table.seatOrder.idxOf start else 0) <
        table.seatOrder.length := by
      split
      · exact idxOf_lt_length_of_mem ‹_›
      · omega
    obtain ⟨offset, small, reaches⟩ :=
      turnOrderIndex_surjective table.turnDirection startBound bound
    exact ⟨offset, small, by rw [reaches, getD_eq_getElem _ _ bound]⟩

/-- The walk from any seat meets every seat. -/
theorem mem_walk {table : Table} {start : Nat} {direction : TurnDirection} {seat : PlayerId}
    (hs : start < table.seatOrder.length) (seated : seat ∈ table.seatOrder) :
    seat ∈ (range table.seatOrder.length).map fun offset =>
      table.seatOrder.getD
        (turnOrderIndex start (offset + 1) table.seatOrder.length direction) 0 := by
  obtain ⟨index, bound, rfl⟩ := mem_iff_getElem.mp seated
  obtain ⟨offset, small, reaches⟩ := turnOrderIndex_surjective direction hs bound
  have whole : turnOrderIndex start table.seatOrder.length table.seatOrder.length direction =
      turnOrderIndex start 0 table.seatOrder.length direction := by
    cases direction <;> simp [turnOrderIndex]
  simp only [mem_map, mem_range]
  cases offset with
  | zero =>
    refine ⟨table.seatOrder.length - 1, by omega, ?_⟩
    rw [Nat.sub_add_cancel (by omega), whole, reaches, getD_eq_getElem _ _ bound]
  | succ offset =>
    exact ⟨offset, by omega, by rw [reaches, getD_eq_getElem _ _ bound]⟩

theorem mem_teamMembers_alive {member : PlayerId} (h : member ∈ table.teamMembers player) :
    table.isAlive member = true := by
  unfold teamMembers at h
  split at h
  · simp only [mem_filter, Bool.and_eq_true] at h
    exact h.2.2
  · split at h
    · simp at h
    · simp only [mem_filter, Bool.and_eq_true] at h
      exact h.2.2
  · split at h <;> simp only [mem_filter, Bool.and_eq_true] at h <;> exact h.2.2

theorem mem_teamMembers_team {member : PlayerId} (h : member ∈ table.teamMembers player) :
    table.teamId member = table.teamId player := by
  unfold teamMembers at h
  unfold teamId
  split at h
  · simp_all
  · split at h
    · simp at h
    · simp_all [teamId]
  · split at h <;> simp_all

theorem teamMembers_congr_team {a b : PlayerId} (h : table.teamId a = table.teamId b) :
    table.teamMembers a = table.teamMembers b := by
  unfold teamMembers
  split
  · simp_all [teamId]
  · rw [h]
  · next archenemy _ topology =>
    simp only [teamId, topology] at h
    by_cases ha : a = archenemy <;> by_cases hb : b = archenemy <;> simp_all

theorem self_mem_teamMembers (seated : table.Seated) (alive : table.isAlive player = true) :
    player ∈ table.teamMembers player := by
  obtain ⟨p, hp, rfl, _⟩ := isAlive_iff.mp alive
  unfold teamMembers
  split
  · simp [alive, seated.seat p hp]
  · next topology =>
    have fits := seated.team _ _ _ topology p hp
    rw [if_neg (by simpa only [teamId, topology, not_le] using fits)]
    simpa [alive] using ⟨p, hp, rfl⟩
  · split
    · next same => simp [← same, alive, seated.seat p hp]
    · simp_all [seated.seat p hp]

theorem mem_apnapChoiceGroups {seats : List PlayerId} {seen : List Nat} {candidate : PlayerId}
    (here : candidate ∈ seats) (alive : table.isAlive candidate = true)
    (unseen : table.teamId candidate ∉ seen) (member : player ∈ table.teamMembers candidate) :
    player ∈ (table.apnapChoiceGroups seats seen).flatten := by
  induction seats generalizing seen with
  | nil => simp at here
  | cons seat seats ih =>
    simp only [apnapChoiceGroups]
    by_cases same : table.teamId candidate = table.teamId seat
    · by_cases seatAlive : table.isAlive seat = true
      · rw [if_neg (by simp [seatAlive]), if_neg (same ▸ unseen)]
        exact mem_append_left _ (teamMembers_congr_team same ▸ member)
      · have later : candidate ∈ seats := by
          rcases mem_cons.mp here with rfl | later
          · exact absurd alive seatAlive
          · exact later
        rw [if_pos (by simpa using seatAlive)]
        exact ih later unseen
    · have later : candidate ∈ seats := by
        rcases mem_cons.mp here with rfl | later
        · exact absurd rfl same
        · exact later
      split
      · exact ih later unseen
      · split
        · exact ih later unseen
        · exact mem_append_right _ (ih later (by simp [same, unseen]))

theorem apnapChoiceGroups_alive {seats : List PlayerId} {seen : List Nat}
    (h : player ∈ (table.apnapChoiceGroups seats seen).flatten) : table.isAlive player = true := by
  induction seats generalizing seen with
  | nil => simp [apnapChoiceGroups] at h
  | cons seat seats ih =>
    simp only [apnapChoiceGroups] at h
    split at h
    · exact ih h
    · split at h
      · exact ih h
      · rcases mem_append.mp (flatten_cons ▸ h) with own | later
        · exact mem_teamMembers_alive own
        · exact ih later

theorem mem_foldl_pushDistinct {reps acc : List PlayerId} :
    player ∈ reps.foldl pushDistinct acc ↔ player ∈ acc ∨ player ∈ reps := by
  induction reps generalizing acc with
  | nil => simp
  | cons rep reps ih =>
    rw [foldl_cons, ih]
    unfold pushDistinct
    split <;> grind

theorem mem_apnapOrder (seated : table.Seated) :
    player ∈ table.apnapOrder ↔ table.isAlive player = true := by
  have hasSeat (alive : table.isAlive player = true) : player ∈ table.seatOrder := by
    obtain ⟨p, hp, rfl, _⟩ := isAlive_iff.mp alive
    exact seated.seat p hp
  simp only [apnapOrder]
  split
  · constructor
    · exact apnapChoiceGroups_alive
    · intro alive
      exact mem_apnapChoiceGroups (mem_turnOrderFrom.mpr (hasSeat alive)) alive (by simp)
        (self_mem_teamMembers seated alive)
  · simp only [mem_filter, mem_turnOrderFrom]
    exact ⟨fun h => h.2, fun alive => ⟨hasSeat alive, alive⟩⟩

theorem representative_mem_teamMembers (seated : table.Seated) (alive : table.isAlive player = true)
    (shared : table.formatConfig.topology.hasSharedTeamTurns = true) :
    (table.teamMembers player).head? = some (table.priorityPassRepresentative player) := by
  have own := self_mem_teamMembers seated alive
  simp only [priorityPassRepresentative, normalizeSharedTurnRecipient, shared]
  cases members : table.teamMembers player with
  | nil => rw [members] at own; simp at own
  | cons first rest => simp

theorem representative_alive (seated : table.Seated) (alive : table.isAlive player = true) :
    table.isAlive (table.priorityPassRepresentative player) = true := by
  by_cases shared : table.formatConfig.topology.hasSharedTeamTurns = true
  · exact mem_teamMembers_alive (mem_of_head? (representative_mem_teamMembers seated alive shared))
  · simpa [priorityPassRepresentative, shared] using alive

theorem representative_idem (table : Table) (player : PlayerId) :
    table.priorityPassRepresentative (table.priorityPassRepresentative player) =
      table.priorityPassRepresentative player := by
  by_cases shared : table.formatConfig.topology.hasSharedTeamTurns = true
  · simp only [priorityPassRepresentative, normalizeSharedTurnRecipient, shared]
    cases members : table.teamMembers player with
    | nil => simp [members]
    | cons first rest =>
      have team := mem_teamMembers_team (members ▸ mem_cons_self : first ∈ _)
      simp [teamMembers_congr_team team, members]
  · simp [priorityPassRepresentative, shared]

theorem normalize_alone (alone : table.formatConfig.topology.hasSharedTeamTurns = false) :
    table.normalizeSharedTurnRecipient player = player := by
  simp [normalizeSharedTurnRecipient, alone]

theorem normalize_idem (table : Table) (player : PlayerId) :
    table.normalizeSharedTurnRecipient (table.normalizeSharedTurnRecipient player) =
      table.normalizeSharedTurnRecipient player := by
  have := representative_idem table player
  by_cases shared : table.formatConfig.topology.hasSharedTeamTurns = true
  · simpa [priorityPassRepresentative, shared] using this
  · rw [normalize_alone (by simpa using shared)]

/-- Whoever a team's turn is handed to, it is the turn of the same team. -/
theorem teamId_normalize (table : Table) (player : PlayerId) :
    table.teamId (table.normalizeSharedTurnRecipient player) = table.teamId player := by
  unfold normalizeSharedTurnRecipient
  split
  · rfl
  · cases members : table.teamMembers player with
    | nil => rfl
    | cons first rest =>
      exact mem_teamMembers_team (show first ∈ _ from members ▸ mem_cons_self)

theorem normalize_congr_team (seated : table.Seated) {a b : PlayerId}
    (alive : table.isAlive a = true)
    (shared : table.formatConfig.topology.hasSharedTeamTurns = true)
    (same : table.teamId a = table.teamId b) :
    table.normalizeSharedTurnRecipient a = table.normalizeSharedTurnRecipient b := by
  have own := self_mem_teamMembers seated alive
  simp only [normalizeSharedTurnRecipient, shared]
  rw [← teamMembers_congr_team same]
  cases members : table.teamMembers a with
  | nil => simp [members] at own
  | cons first rest => simp

theorem shared_turns_two_teams (seated : table.Seated) (alive : table.isAlive player = true)
    (shared : table.formatConfig.topology.hasSharedTeamTurns = true) : table.teamId player < 2 := by
  obtain ⟨p, hp, rfl, _⟩ := isAlive_iff.mp alive
  have fits := seated.team
  have shape : (∃ archenemy turns, table.formatConfig.topology = .oneVsMany archenemy turns) ∨
      table.formatConfig.topology = .fixedTeams 2 2 .sharedTeamTurns := by
    unfold FormatConfig.topology at shared ⊢
    cases format : table.formatConfig.format with
    | constructed =>
      by_cases team : table.formatConfig.teamBased = true
      · simp [team]
      · simp [format, team, FormatTopology.hasSharedTeamTurns] at shared
    | twoHeadedGiant | twoHeadedGiantCommander | archenemy | archenemyCommander => simp
  rcases shape with ⟨archenemy, turns, topology⟩ | topology
  · simp only [teamId, topology]
    split <;> omega
  · simpa only [teamId, topology] using fits _ _ _ topology p hp

/-- Of two teams, the one whose turn did not just end takes the next turn. -/
theorem nextTurnRepresentative_of_opponent (seated : table.Seated) {current opponent : PlayerId}
    (shared : table.formatConfig.topology.hasSharedTeamTurns = true)
    (own : table.teamId current < 2) (alive : table.isAlive opponent = true)
    (apart : table.teamId opponent ≠ table.teamId current) :
    table.nextTurnRepresentative current = table.normalizeSharedTurnRecipient opponent := by
  have hasSeat : opponent ∈ table.seatOrder := by
    obtain ⟨p, hp, rfl, _⟩ := isAlive_iff.mp alive
    exact seated.seat p hp
  have positive : 0 < table.seatOrder.length := length_pos_of_mem hasSeat
  have start : (if current ∈ table.seatOrder then table.seatOrder.idxOf current else 0) <
      table.seatOrder.length := by
    split
    · exact idxOf_lt_length_of_mem ‹_›
    · exact positive
  have occupied : table.seatOrder.isEmpty = false := by
    simpa [length_pos_iff] using positive
  simp only [nextTurnRepresentative, shared, occupied, Bool.not_true, Bool.false_eq_true,
    ↓reduceIte]
  split
  · next candidate found =>
    have meets := find?_some found
    simp only [Bool.and_eq_true, decide_eq_true_eq] at meets
    have two := shared_turns_two_teams seated meets.1 shared
    have others := shared_turns_two_teams seated alive shared
    exact normalize_congr_team seated meets.1 shared (by omega)
  · next none =>
    have missed := find?_eq_none.mp none opponent (mem_walk start hasSeat)
    simp [alive, apart] at missed

theorem nextTurnRepresentative_unopposed {current : PlayerId}
    (shared : table.formatConfig.topology.hasSharedTeamTurns = true)
    (alone : ∀ opponent, table.isAlive opponent = true →
      table.teamId opponent = table.teamId current) :
    table.nextTurnRepresentative current = table.normalizeSharedTurnRecipient current := by
  simp only [nextTurnRepresentative, shared, Bool.not_true, Bool.false_eq_true, ↓reduceIte]
  split
  · rfl
  · split
    · next candidate found =>
      have meets := find?_some found
      simp only [Bool.and_eq_true, decide_eq_true_eq] at meets
      exact absurd (alone candidate meets.1) meets.2
    · rfl

/-- The next turn depends on the team whose turn ends and not on the seat it is named by. -/
theorem nextTurnRepresentative_normalize (seated : table.Seated) (player : PlayerId) :
    table.nextTurnRepresentative (table.normalizeSharedTurnRecipient player) =
      table.nextTurnRepresentative player := by
  by_cases shared : table.formatConfig.topology.hasSharedTeamTurns = true
  swap
  · rw [normalize_alone (by simpa using shared)]
  have team := teamId_normalize table player
  cases members : table.teamMembers player with
  | nil => simp [normalizeSharedTurnRecipient, members]
  | cons first rest =>
    have first_mem : first ∈ table.teamMembers player := members ▸ mem_cons_self
    have own : table.teamId player < 2 :=
      mem_teamMembers_team first_mem ▸
        shared_turns_two_teams seated (mem_teamMembers_alive first_mem) shared
    by_cases opposed : ∃ opponent, table.isAlive opponent = true ∧
        table.teamId opponent ≠ table.teamId player
    · obtain ⟨opponent, alive, apart⟩ := opposed
      rw [nextTurnRepresentative_of_opponent seated shared own alive apart,
        nextTurnRepresentative_of_opponent seated shared (team ▸ own) alive (team ▸ apart)]
    · have alone : ∀ opponent, table.isAlive opponent = true →
          table.teamId opponent = table.teamId player := by
        intro opponent alive
        by_contra apart
        exact opposed ⟨opponent, alive, apart⟩
      rw [nextTurnRepresentative_unopposed shared alone,
        nextTurnRepresentative_unopposed shared (team ▸ alone), normalize_idem]

/-- The participants of a priority round are the living seats that stand for
their own team. -/
theorem mem_participants (seated : table.Seated) :
    player ∈ table.priorityPassParticipants ↔
      table.isAlive player = true ∧ table.priorityPassRepresentative player = player := by
  by_cases shared : table.formatConfig.topology.hasSharedTeamTurns = true
  · simp only [priorityPassParticipants, shared, Bool.not_true, Bool.false_eq_true, ↓reduceIte,
      mem_foldl_pushDistinct, not_mem_nil, false_or, mem_map, mem_apnapOrder seated]
    constructor
    · rintro ⟨member, alive, rfl⟩
      exact ⟨representative_alive seated alive, representative_idem table member⟩
    · rintro ⟨alive, self⟩
      exact ⟨player, alive, self⟩
  · simp [priorityPassParticipants, priorityPassRepresentative, shared, mem_apnapOrder seated]

theorem representative_mem_participants (seated : table.Seated)
    (alive : table.isAlive (table.priorityPassRepresentative player) = true) :
    table.priorityPassRepresentative player ∈ table.priorityPassParticipants :=
  (mem_participants seated).mpr ⟨alive, representative_idem table player⟩

end Table
end Phase.Priority
