import Phase.LoopCheck.Winner
import Phase.Lib.Repeating

/-! A cycle that repeats forever: who loses first, against the winner that the cycle names. -/
namespace Phase.LoopCheck
open List

open Repeating

structure Totals where
  life : PlayerId → Int
  poison : PlayerId → Int

/-- The totals lose the game for a player. -/
def Totals.Lost (totals : Totals) (pid : PlayerId) : Prop :=
  totals.life pid ≤ 0 ∨ 10 ≤ totals.poison pid

/-- The increments of the first `k` frames come again, forever. -/
structure Cyclic (k : Nat) (run : Nat → Totals) : Prop where
  life : ∀ pid, Repeats k fun n => (run n).life pid
  poison : ∀ pid, Repeats k fun n => (run n).poison pid

variable {Rest : Type}

/-- A frame of the game shows these totals of a player. -/
def Shows (frame : GameState Rest) (totals : Totals) (pid : PlayerId) : Prop :=
  ∃ player, frame.find pid = some player ∧ player.life = totals.life pid ∧
    (player.poisonCounters : Int) = totals.poison pid

/-- The frames of a cycle, the net change over it, and the sequence that it goes on as. -/
structure Cycle (k : Nat) (frames : List (GameState Rest)) (cycleStart cycleEnd : GameState Rest)
    (delta : ResourceVector) (run : Nat → Totals) : Prop where
  cyclic : Cyclic k run
  length : frames.length = k + 1
  start : frames[0]? = some cycleStart
  final : frames[k]? = some cycleEnd
  shows : ∀ j frame, frames[j]? = some frame → ∀ pid ∈ cycleEnd.living, Shows frame (run j) pid
  life : ∀ pid ∈ cycleEnd.living, delta.life.at pid = (run k).life pid - (run 0).life pid
  poison : ∀ pid ∈ cycleEnd.living, delta.poison.at pid = (run k).poison pid - (run 0).poison pid

/-- Nobody has lost before a frame. -/
def Calm (run : Nat → Totals) (living : List PlayerId) (n : Nat) : Prop :=
  ∀ m < n, ∀ pid ∈ living, ¬(run m).Lost pid

/-- In the first frame in which somebody has lost, everybody but the winner has. -/
def Decided (run : Nat → Totals) (living : List PlayerId) (winner : PlayerId) : Prop :=
  ∃ n, Calm run living n ∧ (∃ pid ∈ living, (run n).Lost pid) ∧
    (∀ pid ∈ living, pid ≠ winner → (run n).Lost pid) ∧ ¬(run n).Lost winner

/-- The frame in which the poison of a player reaches ten. -/
def Poisoned (run : Nat → Totals) (pid : PlayerId) (n : Nat) : Prop :=
  10 ≤ (run n).poison pid ∧ ∀ m < n, (run m).poison pid < 10

/-- What the checks leave open: that the winner has not lost in the measured cycle already, and
that the poison of the others reaches ten together, unless their life runs out before. -/
structure Open (k : Nat) (run : Nat → Totals) (living : List PlayerId) (winner : PlayerId) :
    Prop where
  life : 0 < (run 0).life winner
  poison : ∀ j ≤ k, Calm run living j → (run j).poison winner < 10
  together : ∀ n, (∀ m ≤ n, ∀ pid ∈ living, pid ≠ winner → 0 < (run m).life pid) →
    ∀ pid ∈ living, pid ≠ winner → ∀ other ∈ living, other ≠ winner →
      Poisoned run pid n → Poisoned run other n

variable {board : Board Rest} {frames : List (GameState Rest)}
  {cycleStart cycleEnd : GameState Rest} {delta : ResourceVector} {winner : PlayerId}
  {run : Nat → Totals} {k : Nat}

variable {pid : PlayerId}

theorem shows_lifeOf {frame : GameState Rest} {totals : Totals} (shows_ : Shows frame totals pid) :
    frame.lifeOf pid = some (totals.life pid) := by
  obtain ⟨player, found, life, -⟩ := shows_
  rw [GameState.lifeOf, found, ← life]
  rfl

theorem lifeNeverDips_cons {frame : GameState Rest} {frames : List (GameState Rest)}
    {prev : Option Int} {life : Int} (shown : frame.lifeOf winner = some life) :
    lifeNeverDips winner prev (frame :: frames) ↔
      (∀ before ∈ prev, before ≤ life) ∧ lifeNeverDips winner (some life) frames := by
  rw [lifeNeverDips, shown]
  cases prev with
  | none => simp
  | some before => simp

theorem life_mono {frames : List (GameState Rest)} {prev : Option Int} {lives : Nat → Int}
    (shown : ∀ j frame, frames[j]? = some frame → frame.lifeOf winner = some (lives j))
    (never : lifeNeverDips winner prev frames) (j : Nat) (inside : j + 1 < frames.length) :
    lives j ≤ lives (j + 1) := by
  induction frames generalizing prev lives j with
  | nil => cases inside
  | cons frame frames ih =>
    have later := ((lifeNeverDips_cons (shown 0 frame rfl)).mp never).2
    cases j with
    | zero =>
      cases frames with
      | nil => exact absurd inside (Nat.lt_irrefl _)
      | cons next frames =>
        exact ((lifeNeverDips_cons (shown 1 next rfl)).mp later).1 _ rfl
    | succ j =>
      exact ih (fun i frame at_ => shown (i + 1) frame at_) later j (Nat.lt_of_succ_lt_succ inside)

theorem equal_head {first : Int} {lives : List Int}
    (equal : ((first :: lives).zip lives).all fun pair => pair.1 = pair.2) :
    ∀ life ∈ lives, life = first := by
  induction lives generalizing first with
  | nil => nofun
  | cons second lives ih =>
    rw [zip_cons_cons, all_cons, Bool.and_eq_true, decide_eq_true_iff] at equal
    obtain ⟨same, rest⟩ := equal
    dsimp only at same
    intro life mem
    obtain rfl | later := mem_cons.mp mem
    · exact same.symm
    · rw [same]
      exact ih rest life later

theorem lives_equal {fallers : List PlayerId} (equal : fallersLivesPairwiseEqual frames fallers)
    {frame : GameState Rest} (mem : frame ∈ frames) {other : PlayerId} (falls : pid ∈ fallers)
    (falls' : other ∈ fallers) {life life' : Int} (shown : frame.lifeOf pid = some life)
    (shown' : frame.lifeOf other = some life') : life = life' := by
  have here := all_eq_true.mp equal frame mem
  have inside : life ∈ fallers.filterMap frame.lifeOf := mem_filterMap.mpr ⟨pid, falls, shown⟩
  have inside' : life' ∈ fallers.filterMap frame.lifeOf :=
    mem_filterMap.mpr ⟨other, falls', shown'⟩
  cases lives : fallers.filterMap frame.lifeOf with
  | nil =>
    rw [lives] at inside
    cases inside
  | cons first rest =>
    rw [lives] at here inside inside'
    have all : ∀ life ∈ first :: rest, life = first := by
      intro life mem
      obtain rfl | later := mem_cons.mp mem
      · rfl
      · exact equal_head here life later
    rw [all life inside, all life' inside']

section
variable (cycle : Cycle k frames cycleStart cycleEnd delta run)

include cycle

variable {pid : PlayerId}

/-- A player who falls over the cycle shows that the cycle has a step. -/
theorem Cycle.positive (mem : pid ∈ cycleEnd.living) (falls : delta.falls pid) : 0 < k := by
  by_contra none
  obtain rfl : k = 0 := by omega
  unfold ResourceVector.falls at falls
  rw [cycle.life pid mem, cycle.poison pid mem] at falls
  simp at falls

theorem Cycle.frame {j : Nat} (low : j ≤ k) : ∃ frame, frames[j]? = some frame :=
  ⟨_, getElem?_eq_getElem (by rw [cycle.length]; omega)⟩

/-- Somebody who falls has lost sooner or later. -/
theorem Cycle.loses (mem : pid ∈ cycleEnd.living) (falls : delta.falls pid) :
    ∃ n, (run n).Lost pid := by
  unfold ResourceVector.falls at falls
  rw [cycle.life pid mem, cycle.poison pid mem, Bool.or_eq_true, decide_eq_true_iff,
    decide_eq_true_iff] at falls
  obtain down | up := falls
  · obtain ⟨n, low⟩ := Repeating.falls (cycle.cyclic.life pid) down 0
    exact ⟨n, .inl low⟩
  · obtain ⟨n, high⟩ := Repeating.rises (cycle.cyclic.poison pid) up 10
    exact ⟨n, .inr high⟩

variable (decided : Named cycleEnd delta winner)

include decided

theorem Cycle.steps : 0 < k := by
  obtain ⟨pid, mem, ne⟩ := decided.others
  exact cycle.positive mem (decided.fall pid mem ne)

/-- There is a first frame in which somebody has lost. -/
theorem Cycle.first : ∃ n, Calm run cycleEnd.living n ∧ ∃ pid ∈ cycleEnd.living,
    (run n).Lost pid := by
  classical
  obtain ⟨pid, mem, ne⟩ := decided.others
  obtain ⟨n, lost⟩ := cycle.loses mem (decided.fall pid mem ne)
  have some : ∃ n, ∃ pid ∈ cycleEnd.living, (run n).Lost pid := ⟨n, pid, mem, lost⟩
  refine ⟨Nat.find some, ?_, Nat.find_spec some⟩
  intro m early pid mem lost
  exact Nat.find_min some early ⟨pid, mem, lost⟩

/-- The life of the winner never falls below its start. -/
theorem Cycle.winner_life (never : winnerLifeNeverDips frames winner) (n : Nat) :
    (run 0).life winner ≤ (run n).life winner := by
  apply start_le (cycle.cyclic.life winner) (cycle.steps decided)
  intro j low
  exact @life_mono _ winner frames none (fun j => (run j).life winner)
    (fun j frame at_ => shows_lifeOf (cycle.shows j frame at_ winner decided.alive)) never j
    (by rw [cycle.length]; omega)

/-- The poison of the winner is highest in the measured cycle. -/
theorem Cycle.winner_poison (n : Nat) : (run n).poison winner ≤ (run (n % k)).poison winner := by
  apply le_first (cycle.cyclic.poison winner)
  have stays := decided.stays
  unfold ResourceVector.falls at stays
  rw [Bool.or_eq_false_iff, cycle.poison winner decided.alive] at stays
  have := of_decide_eq_false stays.2
  unfold drift
  dsimp only
  omega

/-- Those who fall have the same life in every frame. -/
theorem Cycle.lives_agree (equal : fallersLivesPairwiseEqual frames
      (cycleEnd.living.filter (· ≠ winner))) {other : PlayerId} (mem : pid ∈ cycleEnd.living)
    (ne : pid ≠ winner) (mem' : other ∈ cycleEnd.living) (ne' : other ≠ winner) (n : Nat) :
    (run n).life pid = (run n).life other := by
  apply agree (cycle.cyclic.life pid) (cycle.cyclic.life other) (cycle.steps decided)
  intro j low
  obtain ⟨frame, at_⟩ := cycle.frame low
  exact lives_equal equal (mem_of_getElem? at_) (mem_filter.mpr ⟨mem, decide_eq_true ne⟩)
    (mem_filter.mpr ⟨mem', decide_eq_true ne'⟩)
    (shows_lifeOf (cycle.shows j frame at_ pid mem))
    (shows_lifeOf (cycle.shows j frame at_ other mem'))

end

theorem Calm.mono {living : List PlayerId} {n m : Nat} (calm : Calm run living n) (le : m ≤ n) :
    Calm run living m := fun i low => calm i (Nat.lt_of_lt_of_le low le)

theorem open_of_decided {living : List PlayerId} (alive : winner ∈ living)
    (decided : Decided run living winner) : Open k run living winner := by
  obtain ⟨n, calm, ⟨loser, mem, lost⟩, others, survives⟩ := decided
  have winner_lasts : ∀ j, Calm run living j → ¬(run j).Lost winner := by
    intro j calm' lost'
    obtain early | rfl | late := Nat.lt_trichotomy j n
    · exact calm j early winner alive lost'
    · exact survives lost'
    · exact calm' n late loser mem lost
  constructor
  · by_contra dead
    exact winner_lasts 0 nofun (.inl (by omega))
  · intro j _ calm'
    by_contra dead
    exact winner_lasts j calm' (.inr (by omega))
  · intro n' lives pid mem ne other mem' ne' poisoned
    have reached : n ≤ n' := by
      by_contra early
      exact calm n' (by omega) pid mem (.inr poisoned.1)
    have by_poison : ∀ pid ∈ living, pid ≠ winner → 10 ≤ (run n).poison pid := by
      intro pid mem ne
      obtain out | dead := others pid mem ne
      · have := lives n reached pid mem ne
        omega
      · exact dead
    have same : n = n' := by
      by_contra early
      have := poisoned.2 n (by omega)
      have := by_poison pid mem ne
      omega
    rw [← same]
    refine ⟨by_poison other mem' ne', ?_⟩
    intro m early
    by_contra high
    exact calm m early other mem' (.inr (by omega))

/-- A winner that is named for a cycle wins when the cycle repeats, exactly when the winner does
not lose in the measured cycle already and the poison of the others reaches ten together. -/
theorem mandatory_loop_decided
    (found : liveMandatoryLoopWinner board cycleStart cycleEnd delta = some winner)
    (cycle : Cycle k frames cycleStart cycleEnd delta run)
    (never : winnerLifeNeverDips frames winner)
    (equal : fallersLivesPairwiseEqual frames (cycleEnd.living.filter (· ≠ winner))) :
    Decided run cycleEnd.living winner ↔ Open k run cycleEnd.living winner := by
  have decided := named found
  refine ⟨open_of_decided decided.alive, ?_⟩
  intro open_
  obtain ⟨n, calm, loser, mem, lost⟩ := cycle.first decided
  have survives : ¬(run n).Lost winner := by
    have life := cycle.winner_life decided never n
    have positive := open_.life
    have poison : (run n).poison winner < 10 := by
      by_cases low : n ≤ k
      · exact open_.poison n low calm
      · have inside := Nat.mod_lt n (cycle.steps decided)
        have highest := cycle.winner_poison decided n
        have := open_.poison (n % k) inside.le (calm.mono (by omega))
        omega
    rintro (out | dead)
    · omega
    · omega
  refine ⟨n, calm, ⟨loser, mem, lost⟩, ?_, survives⟩
  have ne : loser ≠ winner := by
    rintro rfl
    exact survives lost
  intro other mem' ne'
  by_cases out : (run n).life loser ≤ 0
  · left
    rwa [cycle.lives_agree decided equal mem' ne' mem ne n]
  · have lives : ∀ m ≤ n, ∀ pid ∈ cycleEnd.living, pid ≠ winner → 0 < (run m).life pid := by
      intro m le pid inside ne''
      by_contra dead
      obtain early | rfl := Nat.lt_or_eq_of_le le
      · exact calm m early pid inside (.inl (by omega))
      · rw [cycle.lives_agree decided equal inside ne'' mem ne m] at dead
        exact out (by omega)
    have poisoned : Poisoned run loser n := by
      refine ⟨lost.resolve_left out, ?_⟩
      intro m early
      by_contra high
      exact calm m early loser mem (.inr (by omega))
    exact .inr (open_.together n lives loser mem ne other mem' ne' poisoned).1

def plainBoard : Board Unit where
  playerHasCantLose _ _ := false
  playerHasCantWin _ _ := false
  libraryHolder _ pid := pid
  loopStatesEqualModuloResources _ _ := true
  loopStatesCoverModuloGrowth _ _ := false

def pod (first second : Nat) : GameState Unit where
  players := [⟨0, 20, 0, false⟩, ⟨1, 20, first, false⟩, ⟨2, 20, second, false⟩]
  rest := ()
  distinct := show [0, 1, 2].Nodup by decide

def podTotals (first second : Nat) : Totals where
  life _ := 20
  poison pid := if pid = 1 then first else if pid = 2 then second else 0

/-- Each of the two gets a poison counter. -/
def podDelta : ResourceVector where
  mana := [0, 0, 0, 0, 0, 0]
  life := []
  damageDealt := []
  libraryDelta := []
  poison := [(1, 1), (2, 1)]
  tokensCreated := 0
  cardsDrawn := 0
  castsThisStep := 0
  landfallTriggers := 0
  combatPhases := 0
  extraTurns := 0
  deathTriggers := 0
  etbTriggers := 0
  ltbTriggers := 0
  sacTriggers := 0
  counters := []
  genericTriggers := []

theorem pod_shows (first second : Nat) (mem : pid ∈ [0, 1, 2]) :
    Shows (pod first second) (podTotals first second) pid := by
  simp only [mem_cons, not_mem_nil, or_false] at mem
  obtain rfl | rfl | rfl := mem
  · exact ⟨_, rfl, rfl, rfl⟩
  · exact ⟨_, rfl, rfl, rfl⟩
  · exact ⟨_, rfl, rfl, rfl⟩

def podFrames (k : Nat) (first second : Nat → Nat) : List (GameState Unit) :=
  (range (k + 1)).map fun j => pod (first j) (second j)

theorem pod_cycle {k : Nat} {first second : Nat → Nat} (start : first 0 = 0 ∧ second 0 = 0)
    (first_next : ∀ n, first (n + k) = first n + 1)
    (second_next : ∀ n, second (n + k) = second n + 1) :
    Cycle k (podFrames k first second) (pod 0 0) (pod 1 1) podDelta
      fun n => podTotals (first n) (second n) := by
  have first_k : first k = 1 := by simpa [start] using first_next 0
  have second_k : second k = 1 := by simpa [start] using second_next 0
  have frame : ∀ j ≤ k, (podFrames k first second)[j]? = some (pod (first j) (second j)) := by
    intro j low
    simp [podFrames, Nat.lt_succ_of_le low]
  constructor
  · constructor
    · intro pid n
      rfl
    · intro pid n
      have one := first_next n
      have one' := first_next (n + 1)
      have two := second_next n
      have two' := second_next (n + 1)
      rw [Nat.add_right_comm] at one' two'
      simp only [podTotals]
      split
      · omega
      · split <;> omega
  · simp [podFrames]
  · rw [frame 0 (Nat.zero_le k), start.1, start.2]
  · rw [frame k (Nat.le_refl k), first_k, second_k]
  · intro j shown at_ pid mem
    have low : j < k + 1 := by simpa [podFrames] using (List.getElem?_eq_some_iff.mp at_).1
    rw [frame j (by omega)] at at_
    cases at_
    exact pod_shows _ _ mem
  · intro pid mem
    rfl
  · intro pid mem
    replace mem : pid ∈ [0, 1, 2] := mem
    simp only [mem_cons, not_mem_nil, or_false] at mem
    obtain rfl | rfl | rfl := mem <;>
      simp [podTotals, podDelta, Levels.at, lookup_cons, first_k, second_k, start]

theorem mandatory_loop_decided_together : Decided (fun n => podTotals n n) (pod 1 1).living 0 := by
  have same : ∀ n : Nat, ∀ pid ∈ [0, 1, 2], pid ≠ 0 → (podTotals n n).poison pid = n := by
    intro n pid mem ne
    simp only [mem_cons, not_mem_nil, or_false] at mem
    obtain rfl | rfl | rfl := mem
    · exact absurd rfl ne
    · rfl
    · rfl
  have cycle := @pod_cycle 1 id id ⟨rfl, rfl⟩ (fun _ => rfl) fun _ => rfl
  apply (@mandatory_loop_decided _ plainBoard _ _ _ _ 0 _ _ (by decide) cycle (by decide)
    (by decide)).mpr
  constructor
  · decide
  · intro j _ _
    exact (by decide : (0 : Int) < 10)
  · intro n _ pid mem ne other mem' ne' poisoned
    have agree_ : ∀ m : Nat, (podTotals m m).poison pid = (podTotals m m).poison other :=
      fun m => (same m pid mem ne).trans (same m other mem' ne').symm
    obtain ⟨high, before⟩ := poisoned
    refine ⟨(agree_ n) ▸ high, ?_⟩
    intro m early
    exact (agree_ m) ▸ before m early

/-- The one counter of a cycle comes in its first frame, or in its second. -/
def early (n : Nat) : Nat := (n + 1) / 2

def late (n : Nat) : Nat := n / 2

theorem mandatory_loop_decided_fails :
    liveMandatoryLoopWinner plainBoard (pod 0 0) (pod 1 1) podDelta = some 0 ∧
    Cycle 2 (podFrames 2 early late) (pod 0 0) (pod 1 1) podDelta
      (fun n => podTotals (early n) (late n)) ∧
    winnerLifeNeverDips (podFrames 2 early late) 0 ∧
    fallersLivesPairwiseEqual (podFrames 2 early late) [1, 2] ∧
    ¬Decided (fun n => podTotals (early n) (late n)) (pod 1 1).living 0 := by
  refine ⟨by decide, pod_cycle ⟨rfl, rfl⟩ ?_ ?_, by decide, by decide, ?_⟩
  · intro n
    unfold early
    omega
  · intro n
    unfold late
    omega
  · rintro ⟨n, calm, -, others, -⟩
    have after : 20 ≤ n := by
      obtain out | dead := others 2 (by decide) (by decide)
      · exact absurd (show (20 : Int) ≤ 0 from out) (by decide)
      · have : (10 : Int) ≤ ((n / 2 : Nat) : Int) := dead
        omega
    exact calm 19 (by omega) 1 (by decide) (.inr (by decide))

end Phase.LoopCheck
