import Mathlib.Data.List.Basic

/-! What a cycle changes, axis by axis, and the kind of win that it promises; the winner that one
cycle of a mandatory loop names, and the guards on the frames of the cycle. -/
namespace Phase.LoopCheck
open List

abbrev PlayerId := Nat

inductive ManaType
  | white | blue | black | red | green | colorless
  deriving DecidableEq

inductive ObjectClass
  | creature | planeswalker | battle | player | other
  deriving DecidableEq

inductive CounterClass
  | plus1Plus1 | minus1Minus1 | loyalty | defense | poison | energy | other
  deriving DecidableEq

inductive TriggerKind
  | proliferate | magecraft | constellation | landfall | other
  deriving DecidableEq

def manaIndex : List ManaType := [.white, .blue, .black, .red, .green, .colorless]

/-- The entries of a map with distinct keys. A key without an entry stands for zero. -/
abbrev Levels (κ : Type) := List (κ × Int)

def Levels.at {κ : Type} [DecidableEq κ] (levels : Levels κ) (key : κ) : Int :=
  (levels.lookup key).getD 0

/-- The mana is listed in the order of `manaIndex`. -/
structure ResourceVector where
  mana : List Int
  life : Levels PlayerId
  damageDealt : Levels PlayerId
  libraryDelta : Levels PlayerId
  poison : Levels PlayerId
  tokensCreated : Int
  cardsDrawn : Int
  castsThisStep : Int
  landfallTriggers : Int
  combatPhases : Int
  extraTurns : Int
  deathTriggers : Int
  etbTriggers : Int
  ltbTriggers : Int
  sacTriggers : Int
  counters : Levels (CounterClass × ObjectClass)
  genericTriggers : Levels TriggerKind
  deriving DecidableEq

inductive ResourceAxis
  | mana (color : ManaType)
  | life (player : PlayerId)
  | damageDealt (player : PlayerId)
  | libraryDelta (player : PlayerId)
  | counter (counter : CounterClass) (bearer : ObjectClass)
  | trigger (kind : TriggerKind)
  | tokensCreated | cardsDrawn | casts | landfallTriggers | combatPhases | extraTurns
  | deathTriggers | etbTriggers | ltbTriggers | sacTriggers
  | poison (player : PlayerId)
  deriving DecidableEq

inductive WinKind
  | lethalDamage
  | poisonLoss
  | decking
  | extraTurns
  | advantage
  deriving DecidableEq

namespace ResourceVector

variable (delta : ResourceVector)

def named {κ : Type} (axis : κ → ResourceAxis) (levels : Levels κ) : List (ResourceAxis × Int) :=
  levels.map fun (key, n) => (axis key, n)

/-- The axes that change, in the order of the fields. -/
def axisComponents : List (ResourceAxis × Int) :=
  filter (·.2 ≠ 0) <| flatten [
    named .mana (manaIndex.zip delta.mana),
    named .life delta.life,
    named .damageDealt delta.damageDealt,
    named .libraryDelta delta.libraryDelta,
    named .poison delta.poison,
    named (fun key => .counter key.1 key.2) delta.counters,
    named .trigger delta.genericTriggers,
    [(.tokensCreated, delta.tokensCreated), (.cardsDrawn, delta.cardsDrawn),
      (.casts, delta.castsThisStep), (.landfallTriggers, delta.landfallTriggers),
      (.combatPhases, delta.combatPhases), (.extraTurns, delta.extraTurns),
      (.deathTriggers, delta.deathTriggers), (.etbTriggers, delta.etbTriggers),
      (.ltbTriggers, delta.ltbTriggers), (.sacTriggers, delta.sacTriggers)]]

def ofLibrary : ResourceAxis → Bool
  | .libraryDelta _ => true
  | _ => false

def unboundedComponents : List (ResourceAxis × Int) :=
  delta.axisComponents.filter fun (axis, n) => 0 < n || ofLibrary axis

/-- The axes without bound. The falling life of an opponent is one. -/
def signedUnboundedAxesFor (controller : PlayerId) : List (ResourceAxis × Int) :=
  delta.life.foldl (fun out (pid, n) =>
    if n < 0 ∧ pid ≠ controller ∧ ¬out.any (·.1 = .life pid) then out ++ [(.life pid, n)]
    else out) delta.unboundedComponents

def unboundedAxesFor (controller : PlayerId) : List ResourceAxis :=
  (delta.signedUnboundedAxesFor controller).map (·.1)

def progressFor (controller : PlayerId) : Bool :=
  delta.mana.all (0 ≤ ·) && !(delta.unboundedAxesFor controller).isEmpty

def lifeFallsFor (controller : PlayerId) : Bool :=
  (delta.life.lookup controller).any (· < 0)

def netProgressFor (controller : PlayerId) : Bool :=
  delta.progressFor controller && !delta.lifeFallsFor controller

end ResourceVector

/-- The most decisive axis of a cycle. A library is held by a seat. -/
def classifyWinKind (libraryHolder : PlayerId → PlayerId) (controller : PlayerId)
    (delta : ResourceVector) : WinKind :=
  if delta.damageDealt.any fun (pid, n) => 0 < n && pid ≠ controller then .lethalDamage
  else if delta.life.any fun (pid, n) => n < 0 && pid ≠ controller then .lethalDamage
  else if delta.poison.any (0 < ·.2) then .poisonLoss
  else if delta.libraryDelta.any fun (pid, n) =>
      n < 0 && libraryHolder pid ≠ libraryHolder controller then .decking
  else if 0 < delta.extraTurns then .extraTurns
  else .advantage

structure Player where
  id : PlayerId
  life : Int
  poisonCounters : Nat
  isEliminated : Bool
  deriving DecidableEq

structure GameState (Rest : Type) where
  players : List Player
  rest : Rest
  distinct : (players.map (·.id)).Nodup

/-- The questions that are answered by the rest of the state. -/
structure Board (Rest : Type) where
  playerHasCantLose : GameState Rest → PlayerId → Bool
  playerHasCantWin : GameState Rest → PlayerId → Bool
  libraryHolder : GameState Rest → PlayerId → PlayerId
  loopStatesEqualModuloResources : GameState Rest → GameState Rest → Bool
  loopStatesCoverModuloGrowth : GameState Rest → GameState Rest → Bool

variable {Rest : Type}

namespace GameState

def find (state : GameState Rest) (pid : PlayerId) : Option Player :=
  state.players.find? (·.id = pid)

def living (state : GameState Rest) : List PlayerId :=
  (state.players.filter (!·.isEliminated)).map (·.id)

def lifeOf (state : GameState Rest) (pid : PlayerId) : Option Int :=
  (state.find pid).map (·.life)

def poisonAt (state : GameState Rest) (pid : PlayerId) : Int :=
  (state.find pid).elim 0 (·.poisonCounters)

end GameState

/-- A player whose life falls over the cycle, or whose poison rises. -/
def ResourceVector.falls (delta : ResourceVector) (pid : PlayerId) : Bool :=
  delta.life.at pid < 0 || 0 < delta.poison.at pid

def fallersOf (cycleEnd : GameState Rest) (delta : ResourceVector) : List PlayerId :=
  cycleEnd.living.filter delta.falls

/-- All fallers have the value of the first one. -/
def sameAs (fallers : List PlayerId) (value : PlayerId → Int) : Bool :=
  match fallers with
  | [] => true
  | first :: _ => fallers.all fun pid => value pid = value first

def liveMandatoryLoopWinner (board : Board Rest) (cycleStart cycleEnd : GameState Rest)
    (delta : ResourceVector) : Option PlayerId :=
  let living := cycleEnd.living
  if living.length < 2 then none
  else
    let fallers := fallersOf cycleEnd delta
    match living.filter (· ∉ fallers) with
    | [winner] =>
      if living.any fun pid => delta.libraryDelta.at pid < 0 then none
      else if fallers.any (board.playerHasCantLose cycleEnd) then none
      else if board.playerHasCantWin cycleEnd winner then none
      else if !(board.loopStatesEqualModuloResources cycleStart cycleEnd ||
          board.loopStatesCoverModuloGrowth cycleStart cycleEnd) then none
      else if !delta.netProgressFor winner then none
      else if !(classifyWinKind (board.libraryHolder cycleEnd) winner delta ∈
          [.lethalDamage, .poisonLoss]) then none
      -- More than one faller must cross the thresholds together.
      else if 2 ≤ fallers.length && !(sameAs fallers delta.life.at &&
          sameAs fallers delta.poison.at && sameAs fallers cycleEnd.poisonAt) then none
      else some winner
    | _ => none

/-- The life of the winner from frame to frame, when it was `prev` before. -/
def lifeNeverDips (winner : PlayerId) : Option Int → List (GameState Rest) → Bool
  | _, [] => true
  | prev, frame :: frames =>
    match frame.lifeOf winner with
    | none => lifeNeverDips winner prev frames
    | some life =>
      if prev.any (life < ·) then false
      else lifeNeverDips winner (some life) frames

def winnerLifeNeverDips (frames : List (GameState Rest)) (winner : PlayerId) : Bool :=
  lifeNeverDips winner none frames

def fallersLivesPairwiseEqual (frames : List (GameState Rest)) (fallers : List PlayerId) : Bool :=
  frames.all fun frame =>
    let lives := fallers.filterMap frame.lifeOf
    (lives.zip lives.tail).all fun pair => pair.1 = pair.2

theorem sameAs_iff {fallers : List PlayerId} {value : PlayerId → Int} :
    sameAs fallers value ↔ ∀ pid ∈ fallers, ∀ other ∈ fallers, value pid = value other := by
  unfold sameAs
  cases fallers with
  | nil => exact iff_of_true rfl nofun
  | cons first rest =>
    simp only [all_eq_true, decide_eq_true_eq]
    constructor
    · intro same pid mem other mem'
      rw [same pid mem, same other mem']
    · intro same pid mem
      exact same pid mem first mem_cons_self

variable {board : Board Rest} {cycleStart cycleEnd : GameState Rest} {delta : ResourceVector}
  {winner : PlayerId}

/-- What a named winner tells about the cycle. -/
structure Named (cycleEnd : GameState Rest) (delta : ResourceVector) (winner : PlayerId) :
    Prop where
  alive : winner ∈ cycleEnd.living
  others : ∃ pid ∈ cycleEnd.living, pid ≠ winner
  stays : delta.falls winner = false
  fall : ∀ pid ∈ cycleEnd.living, pid ≠ winner → delta.falls pid
  life : ∀ pid ∈ cycleEnd.living, pid ≠ winner → ∀ other ∈ cycleEnd.living, other ≠ winner →
    delta.life.at pid = delta.life.at other
  poison : ∀ pid ∈ cycleEnd.living, pid ≠ winner → ∀ other ∈ cycleEnd.living, other ≠ winner →
    delta.poison.at pid = delta.poison.at other
  poisonAt : ∀ pid ∈ cycleEnd.living, pid ≠ winner → ∀ other ∈ cycleEnd.living, other ≠ winner →
    cycleEnd.poisonAt pid = cycleEnd.poisonAt other

theorem living_nodup (state : GameState Rest) : state.living.Nodup :=
  state.distinct.sublist (filter_sublist.map _)

theorem fallers_iff {pid : PlayerId} :
    pid ∈ fallersOf cycleEnd delta ↔ pid ∈ cycleEnd.living ∧ delta.falls pid :=
  mem_filter

/-- The one living player who does not fall, and how those who do fall compare. -/
theorem named_of_nonfallers (enough : 2 ≤ cycleEnd.living.length)
    (lone : cycleEnd.living.filter (· ∉ fallersOf cycleEnd delta) = [winner])
    (together : 2 ≤ (fallersOf cycleEnd delta).length →
      sameAs (fallersOf cycleEnd delta) delta.life.at ∧
      sameAs (fallersOf cycleEnd delta) delta.poison.at ∧
      sameAs (fallersOf cycleEnd delta) cycleEnd.poisonAt) :
    Named cycleEnd delta winner := by
  have kept : ∀ pid, pid ∈ cycleEnd.living ∧ pid ∉ fallersOf cycleEnd delta ↔ pid = winner := by
    intro pid
    rw [← mem_singleton, ← lone, mem_filter, decide_eq_true_iff]
  obtain ⟨alive, stays⟩ := (kept winner).mpr rfl
  have fall : ∀ pid ∈ cycleEnd.living, pid ≠ winner → pid ∈ fallersOf cycleEnd delta := by
    intro pid mem other
    by_contra stays'
    exact other ((kept pid).mp ⟨mem, stays'⟩)
  have same : ∀ value : PlayerId → Int,
      (2 ≤ (fallersOf cycleEnd delta).length → sameAs (fallersOf cycleEnd delta) value) →
      ∀ pid ∈ cycleEnd.living, pid ≠ winner → ∀ other ∈ cycleEnd.living, other ≠ winner →
        value pid = value other := by
    intro value same pid mem ne other mem' ne'
    have inside := fall pid mem ne
    have inside' := fall other mem' ne'
    by_cases several : 2 ≤ (fallersOf cycleEnd delta).length
    · exact sameAs_iff.mp (same several) pid inside other inside'
    · have single : (fallersOf cycleEnd delta).length = 1 := by
        have := length_pos_of_mem inside
        omega
      obtain ⟨faller, only⟩ := length_eq_one_iff.mp single
      rw [only, mem_singleton] at inside inside'
      rw [inside, inside']
  constructor
  · exact alive
  · have distinct := living_nodup cycleEnd
    match all : cycleEnd.living, enough, distinct with
    | first :: second :: rest, _, distinct =>
      have ne : second ≠ first := by
        rintro rfl
        exact (nodup_cons.mp distinct).1 mem_cons_self
      by_cases here : first = winner
      · exact ⟨second, mem_cons_of_mem _ mem_cons_self, here ▸ ne⟩
      · exact ⟨first, mem_cons_self, here⟩
  · rw [← Bool.not_eq_true]
    intro falls
    exact stays (fallers_iff.mpr ⟨alive, falls⟩)
  · intro pid mem ne
    exact (fallers_iff.mp (fall pid mem ne)).2
  · exact same _ fun several => (together several).1
  · exact same _ fun several => (together several).2.1
  · exact same _ fun several => (together several).2.2

theorem named (found : liveMandatoryLoopWinner board cycleStart cycleEnd delta = some winner) :
    Named cycleEnd delta winner := by
  unfold liveMandatoryLoopWinner at found
  dsimp only at found
  split at found
  · cases found
  · next enough =>
    split at found
    · next lone split_ =>
      iterate 6
        rw [Option.ite_none_left_eq_some] at found
        replace found := found.2
      rw [Option.ite_none_left_eq_some] at found
      obtain ⟨together, same⟩ := found
      rw [Option.some.inj same] at split_
      apply named_of_nonfallers (by omega) split_
      intro several
      simpa [several, and_assoc] using together
    · cases found

end Phase.LoopCheck
