import Phase.Lib.Editing
import Phase.Seat.State

/-! What each mutation does to the seats. -/
namespace Phase.Seat
open Editing EStateM

variable {Data Deck : Type}

namespace SeatKind

/-- A seat without a player behind it. -/
def isOpen : SeatKind Data → Bool
  | .waitingHuman | .ai _ _ => true
  | .hostHuman | .joinedHuman => false

end SeatKind

namespace SeatState

/-- Seat `i` given to a new occupant, and its token taken away. -/
def reseat (state : SeatState Data) (i : Nat) (kind : SeatKind Data) : SeatState Data :=
  { state with seats := state.seats.set i kind, tokens := state.tokens.set i "" }

def without (state : SeatState Data) (i : Nat) : SeatState Data :=
  { state with seats := state.seats.eraseIdx i, tokens := state.tokens.eraseIdx i }

def begun (state : SeatState Data) : SeatState Data := { state with gameStarted := true }

end SeatState

/-- The deck an occupant brings in. -/
def Brings (ctx : ReducerCtx Data Deck) (i : UInt8) (kind : SeatKind Data)
    (decks : List (UInt8 × AiDifficulty × Deck)) : Prop :=
  match kind with
  | .ai difficulty deck => ∃ resolved, ctx.deckResolver deck = .ok resolved ∧
      decks = [(i, difficulty, resolved)]
  | _ => decks = []

/-- The seat an AI leaves behind. -/
def aiSeat (i : UInt8) : SeatKind Data → List UInt8
  | .ai _ _ => [i]
  | _ => []

/-- The token a player leaves behind. -/
def playerToken (s : SeatState Data) (i : UInt8) : SeatKind Data → List String
  | .joinedHuman => s.tokens[i.toNat]?.toList
  | _ => []

/-- What the removal of seat `i` reports: the seats after it move down by one. -/
def removal (s : SeatState Data) (i : UInt8) (current : SeatKind Data) : SeatDelta Deck :=
  let last := UInt8.ofNat (s.without i.toNat).seats.length
  { SeatDelta.empty with
    mutatedSeats := range i last
    removedAi := aiSeat i current
    renumbering := some {
      removedIndex := i
      remapping := (rangeInclusive (i + 1) last).map fun old => (old, old - 1) } }

/-- The mutations that succeed, with their delta and the state they lead to. -/
inductive Edit (ctx : ReducerCtx Data Deck) (s : SeatState Data) :
    SeatMutation Data → SeatDelta Deck → SeatState Data → Prop where
  | start : s.isFull = true →
      Edit ctx s .start { SeatDelta.empty with nowStarted := true } s.begun
  | keep (i : UInt8) (kind : SeatKind Data) (expectedKind : Option (SeatKind Data)) :
      Edit ctx s (.setKind i kind expectedKind) .empty s
  | replace {i : UInt8} {current kind : SeatKind Data} (expectedKind : Option (SeatKind Data))
      {decks : List (UInt8 × AiDifficulty × Deck)} :
      0 < i.toNat → s.seats[i.toNat]? = some current → current ≠ .hostHuman →
      kind.isOpen = true → Brings ctx i kind decks →
      Edit ctx s (.setKind i kind expectedKind)
        { (SeatDelta.empty : SeatDelta Deck) with
          mutatedSeats := [i]
          invalidatedTokens := playerToken s i current
          removedAi := aiSeat i current
          newAi := decks }
        (s.reseat i.toNat kind)
  | remove {i : UInt8} {current : SeatKind Data} :
      0 < i.toNat → s.seats[i.toNat]? = some current → current.isOpen = true →
      s.format.minPlayers.toNat < s.seats.length →
      Edit ctx s (.remove i) (removal s i current) (s.without i.toNat)

/-- What a mutation that stops has done: nothing, and it says why. -/
def Refused (s : SeatState Data) (stop : Stop) (t : SeatState Data) : Prop :=
  (∃ error, stop = .err error) ∧ t = s

section
variable {s : SeatState Data} {i : Nat}

variable {kind : SeatKind Data}

theorem seatAt_run (found : s.seats[i]? = some kind) : (seatAt i).run s = .ok kind s := by
  simp [seatAt, found]

theorem setSeat_run (bound : i < s.seats.length) :
    (setSeat i kind).run s = .ok () { s with seats := s.seats.set i kind } := by
  simp [setSeat, bound]

theorem tokenAt_run {token : String} (found : s.tokens[i]? = some token) :
    (tokenAt i).run s = .ok token s := by
  simp [tokenAt, found]

theorem clearToken_run (bound : i < s.tokens.length) :
    (clearToken i).run s = .ok () { s with tokens := s.tokens.set i "" } := by
  simp [clearToken, bound]

theorem removeSeat_run (found : s.seats[i]? = some kind) :
    (removeSeat i).run s = .ok kind { s with seats := s.seats.eraseIdx i } := by
  simp only [removeSeat, run_bind, run_get, found]
  rfl

theorem removeToken_run (bound : i < s.tokens.length) :
    (removeToken i).run s = .ok () { s with tokens := s.tokens.eraseIdx i } := by
  simp [removeToken, bound]

end

variable {ctx : ReducerCtx Data Deck} {s : SeatState Data}

theorem applyStart_ends : Ends (Edit ctx s .start) (Refused s) (applyStart.run s) := by
  cases full : s.isFull with
  | true =>
    simp only [applyStart, run_bind, run_get, full]
    exact .start full
  | false =>
    simp only [applyStart, run_bind, run_get, full]
    exact ⟨⟨_, rfl⟩, rfl⟩

theorem applyRemove_ends (same : s.tokens.length = s.seats.length) (i : UInt8) :
    Ends (Edit ctx s (.remove i)) (Refused s) ((applyRemove i).run s) := by
  by_cases out : i.toNat = 0 ∨ s.seats.length ≤ i.toNat
  · simp only [applyRemove, run_bind, run_get, out, ↓reduceIte]
    exact ⟨⟨_, rfl⟩, rfl⟩
  · by_cases few : s.seats.length ≤ s.format.minPlayers.toNat
    · simp only [applyRemove, run_bind, run_get, out, few, ↓reduceIte]
      exact ⟨⟨_, rfl⟩, rfl⟩
    · have bound : i.toNat < s.seats.length := by omega
      have token : i.toNat < s.tokens.length := by omega
      have enough : s.format.minPlayers.toNat < s.seats.length := by omega
      obtain ⟨current, found⟩ : ∃ current, s.seats[i.toNat]? = some current :=
        ⟨_, List.getElem?_eq_getElem bound⟩
      have edit := fun free => @Edit.remove _ _ ctx _ _ _ (by omega) found free enough
      cases current with
      | hostHuman | joinedHuman =>
        simp only [applyRemove, run_bind, run_get, out, few, ↓reduceIte, seatAt_run found]
        exact ⟨⟨_, rfl⟩, rfl⟩
      | waitingHuman | ai difficulty deck =>
        simp only [applyRemove, run_bind, run_get, out, few, ↓reduceIte,
          seatAt_run found, removeSeat_run found, removeToken_run, token]
        exact edit rfl

variable {deck : DeckChoice Data}

theorem resolve_ok {resolved : Deck} (h : ctx.deckResolver deck = .ok resolved) :
    (resolve ctx deck).run s = .ok resolved s := by
  simp only [resolve, h]
  rfl

theorem resolve_error {message : String} (h : ctx.deckResolver deck = .error message) :
    (resolve ctx deck).run s = .error (.err (.deckResolutionFailed message)) s := by
  simp only [resolve, h]
  rfl

theorem replaceKind_ends (same : s.tokens.length = s.seats.length) {i : UInt8}
    {current kind : SeatKind Data} (expectedKind : Option (SeatKind Data))
    (guest : 0 < i.toNat) (found : s.seats[i.toNat]? = some current) (differs : current ≠ kind) :
    Ends (Edit ctx s (.setKind i kind expectedKind)) (Refused s)
      ((replaceKind i current kind ctx).run s) := by
  have bound : i.toNat < s.seats.length := (List.getElem?_eq_some_iff.mp found).1
  have token : i.toNat < s.tokens.length := same ▸ bound
  have taken : s.tokens[i.toNat]? = some (s.tokens[i.toNat]) := List.getElem?_eq_getElem token
  have edit {decks : List (UInt8 × AiDifficulty × Deck)} (apart : current ≠ .hostHuman)
      (opened : kind.isOpen = true) (brings : Brings ctx i kind decks) :=
    Edit.replace expectedKind guest found apart opened brings
  cases current with
  | hostHuman => exact ⟨⟨_, rfl⟩, rfl⟩
  | joinedHuman =>
    simp only [playerToken, taken] at edit
    cases kind with
    | hostHuman => exact ⟨⟨_, rfl⟩, rfl⟩
    | joinedHuman => exact absurd rfl differs
    | waitingHuman =>
      simp only [replaceKind, run_bind, tokenAt_run taken, clearToken_run token, setSeat_run, bound]
      exact edit nofun rfl rfl
    | ai difficulty deck =>
      cases resolved : ctx.deckResolver deck with
      | error message =>
        simp only [replaceKind, run_bind, resolve_error resolved]
        exact ⟨⟨_, rfl⟩, rfl⟩
      | ok value =>
        simp only [replaceKind, run_bind, resolve_ok resolved, tokenAt_run taken,
          clearToken_run token, setSeat_run, bound]
        exact edit nofun rfl ⟨value, resolved, rfl⟩
  | waitingHuman =>
    cases kind with
    | hostHuman | joinedHuman => exact ⟨⟨_, rfl⟩, rfl⟩
    | waitingHuman => exact absurd rfl differs
    | ai difficulty deck =>
      cases resolved : ctx.deckResolver deck with
      | error message =>
        simp only [replaceKind, run_bind, resolve_error resolved]
        exact ⟨⟨_, rfl⟩, rfl⟩
      | ok value =>
        simp only [replaceKind, run_bind, resolve_ok resolved, setSeat_run bound,
          clearToken_run, token]
        exact edit nofun rfl ⟨value, resolved, rfl⟩
  | ai difficulty' deck' =>
    cases kind with
    | hostHuman | joinedHuman => exact ⟨⟨_, rfl⟩, rfl⟩
    | waitingHuman =>
      simp only [replaceKind, run_bind, setSeat_run bound, clearToken_run, token]
      exact edit nofun rfl rfl
    | ai difficulty deck =>
      cases resolved : ctx.deckResolver deck with
      | error message =>
        simp only [replaceKind, run_bind, resolve_error resolved]
        exact ⟨⟨_, rfl⟩, rfl⟩
      | ok value =>
        simp only [replaceKind, run_bind, resolve_ok resolved, setSeat_run bound,
          clearToken_run, token]
        exact edit nofun rfl ⟨value, resolved, rfl⟩

section
variable [DecidableEq Data]

theorem applySetKind_ends (same : s.tokens.length = s.seats.length) (i : UInt8)
    (kind : SeatKind Data) (expectedKind : Option (SeatKind Data)) :
    Ends (Edit ctx s (.setKind i kind expectedKind)) (Refused s)
      ((applySetKind i kind expectedKind ctx).run s) := by
  by_cases out : i.toNat = 0 ∨ s.seats.length ≤ i.toNat
  · simp only [applySetKind, run_bind, run_get, out, ↓reduceIte]
    exact ⟨⟨_, rfl⟩, rfl⟩
  · have bound : i.toNat < s.seats.length := by omega
    obtain ⟨current, found⟩ : ∃ current, s.seats[i.toNat]? = some current :=
      ⟨_, List.getElem?_eq_getElem bound⟩
    simp only [applySetKind, run_bind, run_get, out, ↓reduceIte, seatAt_run found]
    split
    · exact .keep i kind expectedKind
    · split
      · exact .keep i kind expectedKind
      next differs => exact replaceKind_ends same expectedKind (by omega) found differs

theorem apply_started (started : s.gameStarted = true) (mutation : SeatMutation Data) :
    (apply mutation ctx).run s = .error (.err .gameStarted) s := by
  simp only [apply, run_bind, run_get, SeatState.isPregame, started, Bool.not_true, ↓reduceIte]
  rfl

/-- Before the game has begun a mutation edits the room, or refuses and changes nothing. -/
theorem apply_ends (pregame : s.gameStarted = false) (same : s.tokens.length = s.seats.length)
    (mutation : SeatMutation Data) :
    Ends (Edit ctx s mutation) (Refused s) ((apply mutation ctx).run s) := by
  simp only [apply, run_bind, run_get, SeatState.isPregame, pregame,
    Bool.not_false, Bool.true_eq_false, ↓reduceIte]
  cases mutation with
  | start => exact applyStart_ends
  | setKind i kind expectedKind => exact applySetKind_ends same i kind expectedKind
  | remove i => exact applyRemove_ends same i

end

end Phase.Seat
