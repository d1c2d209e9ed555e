import Phase.Seat.Edits

/-! The room stays in order through every run of mutations. -/
namespace Phase.Seat
open Editing List

variable {Data Deck : Type} {s t : SeatState Data}

/-- A room in order: the host sits in the first seat and nowhere else, a seat without a player
has no token, and the format has its players. -/
structure Room (s : SeatState Data) : Prop where
  length : s.tokens.length = s.seats.length
  host : s.seats[0]? = some .hostHuman
  guests : ∀ i, s.seats[i]? = some .hostHuman → i = 0
  blank : ∀ (i : Nat) (kind : SeatKind Data), s.seats[i]? = some kind → kind.isOpen = true →
    s.tokens[i]? = some ""
  enough : s.format.minPlayers.toNat ≤ s.seats.length

namespace Room

theorem begun (room : Room s) : Room s.begun :=
  ⟨room.length, room.host, room.guests, room.blank, room.enough⟩

theorem reseat (room : Room s) {i : Nat} (guest : 0 < i) (bound : i < s.seats.length)
    {kind : SeatKind Data} (opened : kind.isOpen = true) : Room (s.reseat i kind) where
  length := by simp [SeatState.reseat, room.length]
  host := by
    have apart : i ≠ 0 := by omega
    simp [SeatState.reseat, getElem?_set_ne apart, room.host]
  guests := by
    intro j there
    by_cases same : i = j
    · subst same
      rw [SeatState.reseat, getElem?_set_self bound] at there
      cases there
      cases opened
    · rw [SeatState.reseat, getElem?_set_ne same] at there
      exact room.guests j there
  blank := by
    intro j other there free
    by_cases same : i = j
    · subst same
      exact getElem?_set_self (room.length ▸ bound)
    · rw [SeatState.reseat, getElem?_set_ne same] at there
      rw [SeatState.reseat, getElem?_set_ne same]
      exact room.blank j other there free
  enough := by simpa [SeatState.reseat] using room.enough

theorem without (room : Room s) {i : Nat} (guest : 0 < i) (bound : i < s.seats.length)
    (spare : s.format.minPlayers.toNat < s.seats.length) : Room (s.without i) where
  length := by simp [SeatState.without, length_eraseIdx, room.length]
  host := by simp [SeatState.without, getElem?_eraseIdx, guest, room.host]
  guests := by
    intro j there
    simp only [SeatState.without, getElem?_eraseIdx] at there
    split at there
    · exact room.guests j there
    · exact absurd (room.guests (j + 1) there) (Nat.succ_ne_zero j)
  blank := by
    intro j kind there free
    simp only [SeatState.without, getElem?_eraseIdx] at there ⊢
    split at there
    next before =>
      rw [if_pos before]
      exact room.blank j kind there free
    next behind =>
      rw [if_neg behind]
      exact room.blank (j + 1) kind there free
  enough := by
    simp only [SeatState.without, length_eraseIdx, bound, ↓reduceIte]
    omega

theorem edit {ctx : ReducerCtx Data Deck} {mutation : SeatMutation Data} {delta : SeatDelta Deck}
    (room : Room s) (edit : Edit ctx s mutation delta t) : Room t := by
  cases edit with
  | start full => exact room.begun
  | keep => exact room
  | replace expectedKind guest found apart opened brings =>
    exact room.reseat guest (List.getElem?_eq_some_iff.mp found).1 opened
  | remove guest found free spare =>
    exact room.without guest (List.getElem?_eq_some_iff.mp found).1 spare

end Room

/-- A room in order which, once its game has begun, is full. -/
structure Kept (s : SeatState Data) : Prop where
  room : Room s
  full : s.gameStarted = true → s.isFull = true

variable {ctx : ReducerCtx Data Deck}

theorem Edit.kept {mutation : SeatMutation Data} {delta : SeatDelta Deck}
    (edit : Edit ctx s mutation delta t) (kept : Kept s) (pregame : s.gameStarted = false) :
    Kept t where
  room := kept.room.edit edit
  full := by
    intro started
    cases edit with
    | start full => exact full
    | keep | replace | remove => exact absurd (pregame.symm.trans started) Bool.false_ne_true

variable [DecidableEq Data]

theorem Kept.after (kept : Kept s) (mutation : SeatMutation Data) :
    Kept (after (apply mutation ctx) s) := by
  cases started : s.gameStarted with
  | true =>
    rw [Editing.after, apply_started started]
    exact kept
  | false =>
    refine (apply_ends started kept.room.length mutation).after
      (fun delta t edit => edit.kept kept started) ?_
    rintro stop t ⟨-, rfl⟩
    exact kept

/-- What the host asks for, with what answers for the decks at that moment. -/
abbrev Request (Data Deck : Type) := SeatMutation Data × ReducerCtx Data Deck

/-- The room after the host's requests. -/
def edited (s : SeatState Data) (requests : List (Request Data Deck)) : SeatState Data :=
  afterAll (requests.map fun request => apply request.1 request.2) s

theorem Kept.edited (kept : Kept s) (requests : List (Request Data Deck)) :
    Kept (edited s requests) := by
  refine afterAll_induction ?_ kept
  intro call mem s kept
  obtain ⟨request, -, rfl⟩ := mem_map.mp mem
  exact kept.after request.1

/-- What holds of a room after any requests, and of the next one. -/
theorem edits_keep_room (room : Room s) (pregame : s.gameStarted = false)
    (requests : List (Request Data Deck)) :
    let t := edited s requests
    Room t ∧ (t.gameStarted = true → t.isFull = true) ∧
    ∀ (mutation : SeatMutation Data) (ctx : ReducerCtx Data Deck),
      let next := (apply mutation ctx).run t
      (t.gameStarted = true → next = .error (.err .gameStarted) t) ∧
      (∀ delta u, next = .ok delta u → u.gameStarted = true → mutation = .start ∧ t.isFull = true) ∧
      ∀ stop u, next = .error stop u → (∃ error, stop = .err error) ∧ u = t := by
  intro t
  have kept : Kept t := Kept.edited ⟨room, fun started => by simp [pregame] at started⟩ requests
  refine ⟨kept.room, kept.full, fun mutation ctx => ?_⟩
  intro next
  cases started : t.gameStarted with
  | true =>
    have refused : next = .error (.err .gameStarted) t := apply_started started mutation
    refine ⟨fun _ => refused, fun delta u done => ?_, fun stop u stopped => ?_⟩
    · rw [refused] at done
      cases done
    · rw [refused] at stopped
      cases stopped
      exact ⟨⟨_, rfl⟩, rfl⟩
  | false =>
    have ends : Ends (Edit ctx t mutation) (Refused t) ((apply mutation ctx).run t) :=
      apply_ends started kept.room.length mutation
    refine ⟨nofun, fun delta u done begun => ?_, fun stop u stopped => ends.error stopped⟩
    cases ends.ok done with
    | start full => exact ⟨rfl, full⟩
    | keep | replace | remove => exact absurd (started.symm.trans begun) Bool.false_ne_true

/-- A host with one free seat. -/
def tableForTwo : SeatState String where
  seats := [.hostHuman, .waitingHuman]
  tokens := ["host-token", ""]
  format := { minPlayers := 2 }
  gameStarted := false

theorem tableForTwo_room : Room tableForTwo where
  length := rfl
  host := rfl
  guests := by
    intro i there
    match i with
    | 0 => rfl
    | 1 => cases there
    | i + 2 => cases there
  blank := by
    intro i kind there free
    match i with
    | 0 =>
      cases there
      cases free
    | 1 => rfl
    | i + 2 => cases there
  enough := by decide

/-- Every deck resolves to its name. -/
def names : ReducerCtx String String where
  deckResolver
    | .named name => .ok name
    | .random | .deckList _ => .error "no such deck"

/-- With an AI in the free seat the game begins, and the seats are final. -/
theorem tableForTwo_begins :
    let ai : SeatKind String := .ai .medium (.named "Goblins")
    let t := edited tableForTwo
      [(.start, names), (.remove 1, names), (.setKind 1 ai none, names), (.start, names)]
    t.seats = [.hostHuman, ai] ∧ t.gameStarted = true ∧ t.isFull = true ∧
      (apply (.setKind 1 .waitingHuman none) names).run t = .error (.err .gameStarted) t := by
  intro ai t
  have started : t.gameStarted = true := by decide
  obtain ⟨room, full, next⟩ := edits_keep_room tableForTwo_room rfl
    [(.start, names), (.remove 1, names), (.setKind 1 ai none, names), (.start, names)]
  exact ⟨by decide, started, full started, (next (.setKind 1 .waitingHuman none) names).1 started⟩

/-- A room does not stay unstarted: with an AI in the free seat the host can start it. -/
theorem started_room :
    ¬ ∀ (s : SeatState String), Room s → s.gameStarted = false →
      ∀ requests : List (Request String String),
        Room (edited s requests) ∧ (edited s requests).gameStarted = false := by
  intro claimed
  have never := (claimed tableForTwo tableForTwo_room rfl
    [(.setKind 1 (.ai .medium (.named "Goblins")) none, names), (.start, names)]).2
  revert never
  decide

end Phase.Seat
