import Mathlib.Data.List.Nodup
import Phase.Seat.State

/-! Seats held for players who have yet to join. -/
namespace Phase.Seat
open List

structure SeatReservation where
  token : String
  displayName : String
  seatIndex : Nat
  expiresAtMs : Option Nat

/-- A player's entries in the arrays of the session. -/
structure Player (Data Payload : Type) where
  token : String
  deck : Payload
  deckChoice : Option (DeckChoice Data)
  displayName : String

/-- The part of a session that joining reads and writes. A seat whose token is empty has no
player. -/
structure GameSession (Data Payload : Type) where
  players : List (Option (Player Data Payload))
  connected : List Bool
  aiSeats : Nat → Bool
  reservations : List SeatReservation
  aiDriverFault : Option String
  gameStarted : Bool

variable {Data Payload : Type}

namespace GameSession
variable (session : GameSession Data Payload)

def isOpen (seat : Nat) : Bool := session.players[seat]?.any (·.isNone) && !session.aiSeats seat

def firstOpenSeat : Option Nat :=
  (List.range session.players.length).find? fun seat =>
    session.isOpen seat && !session.reservations.any (·.seatIndex = seat)

def cleanupExpiredReservations (now : Nat) : GameSession Data Payload :=
  { session with reservations := session.reservations.filter (·.expiresAtMs.all (now < ·)) }

def releaseReservation (token : String) : GameSession Data Payload :=
  { session with reservations := session.reservations.filter (·.token ≠ token) }

def hostAway : Bool := !session.gameStarted && session.connected[0]? ≠ some true

def hostAwayRefusal : String := "The host is away; try again when they return"

def reserveSeat (displayName : String) (now : Nat) (token : String) :
    Except String SeatReservation × GameSession Data Payload :=
  if let some fault := session.aiDriverFault then (.error fault, session)
  else if session.hostAway then (.error hostAwayRefusal, session)
  else
    let session := session.cleanupExpiredReservations now
    if session.gameStarted then (.error "Game has already started", session)
    else match session.firstOpenSeat with
      | none => (.error "Game is already full", session)
      | some seatIndex =>
        let reservation := { token, displayName, seatIndex, expiresAtMs := some (now + 120000) }
        (.ok reservation, { session with
          reservations := reservation :: (session.releaseReservation token).reservations })

/-- The player takes the seat, under the name it was held for if they bring none. -/
def seated (seat : Nat) (player : Player Data Payload) (heldFor : String) :
    GameSession Data Payload :=
  let displayName := if player.displayName = "" then heldFor else player.displayName
  { session with
    players := session.players.set seat (some { player with displayName })
    connected := session.connected.set seat true }

def joinWithReservation (player : Player Data Payload) (reservationToken : Option String)
    (now : Nat) : Except String String × GameSession Data Payload :=
  if session.hostAway then (.error hostAwayRefusal, session)
  else
    let session := session.cleanupExpiredReservations now
    match reservationToken with
    | some token => match session.reservations.find? (·.token = token) with
      | none => (.error "Seat reservation expired or was released", session)
      | some reservation => (.ok player.token,
          (session.releaseReservation token).seated reservation.seatIndex player
            reservation.displayName)
    | none => match session.firstOpenSeat with
      | none => (.error "Game is already full", session)
      | some seat => (.ok player.token, session.seated seat player "")

end GameSession
open GameSession

/-- What is asked of a session, each call with the time and the tokens it reads. -/
inductive SeatCall (Data Payload : Type) where
  | reserve (displayName : String) (now : Nat) (token : String)
  | release (token : String)
  | hasActive (now : Nat)
  | join (player : Player Data Payload) (reservationToken : Option String) (now : Nat)
  | presence (seat : Nat) (connected : Bool)

def SeatCall.run (session : GameSession Data Payload) :
    SeatCall Data Payload → GameSession Data Payload
  | .reserve displayName now token => (session.reserveSeat displayName now token).2
  | .release token => session.releaseReservation token
  | .hasActive now => session.cleanupExpiredReservations now
  | .join player token now => (session.joinWithReservation player token now).2
  | .presence seat connected =>
    { session with connected := session.connected.set seat connected }

/-- Each reservation has a token and an open seat of its own. -/
structure HeldOpen (session : GameSession Data Payload) : Prop where
  isOpen : ∀ r ∈ session.reservations, session.isOpen r.seatIndex = true
  tokens : (session.reservations.map (·.token)).Nodup
  seats : (session.reservations.map (·.seatIndex)).Nodup

/-- Whoever sits in a seat still does. -/
def StillSeated (session next : GameSession Data Payload) : Prop :=
  ∀ (i : Nat) player, session.players[i]? = some (some player) →
    next.players[i]? = some (some player)

section
variable {session : GameSession Data Payload} {seat : Nat} {player : Player Data Payload}
  {heldFor : String}

theorem HeldOpen.filter (held : HeldOpen session) (p : SeatReservation → Bool) :
    HeldOpen { session with reservations := session.reservations.filter p } where
  isOpen r mem := held.isOpen r (mem_filter.mp mem).1
  tokens := held.tokens.sublist (filter_sublist.map _)
  seats := held.seats.sublist (filter_sublist.map _)

theorem HeldOpen.seated (held : HeldOpen session)
    (free : ∀ r ∈ session.reservations, r.seatIndex ≠ seat) :
    HeldOpen (session.seated seat player heldFor) where
  isOpen r mem := by
    simpa [GameSession.isOpen, GameSession.seated, getElem?_set_ne (free r mem).symm]
      using held.isOpen r mem
  tokens := held.tokens
  seats := held.seats

theorem stillSeated_of_open (isOpen : session.isOpen seat = true) :
    StillSeated session (session.seated seat player heldFor) := by
  intro i old there
  have apart : seat ≠ i := fun same => by
    subst same
    simp [GameSession.isOpen, there] at isOpen
  exact (getElem?_set_ne apart).trans there

theorem firstOpenSeat_spec (found : session.firstOpenSeat = some seat) :
    session.isOpen seat = true ∧ ∀ r ∈ session.reservations, r.seatIndex ≠ seat := by
  simpa [firstOpenSeat] using find?_some found

theorem SeatCall.run_keeps (held : HeldOpen session) (call : SeatCall Data Payload) :
    HeldOpen (call.run session) ∧ StillSeated session (call.run session) := by
  have same : StillSeated session session := fun _ _ there => there
  have cleaned (now : Nat) := held.filter (·.expiresAtMs.all (now < ·))
  cases call with
  | release token => exact ⟨held.filter _, same⟩
  | hasActive now => exact ⟨cleaned now, same⟩
  | presence seat connected => exact ⟨⟨held.isOpen, held.tokens, held.seats⟩, same⟩
  | reserve displayName now token =>
    rw [SeatCall.run, reserveSeat]
    split
    · exact ⟨held, same⟩
    split
    · exact ⟨held, same⟩
    dsimp only
    split
    · exact ⟨cleaned now, same⟩
    split
    · exact ⟨cleaned now, same⟩
    next found =>
      obtain ⟨isOpen, free⟩ := firstOpenSeat_spec found
      have others := (cleaned now).filter (·.token ≠ token)
      refine ⟨⟨forall_mem_cons.mpr ⟨isOpen, others.isOpen⟩, nodup_cons.mpr ⟨?_, others.tokens⟩,
        nodup_cons.mpr ⟨?_, others.seats⟩⟩, same⟩
      all_goals
        intro listed
        obtain ⟨r, mem, at_⟩ := mem_map.mp listed
        obtain ⟨inside, differs⟩ := mem_filter.mp mem
      · exact of_decide_eq_true differs at_
      · exact free r inside at_
  | join player token now =>
    rw [SeatCall.run, joinWithReservation]
    split
    · exact ⟨held, same⟩
    dsimp only
    split
    · split
      · exact ⟨cleaned now, same⟩
      next found =>
        have mem := mem_of_find?_eq_some found
        have token := find?_some found
        refine ⟨((cleaned now).filter _).seated fun other inside same => ?_,
          stillSeated_of_open ((cleaned now).isOpen _ mem)⟩
        obtain ⟨inside, differs⟩ := mem_filter.mp inside
        cases inj_on_of_nodup_map (cleaned now).seats inside mem same
        exact of_decide_eq_true differs (of_decide_eq_true token)
    · split
      · exact ⟨cleaned now, same⟩
      next found =>
        obtain ⟨isOpen, free⟩ := firstOpenSeat_spec found
        exact ⟨(cleaned now).seated free, stillSeated_of_open isOpen⟩

/-- Through any calls reservations hold open seats, each one its own, and nobody who has joined
loses a seat; and whoever joins in time with a reservation gets the seat that it holds. -/
theorem reservations_hold (held : HeldOpen session) (calls : List (SeatCall Data Payload)) :
    let next := calls.foldl SeatCall.run session
    HeldOpen next ∧ StillSeated session next ∧ ∀ r ∈ next.reservations, ∀ player now,
      r.expiresAtMs.all (now < ·) = true → next.hostAway = false →
        (next.joinWithReservation player r.token now).1 = .ok player.token ∧
          (next.joinWithReservation player r.token now).2.players =
            (next.seated r.seatIndex player r.displayName).players := by
  intro next
  have run : HeldOpen next ∧ StillSeated session next := by
    induction calls generalizing session with
    | nil => exact ⟨held, fun _ _ there => there⟩
    | cons call calls ih =>
      obtain ⟨held, seated⟩ := call.run_keeps held
      obtain ⟨after, later⟩ := ih held
      exact ⟨after, fun i player there => later i player (seated i player there)⟩
  refine ⟨run.1, run.2, fun r mem player now live present => ?_⟩
  have kept : r ∈ (next.cleanupExpiredReservations now).reservations := mem_filter.mpr ⟨mem, live⟩
  have found : (next.cleanupExpiredReservations now).reservations.find? (·.token = r.token) =
      some r := by
    obtain ⟨r', found⟩ := Option.isSome_iff_exists.mp
      (find?_isSome.mpr ⟨r, kept, by simp⟩ : (find? (·.token = r.token) _).isSome)
    have token := find?_some found
    rw [found, inj_on_of_nodup_map (run.1.filter _).tokens (mem_of_find?_eq_some found) kept
      (of_decide_eq_true token)]
  simp only [joinWithReservation, present, found]
  exact ⟨rfl, rfl⟩

end

/-- The host waits, and one seat is open. -/
def roomForOne : GameSession Unit Unit :=
  ⟨[some ⟨"h", (), none, "Host"⟩, none], [true, false], fun _ => false, [], none, false⟩

theorem guest_gets_held_seat :
    let held := SeatCall.run roomForOne (.reserve "Ann" 0 "t")
    (held.joinWithReservation ⟨"a", (), none, ""⟩ (some "t") 9).2.players =
      [some ⟨"h", (), none, "Host"⟩, some ⟨"a", (), none, "Ann"⟩] := by
  obtain ⟨-, -, gets⟩ :=
    reservations_hold (⟨nofun, .nil, .nil⟩ : HeldOpen roomForOne) [.reserve "Ann" 0 "t"]
  exact (gets _ (mem_cons_self ..) ⟨"a", (), none, ""⟩ 9 rfl rfl).2

end Phase.Seat
