import Phase.Draft.StandingsPairing
import Phase.Lib.Fallible

/-! The records are the count of what was last reported, as long as no draw is taken back
between players with different match wins. -/
namespace Phase.Draft.Event
open List MatchRecords

open Fallible (bind_eq_ok guard_eq_ok ite_error_eq_ok)

/-- Accepted reports, the latest first: the match and the player named as its winner. -/
abbrev Reports := List (String × Option Nat)

def lastResult (reports : Reports) (matchId : String) : Option (Option Nat) :=
  (reports.find? fun report => report.1 = matchId).map (·.2)

def plays (player : Nat) (pairing : DraftPairing) : Bool :=
  player = pairing.players.1 ∨ player = pairing.players.2

def won (player : Nat) (pairing : DraftPairing) (result : Option (Option Nat)) : Bool :=
  pairing.status = .complete ∧ result = some (some player)

def lost (player : Nat) (pairing : DraftPairing) (result : Option (Option Nat)) : Bool :=
  pairing.status = .complete ∧ plays player pairing ∧ result ≠ some none ∧
    result ≠ some (some player)

def drawn (player : Nat) (pairing : DraftPairing) (result : Option (Option Nat)) : Bool :=
  pairing.status = .complete ∧ plays player pairing ∧ result = some none

/-- How many pairings count so for the player. -/
def tally (kind : Nat → DraftPairing → Option (Option Nat) → Bool) (player : Nat)
    (pairings : List DraftPairing) (result : DraftPairing → Option (Option Nat)) : Nat :=
  pairings.countP fun pairing => kind player pairing (result pairing)

/-- Each player's record is the count of the last results of the complete pairings, and of the
byes. -/
def Exact (session : DraftSession) (reports : Reports) (byes : List Nat) : Prop :=
  ∀ player,
    let record := of session.event.matchRecords player
    let count := fun kind => tally kind player session.event.pairings fun pairing =>
      lastResult reports pairing.matchId
    record.wins = count won ∧ record.losses = count lost ∧ record.draws = count drawn ∧
      record.matchWins = count won + byes.count player ∧ record.matchLosses = count lost

namespace MatchRecords

variable {records : MatchRecords} {a player : Nat}
  {update : DraftMatchRecord → DraftMatchRecord}

theorem of_ensure : (records.ensure a update).of player =
    if player = a then update (records.of a) else records.of player := by
  rw [of, ensure]
  split
  · next same =>
    subst same
    rw [AList.lookup_insert, Option.getD_some]
  · next other => rw [AList.lookup_insert_ne other, of]

theorem of_change (fixed : update (emptyRecord a) = emptyRecord a) :
    (records.change a update).of player =
      if player = a then update (records.of a) else records.of player := by
  rw [change]
  split
  · next record found =>
    have held : records.of a = record := by rw [of, found, Option.getD_some]
    rw [← held]
    exact of_ensure
  · next missing =>
    have held : records.of a = emptyRecord a := by rw [of, missing, Option.getD_none]
    split
    · next same =>
      subst same
      rw [held, fixed]
    · rfl

end MatchRecords

/-- What a result adds to a player's record. -/
def gain (record : DraftMatchRecord) (player : Nat) (pairing : DraftPairing)
    (winner : Option Nat) : DraftMatchRecord :=
  let settled := { pairing with status := PairingStatus.complete }
  { record with
    wins := record.wins + (won player settled (some winner)).toNat
    losses := record.losses + (lost player settled (some winner)).toNat
    draws := record.draws + (drawn player settled (some winner)).toNat
    matchWins := record.matchWins + (won player settled (some winner)).toNat
    matchLosses := record.matchLosses + (lost player settled (some winner)).toNat }

def giveBack (record : DraftMatchRecord) (player : Nat) (pairing : DraftPairing)
    (winner : Option Nat) : DraftMatchRecord :=
  let settled := { pairing with status := PairingStatus.complete }
  { record with
    wins := record.wins - (won player settled (some winner)).toNat
    losses := record.losses - (lost player settled (some winner)).toNat
    draws := record.draws - (drawn player settled (some winner)).toNat
    matchWins := record.matchWins - (won player settled (some winner)).toNat
    matchLosses := record.matchLosses - (lost player settled (some winner)).toNat }

section
variable {records : MatchRecords} {pairing : DraftPairing} {winner : Option Nat} {player : Nat}

section
variable (distinct : pairing.players.1 ≠ pairing.players.2)
include distinct

/-- A player is the first of the pair, the second, or neither. -/
theorem seat_cases :
    (player = pairing.players.1 ∧ player ≠ pairing.players.2) ∨
      (player ≠ pairing.players.1 ∧ player = pairing.players.2) ∨
        (player ≠ pairing.players.1 ∧ player ≠ pairing.players.2) := by
  by_cases first : player = pairing.players.1
  · exact .inl ⟨first, first ▸ distinct⟩
  · by_cases second : player = pairing.players.2
    · exact .inr (.inl ⟨first, second⟩)
    · exact .inr (.inr ⟨first, second⟩)

section
variable (named : ∀ w, winner = some w → w = pairing.players.1 ∨ w = pairing.players.2)
include named

theorem of_applyMatchRecordResult :
    (applyMatchRecordResult records pairing.players winner).of player =
      gain (records.of player) player pairing winner := by
  cases winner with
  | none =>
    simp only [applyMatchRecordResult, of_ensure]
    rcases @seat_cases pairing player distinct with ⟨rfl, other⟩ | ⟨other, rfl⟩ | ⟨first, second⟩
    · simp [other, gain, won, lost, drawn, plays, addDraw]
    · simp [other, gain, won, lost, drawn, plays, addDraw]
    · simp [first, second, gain, won, lost, drawn, plays]
  | some w =>
    simp only [applyMatchRecordResult, of_ensure]
    rcases named w rfl with rfl | rfl <;> rcases @seat_cases pairing player distinct with
        ⟨rfl, other⟩ | ⟨other, rfl⟩ | ⟨first, second⟩
    · simp [loserOf, other, gain, won, lost, drawn, plays, addWin]
    · simp [loserOf, other, other.symm, gain, won, lost, drawn, plays, addLoss]
    · simp [loserOf, first, first.symm, second, gain, won, lost, drawn, plays]
    · simp [loserOf, other, other.symm, gain, won, lost, drawn, plays, addLoss]
    · simp [loserOf, other, other.symm, gain, won, lost, drawn, plays, addWin]
    · simp [loserOf, distinct, first, second, second.symm, gain, won, lost, drawn, plays]

theorem of_undoMatchRecordResult :
    (undoMatchRecordResult records pairing.players winner).of player =
      giveBack (records.of player) player pairing winner := by
  cases winner with
  | none =>
    simp only [undoMatchRecordResult]
    rw [of_change rfl, of_change rfl, of_change rfl]
    rcases @seat_cases pairing player distinct with ⟨rfl, other⟩ | ⟨other, rfl⟩ | ⟨first, second⟩
    · simp [other, giveBack, won, lost, drawn, plays, dropDraw]
    · simp [other, giveBack, won, lost, drawn, plays, dropDraw]
    · simp [first, second, giveBack, won, lost, drawn, plays]
  | some w =>
    simp only [undoMatchRecordResult]
    rw [of_change rfl, of_change rfl, of_change rfl]
    rcases named w rfl with rfl | rfl <;> rcases @seat_cases pairing player distinct with
        ⟨rfl, other⟩ | ⟨other, rfl⟩ | ⟨first, second⟩
    · simp [loserOf, other, giveBack, won, lost, drawn, plays, dropWin]
    · simp [loserOf, other, other.symm, giveBack, won, lost, drawn, plays, dropLoss]
    · simp [loserOf, first, first.symm, second, giveBack, won, lost, drawn, plays]
    · simp [loserOf, other, other.symm, giveBack, won, lost, drawn, plays, dropLoss]
    · simp [loserOf, other, other.symm, giveBack, won, lost, drawn, plays, dropWin]
    · simp [loserOf, distinct, first, second, second.symm, giveBack, won, lost, drawn, plays]

end

end

end

def stored (pairing : DraftPairing) : Option (Option Nat) := some pairing.winner

section
variable {kind : Nat → DraftPairing → Option (Option Nat) → Bool} {player index : Nat}
  {pairings : List DraftPairing} {pairing : DraftPairing}

theorem tally_set (found : pairings[index]? = some pairing) (next : DraftPairing) :
    tally kind player (pairings.set index next) stored =
      tally kind player pairings stored - (kind player pairing (stored pairing)).toNat +
        (kind player next (stored next)).toNat := by
  obtain ⟨bound, rfl⟩ := List.getElem?_eq_some_iff.mp found
  rw [tally, countP_set bound]
  cases kind player pairings[index] (stored pairings[index]) <;>
    cases kind player next (stored next) <;> rfl

theorem toNat_le_tally (mem : pairing ∈ pairings) :
    (kind player pairing (stored pairing)).toNat ≤ tally kind player pairings stored := by
  cases counts : kind player pairing (stored pairing) with
  | false => exact Nat.zero_le _
  | true => exact countP_pos_iff.mpr ⟨pairing, mem, counts⟩

theorem tally_append_of_pending {new : List DraftPairing}
    (quiet : ∀ q ∈ new, kind player q (stored q) = false) :
    tally kind player (pairings ++ new) stored = tally kind player pairings stored := by
  have none_ : tally kind player new stored = 0 :=
    countP_eq_zero.mpr fun q mem => by simp [quiet q mem]
  rw [tally, countP_append, ← tally, ← tally, none_, Nat.add_zero]

end

def Counted (session : DraftSession) (byes : List Nat) (player : Nat) : Prop :=
  let record := of session.event.matchRecords player
  let count := fun kind => tally kind player session.event.pairings stored
  record.wins = count won ∧ record.losses = count lost ∧ record.draws = count drawn ∧
    record.matchWins = count won + byes.count player ∧ record.matchLosses = count lost

/-- Nobody plays twice in a round, a pairing is settled through the first of its match id, and
the records count what the pairings hold. -/
structure Valid (session : DraftSession) (reports : Reports) (byes : List Nat) : Prop where
  distinct : (playerIds session).Nodup
  rounds : ∀ q ∈ session.event.pairings, q.round ≤ session.event.currentRound
  apart : ∀ round, (seated ((roundPairingsOf session.event.pairings round).map (·.players))).Nodup
  named : ∀ q ∈ session.event.pairings, ∀ w, q.winner = some w → w = q.players.1 ∨ w = q.players.2
  first : ∀ i q, session.event.pairings[i]? = some q → q.status = .complete →
    session.event.pairings.findIdx? (fun other => other.matchId = q.matchId) = some i
  latest : ∀ q ∈ session.event.pairings, q.status = .complete →
    lastResult reports q.matchId = stored q
  counted : ∀ player, Counted session byes player

section
variable {player : Nat} (pairing : DraftPairing) (result : Option (Option Nat))

theorem won_complete (counts : won player pairing result = true) : pairing.status = .complete := by
  simp only [won, decide_eq_true_eq] at counts
  exact counts.1

theorem lost_complete (counts : lost player pairing result = true) :
    pairing.status = .complete := by
  simp only [lost, decide_eq_true_eq] at counts
  exact counts.1

theorem drawn_complete (counts : drawn player pairing result = true) :
    pairing.status = .complete := by
  simp only [drawn, decide_eq_true_eq] at counts
  exact counts.1

end

section
variable {session : DraftSession} {reports : Reports} {byes : List Nat}

theorem Valid.exact (valid : Valid session reports byes) : Exact session reports byes := by
  intro player
  have same (kind : Nat → DraftPairing → Option (Option Nat) → Bool)
      (onlyComplete : ∀ q result, kind player q result = true → q.status = .complete) :
      tally kind player session.event.pairings (fun q => lastResult reports q.matchId) =
        tally kind player session.event.pairings stored := by
    refine countP_congr fun q mem => ?_
    by_cases complete : q.status = .complete
    · simp only [valid.latest q mem complete]
    · have never : ∀ result, kind player q result = false := fun result =>
        Bool.eq_false_iff.mpr fun counts => complete (onlyComplete q result counts)
      rw [never, never]
  simp only [same won won_complete, same lost lost_complete, same drawn drawn_complete]
  exact valid.counted player

theorem Valid.players_ne (valid : Valid session reports byes) {q : DraftPairing}
    (mem : q ∈ session.event.pairings) : q.players.1 ≠ q.players.2 := by
  have inRound : q.players ∈ (roundPairingsOf session.event.pairings q.round).map (·.players) :=
    mem_map_of_mem (mem_filter.mpr ⟨mem, by simp⟩)
  have nodup := (nodup_flatMap.mp (valid.apart q.round)).1 q.players inRound
  simpa using nodup

end

/-- No draw is taken back between players whose match wins differ. -/
def Undoable (session : DraftSession) (matchId : String) : Prop :=
  ∀ index q, session.event.pairings.findIdx? (fun q => q.matchId = matchId) = some index →
    session.event.pairings[index]? = some q → q.status = .complete → q.winner = none →
      (of session.event.matchRecords q.players.1).matchWins =
        (of session.event.matchRecords q.players.2).matchWins

def undoableAt (session : DraftSession) : Option DraftPairing → Bool
  | none => true
  | some q => q.status ≠ .complete ∨ q.winner ≠ none ∨
      (of session.event.matchRecords q.players.1).matchWins =
        (of session.event.matchRecords q.players.2).matchWins

instance (session : DraftSession) (matchId : String) : Decidable (Undoable session matchId) :=
  decidable_of_iff (undoableAt session
    ((session.event.pairings.findIdx? fun q => q.matchId = matchId).bind
      (session.event.pairings[·]?)) = true) <| by
    rw [Undoable]
    cases found : session.event.pairings.findIdx? fun q => q.matchId = matchId with
    | none => simp [undoableAt]
    | some index =>
      cases held : session.event.pairings[index]? with
      | none =>
        refine iff_of_true (by simp [undoableAt, held]) fun i q isIndex isPairing => ?_
        cases isIndex
        rw [held] at isPairing
        cases isPairing
      | some q =>
        simp only [Option.bind_some, held, undoableAt, decide_eq_true_eq]
        constructor
        · intro check i q' isIndex isPairing complete drawn
          cases isIndex
          cases held.symm.trans isPairing
          exact (check.resolve_left (not_not.mpr complete)).resolve_left (not_not.mpr drawn)
        · intro undoable
          by_cases complete : q.status = .complete
          · by_cases drawn : q.winner = none
            · exact .inr (.inr (undoable index q rfl held complete drawn))
            · exact .inr (.inl drawn)
          · exact .inl complete

variable {pairing : DraftPairing}

theorem resultWinner_eq {records : MatchRecords}
    (even : pairing.winner = none → (records.of pairing.players.1).matchWins =
      (records.of pairing.players.2).matchWins) :
    resultWinner pairing records = pairing.winner := by
  cases isWinner : pairing.winner with
  | some winner => simp [resultWinner, isWinner]
  | none => simp [resultWinner, isWinner, inferWinnerFromRecords, even isWinner]

variable {session : DraftSession}

theorem reportedWinner_ok {matchId : String} {winnerSeat winner : Option Nat}
    (ok : reportedWinner session pairing matchId winnerSeat = .ok winner) :
    winner = winnerSeat.map (seatPlayerId session) ∧
      ∀ w, winner = some w → w = pairing.players.1 ∨ w = pairing.players.2 := by
  cases winnerSeat with
  | none =>
    cases ok
    exact ⟨rfl, nofun⟩
  | some seat =>
    rw [reportedWinner, ite_error_eq_ok] at ok
    obtain ⟨-, ok⟩ := ok
    dsimp only at ok
    split at ok
    · next inPairing =>
      cases ok
      refine ⟨rfl, fun w isWinner => ?_⟩
      cases isWinner
      exact inPairing
    · cases ok

theorem afterReport_event (session : DraftSession) :
    (afterReport session).1.event = session.event ∧ (afterReport session).1.seats = session.seats := by
  rw [afterReport]
  split <;> exact ⟨rfl, rfl⟩

variable {deltas : List DraftDelta} {next : DraftSession}

theorem applyReportMatchResult_ok {matchId : String} {winnerSeat : Option Nat}
    (ok : applyReportMatchResult session matchId winnerSeat = .ok (next, deltas)) :
    ∃ index pairing, session.event.pairings.findIdx? (fun q => q.matchId = matchId) = some index ∧
      session.event.pairings[index]? = some pairing ∧
      (∀ w, winnerSeat.map (seatPlayerId session) = some w →
        w = pairing.players.1 ∨ w = pairing.players.2) ∧
      next.event = settlePairing session.event index pairing
        (winnerSeat.map (seatPlayerId session)) ∧
      next.seats = session.seats := by
  rw [applyReportMatchResult, guard_eq_ok] at ok
  obtain ⟨-, ok⟩ := ok
  split at ok
  · cases ok
  · next index isIndex =>
    split at ok
    · cases ok
    · next pairing isPairing =>
      rw [guard_eq_ok, guard_eq_ok] at ok
      obtain ⟨-, -, ok⟩ := ok
      rw [bind_eq_ok] at ok
      obtain ⟨winner, named, ok⟩ := ok
      obtain ⟨rfl, inPairing⟩ := reportedWinner_ok named
      cases ok
      obtain ⟨event, seats⟩ := afterReport_event { session with
        event := settlePairing session.event index pairing (winnerSeat.map (seatPlayerId session)) }
      exact ⟨index, pairing, isIndex, isPairing, inPairing, event, seats⟩

theorem playerIds_congr (seats : next.seats = session.seats) :
    playerIds next = playerIds session := by
  have same : seatPlayerId next = seatPlayerId session := by
    funext seat
    rw [seatPlayerId, seatPlayerId, seats]
  rw [playerIds, playerIds, seats, same]

/-- Settling a pairing keeps whatever its result does not touch. -/
theorem map_set_settled {α : Type} {pairings : List DraftPairing} {index : Nat}
    {settled : DraftPairing} (found : pairings[index]? = some pairing) (f : DraftPairing → α)
    (same : f settled = f pairing) : (pairings.set index settled).map f = pairings.map f := by
  obtain ⟨bound, rfl⟩ := List.getElem?_eq_some_iff.mp found
  have held : f pairings[index] = (pairings.map f).get ⟨index, by simpa using bound⟩ := by simp
  rw [map_set, same, held, get_eq_getElem, set_getElem_self]

theorem roundPairingsOf_players (pairings : List DraftPairing) (round : Nat) :
    (roundPairingsOf pairings round).map (·.players) =
      ((pairings.map fun q => (q.round, q.players)).filter fun slot => slot.1 = round).map
        (·.2) := by
  rw [filter_map, map_map]
  rfl

theorem findIdx?_matchId (pairings : List DraftPairing) (matchId : String) :
    pairings.findIdx? (fun q => q.matchId = matchId) =
      (pairings.map (·.matchId)).findIdx? fun id => id = matchId := by
  rw [findIdx?_map]
  rfl

section
variable {session next : DraftSession} {reports : Reports} {byes : List Nat} {matchId : String}
  {winnerSeat : Option Nat} {deltas : List DraftDelta}

theorem settlePairing_counted {index : Nat} {pairing : DraftPairing} {winner : Option Nat}
    (valid : Valid session reports byes) (isPairing : session.event.pairings[index]? = some pairing)
    (even : pairing.status = .complete → pairing.winner = none →
      (of session.event.matchRecords pairing.players.1).matchWins =
        (of session.event.matchRecords pairing.players.2).matchWins)
    (named : ∀ w, winner = some w → w = pairing.players.1 ∨ w = pairing.players.2)
    (settles : next.event = settlePairing session.event index pairing winner) (player : Nat) :
    Counted next byes player := by
  have mem : pairing ∈ session.event.pairings := mem_of_getElem? isPairing
  have distinct := valid.players_ne mem
  obtain ⟨wins, losses, draws, matchWins, matchLosses⟩ := valid.counted player
  have counts (kind : Nat → DraftPairing → Option (Option Nat) → Bool) :=
    @tally_set kind player index _ pairing isPairing { pairing with status := .complete, winner }
  have least (kind : Nat → DraftPairing → Option (Option Nat) → Bool) :=
    @toNat_le_tally kind player _ pairing mem
  have leastWon := least won
  -- What the earlier result counted for is given back first.
  have cleared : (if pairing.status = .complete then
        undoMatchRecordResult session.event.matchRecords pairing.players
          (resultWinner pairing session.event.matchRecords)
      else session.event.matchRecords).of player =
      let record := of session.event.matchRecords player
      { record with
        wins := record.wins - (won player pairing (stored pairing)).toNat
        losses := record.losses - (lost player pairing (stored pairing)).toNat
        draws := record.draws - (drawn player pairing (stored pairing)).toNat
        matchWins := record.matchWins - (won player pairing (stored pairing)).toNat
        matchLosses := record.matchLosses - (lost player pairing (stored pairing)).toNat } := by
    by_cases complete : pairing.status = .complete
    · rw [if_pos complete, resultWinner_eq (even complete),
        of_undoMatchRecordResult distinct (valid.named pairing mem), giveBack]
      simp only [won, lost, drawn, plays, stored, complete]
    · simp [won, lost, drawn, complete]
  rw [Counted, settles]
  simp only [settlePairing]
  rw [of_applyMatchRecordResult distinct named, cleared, counts won, counts lost, counts drawn]
  simp only [gain]
  change _ = _ - _ + (won player { pairing with status := .complete } (some winner)).toNat ∧
    _ = _ - _ + (lost player { pairing with status := .complete } (some winner)).toNat ∧
    _ = _ - _ + (drawn player { pairing with status := .complete } (some winner)).toNat ∧
    _ = _ - _ + (won player { pairing with status := .complete } (some winner)).toNat + _ ∧
    _ = _ - _ + (lost player { pairing with status := .complete } (some winner)).toNat
  refine ⟨by rw [wins], by rw [losses], by rw [draws], ?_, by rw [matchLosses]⟩
  simp only at matchWins
  omega

theorem report_valid (valid : Valid session reports byes) (undoable : Undoable session matchId)
    (ok : applyReportMatchResult session matchId winnerSeat = .ok (next, deltas)) :
    Valid next ((matchId, winnerSeat.map (seatPlayerId session)) :: reports) byes := by
  obtain ⟨index, pairing, isIndex, isPairing, named, settles, seats⟩ :=
    applyReportMatchResult_ok ok
  have isMatch : pairing.matchId = matchId := by
    obtain ⟨bound, found, -⟩ := findIdx?_eq_some_iff_getElem.mp isIndex
    obtain ⟨-, rfl⟩ := List.getElem?_eq_some_iff.mp isPairing
    simpa using found
  have pairings : next.event.pairings = session.event.pairings.set index
      { pairing with status := .complete, winner := winnerSeat.map (seatPlayerId session) } := by
    rw [settles]
    rfl
  have slots : (next.event.pairings.map fun q => (q.round, q.players)) =
      session.event.pairings.map fun q => (q.round, q.players) := by
    rw [pairings]
    exact map_set_settled isPairing _ rfl
  have ids : next.event.pairings.map (·.matchId) = session.event.pairings.map (·.matchId) := by
    rw [pairings]
    exact map_set_settled isPairing _ rfl
  have member : ∀ i q, next.event.pairings[i]? = some q → (i = index ∧ q = { pairing with
        status := .complete, winner := winnerSeat.map (seatPlayerId session) }) ∨
      (i ≠ index ∧ session.event.pairings[i]? = some q) := by
    intro i q found
    rw [pairings, getElem?_set] at found
    split at found
    · next same =>
      split at found
      · cases found
        exact .inl ⟨same.symm, rfl⟩
      · cases found
    · next other => exact .inr ⟨fun same => other same.symm, found⟩
  have mem := mem_of_getElem? isPairing
  refine ⟨playerIds_congr seats ▸ valid.distinct, fun q memQ => ?_, fun round => ?_,
    fun q memQ => ?_, fun i q found complete => ?_, fun q memQ complete => ?_, fun player => ?_⟩
  · obtain ⟨i, found⟩ := mem_iff_getElem?.mp memQ
    rw [settles]
    rcases member i q found with ⟨-, rfl⟩ | ⟨-, old⟩
    · exact valid.rounds pairing mem
    · exact valid.rounds q (mem_of_getElem? old)
  · rw [roundPairingsOf_players, slots, ← roundPairingsOf_players]
    exact valid.apart round
  · obtain ⟨i, found⟩ := mem_iff_getElem?.mp memQ
    rcases member i q found with ⟨-, rfl⟩ | ⟨-, old⟩
    · exact named
    · exact valid.named q (mem_of_getElem? old)
  · rw [findIdx?_matchId, ids, ← findIdx?_matchId]
    rcases member i q found with ⟨rfl, rfl⟩ | ⟨-, old⟩
    · simpa [isMatch] using isIndex
    · exact valid.first i q old complete
  · obtain ⟨i, found⟩ := mem_iff_getElem?.mp memQ
    rcases member i q found with ⟨-, rfl⟩ | ⟨other, old⟩
    · simp [lastResult, isMatch, stored]
    · have differ : matchId ≠ q.matchId := by
        rintro rfl
        exact other (Option.some.inj ((valid.first i q old complete).symm.trans isIndex))
      have latest := valid.latest q (mem_of_getElem? old) complete
      simpa [lastResult, differ] using latest
  · exact settlePairing_counted valid isPairing (undoable index pairing isIndex isPairing) named
      settles player

end

theorem of_creditBye (records : MatchRecords) (bye : Option Nat) (player : Nat) :
    (creditBye records bye).of player =
      { records.of player with
        matchWins := (records.of player).matchWins + bye.toList.count player } := by
  cases bye with
  | none => simp [creditBye]
  | some bye =>
    rw [creditBye, of_ensure]
    split
    · next same =>
      subst same
      simp [addBye]
    · next other => simp [Ne.symm other]

variable {shuffle : Nat → BracketShuffle}

theorem applyGeneratePairings_ok (ok : applyGeneratePairings session shuffle = .ok (next, deltas)) :
    next.seats = session.seats ∧ next.event = { session.event with
      pairings := session.event.pairings ++ (roundPairings session shuffle).1
      matchRecords := creditBye session.event.matchRecords (roundPairings session shuffle).2
      currentRound := nextPairingRound session } := by
  simp only [applyGeneratePairings, ite_error_eq_ok] at ok
  obtain ⟨-, -, -, ok⟩ := ok
  cases ok
  exact ⟨rfl, rfl⟩

theorem generate_valid {reports : Reports} {byes : List Nat} (shuffles : Shuffles shuffle)
    (valid : Valid session reports byes)
    (ok : applyGeneratePairings session shuffle = .ok (next, deltas)) :
    Valid next reports ((roundPairings session shuffle).2.toList ++ byes) := by
  obtain ⟨seats, event⟩ := applyGeneratePairings_ok ok
  obtain ⟨pairs, isNew, nodup⟩ :=
    roundPairings_spec shuffles valid.distinct valid.named valid.apart
  rw [isNew] at event
  have fresh (q : DraftPairing) (mem : q ∈ newPairings (nextPairingRound session) pairs) :=
    newPairings_mem _ _ mem
  have incomplete (q : DraftPairing) (mem : q ∈ newPairings (nextPairingRound session) pairs) :
      q.status ≠ .complete := by
    rw [(fresh q mem).2.1]
    nofun
  refine ⟨playerIds_congr seats ▸ valid.distinct, fun q mem => ?_, fun round => ?_,
    fun q mem w isWinner => ?_, fun i q found complete => ?_, fun q mem complete => ?_,
    fun player => ?_⟩
  · rw [event] at mem ⊢
    rcases mem_append.mp mem with old | new
    · exact Nat.le_succ_of_le (valid.rounds q old)
    · exact Nat.le_of_eq (fresh q new).1
  · rw [event, roundPairingsOf, filter_append, map_append]
    by_cases here : round = nextPairingRound session
    · have none_ : session.event.pairings.filter (fun q => q.round = round) = [] := by
        refine filter_eq_nil_iff.mpr fun q mem => ?_
        have := valid.rounds q mem
        simp only [decide_eq_true_eq, here, nextPairingRound]
        omega
      have all : (newPairings (nextPairingRound session) pairs).filter (fun q => q.round = round) =
          newPairings (nextPairingRound session) pairs :=
        filter_eq_self.mpr fun q mem => by simp [(fresh q mem).1, here]
      rw [none_, all, newPairings_players]
      exact nodup
    · have none_ : (newPairings (nextPairingRound session) pairs).filter
          (fun q => q.round = round) = [] :=
        filter_eq_nil_iff.mpr fun q mem => by simp [(fresh q mem).1, Ne.symm here]
      rw [none_, map_nil, append_nil]
      exact valid.apart round
  · rw [event] at mem
    rcases mem_append.mp mem with old | new
    · exact valid.named q old w isWinner
    · rw [(fresh q new).2.2] at isWinner
      cases isWinner
  · rw [event] at found ⊢
    rw [getElem?_append] at found
    rw [findIdx?_append]
    split at found
    · rw [valid.first i q found complete]
      rfl
    · exact absurd complete (incomplete q (mem_of_getElem? found))
  · rw [event] at mem
    rcases mem_append.mp mem with old | new
    · exact valid.latest q old complete
    · exact absurd complete (incomplete q new)
  · have quiet (kind : Nat → DraftPairing → Option (Option Nat) → Bool)
        (onlyComplete : ∀ q result, kind player q result = true → q.status = .complete) :=
      @tally_append_of_pending kind player session.event.pairings
        (newPairings (nextPairingRound session) pairs) fun q mem =>
          Bool.eq_false_iff.mpr fun counts => incomplete q mem (onlyComplete q _ counts)
    obtain ⟨wins, losses, draws, matchWins, matchLosses⟩ := valid.counted player
    rw [Counted, event]
    simp only [of_creditBye, quiet won won_complete, quiet lost lost_complete,
      quiet drawn drawn_complete, count_append]
    refine ⟨wins, losses, draws, ?_, matchLosses⟩
    simp only at matchWins
    omega

/-- Accepted actions, in order. Each report is made where `allowed` lets it be made. -/
inductive EventRun (shuffle : Nat → BracketShuffle) (allowed : DraftSession → String → Prop)
    (start : DraftSession) : Reports → List Nat → DraftSession → Prop
  | start : EventRun shuffle allowed start [] [] start
  | generate {reports : Reports} {byes : List Nat} {session next : DraftSession}
      {deltas : List DraftDelta} :
      EventRun shuffle allowed start reports byes session →
      applyEvent shuffle session .generatePairings = .ok (next, deltas) →
      EventRun shuffle allowed start reports ((roundPairings session shuffle).2.toList ++ byes) next
  | report {reports : Reports} {byes : List Nat} {session next : DraftSession}
      {deltas : List DraftDelta} {matchId : String} {winnerSeat : Option Nat} :
      EventRun shuffle allowed start reports byes session → allowed session matchId →
      applyEvent shuffle session (.reportMatchResult matchId winnerSeat) = .ok (next, deltas) →
      EventRun shuffle allowed start
        ((matchId, winnerSeat.map (seatPlayerId session)) :: reports) byes next
  | advance {reports : Reports} {byes : List Nat} {session next : DraftSession}
      {deltas : List DraftDelta} :
      EventRun shuffle allowed start reports byes session →
      applyEvent shuffle session .advanceRound = .ok (next, deltas) →
      EventRun shuffle allowed start reports byes next

section
variable {shuffle : Nat → BracketShuffle} {start session : DraftSession} {reports : Reports}
  {byes : List Nat}

theorem start_valid (distinct : (playerIds start).Nodup) (noPairings : start.event.pairings = [])
    (noRecords : start.event.matchRecords = ∅) : Valid start [] [] where
  distinct := distinct
  rounds := by simp [noPairings]
  apart := by simp [noPairings, roundPairingsOf, seated]
  named := by simp [noPairings]
  first := by simp [noPairings]
  latest := by simp [noPairings]
  counted := fun player => by
    simp [Counted, noPairings, noRecords, tally, of, emptyRecord]

theorem eventRun_valid (shuffles : Shuffles shuffle) (valid : Valid start [] [])
    (run : EventRun shuffle Undoable start reports byes session) :
    Valid session reports byes := by
  induction run with
  | start => exact valid
  | generate _ ok ih => exact generate_valid shuffles ih ok
  | report _ undoable ok ih => exact report_valid ih undoable ok
  | advance _ ok ih =>
    simp only [applyEvent, applyAdvanceRound, ite_error_eq_ok] at ok
    obtain ⟨-, ok⟩ := ok
    cases ok
    exact ⟨ih.distinct, ih.rounds, ih.apart, ih.named, ih.first, ih.latest, ih.counted⟩

/-- Reporting something else and then what was there before changes no pairing. -/
theorem report_back_pairings {middle next : DraftSession} {matchId : String}
    {other back : Option Nat} {deltas deltas' : List DraftDelta}
    (first : applyReportMatchResult session matchId other = .ok (middle, deltas))
    (second : applyReportMatchResult middle matchId back = .ok (next, deltas'))
    (before : ∃ index pairing, session.event.pairings.findIdx? (fun q => q.matchId = matchId) =
        some index ∧ session.event.pairings[index]? = some pairing ∧ pairing.status = .complete ∧
        pairing.winner = back.map (seatPlayerId session)) :
    next.event.pairings = session.event.pairings := by
  obtain ⟨index, pairing, isIndex, isPairing, complete, winner⟩ := before
  obtain ⟨bound, held⟩ := List.getElem?_eq_some_iff.mp isPairing
  obtain ⟨i, q, isI, isQ, -, settles, seats⟩ := applyReportMatchResult_ok first
  cases isIndex.symm.trans isI
  cases isPairing.symm.trans isQ
  obtain ⟨j, r, isJ, isR, -, settles', -⟩ := applyReportMatchResult_ok second
  have sameSeat : seatPlayerId middle = seatPlayerId session := by
    funext seat
    rw [seatPlayerId, seatPlayerId, seats]
  have settled : middle.event.pairings = session.event.pairings.set index
      { pairing with status := .complete, winner := other.map (seatPlayerId session) } := by
    rw [settles]
    rfl
  have ids : middle.event.pairings.map (·.matchId) = session.event.pairings.map (·.matchId) := by
    rw [settled]
    exact map_set_settled isPairing _ rfl
  have sameIndex : j = index := by
    rw [findIdx?_matchId, ids, ← findIdx?_matchId, isIndex] at isJ
    exact (Option.some.inj isJ).symm
  subst sameIndex
  have isSettled : r = { pairing with
      status := .complete, winner := other.map (seatPlayerId session) } := by
    rw [settled, getElem?_set_self bound] at isR
    exact (Option.some.inj isR).symm
  have restored : { r with status := .complete, winner := back.map (seatPlayerId middle) } =
      session.event.pairings[j] := by
    rw [isSettled, sameSeat, ← winner, held, ← complete]
  rw [settles']
  simp only [settlePairing]
  rw [restored, settled, set_set, set_getElem_self]

/-- The numbers of a record. -/
def scores (record : DraftMatchRecord) : List Nat :=
  [record.wins, record.losses, record.draws, record.matchWins, record.matchLosses]

theorem scores_eq_of_counted {a b : DraftSession} {player : Nat}
    (left : Counted a byes player) (right : Counted b byes player)
    (same : a.event.pairings = b.event.pairings) :
    scores (of a.event.matchRecords player) = scores (of b.event.matchRecords player) := by
  obtain ⟨wins, losses, draws, matchWins, matchLosses⟩ := left
  obtain ⟨wins', losses', draws', matchWins', matchLosses'⟩ := right
  simp only [scores, wins, losses, draws, matchWins, matchLosses, wins', losses', draws',
    matchWins', matchLosses', same]

/-- Where no draw is taken back between players whose match wins differ, the records are the
count of the last results; a result that is corrected and corrected back leaves them as they
were. -/
theorem records_count_last_results (shuffles : Shuffles shuffle)
    (distinct : (playerIds start).Nodup) (noPairings : start.event.pairings = [])
    (noRecords : start.event.matchRecords = ∅)
    (run : EventRun shuffle Undoable start reports byes session) :
    Exact session reports byes ∧
    ∀ middle next matchId other back deltas deltas',
      Undoable session matchId → Undoable middle matchId →
      applyReportMatchResult session matchId other = .ok (middle, deltas) →
      applyReportMatchResult middle matchId back = .ok (next, deltas') →
      (∃ index pairing, session.event.pairings.findIdx? (fun q => q.matchId = matchId) =
        some index ∧ session.event.pairings[index]? = some pairing ∧ pairing.status = .complete ∧
        pairing.winner = back.map (seatPlayerId session)) →
      ∀ player, scores (of next.event.matchRecords player) =
        scores (of session.event.matchRecords player) := by
  have valid := eventRun_valid shuffles (start_valid distinct noPairings noRecords) run
  refine ⟨valid.exact, ?_⟩
  intro middle next matchId other back deltas deltas' undoable undoable' first second before player
  have later := report_valid (report_valid valid undoable first) undoable' second
  exact scores_eq_of_counted (later.counted player) (valid.counted player)
    (report_back_pairings first second before)

end

def swissConfig : DraftConfig where
  flow := .legacyBarrier
  source := .cube "cube" "Cube"
  setCode := "cube"
  kind := .premier
  podSize := 2
  cardsPerPack := 15
  packCount := 3
  minDeckSize := 40
  tournamentFormat := .swiss

/-- Two players who have built their decks. -/
def twoPlayers : DraftSession :=
  { DraftSession.new swissConfig [.human 0 "First", .human 1 "Second"] with
    status := .deckbuilding }

def unshuffled : Nat → BracketShuffle := fun _ _ bracket => bracket

def afterEvents (session : DraftSession) (actions : List EventAction) : DraftSession :=
  actions.foldl (fun session action =>
    match applyEvent unshuffled session action with
    | .ok (next, _) => next
    | .error _ => session) session

/-- The first player wins the first round; the second round is reported drawn, and then won by
the second player. The draw is taken back as if the first player had won it. -/
theorem corrected_draw_miscounts :
    ∃ reports byes session, EventRun unshuffled (fun _ _ => True) twoPlayers reports byes session ∧
      Shuffles unshuffled ∧ (playerIds twoPlayers).Nodup ∧ twoPlayers.event.pairings = [] ∧
      twoPlayers.event.matchRecords = ∅ ∧ ¬Exact session reports byes := by
  have one : applyEvent unshuffled twoPlayers .generatePairings =
      .ok (afterEvents twoPlayers [.generatePairings],
        [.pairingsGenerated 1, .transitionedTo .matchInProgress]) := by decide +kernel
  have two : applyEvent unshuffled (afterEvents twoPlayers [.generatePairings])
      (.reportMatchResult "r1-t0" (some 0)) =
      .ok (afterEvents twoPlayers [.generatePairings, .reportMatchResult "r1-t0" (some 0)],
        [.matchResultRecorded "r1-t0" (some 0), .transitionedTo .roundComplete]) := by
    decide +kernel
  have three : applyEvent unshuffled
      (afterEvents twoPlayers [.generatePairings, .reportMatchResult "r1-t0" (some 0)])
      .generatePairings =
      .ok (afterEvents twoPlayers
        [.generatePairings, .reportMatchResult "r1-t0" (some 0), .generatePairings],
        [.pairingsGenerated 2, .transitionedTo .matchInProgress]) := by decide +kernel
  have four : applyEvent unshuffled (afterEvents twoPlayers
      [.generatePairings, .reportMatchResult "r1-t0" (some 0), .generatePairings])
      (.reportMatchResult "r2-t0" none) =
      .ok (afterEvents twoPlayers [.generatePairings, .reportMatchResult "r1-t0" (some 0),
        .generatePairings, .reportMatchResult "r2-t0" none],
        [.matchResultRecorded "r2-t0" none, .transitionedTo .roundComplete]) := by decide +kernel
  have five : applyEvent unshuffled (afterEvents twoPlayers [.generatePairings,
      .reportMatchResult "r1-t0" (some 0), .generatePairings, .reportMatchResult "r2-t0" none])
      (.reportMatchResult "r2-t0" (some 1)) =
      .ok (afterEvents twoPlayers [.generatePairings, .reportMatchResult "r1-t0" (some 0),
        .generatePairings, .reportMatchResult "r2-t0" none, .reportMatchResult "r2-t0" (some 1)],
        [.matchResultRecorded "r2-t0" (some 1), .transitionedTo .roundComplete]) := by
    decide +kernel
  have first : EventRun unshuffled (fun _ _ => True) twoPlayers [] [] _ := .generate .start one
  have run := (((first.report trivial two).generate three).report trivial four).report trivial five
  refine ⟨_, _, _, run, fun _ _ _ => .refl _, by decide +kernel, rfl, rfl, fun exact_ => ?_⟩
  have wins := (exact_ 0).1
  revert wins
  decide +kernel

/-- A draw is corrected while both players have won as often. -/
theorem level_draw_is_corrected :
    Exact (afterEvents twoPlayers [.generatePairings, .reportMatchResult "r1-t0" none,
      .reportMatchResult "r1-t0" (some 0)]) [("r1-t0", some 0), ("r1-t0", none)] [] := by
  have one : applyEvent unshuffled twoPlayers .generatePairings =
      .ok (afterEvents twoPlayers [.generatePairings],
        [.pairingsGenerated 1, .transitionedTo .matchInProgress]) := by decide +kernel
  have two : applyEvent unshuffled (afterEvents twoPlayers [.generatePairings])
      (.reportMatchResult "r1-t0" none) =
      .ok (afterEvents twoPlayers [.generatePairings, .reportMatchResult "r1-t0" none],
        [.matchResultRecorded "r1-t0" none, .transitionedTo .roundComplete]) := by decide +kernel
  have three : applyEvent unshuffled
      (afterEvents twoPlayers [.generatePairings, .reportMatchResult "r1-t0" none])
      (.reportMatchResult "r1-t0" (some 0)) =
      .ok (afterEvents twoPlayers [.generatePairings, .reportMatchResult "r1-t0" none,
        .reportMatchResult "r1-t0" (some 0)],
        [.matchResultRecorded "r1-t0" (some 0), .transitionedTo .roundComplete]) := by
    decide +kernel
  have first : EventRun unshuffled Undoable twoPlayers [] [] _ := .generate .start one
  have run := (first.report (by decide +kernel) two).report (by decide +kernel) three
  exact (records_count_last_results (fun _ _ _ => .refl _) (by decide +kernel) rfl rfl run).1

end Phase.Draft.Event
