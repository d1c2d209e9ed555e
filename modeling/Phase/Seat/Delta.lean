import Phase.Seat.Room

/-! What a delta tells those who follow a room without seeing its state. -/
namespace Phase.Seat
open Editing List UInt8 SeatDelta

variable {Data Deck : Type}

namespace SeatDelta

/-- The new number of a seat; seats that are not renumbered keep theirs. -/
def moved (delta : SeatDelta Deck) (old : UInt8) : UInt8 :=
  ((delta.renumbering.bind fun renumbering =>
    renumbering.remapping.find? (·.1 = old)).map Prod.snd).getD old

/-- Old seat `old` is neither removed nor given to someone else. -/
def survives (delta : SeatDelta Deck) (old : UInt8) : Bool :=
  match delta.renumbering with
  | some renumbering => old ≠ renumbering.removedIndex
  | none => old ∉ delta.mutatedSeats

/-- The seat is removed, or listed with a new number. -/
def renumbers (delta : SeatDelta Deck) (old : UInt8) : Bool :=
  delta.renumbering.any fun renumbering =>
    old = renumbering.removedIndex || renumbering.remapping.any (·.1 = old)

/-- What a follower makes of the AI seats it knew. -/
def track (delta : SeatDelta Deck) (tracked : List (UInt8 × AiDifficulty)) :
    List (UInt8 × AiDifficulty) :=
  ((tracked.filter (·.1 ∉ delta.removedAi)).map fun seat => (delta.moved seat.1, seat.2)) ++
    delta.newAi.map fun (seat, difficulty, _) => (seat, difficulty)

end SeatDelta

/-- An AI of this difficulty sits in the seat. -/
def HasAi (s : SeatState Data) (seat : UInt8) (difficulty : AiDifficulty) : Prop :=
  ∃ deck, s.seats[seat.toNat]? = some (.ai difficulty deck)

/-- The list has exactly the AI seats of the room. -/
def Tracks (tracked : List (UInt8 × AiDifficulty)) (s : SeatState Data) : Prop :=
  ∀ seat difficulty, (seat, difficulty) ∈ tracked ↔ HasAi s seat difficulty

/-- Some player has joined with this token. -/
def Joined (s : SeatState Data) (token : String) : Prop :=
  ∃ i : Nat, s.seats[i]? = some .joinedHuman ∧ s.tokens[i]? = some token

/-- A room in order whose seats are numbered by a byte; a player who has joined has a token that
nobody else has. -/
structure Valid (s : SeatState Data) : Prop extends Room s where
  bytes : s.seats.length ≤ 255
  named : ¬Joined s ""
  own : ∀ (i j : Nat) (token : String), s.seats[i]? = some .joinedHuman →
    s.tokens[i]? = some token → s.tokens[j]? = some token → i = j

/-- What is left alone at `i` is at `j` afterwards. -/
def SameSeat (s t : SeatState Data) (i j : Nat) : Prop :=
  t.seats[j]? = s.seats[i]? ∧ t.tokens[j]? = s.tokens[i]?

section
variable {s t : SeatState Data} {ctx : ReducerCtx Data Deck} {i old seat : UInt8}
  {decks : List (UInt8 × AiDifficulty × Deck)} {current kind : SeatKind Data}
  {difficulty : AiDifficulty} {token : String}

theorem sameSeat_reseat {i j : Nat} (apart : i ≠ j) (kind : SeatKind Data) :
    SameSeat s (s.reseat i kind) j j :=
  ⟨getElem?_set_ne apart, getElem?_set_ne apart⟩

theorem mem_aiSeat :
    seat ∈ aiSeat i current ↔ seat = i ∧ ∃ difficulty deck, current = .ai difficulty deck := by
  cases current <;> simp [aiSeat]

theorem Brings.mem (brings : Brings ctx i kind decks) :
    (seat, difficulty) ∈ decks.map (fun (seat, difficulty, _) => (seat, difficulty)) ↔
      seat = i ∧ ∃ deck, kind = .ai difficulty deck := by
  cases kind with
  | ai level deck =>
    obtain ⟨resolved, -, rfl⟩ := brings
    simp [eq_comm]
  | hostHuman | joinedHuman | waitingHuman =>
    obtain rfl := brings
    simp

theorem hasAi_reseat (bound : i.toNat < s.seats.length) :
    HasAi (s.reseat i.toNat kind) seat difficulty ↔
      if seat = i then ∃ deck, kind = .ai difficulty deck else HasAi s seat difficulty := by
  split
  · next same =>
    subst same
    simp [HasAi, SeatState.reseat, bound]
  · next apart =>
    have numbers : i.toNat ≠ seat.toNat := fun same => apart (UInt8.toNat_inj.mp same).symm
    rw [HasAi, (sameSeat_reseat numbers kind).1]
    rfl

theorem mem_bytes {first count : Nat} (bytes : first + count ≤ 256) :
    seat ∈ (range' first count).map ofNat ↔
      first ≤ seat.toNat ∧ seat.toNat < first + count := by
  rw [mem_map]
  constructor
  · rintro ⟨n, inside, rfl⟩
    obtain ⟨above, below⟩ := mem_range'_1.mp inside
    rw [toNat_ofNat_of_lt' (Nat.lt_of_lt_of_le below bytes)]
    exact ⟨above, below⟩
  · intro inside
    exact ⟨seat.toNat, mem_range'_1.mpr inside, UInt8.ofNat_toNat⟩

theorem mem_range {first last : UInt8} :
    seat ∈ range first last ↔ first.toNat ≤ seat.toNat ∧ seat.toNat < last.toNat := by
  have low := first.toNat_lt
  have high := last.toNat_lt
  rw [range, mem_bytes (by omega)]
  omega

theorem mem_rangeInclusive {first last : UInt8} :
    seat ∈ rangeInclusive first last ↔ first.toNat ≤ seat.toNat ∧ seat.toNat ≤ last.toNat := by
  have low := first.toNat_lt
  have high := last.toNat_lt
  rw [rangeInclusive, mem_bytes (by omega)]
  omega

/-- What is listed is renumbered as it is listed. -/
theorem find?_remapping (numbers : List UInt8) (f : UInt8 → UInt8) :
    ((numbers.map fun old => (old, f old)).find? (·.1 = old)).map Prod.snd =
      if old ∈ numbers then some (f old) else none := by
  induction numbers with
  | nil => rfl
  | cons number numbers ih =>
    rw [map_cons, find?_cons]
    by_cases same : number = old
    · simp [same]
    · simp only [same, decide_false, ih, mem_cons, Ne.symm same, false_or]

section
variable (bound : i.toNat < s.seats.length) (bytes : s.seats.length ≤ 255)
include bound bytes

theorem next_toNat : (i + 1).toNat = i.toNat + 1 := by
  rw [UInt8.toNat_add, UInt8.toNat_one]
  omega

theorem last_toNat : (ofNat (s.without i.toNat).seats.length).toNat = s.seats.length - 1 := by
  rw [SeatState.without, length_eraseIdx_of_lt bound, toNat_ofNat_of_lt' ?_]
  exact Nat.lt_of_le_of_lt (Nat.sub_le ..) (Nat.lt_succ_of_le bytes)

/-- The seats behind a removed one move down by one. -/
theorem moved_removal (there : old.toNat < s.seats.length) (apart : old ≠ i) :
    ((removal s i current : SeatDelta Deck).moved old).toNat =
      if old.toNat < i.toNat then old.toNat else old.toNat - 1 := by
  have numbers : old.toNat ≠ i.toNat := fun same => apart (UInt8.toNat_inj.mp same)
  rw [moved, removal]
  simp only [Option.bind_some, find?_remapping, mem_rangeInclusive, next_toNat bound bytes,
    last_toNat bound bytes]
  split
  · next behind =>
    rw [if_neg (by omega), Option.getD_some, UInt8.toNat_sub_of_le]
    · rfl
    · rw [le_iff_toNat_le, toNat_one]
      omega
  · next before => rw [if_pos (by omega), Option.getD_none]

end

theorem sameSeat_without {i j : Nat} (apart : j ≠ i) :
    SameSeat s (s.without i) j (if j < i then j else j - 1) := by
  constructor
  all_goals
    simp only [SeatState.without, getElem?_eraseIdx]
    by_cases before : j < i
    · rw [if_pos before, if_pos before]
    · rw [if_neg before, if_neg (by omega), Nat.sub_add_cancel (by omega)]

/-- What the delta of an edit tells about it. -/
structure Describes (s : SeatState Data) (delta : SeatDelta Deck) (t : SeatState Data) : Prop where
  survivors : ∀ old : UInt8, old.toNat < s.seats.length → delta.survives old = true →
    SameSeat s t old.toNat (delta.moved old).toNat
  elsewhere : ∀ seat : UInt8, seat.toNat < s.seats.length → seat ∉ delta.mutatedSeats →
    SameSeat s t seat.toNat seat.toNat ∨
      t.seats.length ≤ seat.toNat ∧ delta.renumbers seat = true
  invalidated : ∀ token, token ∈ delta.invalidatedTokens ↔ Joined s token ∧ token ∉ t.tokens
  ai : ∀ tracked, Tracks tracked s → Tracks (delta.track tracked) t

theorem describes_same (seats : t.seats = s.seats) (tokens : t.tokens = s.tokens)
    (nowStarted : Bool) : Describes s { (empty : SeatDelta Deck) with nowStarted } t := by
  have same (i : Nat) : SameSeat s t i i := by simp [SameSeat, seats, tokens]
  refine ⟨fun old _ _ => same _, fun seat _ _ => .inl (same _), fun token => ?_,
    fun tracked tracks => ?_⟩
  · rw [tokens]
    exact ⟨(nofun), fun ⟨⟨i, _, at_⟩, gone⟩ => absurd (mem_of_getElem? at_) gone⟩
  · intro seat difficulty
    have known := tracks seat difficulty
    rw [HasAi] at known ⊢
    rw [seats]
    simpa [track, moved, empty] using known

/-- The token of a player who has joined is gone once the seat is emptied. -/
theorem Valid.mem_playerToken (valid : Valid s) (found : s.seats[i.toNat]? = some current) :
    token ∈ playerToken s i current ↔ Joined s token ∧ token ∉ s.tokens.set i.toNat "" := by
  have kept {j : Nat} (apart : j ≠ i.toNat) (at_ : s.tokens[j]? = some token) :
      token ∈ s.tokens.set i.toNat "" :=
    mem_of_getElem? ((getElem?_set_ne apart.symm).trans at_)
  by_cases joined : current = .joinedHuman
  · subst joined
    rw [playerToken, Option.mem_toList]
    constructor
    · intro at_
      refine ⟨⟨i.toNat, found, at_⟩, fun still => ?_⟩
      obtain ⟨j, at_j⟩ := mem_iff_getElem?.mp still
      by_cases same : i.toNat = j
      · subst same
        have blank : token = "" := by
          rw [List.getElem?_set_self (List.getElem?_eq_some_iff.mp at_).1] at at_j
          exact (Option.some.inj at_j).symm
        exact valid.named (blank ▸ ⟨i.toNat, found, at_⟩)
      · rw [getElem?_set_ne same] at at_j
        exact same (valid.own i.toNat j token found at_ at_j)
    · rintro ⟨⟨j, there, at_⟩, gone⟩
      by_cases same : j = i.toNat
      · exact same ▸ at_
      · exact absurd (kept same at_) gone
  · have none_ : playerToken s i current = [] := by
      cases current <;> first | rfl | exact absurd rfl joined
    rw [none_]
    refine ⟨fun at_ => (by cases at_), fun joined => ?_⟩
    obtain ⟨⟨j, there, at_⟩, gone⟩ := joined
    refine absurd (kept (fun same => ?_) at_) gone
    subst same
    exact joined (Option.some.inj (found.symm.trans there))

theorem describes_reseat (valid : Valid s) (found : s.seats[i.toNat]? = some current)
    (brings : Brings ctx i kind decks) :
    Describes s { (empty : SeatDelta Deck) with
      mutatedSeats := [i]
      invalidatedTokens := playerToken s i current
      removedAi := aiSeat i current
      newAi := decks } (s.reseat i.toNat kind) := by
  have bound := (List.getElem?_eq_some_iff.mp found).1
  have other (seat : UInt8) (apart : seat ∉ [i]) :
      SameSeat s (s.reseat i.toNat kind) seat.toNat seat.toNat :=
    sameSeat_reseat (fun same => apart (by simp [UInt8.toNat_inj.mp same])) kind
  refine ⟨fun old _ apart => other old (of_decide_eq_true apart),
    fun seat _ apart => .inl (other seat apart), fun token => valid.mem_playerToken found, fun tracked tracks seat difficulty => ?_⟩
  rw [hasAi_reseat bound]
  have inAi : HasAi s i difficulty → i ∈ aiSeat i current := fun ⟨deck, there⟩ =>
    mem_aiSeat.mpr ⟨rfl, difficulty, deck, Option.some.inj (found.symm.trans there)⟩
  have left : (seat, difficulty) ∈ (tracked.filter (·.1 ∉ aiSeat i current)).map
      (fun entry => (entry.1, entry.2)) ↔ HasAi s seat difficulty ∧ seat ∉ aiSeat i current := by
    simp [← tracks seat difficulty]
  refine (mem_append.trans (or_congr left brings.mem)).trans ?_
  split
  · next same =>
    subst same
    exact ⟨fun known => known.elim (fun ⟨ai, out⟩ => absurd (inAi ai) out) (·.2),
      fun brought => .inr ⟨rfl, brought⟩⟩
  · next apart =>
    refine ⟨fun known => known.elim (·.1) fun brought => absurd brought.1 apart,
      fun ai => .inl ⟨ai, fun inside => apart (mem_aiSeat.mp inside).1⟩⟩

/-- Every seat of the smaller room comes from one that survives. -/
theorem exists_survivor (bound : i.toNat < s.seats.length) (bytes : s.seats.length ≤ 255)
    (there : seat.toNat < (s.without i.toNat).seats.length) :
    ∃ old : UInt8, old.toNat < s.seats.length ∧ old ≠ i ∧
      (removal s i current : SeatDelta Deck).moved old = seat := by
  have fewer : (s.without i.toNat).seats.length = s.seats.length - 1 :=
    length_eraseIdx_of_lt bound
  by_cases before : seat.toNat < i.toNat
  · have apart : seat ≠ i := fun same => by simp [same] at before
    refine ⟨seat, by omega, apart, UInt8.toNat_inj.mp ?_⟩
    rw [moved_removal bound bytes (by omega) apart, if_pos before]
  · have next : (seat + 1).toNat = seat.toNat + 1 := by
      rw [UInt8.toNat_add, UInt8.toNat_one]
      omega
    have apart : seat + 1 ≠ i := fun same => by
      have numbers := congrArg toNat same
      omega
    refine ⟨seat + 1, by omega, apart, UInt8.toNat_inj.mp ?_⟩
    rw [moved_removal bound bytes (by omega) apart, if_neg (by omega), next, Nat.add_sub_cancel]

theorem describes_without (valid : Valid s) (found : s.seats[i.toNat]? = some current)
    (free : current.isOpen = true) :
    Describes s (removal s i current : SeatDelta Deck) (s.without i.toNat) := by
  have bound := (List.getElem?_eq_some_iff.mp found).1
  have fewer : (s.without i.toNat).seats.length = s.seats.length - 1 :=
    length_eraseIdx_of_lt bound
  have survivor (old : UInt8) (there : old.toNat < s.seats.length) (apart : old ≠ i) :
      SameSeat s (s.without i.toNat) old.toNat
        ((removal s i current : SeatDelta Deck).moved old).toNat := by
    rw [moved_removal bound valid.bytes there apart]
    exact sameSeat_without fun same => apart (UInt8.toNat_inj.mp same)
  refine ⟨fun old there apart => survivor old there (of_decide_eq_true apart),
    fun seat there out => ?_, fun token => ?_, fun tracked tracks seat difficulty => ?_⟩
  · simp only [removal, mem_range, not_and, Nat.not_lt, last_toNat bound valid.bytes] at out
    by_cases before : seat.toNat < i.toNat
    · have same := sameSeat_without (s := s) (i := i.toNat) (Nat.ne_of_lt before)
      rw [if_pos before] at same
      exact .inl same
    · refine .inr ⟨by omega, ?_⟩
      by_cases removed : seat = i
      · simp [renumbers, removal, removed]
      · have numbers : seat.toNat ≠ i.toNat := fun same => removed (UInt8.toNat_inj.mp same)
        have listed : seat ∈ rangeInclusive (i + 1) (ofNat (s.without i.toNat).seats.length) := by
          rw [mem_rangeInclusive, next_toNat bound valid.bytes, last_toNat bound valid.bytes]
          omega
        simp [renumbers, removal, listed]
  · refine ⟨(nofun), fun ⟨⟨j, there, at_⟩, gone⟩ => absurd ?_ gone⟩
    have apart : j ≠ i.toNat := fun same => by
      subst same
      cases found.symm.trans there
      cases free
    exact mem_of_getElem? ((sameSeat_without apart).2.trans at_)
  · have member : (seat, difficulty) ∈ (removal s i current : SeatDelta Deck).track tracked ↔
        ∃ old, HasAi s old difficulty ∧ old ∉ aiSeat i current ∧
          (removal s i current : SeatDelta Deck).moved old = seat := by
      simp only [track, mem_append, mem_map, mem_filter, decide_eq_true_eq, ← tracks _ difficulty]
      constructor
      · rintro (⟨⟨old, level⟩, ⟨known, out⟩, same⟩ | ⟨_, brought, -⟩)
        · cases same
          exact ⟨old, known, out, rfl⟩
        · cases brought
      · rintro ⟨old, known, out, rfl⟩
        exact .inl ⟨(old, difficulty), ⟨known, out⟩, rfl⟩
    rw [member]
    constructor
    · rintro ⟨old, ⟨deck, ai⟩, out, rfl⟩
      have apart : old ≠ i := fun same => by
        subst same
        exact out (mem_aiSeat.mpr ⟨rfl, difficulty, deck, Option.some.inj (found.symm.trans ai)⟩)
      exact ⟨deck, (survivor old (List.getElem?_eq_some_iff.mp ai).1 apart).1.trans ai⟩
    · rintro ⟨deck, ai⟩
      obtain ⟨old, there, apart, rfl⟩ : ∃ old : UInt8, old.toNat < s.seats.length ∧ old ≠ i ∧
          (removal s i current : SeatDelta Deck).moved old = seat :=
        exists_survivor bound valid.bytes (List.getElem?_eq_some_iff.mp ai).1
      exact ⟨old, ⟨deck, (survivor old there apart).1.symm.trans ai⟩,
        fun inside => apart (mem_aiSeat.mp inside).1, rfl⟩

theorem Valid.reseat (valid : Valid s) (guest : 0 < i.toNat) (bound : i.toNat < s.seats.length)
    (opened : kind.isOpen = true) : Valid (s.reseat i.toNat kind) := by
  have elsewhere {j : Nat} (there : (s.reseat i.toNat kind).seats[j]? = some .joinedHuman) :
      i.toNat ≠ j := fun same => by
    subst same
    rw [SeatState.reseat, getElem?_set_self bound] at there
    cases there
    cases opened
  refine { valid.toRoom.reseat guest bound opened with bytes := ?_, named := ?_, own := ?_ }
  · simpa [SeatState.reseat] using valid.bytes
  · rintro ⟨j, there, at_⟩
    have same := sameSeat_reseat (s := s) (elsewhere there) kind
    exact valid.named ⟨j, same.1.symm.trans there, same.2.symm.trans at_⟩
  · intro a b token there at_a at_b
    have same := sameSeat_reseat (s := s) (elsewhere there) kind
    have joined := same.1.symm.trans there
    by_cases at_i : i.toNat = b
    · subst at_i
      have blank : "" = token := by
        rw [SeatState.reseat, getElem?_set_self (valid.length ▸ bound)] at at_b
        exact Option.some.inj at_b
      exact absurd ⟨a, joined, same.2.symm.trans (blank ▸ at_a)⟩ valid.named
    · exact valid.own a b token joined (same.2.symm.trans at_a)
        ((sameSeat_reseat (s := s) at_i kind).2.symm.trans at_b)

theorem Valid.without (valid : Valid s) (guest : 0 < i.toNat) (bound : i.toNat < s.seats.length)
    (spare : s.format.minPlayers.toNat < s.seats.length) : Valid (s.without i.toNat) := by
  have source (j : Nat) : SameSeat s (s.without i.toNat) (if j < i.toNat then j else j + 1) j := by
    simp only [SameSeat, SeatState.without, getElem?_eraseIdx]
    split <;> exact ⟨rfl, rfl⟩
  refine { valid.toRoom.without guest bound spare with bytes := ?_, named := ?_, own := ?_ }
  · exact Nat.le_trans (by simp [SeatState.without, length_eraseIdx_le]) valid.bytes
  · rintro ⟨j, there, at_⟩
    exact valid.named ⟨_, (source j).1.symm.trans there, (source j).2.symm.trans at_⟩
  · intro a b token there at_a at_b
    have same := valid.own _ _ token ((source a).1.symm.trans there) ((source a).2.symm.trans at_a)
      ((source b).2.symm.trans at_b)
    split at same <;> split at same <;> omega

variable {mutation : SeatMutation Data} {delta : SeatDelta Deck}

theorem Edit.valid (edit : Edit ctx s mutation delta t) (valid : Valid s) : Valid t := by
  cases edit with
  | start full =>
    exact { valid.toRoom.begun with
      bytes := valid.bytes
      named := valid.named
      own := valid.own }
  | keep => exact valid
  | replace expectedKind guest found apart opened brings =>
    exact valid.reseat guest (List.getElem?_eq_some_iff.mp found).1 opened
  | remove guest found free spare =>
    exact valid.without guest (List.getElem?_eq_some_iff.mp found).1 spare

theorem Edit.describes (edit : Edit ctx s mutation delta t) (valid : Valid s) :
    Describes s delta t := by
  cases edit with
  | start full => exact describes_same (s := s) (t := s.begun) rfl rfl true
  | keep => exact describes_same rfl rfl false
  | replace expectedKind guest found apart opened brings =>
    exact describes_reseat valid found brings
  | remove guest found free spare => exact describes_without valid found free

variable [DecidableEq Data]

theorem edit_of_ok (valid : Valid s) (done : (apply mutation ctx).run s = .ok delta t) :
    Edit ctx s mutation delta t := by
  cases started : s.gameStarted with
  | true => cases (apply_started started mutation).symm.trans done
  | false => exact (apply_ends started valid.length mutation).ok done

/-- Someone who follows a room from the deltas alone: of a mutation that fails there is none. -/
def follow (s : SeatState Data) (tracked : List (UInt8 × AiDifficulty)) :
    List (Request Data Deck) → SeatState Data × List (UInt8 × AiDifficulty)
  | [] => (s, tracked)
  | (mutation, ctx) :: requests =>
    match (apply mutation ctx).run s with
    | .ok delta t => follow t (delta.track tracked) requests
    | .error _ t => follow t tracked requests

/-- Through any run of requests a follower knows exactly the AI seats. -/
theorem follow_tracks (valid : Valid s) {tracked : List (UInt8 × AiDifficulty)}
    (tracks : Tracks tracked s) (requests : List (Request Data Deck)) :
    Valid (follow s tracked requests).1 ∧
      Tracks (follow s tracked requests).2 (follow s tracked requests).1 := by
  induction requests generalizing s tracked with
  | nil => exact ⟨valid, tracks⟩
  | cons request requests ih =>
    obtain ⟨mutation, ctx⟩ := request
    rw [follow]
    cases ran : (apply mutation ctx).run s with
    | ok delta t =>
      have edit := edit_of_ok valid ran
      exact ih (edit.valid valid) ((edit.describes valid).ai tracked tracks)
    | error stop t =>
      have same : t = s := by
        cases started : s.gameStarted with
        | true =>
          cases (apply_started started mutation).symm.trans ran
          rfl
        | false => exact ((apply_ends started valid.length mutation).error ran).2
      exact same ▸ ih valid tracks

/-- A delta describes its mutation: seats that survive are renumbered with what they hold; a seat
outside those it names is as it was, unless its number is gone, and then it is renumbered; the
tokens it invalidates are those of the players who are gone; and with it a list of the AI seats
stays exact. -/
theorem delta_describes_mutation {mutation : SeatMutation Data} {delta : SeatDelta Deck}
    (valid : Valid s) (done : (apply mutation ctx).run s = .ok delta t) :
    (∀ old : UInt8, old.toNat < s.seats.length → delta.survives old = true →
      t.seats[(delta.moved old).toNat]? = s.seats[old.toNat]? ∧
        t.tokens[(delta.moved old).toNat]? = s.tokens[old.toNat]?) ∧
    (∀ seat : UInt8, seat.toNat < s.seats.length → seat ∉ delta.mutatedSeats →
      t.seats[seat.toNat]? = s.seats[seat.toNat]? ∧
          t.tokens[seat.toNat]? = s.tokens[seat.toNat]? ∨
        t.seats.length ≤ seat.toNat ∧ delta.renumbers seat = true) ∧
    (∀ token, token ∈ delta.invalidatedTokens ↔ Joined s token ∧ token ∉ t.tokens) ∧
    ∀ tracked, Tracks tracked s → Tracks (delta.track tracked) t := by
  have describes := (edit_of_ok valid done).describes valid
  exact ⟨describes.survivors, describes.elsewhere, describes.invalidated, describes.ai⟩

end

/-- Two AIs with a player between them. -/
def tableForFour : SeatState String where
  seats := [.hostHuman, .ai .easy .random, .joinedHuman, .ai .hard (.named "Elves")]
  tokens := ["host-token", "", "guest-token", ""]
  format := { minPlayers := 2 }
  gameStarted := false

theorem tableForFour_guest {i : Nat} (there : tableForFour.seats[i]? = some .joinedHuman) :
    i = 2 := by
  match i with
  | 0 | 1 | 3 => cases there
  | 2 => rfl
  | i + 4 => cases there

theorem tableForFour_valid : Valid tableForFour where
  length := rfl
  host := rfl
  guests := by
    intro i there
    match i with
    | 0 => rfl
    | 1 | 2 | 3 => cases there
    | i + 4 => cases there
  blank := by
    intro i kind there free
    match i with
    | 0 | 2 =>
      cases there
      cases free
    | 1 | 3 => rfl
    | i + 4 => cases there
  enough := by decide
  bytes := by decide
  named := by
    rintro ⟨i, there, at_⟩
    obtain rfl := tableForFour_guest there
    exact absurd at_ (by decide)
  own := by
    intro i j token there at_i at_j
    obtain rfl := tableForFour_guest there
    cases at_i
    match j with
    | 0 | 1 | 3 => exact absurd at_j (by decide)
    | 2 => rfl
    | j + 4 => cases at_j

theorem tableForFour_tracked : Tracks [(1, .easy), (3, .hard)] tableForFour := by
  intro seat difficulty
  constructor
  · intro listed
    rcases mem_cons.mp listed with same | listed
    · cases same
      exact ⟨_, rfl⟩
    · cases mem_singleton.mp listed
      exact ⟨_, rfl⟩
  · rintro ⟨deck, there⟩
    have numbered (n : UInt8) (same : seat.toNat = n.toNat) : seat = n := UInt8.toNat_inj.mp same
    match same : seat.toNat with
    | 0 | 2 =>
      rw [same] at there
      cases there
    | 1 =>
      rw [same] at there
      cases there
      simp [numbered 1 same]
    | 3 =>
      rw [same] at there
      cases there
      simp [numbered 3 same]
    | n + 4 =>
      rw [same] at there
      cases there

theorem tableForFour_followed :
    let requests := [(.remove 1, names), (.setKind 1 (.ai .medium (.named "Elves")) none, names)]
    Tracks [(2, .hard), (1, .medium)] (follow tableForFour [(1, .easy), (3, .hard)] requests).1 := by
  intro requests
  exact (follow_tracks tableForFour_valid tableForFour_tracked requests).2

/-- The first AI leaves, and the guest and the other AI move down. -/
theorem tableForFour_removed :
    let delta : SeatDelta String := removal tableForFour 1 (.ai .easy .random)
    (tableForFour.without 1).seats[(delta.moved 2).toNat]? = some .joinedHuman ∧
      (tableForFour.without 1).tokens[(delta.moved 2).toNat]? = some "guest-token" ∧
      delta.track [(1, .easy), (3, .hard)] = [(2, .hard)] ∧
      Tracks (delta.track [(1, .easy), (3, .hard)]) (tableForFour.without 1) := by
  intro delta
  have done : (apply (.remove 1) names).run tableForFour = .ok delta (tableForFour.without 1) := rfl
  obtain ⟨survivors, -, -, ai⟩ := delta_describes_mutation tableForFour_valid done
  have seat := survivors 2 (by decide) (by decide)
  exact ⟨seat.1, seat.2, by decide, ai _ tableForFour_tracked⟩

end Phase.Seat
