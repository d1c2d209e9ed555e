import Mathlib.Data.Nat.ModEq
import Phase.Lib.Keyed
import Phase.Mulligan.Piles

/-! Who is dealt how many cards, and what a deal leaves alone. -/
namespace Phase.Mulligan
open GameState List

variable {Rng : Type} {state state' : GameState Rng} {pile : ObjectId → Option PlayerId}

theorem turnOrderIndex_lt {start len : Nat} (offset : Nat) (some_ : 0 < len)
    (direction : TurnDirection) : turnOrderIndex start offset len direction < len := by
  cases direction <;> exact Nat.mod_lt _ some_

theorem turnOrderIndex_inj {start len a b : Nat} (direction : TurnDirection) (smallA : a < len)
    (smallB : b < len)
    (same : turnOrderIndex start a len direction = turnOrderIndex start b len direction) :
    a = b := by
  cases direction with
  | normal =>
    have congr : start + a ≡ start + b [MOD len] := same
    exact Nat.ModEq.eq_of_lt_of_lt (Nat.ModEq.add_left_cancel' start congr) smallA smallB
  | reversed =>
    simp only [turnOrderIndex, Nat.mod_eq_of_lt smallA, Nat.mod_eq_of_lt smallB] at same
    have congr : start + len - a ≡ start + len - b [MOD len] := same
    have totals : start + len - a + (a + b) ≡ start + len - b + (a + b) [MOD len] :=
      congr.add_right _
    have left : start + len - a + (a + b) = start + len + b := by omega
    have right : start + len - b + (a + b) = start + len + a := by omega
    rw [left, right] at totals
    exact (Nat.ModEq.eq_of_lt_of_lt (Nat.ModEq.add_left_cancel' _ totals) smallB smallA).symm

theorem range_turnOrder_perm (start len : Nat) (direction : TurnDirection) :
    ((range len).map fun offset => turnOrderIndex start offset len direction).Perm (range len) := by
  have once : ((range len).map fun offset =>
      turnOrderIndex start offset len direction).Nodup :=
    Nodup.map_on (fun a ha b hb same => turnOrderIndex_inj direction
      (mem_range.mp ha) (mem_range.mp hb) same) nodup_range
  refine (subperm_of_subset once fun index inside => ?_).perm_of_length_le (by simp)
  obtain ⟨offset, there, rfl⟩ := mem_map.mp inside
  exact mem_range.mpr (turnOrderIndex_lt offset (Nat.zero_lt_of_lt (mem_range.mp there)) direction)

theorem seatWalk_perm : state.seatWalkFromActive.Perm (state.seatOrder.filter state.isAlive) := by
  refine Perm.filter _ ?_
  have turned := (range_turnOrder_perm
    ((state.seatOrder.findIdx? (· = state.activePlayer)).getD 0) state.seatOrder.length
    state.turnDirection).filterMap fun index => state.seatOrder[index]?
  rw [filterMap_map, Keyed.filterMap_range_getElem?] at turned
  exact turned

/-- Everyone at the table has one seat and is still in the game. -/
structure Seated (state : GameState Rng) : Prop where
  once : state.seatOrder.Nodup
  alive : ∀ player ∈ state.seatOrder, state.isAlive player = true

theorem isAlive_congr (same : state'.table = state.table) : state'.isAlive = state.isAlive := by
  simp only [table, Prod.mk.injEq] at same
  funext player
  rw [isAlive, isAlive, same.2.1, same.2.2.1]

theorem seatOrder_congr (same : state'.table = state.table) :
    state'.seatOrder = state.seatOrder := by
  simp only [table, Prod.mk.injEq] at same
  exact same.2.2.2.1

theorem Seated.congr (seated : Seated state) (same : state'.table = state.table) :
    Seated state' := by
  refine ⟨?_, ?_⟩
  · rw [seatOrder_congr same]
    exact seated.once
  · rw [seatOrder_congr same, isAlive_congr same]
    exact seated.alive

theorem Seated.walk (seated : Seated state) : state.seatWalkFromActive.Perm state.seatOrder := by
  have all : state.seatOrder.filter state.isAlive = state.seatOrder :=
    filter_eq_self.mpr seated.alive
  exact all ▸ seatWalk_perm

/-- Whatever the order, each player that is dealt to receives its own number of cards. -/
theorem Seated.count_dealSequence (seated : Seated state) {deals : List (PlayerId × Nat)}
    (distinct : (deals.map (·.1)).Nodup) (atTable : ∀ deal ∈ deals, deal.1 ∈ state.seatOrder)
    (player : PlayerId) :
    (state.dealSequence deals).count player = Keyed.share deals player := by
  have ordered := Keyed.filterMap_find?_perm distinct (seated.walk.nodup_iff.mpr seated.once)
    fun deal there => seated.walk.mem_iff.mpr (atTable deal there)
  rw [← Keyed.share_perm ordered player, dealSequence]
  cases state.format.dealOrder with
  | playerByPlayer => exact Keyed.count_flatMap_replicate _ player
  | interleaved =>
    refine Keyed.count_flatMap_rounds (fun deal there => ?_) player
    have inside : deal.2 ∈ (state.seatWalkFromActive.filterMap fun p =>
        deals.find? (·.1 = p)).map (·.2) := mem_map_of_mem there
    cases most : ((state.seatWalkFromActive.filterMap fun p =>
        deals.find? (·.1 = p)).map (·.2)).max? with
    | none =>
      rw [max?_eq_none_iff.mp most] at inside
      cases inside
    | some highest => exact (max?_le_iff most).mp (Nat.le_refl highest) _ inside

section

/-- What a deal does not change. -/
structure Rest (state state' : GameState Rng) : Prop where
  table : state'.table = state.table
  exile : state'.exile = state.exile
  prepaid : state'.prepaidMulliganBottoms = state.prepaidMulliganBottoms
  bottomed : state'.bottomed = state.bottomed

theorem Rest.trans {middle : GameState Rng} (first : Rest state middle)
    (second : Rest middle state') : Rest state state' where
  table := second.table.trans first.table
  exile := second.exile.trans first.exile
  prepaid := second.prepaid.trans first.prepaid
  bottomed := second.bottomed.trans first.bottomed

variable (state) in
theorem relocate_ledger (card : ObjectId) (object : GameObject) (zone : Zone) (owner : PlayerId) :
    (state.relocate card object zone owner).prepaidMulliganBottoms = state.prepaidMulliganBottoms ∧
      (state.relocate card object zone owner).bottomed = state.bottomed ∧
      (state.relocate card object zone owner).drawsMissed = state.drawsMissed := by
  cases object with
  | mk name isLand owner' from_ => cases from_ <;> cases zone <;> exact ⟨rfl, rfl, rfl⟩

theorem perPlayer_of_ownerKept {format : GameFormat} (kept : format.entryOwnership = .ownerKept) :
    format.sharedLibrary = .perPlayer := by
  cases format <;> first | rfl | cases kept

variable {player : PlayerId}

/-- Whoever draws a card owns it: its own library holds its own cards, and a shared one hands the
card over. -/
theorem entryReceiver_draw {object : GameObject} (inLibrary : object.zone = .library)
    (reads : state.librarySeat object.owner = state.librarySeat player) :
    state.entryReceiver object .hand (some player) = player := by
  rw [entryReceiver.eq_def]
  cases kept : state.format.entryOwnership with
  | actorOwns => simp [inLibrary, reads]
  | ownerKept =>
    simp only [librarySeat, perPlayer_of_ownerKept kept] at reads
    exact reads

/-- `amount` many cards went to each hand, off libraries that held them. -/
structure Dealt (pile : ObjectId → Option PlayerId) (amount : PlayerId → Nat)
    (state state' : GameState Rng) : Prop where
  rest : Rest state state'
  cards : state'.Cards pile
  missed : state.drawsMissed ≤ state'.drawsMissed
  hands : state'.drawsMissed = state.drawsMissed → ∀ player,
    (state'.hand player).length = (state.hand player).length + amount player

/-- The top card of a library goes to the hand of whoever draws it. -/
theorem drawOne_relocate (cards : state.Cards pile) {top : ObjectId} {others : List ObjectId}
    (library : state.libraryOf player = top :: others) :
    ∃ object, state.objects top = some object ∧ object.zone = .library ∧
      state.librarySeat object.owner = state.librarySeat player ∧
      state.drawOne player = state.relocate top object .hand player := by
  have inside : top ∈ state.container (.library (state.librarySeat player)) := by
    show top ∈ state.library (state.librarySeat player)
    rw [← libraryOf, library]
    exact mem_cons_self
  obtain ⟨object, known, place⟩ := cards.mem inside
  obtain ⟨inLibrary, reads⟩ : object.zone = .library ∧
      state.librarySeat object.owner = state.librarySeat player := by
    cases zone : object.zone <;> simp [placeIn, zone] at place
    exact ⟨rfl, place⟩
  refine ⟨object, known, inLibrary, reads, ?_⟩
  have receiver := entryReceiver_draw inLibrary reads
  rw [drawOne, library]
  show state.moveObject top .hand (some player) = _
  rw [moveObject, known]
  simp only [receiver]
  rfl

theorem drawOne_dealt (cards : state.Cards pile) (player : PlayerId) :
    Dealt pile (fun other => if other = player then 1 else 0) state (state.drawOne player) := by
  cases library : state.libraryOf player with
  | nil =>
    rw [drawOne, library]
    exact {
      rest := ⟨rfl, rfl, rfl, rfl⟩
      cards := ⟨cards.placed, cards.piled⟩
      missed := Nat.le_succ _
      hands := fun same => absurd same (Nat.succ_ne_self _) }
  | cons top others =>
    obtain ⟨object, known, inLibrary, reads, moved⟩ := drawOne_relocate cards library
    rw [moved]
    have before : state.placeIn object.zone player = state.placeIn object.zone object.owner := by
      rw [inLibrary]
      exact congrArg Place.library reads.symm
    have exile := container_relocate state top object .hand player .exile
    have hands := fun other => container_relocate state top object .hand player (.hand other)
    obtain ⟨prepaid, bottomed, missed⟩ := relocate_ledger state top object .hand player
    rw [inLibrary] at exile hands
    simp only [placeIn, reduceCtorEq, if_false, append_nil, Place.hand.injEq] at exile hands
    exact {
      rest := ⟨table_relocate known .hand player, exile, prepaid, bottomed⟩
      cards := cards.relocate known reads.symm before .hand
      missed := Nat.le_of_eq missed.symm
      hands := fun _ other => by
        rw [show (state.relocate top object .hand player).hand other = _ from hands other,
          length_append]
        split <;> rfl }

theorem foldl_drawOne_dealt (cards : state.Cards pile) (players : List PlayerId) :
    Dealt pile (fun player => players.count player) state (players.foldl drawOne state) := by
  induction players generalizing state with
  | nil =>
    exact {
      rest := ⟨rfl, rfl, rfl, rfl⟩
      cards
      missed := Nat.le_refl _
      hands := fun _ _ => rfl }
  | cons player players ih =>
    have first := drawOne_dealt cards player
    have others := ih first.cards
    exact {
      rest := first.rest.trans others.rest
      cards := others.cards
      missed := first.missed.trans others.missed
      hands := fun same other => by
        have low := first.missed
        have high := others.missed
        rw [foldl_cons] at same
        show ((players.foldl drawOne (state.drawOne player)).hand other).length = _
        rw [others.hands (by omega) other, first.hands (by omega) other]
        by_cases here : player = other
        · subst here
          simp
          omega
        · simp [here, Ne.symm here] }

theorem Seated.dealHands (seated : Seated state) (cards : state.Cards pile)
    (deals : List (PlayerId × Nat)) (distinct : (deals.map (·.1)).Nodup)
    (atTable : ∀ deal ∈ deals, deal.1 ∈ state.seatOrder) :
    Dealt pile (Keyed.share deals) state (state.dealHands deals) := by
  have dealt := foldl_drawOne_dealt cards (state.dealSequence deals)
  have amounts : (fun player => (state.dealSequence deals).count player) = Keyed.share deals :=
    funext (seated.count_dealSequence distinct atTable)
  exact amounts ▸ dealt

/-- How many cards `player` is dealt when the draws are `draws` and the library of each holder
holds `stock` of it: the draws off its library succeed until it is empty. -/
def GameState.drawn (state : GameState Rng) (draws : List PlayerId) (stock : PlayerId → Nat)
    (player : PlayerId) : Nat :=
  ((draws.filter fun other => state.librarySeat other = state.librarySeat player).take
    (stock (state.librarySeat player))).count player

/-- A draw moves the top card of the library, if there is one, into the hand. -/
theorem drawOne_counts (cards : state.Cards pile) (drawer : PlayerId) :
    (∀ player, ((state.drawOne drawer).hand player).length = (state.hand player).length +
      if player = drawer ∧ state.libraryOf drawer ≠ [] then 1 else 0) ∧
    (∀ holder, ((state.drawOne drawer).library holder).length = (state.library holder).length -
      if holder = state.librarySeat drawer then 1 else 0) ∧
    ∀ player, player ≠ drawer → (state.drawOne drawer).hand player = state.hand player := by
  cases library : state.libraryOf drawer with
  | nil =>
    rw [drawOne, library]
    refine ⟨by simp, fun holder => ?_, fun _ _ => rfl⟩
    have none_ : state.library (state.librarySeat drawer) = [] := library
    by_cases here : holder = state.librarySeat drawer
    · subst here
      simp [none_]
    · simp [here]
  | cons top others =>
    obtain ⟨object, known, inLibrary, -, moved⟩ := drawOne_relocate cards library
    rw [moved]
    have places := container_relocate state top object .hand drawer
    rw [inLibrary] at places
    have hands (player : PlayerId) : (state.relocate top object .hand drawer).hand player =
        state.hand player ++ if player = drawer then [top] else [] := by
      simpa [placeIn, container] using places (.hand player)
    refine ⟨fun player => ?_, fun holder => ?_, fun player apart => ?_⟩
    · rw [hands]
      by_cases here : player = drawer <;> simp [here]
    · have own := places (.library holder)
      simp only [placeIn, reduceCtorEq, if_false, append_nil, Place.library.injEq] at own
      rw [show (state.relocate top object .hand drawer).library holder = _ from own]
      by_cases here : holder = state.librarySeat drawer
      · subst here
        have shown : state.container (.library (state.librarySeat drawer)) = top :: others :=
          library
        have once := shown ▸ cards.nodup (.library (state.librarySeat drawer))
        have none_ : others.filter (· ≠ top) = others := by
          refine filter_eq_self.mpr fun card there => ?_
          simpa using fun same : card = top => (nodup_cons.mp once).1 (same ▸ there)
        rw [if_pos rfl, if_pos rfl, shown,
          show state.library (state.librarySeat drawer) = top :: others from library,
          filter_cons_of_neg (by simp), none_]
        rfl
      · rw [if_neg here, if_neg here]
        rfl
    · rw [hands, if_neg apart, append_nil]

/-- Each hand grows by what the libraries hold for it. -/
theorem foldl_drawOne_hand (cards : state.Cards pile) (draws : List PlayerId) (player : PlayerId) :
    ((draws.foldl drawOne state).hand player).length = (state.hand player).length +
      state.drawn draws (fun holder => (state.library holder).length) player := by
  induction draws generalizing state with
  | nil => simp [GameState.drawn]
  | cons drawer draws ih =>
    have dealt := drawOne_dealt cards drawer
    obtain ⟨hands, libraries, -⟩ := drawOne_counts cards drawer
    have seats := librarySeat_congr dealt.rest.table
    rw [foldl_cons, ih dealt.cards, hands, GameState.drawn, GameState.drawn, seats, libraries]
    by_cases same : state.librarySeat drawer = state.librarySeat player
    · rw [filter_cons_of_pos (by simpa using same), if_pos same.symm]
      have stock : (state.libraryOf drawer).length =
          (state.library (state.librarySeat player)).length := by rw [libraryOf, same]
      cases left : (state.library (state.librarySeat player)).length with
      | zero =>
        rw [left, length_eq_zero_iff] at stock
        simp [stock]
      | succ n =>
        have some_ : state.libraryOf drawer ≠ [] := by
          intro none_
          rw [none_, left] at stock
          cases stock
        by_cases here : player = drawer
        · simp [here, some_]
          omega
        · simp [here, Ne.symm here]
    · have apart : player ≠ drawer := fun here => same (here ▸ rfl)
      rw [filter_cons_of_neg (by simpa using same), if_neg (Ne.symm same)]
      simp [apart]

theorem foldl_drawOne_others (cards : state.Cards pile) {draws : List PlayerId}
    (out : player ∉ draws) : (draws.foldl drawOne state).hand player = state.hand player := by
  induction draws generalizing state with
  | nil => rfl
  | cons drawer draws ih =>
    obtain ⟨apart, out⟩ := not_or.mp (mt mem_cons.mpr out)
    rw [foldl_cons, ih (drawOne_dealt cards drawer).cards out]
    exact (drawOne_counts cards drawer).2.2 player apart

theorem mem_dealSequence {deals : List (PlayerId × Nat)}
    (inside : player ∈ state.dealSequence deals) : player ∈ deals.map (·.1) := by
  have called : ∀ deal ∈ state.seatWalkFromActive.filterMap (fun p => deals.find? (·.1 = p)),
      deal.1 ∈ deals.map (·.1) := by
    intro deal there
    obtain ⟨_, -, found⟩ := mem_filterMap.mp there
    exact mem_map_of_mem (mem_of_find?_eq_some found)
  rw [dealSequence] at inside
  cases order : state.format.dealOrder with
  | playerByPlayer =>
    simp only [order, mem_flatMap] at inside
    obtain ⟨deal, there, inside⟩ := inside
    exact eq_of_mem_replicate inside ▸ called deal there
  | interleaved =>
    simp only [order, mem_flatMap, mem_map] at inside
    obtain ⟨_, -, deal, there, rfl⟩ := inside
    exact called deal (mem_of_mem_filter there)

/-- A single player's draws. -/
theorem Seated.dealSequence_one (seated : Seated state) (count : Nat)
    (seat : player ∈ state.seatOrder) :
    state.dealSequence [(player, count)] = replicate count player := by
  have counts : (state.dealSequence [(player, count)]).count player =
      Keyed.share [(player, count)] player :=
    seated.count_dealSequence (by simp) (by simpa using seat) player
  rw [Keyed.share_of_mem (by simp) mem_cons_self] at counts
  have own : ∀ other ∈ state.dealSequence [(player, count)], player = other := fun other inside =>
    (by simpa using mem_dealSequence inside : other = player).symm
  exact eq_replicate_iff.mpr ⟨(count_eq_length.mpr own).symm.trans counts,
    fun other inside => (own other inside).symm⟩

end

section

/-- `cards` left the hand of `player` for `zone`. -/
structure Left (pile : ObjectId → Option PlayerId) (zone : Zone) (player : PlayerId)
    (cards : List ObjectId) (state state' : GameState Rng) : Prop where
  table : state'.table = state.table
  prepaid : state'.prepaidMulliganBottoms = state.prepaidMulliganBottoms
  missed : state'.drawsMissed = state.drawsMissed
  exile : zone = .library → state'.exile = state.exile
  sound : state'.Cards pile
  hands : ∀ other, state'.hand other =
    if other = player then (state.hand player).filter (· ∉ cards) else state.hand other

variable {card : ObjectId} {player : PlayerId}

theorem Left.cons {middle : GameState Rng} {zone : Zone} {player : PlayerId} {card : ObjectId}
    {cards : List ObjectId} (first : Left pile zone player [card] state middle)
    (others : Left pile zone player cards middle state') :
    Left pile zone player (card :: cards) state state' where
  table := others.table.trans first.table
  prepaid := others.prepaid.trans first.prepaid
  missed := others.missed.trans first.missed
  exile := fun library => (others.exile library).trans (first.exile library)
  sound := others.sound
  hands := fun other => by
    rw [others.hands other, first.hands player, first.hands other]
    by_cases here : other = player
    · simp only [if_pos here, if_true, filter_filter]
      refine filter_congr fun c _ => ?_
      simp only [mem_cons, not_mem_nil, or_false, not_or, Bool.decide_and]
      exact Bool.and_comm _ _
    · simp only [if_neg here]

section
variable (cards : state.Cards pile) (inside : card ∈ state.hand player)
include cards inside

theorem relocate_left (zone : Zone) (away : zone ≠ .hand) :
    ∃ object, state.objects card = some object ∧ object.zone = .hand ∧ object.owner = player ∧
      Left pile zone player [card] state (state.relocate card object zone object.owner) := by
  obtain ⟨object, known, place⟩ := cards.mem (show card ∈ state.container (.hand player) from inside)
  obtain ⟨inHand, owned⟩ : object.zone = .hand ∧ object.owner = player := by
    cases at_ : object.zone <;> simp [placeIn, at_] at place
    exact ⟨rfl, place⟩
  obtain ⟨prepaid, -, missed⟩ := relocate_ledger state card object zone object.owner
  refine ⟨object, known, inHand, owned, table_relocate known zone object.owner, prepaid,
    missed, ?_, cards.relocate known rfl rfl zone, fun other => ?_⟩
  · rintro rfl
    have exile := container_relocate state card object .library object.owner .exile
    simpa [placeIn, inHand, container] using exile
  · have moved := container_relocate state card object zone object.owner (.hand other)
    have elsewhere : Place.hand other ≠ state.placeIn zone object.owner := by
      cases zone <;> simp [placeIn] at away ⊢
    rw [if_neg elsewhere, inHand, owned] at moved
    rw [owned, show (state.relocate card object zone player).hand other = _ from moved]
    by_cases here : other = player
    · subst here
      simp [placeIn, container]
    · simp [placeIn, container, here]

theorem moveToLibraryBottom_left :
    Left pile .library player [card] state (state.moveToLibraryBottom card) := by
  obtain ⟨object, known, -, -, left⟩ := relocate_left cards inside .library (by simp)
  rw [moveToLibraryBottom, known]
  exact left

theorem moveToExile_left :
    Left pile .exile player [card] state (state.moveObject card .exile none) := by
  obtain ⟨object, known, -, -, left⟩ := relocate_left cards inside .exile (by simp)
  rw [moveObject, known]
  exact left

end

/-- Cards that leave the hand one by one. -/
theorem foldl_left {zone : Zone} {move : GameState Rng → ObjectId → GameState Rng}
    (step : ∀ {state : GameState Rng} {card}, state.Cards pile → card ∈ state.hand player →
      Left pile zone player [card] state (move state card)) {cards : List ObjectId}
    (sound : state.Cards pile) (distinct : cards.Nodup)
    (inside : ∀ card ∈ cards, card ∈ state.hand player) :
    Left pile zone player cards state (cards.foldl move state) := by
  induction cards generalizing state with
  | nil =>
    refine ⟨rfl, rfl, rfl, fun _ => rfl, sound, fun other => ?_⟩
    by_cases here : other = player
    · subst here
      simp
    · simp [here]
  | cons card cards ih =>
    obtain ⟨new, distinct⟩ := nodup_cons.mp distinct
    have first := step sound (inside card mem_cons_self)
    refine first.cons (ih first.sound distinct fun other there => ?_)
    rw [first.hands player, if_pos rfl]
    refine mem_filter.mpr ⟨inside other (mem_cons_of_mem card there), ?_⟩
    have different : other ≠ card := fun same => new (same ▸ there)
    simpa using different

end

end Phase.Mulligan
