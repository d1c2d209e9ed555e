import Phase.Mulligan.Hands
import Mathlib.Data.List.Sublists

/-! Opening the procedure, closing a round of declarations, and what is asked of a selection. -/
namespace Phase.Mulligan
open GameState List

variable {Rng : Type} {state state' : GameState Rng} {pile : ObjectId → Option PlayerId}

/-- At the cap, seven cards are owed, with or without a free mulligan. -/
theorem bottomCountFor_cap {count : Nat} {freeFirst : Bool}
    (cap : maxMulligansFor freeFirst ≤ count) : 0 < bottomCountFor count freeFirst := by
  cases freeFirst <;> simp [maxMulligansFor, maxMulligans, bottomCountFor] at cap ⊢ <;> omega

theorem freeFirstMulligan_congr (same : state'.table = state.table) :
    state'.freeFirstMulligan = state.freeFirstMulligan := by
  simp only [table, Prod.mk.injEq] at same
  rw [freeFirstMulligan, freeFirstMulligan, same.1, same.2.2.2.1]

variable {player : PlayerId} {declared : List MulliganDeclaration}

theorem validateSelected_ok {seen cards : List ObjectId}
    (valid : validateBottomSelection.validateSelected state player seen cards = .ok ()) :
    cards.Nodup ∧ ∀ card ∈ cards, card ∉ seen ∧ card ∈ state.hand player := by
  induction cards generalizing seen with
  | nil => exact ⟨nodup_nil, fun _ inside => by cases inside⟩
  | cons card cards ih =>
    obtain ⟨new, valid⟩ := Fallible.ite_error_eq_ok.mp valid
    obtain ⟨held, valid⟩ := Fallible.ite_error_eq_ok.mp valid
    obtain ⟨distinct, others⟩ := ih valid
    refine ⟨nodup_cons.mpr ⟨fun again => (others card again).1 mem_cons_self, distinct⟩,
      fun other inside => ?_⟩
    rcases mem_cons.mp inside with rfl | inside
    · exact ⟨new, not_not.mp held⟩
    · obtain ⟨unseen, there⟩ := others other inside
      exact ⟨fun seen => unseen (mem_cons_of_mem card seen), there⟩

/-- An accepted selection is as many distinct cards of the hand as were asked for. -/
theorem validateBottomSelection_ok {cards : List ObjectId} {count : Nat}
    (valid : state.validateBottomSelection player cards count = .ok ()) :
    cards.length = count ∧ cards.Nodup ∧ ∀ card ∈ cards, card ∈ state.hand player := by
  obtain ⟨length, valid⟩ := Fallible.ite_error_eq_ok.mp valid
  obtain ⟨distinct, inside⟩ := validateSelected_ok valid
  exact ⟨not_not.mp length, distinct, fun card there => (inside card there).2⟩

/-- Before the procedure: all cards lie in the libraries, and at least one player is seated. -/
structure Ready (pile : ObjectId → Option PlayerId) (state : GameState Rng) : Prop where
  cards : state.Cards pile
  handsEmpty : ∀ player, state.hand player = []
  seated : Seated state
  someone : state.seatOrder ≠ []
  undrawn : state.drawsMissed = 0
  unbottomed : state.bottomed = fun _ => 0

theorem Ready.deal (ready : Ready pile state) (shuffler : Shuffler Rng) :
    Next pile False (fun _ => 0) state
      ((state.clearPrepaid.shuffleAll shuffler).dealHands
        ((state.clearPrepaid.shuffleAll shuffler).seatOrder.map fun player =>
          (player, startingHandSize))) := by
  have mixed : Shuffled pile state.clearPrepaid (state.clearPrepaid.shuffleAll shuffler) :=
    foldl_shuffled (fun state holder => shuffleLibrary_shuffled shuffler holder) _
  have cleared : state.clearPrepaid.Cards pile := ⟨ready.cards.placed, ready.cards.piled⟩
  have seated := ready.seated.congr (mixed.rest.table : _ = state.table)
  have dealt := seated.dealSevens (mixed.cards cleared) _ seated.once fun _ seat => seat
  have table := dealt.rest.table.trans (mixed.rest.table : _ = state.table)
  have bottomed := (dealt.rest.bottomed.trans mixed.rest.bottomed).trans ready.unbottomed
  refine ⟨⟨dealt.cards, ready.seated.congr table, fun player => ?_, fun none_ player seat => ?_⟩,
    table, bottomed, .inl (dealt.rest.exile.trans mixed.rest.exile)⟩
  · rw [prepaid_congr (dealt.rest.prepaid.trans mixed.rest.prepaid), bottomed]
    rfl
  · have drawn := dealt.hands (none_.trans (mixed.missed.trans ready.undrawn).symm) player
    rw [seatOrder_congr dealt.rest.table] at seat
    rw [drawn, bottomed, mixed.hands, if_pos seat]
    simp [clearPrepaid, ready.handsEmpty]

theorem Sound.owed (sound : Sound pile state) (entry : MulliganDecisionEntry) (freeFirst : Bool) :
    state.resolveDeclarePoint entry freeFirst .keep =
      .ok (if bottomCountFor entry.mulliganCount freeFirst ≤ state.bottomed entry.player then none
        else some { entry with phase := .bottomCards (bottomCountFor entry.mulliganCount freeFirst -
          state.bottomed entry.player) .keep }, state) := by
  rw [resolveDeclarePoint, sound.ledger]
  by_cases paid : bottomCountFor entry.mulliganCount freeFirst ≤ state.bottomed entry.player
  · rw [if_pos (Nat.sub_eq_zero_of_le paid), if_pos paid]
    rfl
  · rw [if_neg (by omega), if_neg paid]
    rfl

/-- The declarers in turn order. -/
def redrawers (state : GameState Rng) (declared : List MulliganDeclaration) :
    List MulliganDeclaration :=
  state.seatWalkFromActive.filterMap fun player => declared.find? (·.player = player)

theorem Sound.redrawers_perm (sound : Sound pile state) (distinct : (declared.map (·.player)).Nodup)
    (atTable : ∀ d ∈ declared, d.player ∈ state.seatOrder) :
    (redrawers state declared).Perm declared :=
  Keyed.filterMap_find?_perm distinct (sound.seated.walk.nodup_iff.mpr sound.seated.once)
    fun d there => sound.seated.walk.mem_iff.mpr (atTable d there)

/-- At the cap the entry is parked until its bottoms are paid. -/
def atCap (freeFirst : Bool) (entry : MulliganDecisionEntry) : MulliganDecisionEntry :=
  if entry.mulliganCount < maxMulligansFor freeFirst then entry
  else { entry with phase := .bottomCards (bottomCountFor entry.mulliganCount freeFirst) .keep }

@[simp] theorem atCap_player (freeFirst : Bool) (entry : MulliganDecisionEntry) :
    (atCap freeFirst entry).player = entry.player := by
  rw [atCap]
  split <;> rfl

@[simp] theorem atCap_mulliganCount (freeFirst : Bool) (entry : MulliganDecisionEntry) :
    (atCap freeFirst entry).mulliganCount = entry.mulliganCount := by
  rw [atCap]
  split <;> rfl

/-- With nothing bottomed yet, nobody leaves at the cap. -/
theorem Sound.keepAtCap (sound : Sound pile state) (freeFirst : Bool)
    {entries : List MulliganDecisionEntry}
    (fresh : ∀ entry ∈ entries, state.bottomed entry.player = 0) :
    state.keepAtCap freeFirst entries = entries.map (atCap freeFirst) := by
  induction entries with
  | nil => rfl
  | cons entry entries ih =>
    have none_ := fresh entry mem_cons_self
    have others := ih fun other there => fresh other (mem_cons_of_mem entry there)
    rw [GameState.keepAtCap, map_cons, atCap, others]
    split
    · rfl
    · next cap =>
      have owing := bottomCountFor_cap (Nat.not_lt.mp cap)
      rw [sound.owed, if_neg (by omega), none_]
      rfl

theorem seatWalk_congr (same : state'.table = state.table) :
    state'.seatWalkFromActive = state.seatWalkFromActive := by
  have alive := isAlive_congr same
  simp only [table, Prod.mk.injEq] at same
  simp only [seatWalkFromActive, alive, same.2.2.2.1, same.2.2.2.2.1, same.2.2.2.2.2.1]

theorem dealSequence_congr (same : state'.table = state.table) (deals : List (PlayerId × Nat)) :
    state'.dealSequence deals = state.dealSequence deals := by
  have walk := seatWalk_congr same
  simp only [table, Prod.mk.injEq] at same
  simp only [dealSequence, walk, same.1]

/-- What the library of each holder holds once the hands of the declarers are back. -/
def GameState.roundStock (state : GameState Rng) (declared : List MulliganDeclaration)
    (holder : PlayerId) : Nat :=
  (state.library holder).length +
    ((declared.filter fun d => state.librarySeat d.player = holder).map fun d =>
      (state.hand d.player).length).sum

/-- The draws of a round. -/
def GameState.roundDraws (state : GameState Rng) (declared : List MulliganDeclaration) :
    List PlayerId :=
  state.dealSequence ((redrawers state declared).map fun d => (d.player, startingHandSize))

/-- A round that closes gives every declarer an entry again and the cards that the libraries still
hold for it when its draws come. -/
theorem Sound.closeRound (sound : Sound pile state) (shuffler : Shuffler Rng)
    (distinct : (declared.map (·.player)).Nodup)
    (atTable : ∀ d ∈ declared, d.player ∈ state.seatOrder) (freeFirst : Bool) :
    Next pile False
        (fun player => if player ∈ declared.map (·.player) then 0 else state.bottomed player)
        state (state.closeDeclareRound shuffler declared freeFirst).2 ∧
      ∃ opened : List MulliganDecisionEntry, opened.Perm (declared.map openEntry) ∧
        (state.closeDeclareRound shuffler declared freeFirst).1 =
          opened.map (atCap freeFirst) ∧
      ∀ player ∈ declared.map (·.player),
        ((state.closeDeclareRound shuffler declared freeFirst).2.hand player).length =
          state.drawn (state.roundDraws declared) (state.roundStock declared) player := by
  have perm := sound.redrawers_perm distinct atTable
  have players := perm.map (·.player)
  let returned := (redrawers state declared).foldl
    (fun state d => state.returnHandToLibrary d.player) state
  have back : Returned pile ((redrawers state declared).map (·.player)) state returned :=
    foldl_returned (·.player) sound.cards (redrawers state declared)
  let shuffled := ((redrawers state declared).map fun d =>
    returned.librarySeat d.player).eraseDups.foldl
      (fun state holder => state.shuffleLibraryOf shuffler holder) returned
  have mixed : Shuffled pile returned shuffled := foldl_shuffled
    (fun state holder => shuffleLibrary_shuffled shuffler (state.librarySeat holder)) _
  let voided := (redrawers state declared).foldl (fun state d => state.setPrepaid d.player 0)
    shuffled
  have void : voided = _ := foldl_setPrepaid (·.player) (redrawers state declared)
  have tableV : voided.table = returned.table := by
    rw [void]
    exact mixed.rest.table
  have table := tableV.trans back.table
  have cards : voided.Cards pile := by
    rw [void]
    have cards := mixed.cards back.cards
    exact ⟨cards.placed, cards.piled⟩
  have dealt := (sound.seated.congr table).dealSevens cards
    ((redrawers state declared).map (·.player)) (players.nodup_iff.mpr distinct)
    fun player there => by
      obtain ⟨d, inside, rfl⟩ := mem_map.mp (players.mem_iff.mp there)
      exact seatOrder_congr table ▸ atTable d inside
  let final := voided.dealHands (((redrawers state declared).map (·.player)).map fun player =>
    (player, startingHandSize))
  have closed : state.closeDeclareRound shuffler declared freeFirst =
      (final.keepAtCap freeFirst (final.seatOrder.filterMap fun player =>
        ((redrawers state declared).find? (·.player = player)).map openEntry), final) := by
    simp only [final, map_map]
    rfl
  have next : Next pile False
      (fun player => if player ∈ (redrawers state declared).map (·.player) then 0
        else state.bottomed player) state final := by
    refine sound.redrawn back (dealt.rest.table.trans tableV) ?_ ?_ (fun player => ?_) dealt.cards
      ?_ fun same player => ?_
    · rw [dealt.rest.exile, void]
      exact mixed.rest.exile
    · rw [dealt.rest.bottomed, void]
      exact mixed.rest.bottomed
    · rw [prepaid_congr dealt.rest.prepaid, void]
      by_cases redrew : player ∈ (redrawers state declared).map (·.player)
      · simp [GameState.prepaid, redrew]
      · simp only [GameState.prepaid, redrew, if_false, mixed.rest.prepaid]
    · refine Nat.le_trans (Nat.le_of_eq ?_) dealt.missed
      rw [void]
      exact mixed.missed.symm
    · have missed : voided.drawsMissed = returned.drawsMissed := by
        rw [void]
        exact mixed.missed
      have hands : voided.hand = returned.hand := by
        rw [void]
        exact mixed.hands
      rw [← hands]
      exact dealt.hands (same.trans missed.symm) player
  have bottomed : (fun player => if player ∈ (redrawers state declared).map (·.player) then 0
      else state.bottomed player) =
      fun player => if player ∈ declared.map (·.player) then 0 else state.bottomed player := by
    simp only [players.mem_iff]
  rw [bottomed] at next
  rw [closed]
  refine ⟨next, (final.seatOrder.filterMap fun player =>
    (redrawers state declared).find? (·.player = player)).map openEntry, ?_, ?_, fun player declares => ?_⟩
  · have called : (final.seatOrder.filterMap fun player =>
        (redrawers state declared).find? (·.player = player)).Perm (redrawers state declared) := by
      rw [seatOrder_congr next.table]
      exact Keyed.filterMap_find?_perm (players.nodup_iff.mpr distinct) sound.seated.once
        fun d there => atTable d (perm.mem_iff.mp there)
    exact (called.trans perm).map openEntry
  · rw [← next.sound.keepAtCap freeFirst, map_filterMap]
    rintro entry there
    obtain ⟨d, inside, rfl⟩ := mem_map.mp there
    obtain ⟨_, -, found⟩ := mem_filterMap.mp inside
    have one := perm.mem_iff.mp (mem_of_find?_eq_some found)
    rw [next.bottomed]
    exact if_pos (mem_map_of_mem one)
  · have hand : voided.hand player = [] := by
      rw [void]
      rw [mixed.hands, back.hands, if_pos (players.mem_iff.mpr declares)]
    have stock : (fun holder => (voided.library holder).length) = state.roundStock declared := by
      funext holder
      rw [void]
      have stock : (returned.library holder).length = _ := foldl_returned_stock
        MulliganDeclaration.player sound.cards (players.nodup_iff.mpr distinct) holder
      rw [foldl_shuffleLibraryOf_stock, stock]
      exact congrArg (_ + ·) ((perm.filter _).map _).sum_eq
    simp only [final, map_map]
    rw [dealHands, foldl_drawOne_hand cards, hand, stock, dealSequence_congr table, GameState.drawn,
      librarySeat_congr table]
    exact Nat.zero_add _

end Phase.Mulligan
