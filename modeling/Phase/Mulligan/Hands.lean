import Phase.Lib.Fallible
import Phase.Mulligan.Deal

/-! What returning, bottoming, redrawing and exiling do to the hands and to the ledger. -/
namespace Phase.Mulligan
open GameState List Function

variable {Rng : Type} {state state' : GameState Rng} {pile : ObjectId → Option PlayerId}

/-- What a shuffle changes is the order of libraries. -/
structure Shuffled (pile : ObjectId → Option PlayerId) (state state' : GameState Rng) :
    Prop where
  rest : Rest state state'
  missed : state'.drawsMissed = state.drawsMissed
  hands : state'.hand = state.hand
  cards : state.Cards pile → state'.Cards pile

theorem Shuffled.refl : Shuffled pile state state := ⟨⟨rfl, rfl, rfl, rfl⟩, rfl, rfl, id⟩

theorem Shuffled.trans {middle : GameState Rng} (first : Shuffled pile state middle)
    (second : Shuffled pile middle state') : Shuffled pile state state' where
  rest := first.rest.trans second.rest
  missed := second.missed.trans first.missed
  hands := second.hands.trans first.hands
  cards := fun cards => second.cards (first.cards cards)

theorem shuffleLibrary_shuffled (shuffler : Shuffler Rng) (holder : PlayerId) :
    Shuffled pile state (state.shuffleLibrary shuffler holder) where
  rest := ⟨rfl, rfl, rfl, rfl⟩
  missed := rfl
  hands := rfl
  cards := by
    intro cards
    refine ⟨fun card place => ?_, cards.piled⟩
    refine Eq.trans ?_ (cards.placed card place)
    cases place with
    | library other =>
      show (update state.library holder _ other).count card = (state.library other).count card
      rw [update_apply]
      split
      · next same =>
        subst same
        exact (shuffler.perm state.rng (state.library other)).count_eq card
      · rfl
    | hand | exile => rfl

theorem foldl_shuffled {move : GameState Rng → PlayerId → GameState Rng}
    (step : ∀ (state : GameState Rng) holder, Shuffled pile state (move state holder))
    (holders : List PlayerId) : Shuffled pile state (holders.foldl move state) := by
  induction holders generalizing state with
  | nil => exact .refl
  | cons holder holders ih => exact (step state holder).trans ih

theorem moveToLibraryBottom_bottomed (state : GameState Rng) (card : ObjectId) :
    (state.moveToLibraryBottom card).bottomed = state.bottomed := by
  rw [moveToLibraryBottom]
  cases known : state.objects card with
  | none => rfl
  | some object => exact (relocate_ledger state card object .library object.owner).2.1

theorem moveToExile_bottomed (state : GameState Rng) (card : ObjectId) :
    (state.moveObject card .exile none).bottomed = state.bottomed := by
  rw [moveObject]
  cases known : state.objects card with
  | none => rfl
  | some object => exact (relocate_ledger state card object .exile _).2.1

variable {move : GameState Rng → ObjectId → GameState Rng} {α : Type} {player : PlayerId}
  {cards : List ObjectId} {card : ObjectId}

theorem foldl_bottomed (step : ∀ state card, (move state card).bottomed = state.bottomed)
    (cards : List ObjectId) : (cards.foldl move state).bottomed = state.bottomed := by
  induction cards generalizing state with
  | nil => rfl
  | cons card cards ih => exact ih.trans (step state card)

/-- The hands of `players` are back in the library. -/
structure Returned (pile : ObjectId → Option PlayerId) (players : List PlayerId)
    (state state' : GameState Rng) : Prop where
  table : state'.table = state.table
  exile : state'.exile = state.exile
  prepaid : state'.prepaidMulliganBottoms = state.prepaidMulliganBottoms
  missed : state'.drawsMissed = state.drawsMissed
  cards : state'.Cards pile
  bottomed : ∀ player, state'.bottomed player =
    if player ∈ players then 0 else state.bottomed player
  hands : ∀ player, state'.hand player = if player ∈ players then [] else state.hand player

theorem returnHandToLibrary_returned (cards : state.Cards pile) (player : PlayerId) :
    Returned pile [player] state (state.returnHandToLibrary player) := by
  have left : Left pile .library player (state.hand player) state
      ((state.hand player).foldl moveToLibraryBottom state) :=
    foldl_left (fun sound inside => moveToLibraryBottom_left sound inside) cards
      (cards.nodup (.hand player)) fun _ inside => inside
  exact {
    table := left.table
    exile := left.exile rfl
    prepaid := left.prepaid
    missed := left.missed
    cards := ⟨left.sound.placed, left.sound.piled⟩
    bottomed := fun other => by
      show update _ player 0 other = _
      rw [update_apply, foldl_bottomed moveToLibraryBottom_bottomed]
      simp
    hands := fun other => by
      refine (left.hands other).trans ?_
      by_cases here : other = player
      · subst here
        simp only [if_true, mem_singleton]
        exact filter_eq_nil_iff.mpr fun card inside out => of_decide_eq_true out inside
      · simp [here] }

theorem foldl_returned (who : α → PlayerId) (cards : state.Cards pile) (xs : List α) :
    Returned pile (xs.map who) state
      (xs.foldl (fun state x => state.returnHandToLibrary (who x)) state) := by
  induction xs generalizing state with
  | nil => exact ⟨rfl, rfl, rfl, rfl, cards, fun _ => rfl, fun _ => rfl⟩
  | cons x xs ih =>
    have first := returnHandToLibrary_returned cards (who x)
    have others := ih first.cards
    exact {
      table := others.table.trans first.table
      exile := others.exile.trans first.exile
      prepaid := others.prepaid.trans first.prepaid
      missed := others.missed.trans first.missed
      cards := others.cards
      bottomed := fun player => by
        refine (others.bottomed player).trans ?_
        rw [first.bottomed player]
        by_cases early : player = who x <;> by_cases late : player ∈ xs.map who <;>
          simp [early, late]
      hands := fun player => by
        refine (others.hands player).trans ?_
        rw [first.hands player]
        by_cases early : player = who x <;> by_cases late : player ∈ xs.map who <;>
          simp [early, late] }

/-- Every card is placed, the ledger holds what each player bottomed, and what a player neither
holds nor bottomed was not there to be drawn. -/
structure Sound (pile : ObjectId → Option PlayerId) (state : GameState Rng) : Prop where
  cards : state.Cards pile
  seated : Seated state
  ledger : ∀ player, state.prepaid player = state.bottomed player
  hands : state.drawsMissed = 0 → ∀ player ∈ state.seatOrder,
    (state.hand player).length + state.bottomed player = startingHandSize

/-- From one sound state to the next; only what `powder` stands for sends cards to exile. -/
structure Next (pile : ObjectId → Option PlayerId) (powder : Prop) (bottomed : PlayerId → Nat)
    (state state' : GameState Rng) : Prop where
  sound : Sound pile state'
  table : state'.table = state.table
  bottomed : state'.bottomed = bottomed
  exile : state'.exile = state.exile ∨ powder

theorem prepaid_congr (same : state'.prepaidMulliganBottoms = state.prepaidMulliganBottoms) :
    state'.prepaid = state.prepaid :=
  funext fun player => congrArg (fun ledger => (ledger player).getD 0) same

theorem prepaid_setPrepaid (player : PlayerId) (count : Nat) (other : PlayerId) :
    (state.setPrepaid player count).prepaid other =
      if other = player then count else state.prepaid other := by
  show (update state.prepaidMulliganBottoms player (some count) other).getD 0 = _
  rw [update_apply]
  split <;> rfl

/-- The last steps of a redraw: out of the returned hands, `players` hold seven and owe anew. -/
theorem Sound.redrawn {players : List PlayerId} {returned : GameState Rng} (sound : Sound pile state)
    (back : Returned pile players state returned) (rest : state'.table = returned.table)
    (exile : state'.exile = returned.exile) (bottomed : state'.bottomed = returned.bottomed)
    (prepaid : ∀ player, state'.prepaid player =
      if player ∈ players then 0 else returned.prepaid player)
    (cards : state'.Cards pile) (missed : returned.drawsMissed ≤ state'.drawsMissed)
    (hands : state'.drawsMissed = returned.drawsMissed → ∀ player, (state'.hand player).length =
      (returned.hand player).length + if player ∈ players then startingHandSize else 0) :
    Next pile False (fun player => if player ∈ players then 0 else state.bottomed player) state
      state' := by
  have table := rest.trans back.table
  have fresh : state'.bottomed =
      fun player => if player ∈ players then 0 else state.bottomed player :=
    bottomed.trans (funext back.bottomed)
  refine ⟨⟨cards, sound.seated.congr table, fun player => ?_, fun none_ player inside => ?_⟩, table,
    fresh, .inl (exile.trans back.exile)⟩
  · rw [prepaid player, fresh, prepaid_congr back.prepaid, sound.ledger player]
  · have before : returned.drawsMissed = 0 := Nat.le_zero.mp (none_ ▸ missed)
    have begin := sound.hands (back.missed ▸ before) player (seatOrder_congr table ▸ inside)
    rw [hands (none_.trans before.symm) player, back.hands player, fresh]
    by_cases redrew : player ∈ players
    · simp [redrew]
    · simpa [redrew] using begin

theorem share_map_const {players : List PlayerId} (once : players.Nodup) (n : Nat)
    (player : PlayerId) :
    Keyed.share (players.map fun p => (p, n)) player = if player ∈ players then n else 0 := by
  have keys : (players.map fun p => (p, n)).map (·.1) = players := by
    simp [comp_def]
  split
  · next inside =>
    exact Keyed.share_of_mem (keys.symm ▸ once) (mem_map.mpr ⟨player, inside, rfl⟩)
  · next absent => exact Keyed.share_of_notMem (keys.symm ▸ absent)

theorem Seated.dealSevens (seated : Seated state) (cards : state.Cards pile)
    (players : List PlayerId) (once : players.Nodup)
    (atTable : ∀ player ∈ players, player ∈ state.seatOrder) :
    Dealt pile (fun player => if player ∈ players then startingHandSize else 0) state
      (state.dealHands (players.map fun player => (player, startingHandSize))) := by
  have dealt := seated.dealHands cards (players.map fun p => (p, startingHandSize))
    (by simpa [comp_def] using once) (by simpa using atTable)
  exact (funext (share_map_const once startingHandSize)) ▸ dealt

/-- An immediate redraw. -/
theorem Sound.redraw (sound : Sound pile state) (shuffler : Shuffler Rng)
    (seat : player ∈ state.seatOrder) :
    Next pile False (fun other => if other ∈ [player] then 0 else state.bottomed other) state
      (((state.shuffleHandIntoLibrary shuffler player).drawN player startingHandSize).setPrepaid
        player 0) := by
  have back := returnHandToLibrary_returned sound.cards player
  have mixed : Shuffled pile (state.returnHandToLibrary player)
      (state.shuffleHandIntoLibrary shuffler player) := shuffleLibrary_shuffled shuffler _
  have table := mixed.rest.table.trans back.table
  have dealt := (sound.seated.congr table).dealSevens (mixed.cards back.cards) [player]
    (by simp) (by simpa [seatOrder_congr table] using seat)
  refine sound.redrawn back (dealt.rest.table.trans mixed.rest.table)
    (dealt.rest.exile.trans mixed.rest.exile) (dealt.rest.bottomed.trans mixed.rest.bottomed)
    (fun other => ?_) ⟨dealt.cards.placed, dealt.cards.piled⟩ (mixed.missed ▸ dealt.missed)
    fun same other => ?_
  · have kept := prepaid_congr (dealt.rest.prepaid.trans mixed.rest.prepaid)
    refine (prepaid_setPrepaid player 0 other).trans ?_
    simp only [mem_singleton]
    split
    · rfl
    · exact congrFun kept other
  · have hands := dealt.hands (same.trans mixed.missed.symm) other
    exact hands

theorem foldl_setPrepaid (who : α → PlayerId) (xs : List α) :
    xs.foldl (fun state x => state.setPrepaid (who x) 0) state =
      { state with
        prepaidMulliganBottoms := fun player =>
          if player ∈ xs.map who then some 0 else state.prepaidMulliganBottoms player } := by
  induction xs generalizing state with
  | nil => rfl
  | cons x xs ih =>
    refine ih.trans (congrArg (fun ledger => { state with prepaidMulliganBottoms := ledger })
      (funext fun player => ?_))
    show (if _ then _
      else update state.prepaidMulliganBottoms (who x) (some 0) player) = _
    by_cases early : player = who x <;> by_cases late : player ∈ xs.map who <;> simp [early, late]

theorem bottomSelected_left (sound : state.Cards pile) (distinct : cards.Nodup)
    (inside : ∀ card ∈ cards, card ∈ state.hand player) :
    Left pile .library player cards state (state.bottomSelected player cards) := by
  refine foldl_left (fun sound inside => ?_) sound distinct inside
  have left := moveToLibraryBottom_left sound inside
  exact ⟨left.table, left.prepaid, left.missed, left.exile, ⟨left.sound.placed, left.sound.piled⟩,
    left.hands⟩

variable (state) in
theorem bottomSelected_bottomed (player : PlayerId) (cards : List ObjectId) :
    (state.bottomSelected player cards).bottomed =
      update state.bottomed player (state.bottomed player + cards.length) := by
  induction cards generalizing state with
  | nil => exact (update_eq_self player state.bottomed).symm
  | cons card cards ih =>
    refine (ih _).trans ?_
    have moved := moveToLibraryBottom_bottomed state card
    simp only [moved, update_self, update_idem, length_cons]
    congr 1
    omega

theorem length_filter_notMem {hand : List ObjectId} (distinct : cards.Nodup) (once : hand.Nodup)
    (inside : ∀ card ∈ cards, card ∈ hand) :
    (hand.filter (· ∉ cards)).length + cards.length = hand.length := by
  have perm : (hand.filter (· ∈ cards)).Perm cards := by
    refine (perm_ext_iff_of_nodup (once.filter _) distinct).mpr fun card => ?_
    simp only [mem_filter, decide_eq_true_eq, and_iff_right_iff_imp]
    exact inside card
  rw [← perm.length_eq, Nat.add_comm]
  simpa using (length_eq_length_filter_add (l := hand) (· ∈ cards)).symm

/-- A player puts cards of its hand on the bottom, and they are credited to it. -/
theorem Sound.pay (sound : Sound pile state) (distinct : cards.Nodup)
    (inside : ∀ card ∈ cards, card ∈ state.hand player) :
    Next pile False
      (update state.bottomed player (state.bottomed player + cards.length)) state
      ((state.bottomSelected player cards).creditBottoms player cards.length) := by
  have left := bottomSelected_left sound.cards distinct inside
  have bottomed := bottomSelected_bottomed state player cards
  refine ⟨⟨⟨left.sound.placed, left.sound.piled⟩, sound.seated.congr left.table, fun other => ?_,
    fun none_ other seat => ?_⟩, left.table, bottomed, .inl (left.exile rfl)⟩
  · refine (prepaid_setPrepaid player _ other).trans ?_
    show _ = (state.bottomSelected player cards).bottomed other
    rw [bottomed, update_apply, prepaid_congr left.prepaid, sound.ledger, sound.ledger]
  · have begin := sound.hands (left.missed.symm.trans none_) other
      (seatOrder_congr left.table ▸ seat)
    show ((state.bottomSelected player cards).hand other).length +
      (state.bottomSelected player cards).bottomed other = _
    rw [left.hands other, bottomed, update_apply]
    by_cases here : other = player
    · subst here
      have lengths := length_filter_notMem distinct (sound.cards.nodup (.hand other)) inside
      simp only [if_true, container] at lengths ⊢
      omega
    · simpa [here] using begin

theorem moveToLibraryBottom_stock (cards : state.Cards pile) (inside : card ∈ state.hand player)
    (holder : PlayerId) :
    ((state.moveToLibraryBottom card).library holder).length = (state.library holder).length +
      if holder = state.librarySeat player then 1 else 0 := by
  obtain ⟨object, known, inHand, rfl, -⟩ := relocate_left cards inside .library (by simp)
  have place := container_relocate state card object .library object.owner (.library holder)
  rw [inHand] at place
  simp only [placeIn, reduceCtorEq, if_false, Place.library.injEq] at place
  rw [moveToLibraryBottom, known]
  refine (congrArg length (show (state.relocate card object .library object.owner).library
    holder = _ from place)).trans ?_
  by_cases here : holder = state.librarySeat object.owner
  · rw [if_pos here, if_pos here, length_append]
    rfl
  · rw [if_neg here, if_neg here, append_nil]
    rfl

/-- Cards of a hand that go to the bottom of its library one by one. -/
theorem foldl_stock
    (step : ∀ {state : GameState Rng} {card}, state.Cards pile → card ∈ state.hand player →
      Left pile .library player [card] state (move state card) ∧
        (move state card).library = (state.moveToLibraryBottom card).library)
    (sound : state.Cards pile) (distinct : cards.Nodup)
    (inside : ∀ card ∈ cards, card ∈ state.hand player) (holder : PlayerId) :
    ((cards.foldl move state).library holder).length = (state.library holder).length +
      if holder = state.librarySeat player then cards.length else 0 := by
  induction cards generalizing state with
  | nil => simp
  | cons card cards ih =>
    obtain ⟨new, distinct⟩ := nodup_cons.mp distinct
    have held := inside card mem_cons_self
    obtain ⟨left, same⟩ := step sound held
    have others : ∀ other ∈ cards, other ∈ (move state card).hand player := by
      intro other there
      rw [left.hands player, if_pos rfl]
      have apart : other ≠ card := fun same => new (same ▸ there)
      exact mem_filter.mpr ⟨inside other (mem_cons_of_mem card there), by simpa using apart⟩
    rw [foldl_cons, ih left.sound distinct others, same, moveToLibraryBottom_stock sound held,
      librarySeat_congr left.table, length_cons]
    split <;> omega

theorem returnHandToLibrary_stock (cards : state.Cards pile) (player holder : PlayerId) :
    ((state.returnHandToLibrary player).library holder).length = (state.library holder).length +
      if holder = state.librarySeat player then (state.hand player).length else 0 :=
  foldl_stock (fun sound inside => ⟨moveToLibraryBottom_left sound inside, rfl⟩) cards
    (cards.nodup (.hand player)) (fun _ inside => inside) holder

/-- The hands of several players go back one after the other. -/
theorem foldl_returned_stock (who : α → PlayerId) (cards : state.Cards pile) {xs : List α}
    (distinct : (xs.map who).Nodup) (holder : PlayerId) :
    ((xs.foldl (fun state x => state.returnHandToLibrary (who x)) state).library holder).length =
      (state.library holder).length +
        ((xs.filter fun x => state.librarySeat (who x) = holder).map fun x =>
          (state.hand (who x)).length).sum := by
  induction xs generalizing state with
  | nil => simp
  | cons x xs ih =>
    obtain ⟨new, distinct⟩ := nodup_cons.mp distinct
    have first := returnHandToLibrary_returned cards (who x)
    have hands : ∀ y ∈ xs, (state.returnHandToLibrary (who x)).hand (who y) =
        state.hand (who y) := by
      intro y there
      rw [first.hands, if_neg]
      intro same
      exact new (mem_map.mpr ⟨y, there, mem_singleton.mp same⟩)
    have sums : (((xs.filter fun y => (state.returnHandToLibrary (who x)).librarySeat (who y) =
        holder).map fun y => ((state.returnHandToLibrary (who x)).hand (who y)).length).sum) =
        ((xs.filter fun y => state.librarySeat (who y) = holder).map fun y =>
          (state.hand (who y)).length).sum := by
      rw [librarySeat_congr first.table]
      exact congrArg sum (map_congr_left fun y there =>
        congrArg length (hands y (mem_of_mem_filter there)))
    rw [foldl_cons, ih first.cards distinct, sums, returnHandToLibrary_stock cards]
    by_cases here : state.librarySeat (who x) = holder
    · rw [filter_cons_of_pos (by simpa using here), if_pos here.symm, map_cons, sum_cons]
      omega
    · rw [filter_cons_of_neg (by simpa using here), if_neg (Ne.symm here), Nat.add_zero]

theorem shuffleLibrary_stock (shuffler : Shuffler Rng) (shuffled holder : PlayerId) :
    ((state.shuffleLibrary shuffler shuffled).library holder).length =
      (state.library holder).length := by
  show (update state.library _ _ holder).length = _
  rw [update_apply]
  split
  · next same =>
    subst same
    exact (shuffler.perm _ _).length_eq
  · rfl

theorem foldl_shuffleLibraryOf_stock (shuffler : Shuffler Rng) (players : List PlayerId)
    (holder : PlayerId) :
    ((players.foldl (fun state player => state.shuffleLibraryOf shuffler player) state).library
      holder).length = (state.library holder).length := by
  induction players generalizing state with
  | nil => rfl
  | cons player players ih => rw [foldl_cons, ih, shuffleLibraryOf, shuffleLibrary_stock]

theorem bottomSelected_stock (sound : state.Cards pile) (distinct : cards.Nodup)
    (inside : ∀ card ∈ cards, card ∈ state.hand player) (holder : PlayerId) :
    ((state.bottomSelected player cards).library holder).length = (state.library holder).length +
      if holder = state.librarySeat player then cards.length else 0 := by
  refine foldl_stock (fun sound inside => ?_) sound distinct inside holder
  have left := moveToLibraryBottom_left sound inside
  exact ⟨⟨left.table, left.prepaid, left.missed, left.exile, ⟨left.sound.placed, left.sound.piled⟩,
    left.hands⟩, rfl⟩

/-- The hand after a redraw: seven cards, or all that hand and library hold. -/
theorem redraw_hand (cards : state.Cards pile) (seated : Seated state) (shuffler : Shuffler Rng)
    (seat : player ∈ state.seatOrder) :
    (((state.shuffleHandIntoLibrary shuffler player).drawN player startingHandSize).hand
      player).length = min startingHandSize ((state.hand player).length +
        (state.libraryOf player).length) := by
  have back := returnHandToLibrary_returned cards player
  have mixed : Shuffled pile (state.returnHandToLibrary player)
      (state.shuffleHandIntoLibrary shuffler player) := shuffleLibrary_shuffled shuffler _
  have table := mixed.rest.table.trans back.table
  have stock : ((state.shuffleHandIntoLibrary shuffler player).library
      (state.librarySeat player)).length =
      (state.hand player).length + (state.libraryOf player).length := by
    have shuffled : ((state.shuffleHandIntoLibrary shuffler player).library
        (state.librarySeat player)).length =
        ((state.returnHandToLibrary player).library (state.librarySeat player)).length :=
      foldl_shuffleLibraryOf_stock shuffler [player] (state.librarySeat player)
    rw [returnHandToLibrary_stock cards, if_pos rfl] at shuffled
    exact shuffled.trans (Nat.add_comm _ _)
  have empty : (state.shuffleHandIntoLibrary shuffler player).hand player = [] := by
    rw [mixed.hands, back.hands, if_pos mem_cons_self]
  rw [drawN, dealHands, (seated.congr table).dealSequence_one startingHandSize
    (seatOrder_congr table ▸ seat), foldl_drawOne_hand (mixed.cards back.cards), empty,
    GameState.drawn, librarySeat_congr table, stock]
  simp [Nat.min_comm]

def GameState.IsSerumPowder (state : GameState Rng) (card : ObjectId) : Prop :=
  ∃ object, state.objects card = some object ∧ object.name.toLower = serumPowderName

theorem isSerumPowder_congr (same : state'.table = state.table) (card : ObjectId) :
    state'.IsSerumPowder card ↔ state.IsSerumPowder card := by
  simp only [table, Prod.mk.injEq] at same
  have faces := congrFun same.2.2.2.2.2.2.2 card
  have named : ∀ s : GameState Rng, s.IsSerumPowder card ↔
      ∃ face, (s.objects card).map (fun o => (o.name, o.isLand)) = some face ∧
        face.1.toLower = serumPowderName := by
    intro s
    cases known : s.objects card <;> simp [IsSerumPowder, known]
  rw [named, named, faces]

theorem validateSerumPowderReference_ok
    (valid : state.validateSerumPowderReference player card = .ok ()) :
    card ∈ state.hand player ∧ state.IsSerumPowder card := by
  rw [validateSerumPowderReference] at valid
  split at valid
  · cases valid
  · next held =>
    refine ⟨not_not.mp held, ?_⟩
    split at valid
    · cases valid
    · next object known =>
      split at valid
      · cases valid
      · next named => exact ⟨object, known, not_not.mp named⟩

/-- The hand goes to exile, and as many cards are drawn. -/
theorem Sound.powder (sound : Sound pile state) (seat : player ∈ state.seatOrder)
    (done : state.handleSerumPowder player card = .ok state') :
    Next pile (card ∈ state.hand player ∧ state.IsSerumPowder card) state.bottomed state
      state' := by
  obtain ⟨_, valid, result⟩ := Fallible.bind_eq_ok.mp done
  have shown := validateSerumPowderReference_ok valid
  obtain rfl := Fallible.pure_eq_ok.mp result
  have left : Left pile .exile player (state.hand player) state
      ((state.hand player).foldl (fun state card => state.moveObject card .exile none) state) :=
    foldl_left (fun sound inside => moveToExile_left sound inside) sound.cards
      (sound.cards.nodup (.hand player)) fun _ inside => inside
  have dealt := (sound.seated.congr left.table).dealHands left.sound
    [(player, (state.hand player).length)] (by simp)
    (by simpa [seatOrder_congr left.table] using seat)
  have table := dealt.rest.table.trans left.table
  have bottomed := dealt.rest.bottomed.trans
    (foldl_bottomed moveToExile_bottomed (state.hand player))
  refine ⟨⟨dealt.cards, sound.seated.congr table, fun other => ?_, fun none_ other there => ?_⟩,
    table, bottomed, .inr shown⟩
  · refine (congrFun (prepaid_congr (dealt.rest.prepaid.trans left.prepaid)) other).trans ?_
    exact (sound.ledger other).trans (congrFun bottomed other).symm
  · have exiled := Nat.le_zero.mp (none_ ▸ dealt.missed)
    have begin := sound.hands (left.missed.symm.trans exiled) other (seatOrder_congr table ▸ there)
    have drawn := dealt.hands (none_.trans exiled.symm) other
    have rest := left.hands other
    rw [← begin, ← congrFun bottomed other]
    refine congrArg (· + _) (drawn.trans ?_)
    rw [rest]
    by_cases here : other = player
    · subst here
      have emptied : (state.hand other).filter (· ∉ state.hand other) = [] :=
        filter_eq_nil_iff.mpr fun card inside out => of_decide_eq_true out inside
      have share : Keyed.share [(other, (state.hand other).length)] other = _ :=
        Keyed.share_of_mem (by simp) mem_cons_self
      rw [if_pos rfl, emptied, share]
      exact Nat.zero_add _
    · have share : Keyed.share [(player, (state.hand player).length)] other = 0 :=
        Keyed.share_of_notMem (by simpa using here)
      rw [if_neg here, share, Nat.add_zero]

end Phase.Mulligan
