import Phase.Mulligan.Account

/-! Whether everyone whom the procedure waits for has an answer that is accepted. -/
namespace Phase.Mulligan
open GameState Fallible World

variable {Rng : Type} {state state' : GameState Rng} {pile : ObjectId → Option PlayerId}
  {counts : PlayerId → Nat}

namespace GameState
variable (state : GameState Rng)

/-- The cards a player may bottom: the Serum Powder that waits for the bottoms is not one of them. -/
def selectable (player : PlayerId) : PendingMulliganAction → List ObjectId
  | .keep => state.hand player
  | .useSerumPowder card => (state.hand player).filter (· ≠ card)

/-- The bottoms demanded do not exceed the cards that can be selected. -/
def CanPay (entry : MulliganDecisionEntry) : Prop :=
  match entry.phase with
  | .declare => True
  | .bottomCards count next => count ≤ (state.selectable entry.player next).length

/-- A Serum Powder that waits is in hand. -/
def Holds (entry : MulliganDecisionEntry) : Prop :=
  ∀ count card, entry.phase = .bottomCards count (.useSerumPowder card) →
    card ∈ state.hand entry.player ∧ state.IsSerumPowder card

end GameState

variable {entry : MulliganDecisionEntry} {card : ObjectId} {next : PendingMulliganAction}

theorem canPay_declare (ready : entry.phase = .declare) : state.CanPay entry := by
  rw [CanPay, ready]
  trivial

theorem holds_declare (ready : entry.phase = .declare) : state.Holds entry := by
  intro count card parked
  rw [ready] at parked
  cases parked

/-- Nothing but the hand of the player decides it. -/
theorem canPay_congr (hand : state'.hand entry.player = state.hand entry.player) :
    state'.CanPay entry ↔ state.CanPay entry := by
  rw [CanPay, CanPay]
  cases entry.phase with
  | declare => exact Iff.rfl
  | bottomCards count next => cases next <;> simp only [selectable, hand]

theorem holds_congr (table : state'.table = state.table)
    (hand : state'.hand entry.player = state.hand entry.player) (holds : state.Holds entry) :
    state'.Holds entry := by
  intro count card parked
  rw [hand, isSerumPowder_congr table]
  exact holds count card parked

variable {cards : List ObjectId} {player : PlayerId}

theorem validateSelected_of {seen : List ObjectId} (distinct : cards.Nodup)
    (inside : ∀ card ∈ cards, card ∉ seen ∧ card ∈ state.hand player) :
    validateBottomSelection.validateSelected state player seen cards = .ok () := by
  induction cards generalizing seen with
  | nil => rfl
  | cons card cards ih =>
    obtain ⟨new, distinct⟩ := List.nodup_cons.mp distinct
    obtain ⟨unseen, held⟩ := inside card List.mem_cons_self
    rw [validateBottomSelection.validateSelected, if_neg unseen, if_neg (not_not.mpr held)]
    refine ih distinct fun other there => ?_
    obtain ⟨unseen, held⟩ := inside other (List.mem_cons_of_mem card there)
    refine ⟨fun again => ?_, held⟩
    rcases List.mem_cons.mp again with rfl | again
    · exact new there
    · exact unseen again

theorem validateBottomSelection_of (distinct : cards.Nodup)
    (inside : ∀ card ∈ cards, card ∈ state.hand player) :
    state.validateBottomSelection player cards cards.length = .ok () := by
  rw [validateBottomSelection, if_neg (not_not.mpr rfl)]
  exact validateSelected_of distinct fun card there => ⟨List.not_mem_nil, inside card there⟩

theorem validateSerumPowderReference_of (held : card ∈ state.hand player)
    (named : state.IsSerumPowder card) :
    state.validateSerumPowderReference player card = .ok () := by
  obtain ⟨object, known, name⟩ := named
  rw [validateSerumPowderReference, if_neg (not_not.mpr held), known]
  exact if_neg (not_not.mpr name)

theorem rejectCommitted_ok :
    rejectCommitted cards next = .ok () ↔ ∀ card, next = .useSerumPowder card → card ∉ cards := by
  cases next with
  | keep => exact ⟨fun _ _ same => (nomatch same), fun _ => rfl⟩
  | useSerumPowder card =>
    rw [rejectCommitted, ite_error_eq_ok]
    constructor
    · rintro ⟨out, -⟩ _ ⟨⟩
      exact out
    · exact fun out => ⟨out card rfl, rfl⟩

/-- An accepted selection is made of selectable cards. -/
theorem mem_selectable :
    card ∈ state.selectable player next ↔
      card ∈ state.hand player ∧ ∀ committed, next = .useSerumPowder committed → card ≠ committed := by
  cases next with
  | keep => simp [selectable]
  | useSerumPowder committed => simp [selectable]

theorem selectable_nodup (cards : state.Cards pile) (player : PlayerId)
    (next : PendingMulliganAction) : (state.selectable player next).Nodup := by
  have once := cards.nodup (.hand player)
  cases next with
  | keep => exact once
  | useSerumPowder card => exact once.filter _

/-- The entry of a pending player. -/
theorem find_pending {α : Type} {who : α → PlayerId} {pending : List α} {entry : α}
    (distinct : (pending.map who).Nodup) (inside : entry ∈ pending) :
    ∃ idx, pending.findIdx? (fun e => who e = who entry) = some idx ∧
      pending[idx]? = some entry := by
  cases found : pending.findIdx? (fun e => who e = who entry) with
  | none => simpa using List.findIdx?_eq_none_iff.mp found entry inside
  | some idx =>
    obtain ⟨before, other, after, rfl, own, rfl, at_⟩ := split_pending found
    refine ⟨_, rfl, ?_⟩
    rw [at_, List.inj_on_of_nodup_map distinct (by simp) inside own]

variable {pending : List MulliganDecisionEntry}

section
variable (sound : Sound pile state) (shuffler : Shuffler Rng) (freeFirst : Bool)
  (declared : List MulliganDeclaration) (distinct : (pending.map (·.player)).Nodup)
  (inside : entry ∈ pending)
include sound shuffler freeFirst declared distinct inside

/-- A player at a declare point may keep. -/
theorem keep_accepted (ready : entry.phase = .declare) :
    ∃ result, state.handleMulliganDecision shuffler (.mulliganDecision pending freeFirst declared)
      entry.player .keep = .ok result := by
  obtain ⟨idx, found, at_⟩ := find_pending distinct inside
  simp only [handleMulliganDecision, found, at_, ready, ne_eq, not_true_eq_false, if_false]
  rw [decideEntry, sound.owed]
  exact ⟨_, rfl⟩

/-- A player that owes bottoms has a selection that is accepted if enough can be selected. -/
theorem bottoms_accepted {count : Nat} (parked : entry.phase = .bottomCards count next)
    (canPay : state.CanPay entry) (holds : state.Holds entry) :
    ∃ cards result, state.handleMulliganBottom shuffler
      (.mulliganDecision pending freeFirst declared) entry.player cards = .ok result := by
  obtain ⟨idx, found, at_⟩ := find_pending distinct inside
  rw [CanPay, parked] at canPay
  let cards := (state.selectable entry.player next).take count
  have length : cards.length = count := List.length_take_of_le canPay
  have chosen : cards.Nodup :=
    (selectable_nodup sound.cards entry.player next).sublist (List.take_sublist _ _)
  have free : ∀ card ∈ cards, card ∈ state.hand entry.player ∧
      ∀ committed, next = .useSerumPowder committed → card ≠ committed := fun card there =>
    mem_selectable.mp (List.mem_of_mem_take there)
  have committed : rejectCommitted cards next = .ok () :=
    rejectCommitted_ok.mpr fun card same there => (free card there).2 card same rfl
  have valid : state.validateBottomSelection entry.player cards count = .ok () :=
    length ▸ validateBottomSelection_of chosen fun card there => (free card there).1
  have left := bottomSelected_left sound.cards chosen fun card there => (free card there).1
  obtain ⟨result, paid⟩ : ∃ result, ((state.bottomSelected entry.player cards).creditBottoms
      entry.player count).payEntry entry next = .ok result := by
    cases next with
    | keep => exact ⟨_, rfl⟩
    | useSerumPowder card =>
      obtain ⟨held, named⟩ := holds count card parked
      have stays : card ∈ (state.bottomSelected entry.player cards).hand entry.player := by
        rw [left.hands, if_pos rfl]
        exact List.mem_filter.mpr ⟨held, by simpa using fun there => (free card there).2 card rfl rfl⟩
      have reference : ((state.bottomSelected entry.player cards).creditBottoms entry.player
          count).validateSerumPowderReference entry.player card = .ok () :=
        validateSerumPowderReference_of stays ((isSerumPowder_congr left.table card).mpr named)
      rw [payEntry, handleSerumPowder, reference]
      exact ⟨_, rfl⟩
  refine ⟨cards, ?_⟩
  simp only [handleMulliganBottom, found, at_, parked, committed, valid, paid, ok_bind]
  exact ⟨_, rfl⟩

end

/-- A selection that is accepted is made of as many selectable cards as are demanded. -/
theorem canPay_of_bottoms {count : Nat} (parked : entry.phase = .bottomCards count next)
    (committed : rejectCommitted cards next = .ok ())
    (valid : state.validateBottomSelection entry.player cards count = .ok ()) :
    state.CanPay entry := by
  obtain ⟨rfl, distinct, inside⟩ := validateBottomSelection_ok valid
  rw [CanPay, parked]
  have subset : cards ⊆ state.selectable entry.player next := fun card there =>
    mem_selectable.mpr ⟨inside card there, fun other same differ =>
      rejectCommitted_ok.mp committed other same (differ ▸ there)⟩
  exact (List.subperm_of_subset distinct subset).length_le

theorem opening_accepted {pending : List MulliganBottomEntry} {entry : MulliganBottomEntry}
    (distinct : (pending.map (·.player)).Nodup) (inside : entry ∈ pending)
    (valid : state.validateBottomSelection entry.player cards entry.count = .ok ()) :
    ∃ result, state.handleOpeningHandBottom (.openingHandBottomCards pending) entry.player cards =
      .ok result := by
  obtain ⟨idx, found, at_⟩ := find_pending distinct inside
  simp only [handleOpeningHandBottom, found, at_, valid, ok_bind]
  split <;> exact ⟨_, rfl⟩

/-- Nobody is asked for more cards than it can select. -/
def GameState.Payable (state : GameState Rng) : WaitingFor → Prop
  | .openingHandBottomCards pending =>
    ∀ entry ∈ pending, entry.count ≤ (state.hand entry.player).length
  | .mulliganDecision pending _ _ => ∀ entry ∈ pending, state.CanPay entry
  | .begun => True

/-- Every Serum Powder that waits is in hand. -/
def GameState.HoldsAll (state : GameState Rng) : WaitingFor → Prop
  | .mulliganDecision pending _ _ => ∀ entry ∈ pending, state.Holds entry
  | _ => True

namespace World

/-- The players on the pending list. -/
def pendingPlayers (w : World Rng) : List PlayerId :=
  match w.waitingFor with
  | .openingHandBottomCards pending => pending.map (·.player)
  | .mulliganDecision pending _ _ => pending.map (·.player)
  | .begun => []

/-- Each of them has an answer that is accepted. -/
def Unstuck (shuffler : Shuffler Rng) (w : World Rng) : Prop :=
  ∀ player ∈ w.pendingPlayers, ∃ answer w', w.step shuffler player answer = .ok w'

def Payable (w : World Rng) : Prop := w.state.Payable w.waitingFor

def Holds (w : World Rng) : Prop := w.state.HoldsAll w.waitingFor

end World

variable {shuffler : Shuffler Rng}

theorem step_of_apply {w : World Rng} {answer : Answer} {result : WaitingFor × GameState Rng}
    (applied : w.state.apply shuffler w.waitingFor player answer = .ok result) :
    ∃ w', w.step shuffler player answer = .ok w' := by
  rw [step, applied]
  exact ⟨_, rfl⟩

/-- A player is stuck exactly when it is asked for more cards than it can select. -/
theorem Stage.unstuck_iff {w : World Rng} (stage : Stage pile w.counts w.state w.waitingFor)
    (holds : w.Holds) : w.Unstuck shuffler ↔ w.Payable := by
  rw [World.Unstuck, World.Payable, World.pendingPlayers]
  rw [World.Holds] at holds
  cases asked : w.waitingFor with
  | begun => exact ⟨fun _ => trivial, fun _ _ pends => (nomatch pends)⟩
  | openingHandBottomCards pending =>
    rw [asked] at stage
    cases stage with
    | opening some_ sound distinct =>
      constructor
      · intro unstuck entry inside
        obtain ⟨answer, w', done⟩ := unstuck entry.player (List.mem_map_of_mem inside)
        obtain ⟨result, applied, -⟩ := bind_eq_ok.mp done
        rw [asked] at applied
        cases answer with
        | decision choice => cases applied
        | cards selected =>
          obtain ⟨before, other, after, rfl, own, valid, -⟩ :=
            handleOpeningHandBottom_ok applied
          obtain ⟨length, chosen, held⟩ := validateBottomSelection_ok valid
          rw [← List.inj_on_of_nodup_map distinct (by simp) inside own, ← length, own]
          exact (List.subperm_of_subset chosen held).length_le
      · intro payable player pends
        obtain ⟨entry, inside, rfl⟩ := List.mem_map.mp pends
        have valid : w.state.validateBottomSelection entry.player
            ((w.state.hand entry.player).take entry.count) entry.count = .ok () := by
          have length := List.length_take_of_le (payable entry inside)
          have selected : w.state.validateBottomSelection entry.player
              ((w.state.hand entry.player).take entry.count)
              ((w.state.hand entry.player).take entry.count).length = .ok () :=
            validateBottomSelection_of
              ((sound.cards.nodup (.hand entry.player)).sublist (List.take_sublist ..))
              fun card there => List.mem_of_mem_take there
          rwa [length] at selected
        obtain ⟨result, accepted⟩ := opening_accepted distinct inside valid
        have applied : w.state.apply shuffler w.waitingFor entry.player
            (.cards ((w.state.hand entry.player).take entry.count)) = .ok result := by
          rw [asked]
          exact accepted
        exact ⟨_, step_of_apply applied⟩
  | mulliganDecision pending freeFirst declared =>
    rw [asked] at stage holds
    cases stage with
    | deciding some_ deciding =>
      have distinct := deciding.distinct.of_append_left
      constructor
      · intro unstuck entry inside
        obtain ⟨answer, w', done⟩ := unstuck entry.player (List.mem_map_of_mem inside)
        obtain ⟨result, applied, -⟩ := bind_eq_ok.mp done
        rw [asked] at applied
        cases answer with
        | decision choice =>
          replace applied : w.state.handleMulliganDecision shuffler
            (.mulliganDecision pending w.state.freeFirstMulligan declared) entry.player
            choice = .ok result := applied
          obtain ⟨before, other, after, _, _, _, rfl, own, ready, -⟩ :=
            handleMulliganDecision_ok applied
          rw [← List.inj_on_of_nodup_map distinct (by simp) inside own]
          exact canPay_declare ready
        | cards selected =>
          obtain ⟨before, other, after, count, next, _, _, rfl, own, parked, committed, valid,
            -⟩ := handleMulliganBottom_ok applied
          rw [← List.inj_on_of_nodup_map distinct (by simp) inside own]
          exact canPay_of_bottoms parked committed (own.symm ▸ valid)
      · intro payable player pends
        obtain ⟨entry, inside, rfl⟩ := List.mem_map.mp pends
        cases phase : entry.phase with
        | declare =>
          obtain ⟨result, accepted⟩ := keep_accepted deciding.sound shuffler
            w.state.freeFirstMulligan declared distinct inside phase
          have applied : w.state.apply shuffler w.waitingFor entry.player
              (.decision .keep) = .ok result := by
            rw [asked]
            exact accepted
          exact ⟨_, step_of_apply applied⟩
        | bottomCards count next =>
          obtain ⟨cards, result, accepted⟩ := bottoms_accepted deciding.sound shuffler
            w.state.freeFirstMulligan declared distinct inside phase (payable entry inside)
            (holds entry inside)
          have applied : w.state.apply shuffler w.waitingFor entry.player
              (.cards cards) = .ok result := by
            rw [asked]
            exact accepted
          exact ⟨_, step_of_apply applied⟩

namespace GameState
variable (state : GameState Rng)

/-- What the player still owes when it keeps. -/
def owed (entry : MulliganDecisionEntry) : Nat :=
  bottomCountFor entry.mulliganCount state.freeFirstMulligan - state.prepaid entry.player

/-- The hand covers what the choice makes the player owe: a Serum Powder itself is not bottomed, and
the last mulligan owes all seven cards of the new hand. -/
def Covers (entry : MulliganDecisionEntry) : MulliganChoice → Prop
  | .keep => state.owed entry ≤ (state.hand entry.player).length
  | .useSerumPowder _ =>
    state.owed entry = 0 ∨ state.owed entry < (state.hand entry.player).length
  | .mulligan => state.mulliganTiming = .immediate →
      maxMulligansFor state.freeFirstMulligan ≤ entry.mulliganCount + 1 →
      startingHandSize ≤ (state.hand entry.player).length + (state.libraryOf entry.player).length
  | .freeReveal => True

/-- The declarations held once the choice has taken the player off the pending list. -/
def declaredAfter (entry : MulliganDecisionEntry) (declared : List MulliganDeclaration) :
    MulliganChoice → Option (List MulliganDeclaration)
  | .keep => if state.owed entry = 0 then some declared else none
  | .useSerumPowder _ => none
  | .mulligan => if state.mulliganTiming = .simultaneous then
      some (declared ++ [⟨entry.player, entry.mulliganCount, entry.freeRevealsTaken, .regular⟩])
      else none
  | .freeReveal => if state.mulliganTiming = .simultaneous then
      some (declared ++ [⟨entry.player, entry.mulliganCount, entry.freeRevealsTaken, .freeReveal⟩])
      else none

/-- The round that closes deals seven cards to each declarer that has come to its last mulligan,
when `added` more cards are in the libraries. -/
def RoundCovered (declared : List MulliganDeclaration) (added : PlayerId → Nat) : Prop :=
  ∀ d ∈ declared, maxMulligansFor state.freeFirstMulligan ≤ (openEntry d).mulliganCount →
    startingHandSize ≤ state.drawn (state.roundDraws declared)
      (fun holder => state.roundStock declared holder + added holder) d.player

end GameState

/-- What an answer of `player` leaves alone. -/
structure Frame (player : PlayerId) (state state' : GameState Rng) : Prop where
  table : state'.table = state.table
  hands : ∀ other, other ≠ player → state'.hand other = state.hand other

theorem Frame.refl (player : PlayerId) : Frame player state state := ⟨rfl, fun _ _ => rfl⟩

theorem Frame.trans {middle : GameState Rng} (first : Frame player state middle)
    (second : Frame player middle state') : Frame player state state' where
  table := second.table.trans first.table
  hands := fun other apart => (second.hands other apart).trans (first.hands other apart)

theorem bottomCountFor_max (freeFirst : Bool) :
    bottomCountFor (maxMulligansFor freeFirst) freeFirst = startingHandSize := by
  cases freeFirst <;> rfl

/-- Where a choice leaves its player: waiting, and owing what the hand covers or does not, or off
the pending list. -/
structure Decided (entry : MulliganDecisionEntry) (declared : List MulliganDeclaration)
    (choice : MulliganChoice) (state : GameState Rng) (kept : Option MulliganDecisionEntry)
    (declared' : List MulliganDeclaration) (state' : GameState Rng) : Prop where
  frame : Frame entry.player state state'
  waits : ∀ entry' ∈ kept, entry'.player = entry.player ∧
    (state'.CanPay entry' ↔ state.Covers entry choice) ∧ state'.Holds entry' ∧
    state.declaredAfter entry declared choice = none
  leaves : kept = none → state' = state ∧ state.Covers entry choice ∧
    state.declaredAfter entry declared choice = some declared'

theorem handleSerumPowder_frame (sound : Sound pile state)
    (done : state.handleSerumPowder player card = .ok state') : Frame player state state' := by
  obtain ⟨_, valid, result⟩ := bind_eq_ok.mp done
  obtain rfl := pure_eq_ok.mp result
  have left : Left pile .exile player (state.hand player) state
      ((state.hand player).foldl (fun state card => state.moveObject card .exile none) state) :=
    foldl_left (fun sound inside => moveToExile_left sound inside) sound.cards
      (sound.cards.nodup (.hand player)) fun _ inside => inside
  have dealt := foldl_drawOne_dealt left.sound
    (((state.hand player).foldl (fun state card => state.moveObject card .exile none)
      state).dealSequence [(player, (state.hand player).length)])
  refine ⟨dealt.rest.table.trans left.table, fun other apart => ?_⟩
  refine (foldl_drawOne_others left.sound fun inside => apart ?_).trans
    ((left.hands other).trans (if_neg apart))
  simpa using mem_dealSequence inside

theorem redraw_frame (sound : Sound pile state) (shuffler : Shuffler Rng) :
    Frame player state
      ((state.shuffleHandIntoLibrary shuffler player).drawN player startingHandSize) := by
  have back := returnHandToLibrary_returned sound.cards player
  have mixed : Shuffled pile (state.returnHandToLibrary player)
      (state.shuffleHandIntoLibrary shuffler player) := shuffleLibrary_shuffled shuffler _
  have dealt := foldl_drawOne_dealt (mixed.cards back.cards)
    ((state.shuffleHandIntoLibrary shuffler player).dealSequence [(player, startingHandSize)])
  refine ⟨dealt.rest.table.trans (mixed.rest.table.trans back.table), fun other apart => ?_⟩
  refine (foldl_drawOne_others (mixed.cards back.cards) fun inside => apart ?_).trans ?_
  · simpa using mem_dealSequence inside
  · rw [mixed.hands, back.hands, if_neg (by simpa using apart)]

theorem resolveDeclarePoint_keep (entry : MulliganDecisionEntry) (freeFirst : Bool) :
    state.resolveDeclarePoint entry freeFirst .keep =
      .ok (if bottomCountFor entry.mulliganCount freeFirst - state.prepaid entry.player = 0 then none
        else some { entry with
          phase := .bottomCards
            (bottomCountFor entry.mulliganCount freeFirst - state.prepaid entry.player) .keep },
        state) := by
  rw [resolveDeclarePoint]
  split <;> rfl

section
variable {entry : MulliganDecisionEntry} {declared declared' : List MulliganDeclaration}
  {kept : Option MulliganDecisionEntry}

variable {shuffler : Shuffler Rng}

theorem decided_keep
    (done : state.decideEntry shuffler entry declared state.freeFirstMulligan .keep =
      .ok (kept, declared', state')) :
    Decided entry declared .keep state kept declared' state' := by
  rw [decideEntry, resolveDeclarePoint_keep] at done
  cases pure_eq_ok.mp done
  refine ⟨.refl _, fun entry' waits => ?_, fun gone => ?_⟩
  · split at waits
    · cases waits
    · next owing =>
      cases waits
      exact ⟨rfl, Iff.rfl, fun _ _ parked => (by cases parked), if_neg owing⟩
  · split at gone
    · next paid =>
      exact ⟨rfl, (Nat.le_of_eq paid).trans (Nat.zero_le _), if_pos paid⟩
    · cases gone

theorem decided_powder (sound : Sound pile state) (ready : entry.phase = .declare) {card : ObjectId}
    (done : state.decideEntry shuffler entry declared state.freeFirstMulligan
      (.useSerumPowder card) = .ok (kept, declared', state')) :
    Decided entry declared (.useSerumPowder card) state kept declared' state' := by
  obtain ⟨_, valid, done⟩ := bind_eq_ok.mp done
  obtain ⟨⟨kept', last⟩, resolved, result⟩ := bind_eq_ok.mp done
  cases pure_eq_ok.mp result
  have held := validateSerumPowderReference_ok valid
  rw [resolveDeclarePoint] at resolved
  split at resolved
  · next paid =>
    obtain ⟨after, used, result⟩ := bind_eq_ok.mp resolved
    cases pure_eq_ok.mp result
    refine ⟨handleSerumPowder_frame sound used, fun entry' waits => ?_, fun gone => (by cases gone)⟩
    cases waits
    exact ⟨rfl, ⟨fun _ => .inl paid, fun _ => canPay_declare ready⟩, holds_declare ready, rfl⟩
  · next owing =>
    cases pure_eq_ok.mp resolved
    refine ⟨.refl _, fun entry' waits => ?_, fun gone => (by cases gone)⟩
    cases waits
    refine ⟨rfl, ?_, fun _ _ parked => ?_, rfl⟩
    · have once : (state.hand entry.player).Nodup := sound.cards.nodup (.hand entry.player)
      have rest : ((state.hand entry.player).filter (· ≠ card)).length + 1 =
          (state.hand entry.player).length := by
        have rest := length_filter_notMem (List.nodup_singleton card) once (by simpa using held.1)
        simpa only [List.mem_singleton, List.length_singleton] using rest
      show state.owed entry ≤ ((state.hand entry.player).filter (· ≠ card)).length ↔
        state.owed entry = 0 ∨ state.owed entry < (state.hand entry.player).length
      omega
    · cases parked
      exact held

section
variable (sound : Sound pile state) (seat : entry.player ∈ state.seatOrder)
  (ready : entry.phase = .declare)
  (below : entry.mulliganCount < maxMulligansFor state.freeFirstMulligan)
include sound seat ready below

theorem decided_mulligan
    (done : state.decideEntry shuffler entry declared state.freeFirstMulligan .mulligan =
      .ok (kept, declared', state')) :
    Decided entry declared .mulligan state kept declared' state' := by
  simp only [decideEntry] at done
  cases timing : state.mulliganTiming with
  | simultaneous =>
    simp only [timing] at done
    cases pure_eq_ok.mp done
    have covers : state.Covers entry .mulligan := fun immediate => by
      rw [timing] at immediate
      cases immediate
    exact ⟨.refl _, fun _ waits => (by cases waits), fun _ => ⟨rfl, covers, if_pos timing⟩⟩
  | immediate =>
    simp only [timing] at done
    have frame : Frame entry.player state ((state.shuffleHandIntoLibrary shuffler
        entry.player).drawN entry.player startingHandSize) := redraw_frame sound shuffler
    have drawn := redraw_hand sound.cards sound.seated shuffler seat
    have undeclared : state.declaredAfter entry declared .mulligan = none :=
      if_neg (by rw [timing]; decide)
    split at done
    · next cap =>
      rw [resolveDeclarePoint_keep] at done
      cases pure_eq_ok.mp done
      have most : entry.mulliganCount + 1 = maxMulligansFor state.freeFirstMulligan :=
        Nat.le_antisymm below cap
      simp only [most, bottomCountFor_max, prepaid_setPrepaid, if_true, Nat.sub_zero,
        show startingHandSize ≠ 0 from by decide, if_false]
      refine ⟨⟨frame.table, frame.hands⟩, fun entry' waits => ?_, fun gone => (by cases gone)⟩
      cases waits
      refine ⟨rfl, ?_, fun _ _ parked => (by cases parked), undeclared⟩
      refine (show _ ↔ startingHandSize ≤ _ from Iff.of_eq (congrArg (startingHandSize ≤ ·)
        drawn)).trans ⟨fun enough _ _ => enough.trans (Nat.min_le_right _ _), fun covers =>
          Nat.le_min.mpr ⟨Nat.le_refl _, covers timing cap⟩⟩
    · next room =>
      cases pure_eq_ok.mp done
      refine ⟨⟨frame.table, frame.hands⟩, fun entry' waits => ?_, fun gone => (by cases gone)⟩
      cases waits
      exact ⟨rfl, ⟨fun _ _ cap => absurd cap room, fun _ => canPay_declare ready⟩,
        holds_declare ready, undeclared⟩

theorem Sound.decided {choice : MulliganChoice}
    (done : state.decideEntry shuffler entry declared state.freeFirstMulligan choice =
      .ok (kept, declared', state')) :
    Decided entry declared choice state kept declared' state' := by
  cases choice with
  | keep => exact decided_keep done
  | mulligan => exact decided_mulligan sound seat ready below done
  | useSerumPowder card => exact decided_powder sound ready done
  | freeReveal =>
    obtain ⟨offered, done⟩ := ite_error_eq_ok.mp done
    have timing := freeReveal_simultaneous (by simpa using offered)
    simp only [timing] at done
    cases pure_eq_ok.mp done
    exact ⟨.refl _, fun _ waits => (nomatch waits), fun _ => ⟨rfl, trivial, if_pos timing⟩⟩

end

end

variable {declared : List MulliganDeclaration}

theorem roundCovered_congr {added : PlayerId → Nat} (table : state'.table = state.table)
    (stock : ∀ holder, state'.roundStock declared holder =
      state.roundStock declared holder + added holder) :
    state'.RoundCovered declared (fun _ => 0) ↔ state.RoundCovered declared added := by
  have draws : state'.roundDraws declared = state.roundDraws declared := by
    rw [roundDraws, roundDraws, dealSequence_congr table, redrawers, redrawers,
      seatWalk_congr table]
  simp only [RoundCovered, freeFirstMulligan_congr table, draws, GameState.drawn,
    librarySeat_congr table, stock, Nat.add_zero]

section
variable {entry : MulliganDecisionEntry} {kept : Option MulliganDecisionEntry}

/-- Bottoms that were paid, and what was waiting for them. -/
theorem Sound.paid_frame (sound : Sound pile state)
    {count : Nat} {next : PendingMulliganAction} {cards : List ObjectId}
    (valid : state.validateBottomSelection entry.player cards count = .ok ())
    (done : ((state.bottomSelected entry.player cards).creditBottoms entry.player count).payEntry
      entry next = .ok (kept, state')) :
    Frame entry.player state state' ∧
      (∀ entry' ∈ kept, entry'.player = entry.player ∧ entry'.phase = .declare ∧ next ≠ .keep) ∧
      (kept = none → next = .keep ∧ ∀ declared : List MulliganDeclaration,
        entry.player ∉ declared.map (·.player) → ∀ holder, state'.roundStock declared holder =
          state.roundStock declared holder +
            if holder = state.librarySeat entry.player then cards.length else 0) := by
  obtain ⟨rfl, distinct, inside⟩ := validateBottomSelection_ok valid
  have left := bottomSelected_left sound.cards distinct inside
  have bottomed : Frame entry.player state
      ((state.bottomSelected entry.player cards).creditBottoms entry.player cards.length) :=
    ⟨left.table, fun other apart => (left.hands other).trans (if_neg apart)⟩
  cases next with
  | keep =>
    cases pure_eq_ok.mp done
    refine ⟨bottomed, fun _ waits => (nomatch waits), fun _ => ⟨rfl, fun declared out holder => ?_⟩⟩
    show ((state.bottomSelected entry.player cards).library holder).length + _ = _
    rw [bottomSelected_stock sound.cards distinct inside, roundStock,
      librarySeat_congr bottomed.table]
    have hands : (declared.filter fun d => state.librarySeat d.player = holder).map (fun d =>
        (((state.bottomSelected entry.player cards).creditBottoms entry.player
          cards.length).hand d.player).length) =
        (declared.filter fun d => state.librarySeat d.player = holder).map fun d =>
          (state.hand d.player).length := by
      refine List.map_congr_left fun d there => congrArg List.length (bottomed.hands _ ?_)
      exact fun same => out (same ▸ List.mem_map_of_mem (List.mem_of_mem_filter there))
    rw [hands]
    omega
  | useSerumPowder card =>
    obtain ⟨last, used, result⟩ := bind_eq_ok.mp done
    cases pure_eq_ok.mp result
    have paid := sound.pay distinct inside
    refine ⟨bottomed.trans (handleSerumPowder_frame paid.sound used), fun entry' waits => ?_,
      fun gone => (nomatch gone)⟩
    cases waits
    exact ⟨rfl, rfl, by simp⟩

end

/-- After a round a declarer can pay unless its last mulligan left it short of seven cards. -/
theorem Deciding.close_canPay (shuffler : Shuffler Rng)
    (deciding : Deciding pile counts state [] declared) :
    ((∀ entry ∈ (state.closeDeclareRound shuffler declared state.freeFirstMulligan).1,
      (state.closeDeclareRound shuffler declared state.freeFirstMulligan).2.CanPay entry) ↔
        state.RoundCovered declared fun _ => 0) ∧
    ∀ entry ∈ (state.closeDeclareRound shuffler declared state.freeFirstMulligan).1,
      (state.closeDeclareRound shuffler declared state.freeFirstMulligan).2.Holds entry := by
  have atTable : ∀ d ∈ declared, d.player ∈ state.seatOrder := fun d there =>
    deciding.atTable d.player (List.mem_map_of_mem (f := (·.player)) there)
  obtain ⟨next, opened, perm, entries, hands⟩ := deciding.sound.closeRound shuffler deciding.distinct
    atTable state.freeFirstMulligan
  generalize state.closeDeclareRound shuffler declared state.freeFirstMulligan = closed at *
  have one (d : MulliganDeclaration) (known : d ∈ declared) :
      (closed.2.CanPay (atCap state.freeFirstMulligan (openEntry d)) ↔
        (maxMulligansFor state.freeFirstMulligan ≤ (openEntry d).mulliganCount → startingHandSize ≤
          state.drawn (state.roundDraws declared) (state.roundStock declared) d.player)) ∧
      closed.2.Holds (atCap state.freeFirstMulligan (openEntry d)) := by
    rw [← hands d.player (List.mem_map_of_mem known), atCap]
    split
    · next below =>
      exact ⟨⟨fun _ cap => absurd below (Nat.not_lt.mpr cap), fun _ => canPay_declare rfl⟩,
        holds_declare rfl⟩
    · next cap =>
      have most : (openEntry d).mulliganCount = maxMulligansFor state.freeFirstMulligan :=
        Nat.le_antisymm (deciding.declaring d known ▸ deciding.cap d.player) (Nat.not_lt.mp cap)
      refine ⟨?_, fun _ _ parked => (by cases parked)⟩
      rw [most, bottomCountFor_max]
      exact ⟨fun enough _ => enough, fun enough => enough (Nat.le_refl _)⟩
  have entry_ : ∀ entry, entry ∈ closed.1 ↔ ∃ d ∈ declared,
      atCap state.freeFirstMulligan (openEntry d) = entry := by
    intro entry
    rw [entries, List.mem_map]
    constructor
    · rintro ⟨_, inside, rfl⟩
      obtain ⟨d, known, rfl⟩ := List.mem_map.mp (perm.mem_iff.mp inside)
      exact ⟨d, known, rfl⟩
    · rintro ⟨d, known, rfl⟩
      exact ⟨_, perm.mem_iff.mpr (List.mem_map_of_mem known), rfl⟩
  refine ⟨⟨fun payable d known => (one d known).1.mp (payable _ ((entry_ _).mpr ⟨d, known, rfl⟩)),
    fun covered entry there => ?_⟩, fun entry there => ?_⟩
  · obtain ⟨d, known, rfl⟩ := (entry_ entry).mp there
    exact (one d known).1.mpr (covered d known)
  · obtain ⟨d, known, rfl⟩ := (entry_ entry).mp there
    exact (one d known).2

/-- What one answer makes its player owe is covered, and so is a round that it closes. -/
def World.CoversEntry (w : World Rng) (pending : List MulliganDecisionEntry)
    (declared : List MulliganDeclaration) (entry : MulliganDecisionEntry) : Answer → Prop
  | .decision choice => w.state.Covers entry choice ∧ (pending = [entry] →
      ∀ declared' ∈ w.state.declaredAfter entry declared choice,
        w.state.RoundCovered declared' fun _ => 0)
  | .cards selected => pending = [entry] → (∃ count, entry.phase = .bottomCards count .keep) →
      w.state.RoundCovered declared fun holder =>
        if holder = w.state.librarySeat entry.player then selected.length else 0

def World.Covers (w : World Rng) (player : PlayerId) (answer : Answer) : Prop :=
  ∀ pending freeFirst declared, w.waitingFor = .mulliganDecision pending freeFirst declared →
    ∀ entry ∈ pending, entry.player = player → w.CoversEntry pending declared entry answer

theorem Deciding.advance_payable (deciding : Deciding pile counts state pending declared)
    {waitingFor : WaitingFor} (done : state.advanceAfterDecision shuffler pending declared
      state.freeFirstMulligan = (waitingFor, state')) :
    (state'.Payable waitingFor ↔ (∀ entry ∈ pending, state.CanPay entry) ∧
      (pending = [] → state.RoundCovered declared fun _ => 0)) ∧
    ((∀ entry ∈ pending, state.Holds entry) → state'.HoldsAll waitingFor) := by
  rw [advanceAfterDecision] at done
  split at done
  · next some_ =>
    cases done
    exact ⟨⟨fun payable => ⟨payable, fun none_ => absurd none_ some_⟩, fun payable => payable.1⟩, id⟩
  · next empty =>
    obtain rfl := not_not.mp empty
    split at done
    · next none_ =>
      subst none_
      cases done
      refine ⟨⟨fun _ => ⟨by simp, fun _ _ there => ?_⟩, fun _ => trivial⟩, fun _ => trivial⟩
      cases there
    · next held =>
      obtain ⟨canPay, holds⟩ := deciding.close_canPay shuffler
      obtain ⟨-, some_, -⟩ := deciding.close shuffler held
      simp only [settle, if_pos some_] at done
      cases done
      exact ⟨⟨fun payable => ⟨by simp, fun _ => canPay.mp payable⟩, fun covered =>
        canPay.mpr (covered.2 rfl)⟩, fun _ => holds⟩

/-- The entries of the others are as they were. -/
theorem Frame.others {before after : List MulliganDecisionEntry}
    (frame : Frame entry.player state state') (kept : Option MulliganDecisionEntry)
    (distinct : ((before ++ entry :: after).map (·.player)).Nodup)
    (canPay : ∀ other ∈ before ++ entry :: after, state.CanPay other)
    (holds : ∀ other ∈ before ++ entry :: after, state.Holds other) :
    ((∀ other ∈ before ++ kept.toList ++ after, state'.CanPay other) ↔
      ∀ own ∈ kept, state'.CanPay own) ∧
    ((∀ own ∈ kept, state'.Holds own) →
      ∀ other ∈ before ++ kept.toList ++ after, state'.Holds other) := by
  have apart : ∀ other ∈ before ++ after, other.player ≠ entry.player ∧
      other ∈ before ++ entry :: after := by
    intro other there
    have around : ((before ++ entry :: after).map (·.player)).Perm
        (entry.player :: (before ++ after).map (·.player)) :=
      List.perm_middle.map MulliganDecisionEntry.player
    have gone := (List.nodup_cons.mp (around.nodup_iff.mp distinct)).1
    exact ⟨fun same => gone (same ▸ List.mem_map_of_mem there),
      ((List.sublist_cons_self entry after).append_left before).subset there⟩
  have split : ∀ other, other ∈ before ++ kept.toList ++ after ↔
      other ∈ before ++ after ∨ other ∈ kept := by
    simp only [List.mem_append, Option.mem_toList]
    tauto
  refine ⟨⟨fun all own there => all own ((split own).mpr (.inr there)), fun own other there => ?_⟩,
    fun own other there => ?_⟩
  · rcases (split other).mp there with rest | mine
    · obtain ⟨differ, known⟩ := apart other rest
      exact (canPay_congr (frame.hands _ differ)).mpr (canPay other known)
    · exact own other mine
  · rcases (split other).mp there with rest | mine
    · obtain ⟨differ, known⟩ := apart other rest
      exact holds_congr frame.table (frame.hands _ differ) (holds other known)
    · exact own other mine

section
variable {w : World Rng} {shuffler : Shuffler Rng} {player : PlayerId} {waitingFor : WaitingFor}

/-- The entry of the player that answers is the only one of its name. -/
theorem World.covers_iff {pending : List MulliganDecisionEntry} {declared : List MulliganDeclaration}
    {freeFirst : Bool} {entry : MulliganDecisionEntry} {answer : Answer}
    (asked : w.waitingFor = .mulliganDecision pending freeFirst declared)
    (distinct : (pending.map (·.player)).Nodup) (inside : entry ∈ pending) :
    w.Covers entry.player answer ↔ w.CoversEntry pending declared entry answer := by
  constructor
  · exact fun covers => covers pending freeFirst declared asked entry inside rfl
  · intro covers pending' freeFirst' declared' asked' other there same
    rw [asked] at asked'
    cases asked'
    obtain rfl := List.inj_on_of_nodup_map distinct there inside same
    exact covers

theorem middle_eq_nil {α : Type} {before after : List α} {x : α} :
    before ++ x :: after = [x] ↔ before ++ after = [] := by
  cases before with
  | nil => simp
  | cons y before => simp

section
variable (stage : Stage pile w.counts w.state w.waitingFor)
include stage

theorem Stage.decision_payable (holds : w.Holds) (payable : w.Payable) {choice : MulliganChoice}
    (done : w.state.handleMulliganDecision shuffler w.waitingFor player choice =
      .ok (waitingFor, state')) :
    (state'.Payable waitingFor ↔ w.Covers player (.decision choice)) ∧
      state'.HoldsAll waitingFor := by
  rw [World.Payable] at payable
  rw [World.Holds] at holds
  cases asked : w.waitingFor with
  | openingHandBottomCards => rw [asked] at done; cases done
  | begun => rw [asked] at done; cases done
  | mulliganDecision pending freeFirst declared =>
    rw [asked] at stage done payable holds
    cases stage with
    | deciding some_ deciding =>
      obtain ⟨before, entry, after, kept, declared', between, rfl, rfl, ready, decided, final⟩ :=
        handleMulliganDecision_ok done
      have inside : entry ∈ before ++ entry :: after := by simp
      have fits := deciding.fits entry inside
      rw [MulliganDecisionEntry.Fits, ready] at fits
      have distinct := deciding.distinct.of_append_left
      have seat := deciding.atTable entry.player
        (List.mem_append_left _ (List.mem_map_of_mem inside))
      have answered := deciding.sound.decide_answered shuffler seat ready fits decided
      have stands := deciding.sound.decided seat ready fits decided
      rw [← freeFirstMulligan_congr answered.next.table] at final
      obtain ⟨advanced, held⟩ := (deciding.answer answered).advance_payable final
      obtain ⟨others, othersHold⟩ := stands.frame.others kept distinct payable holds
      rw [advanced, others, covers_iff asked distinct inside]
      refine ⟨?_, held (othersHold fun own there => (stands.waits own there).2.2.1)⟩
      rw [CoversEntry, middle_eq_nil]
      cases kept with
      | none =>
        obtain ⟨rfl, covers, after_⟩ := stands.leaves rfl
        rw [after_, Option.toList_none, List.append_nil]
        constructor
        · rintro ⟨-, closes⟩
          refine ⟨covers, fun none_ _ same => ?_⟩
          cases same
          exact closes none_
        · rintro ⟨-, closes⟩
          exact ⟨fun _ there => (by cases there), fun none_ => closes none_ _ rfl⟩
      | some own =>
        obtain ⟨-, canPay, -, undeclared⟩ := stands.waits own rfl
        rw [undeclared]
        constructor
        · exact fun all => ⟨canPay.mp (all.1 own rfl), fun _ _ there => (by cases there)⟩
        · refine fun covers => ⟨fun _ there => ?_, fun none_ => by simp at none_⟩
          cases there
          exact canPay.mpr covers.1

theorem Stage.bottom_payable (holds : w.Holds) (payable : w.Payable) {cards : List ObjectId}
    (done : w.state.handleMulliganBottom shuffler w.waitingFor player cards =
      .ok (waitingFor, state')) :
    (state'.Payable waitingFor ↔ w.Covers player (.cards cards)) ∧ state'.HoldsAll waitingFor := by
  rw [World.Payable] at payable
  rw [World.Holds] at holds
  cases asked : w.waitingFor with
  | openingHandBottomCards => rw [asked] at done; cases done
  | begun => rw [asked] at done; cases done
  | mulliganDecision pending freeFirst declared =>
    rw [asked] at stage done payable holds
    cases stage with
    | deciding some_ deciding =>
      obtain ⟨before, entry, after, count, next, kept, between, rfl, rfl, parked, -, valid, paid,
        final⟩ := handleMulliganBottom_ok done
      have inside : entry ∈ before ++ entry :: after := by simp
      have distinct := deciding.distinct.of_append_left
      have seat := deciding.atTable entry.player
        (List.mem_append_left _ (List.mem_map_of_mem inside))
      have answered := deciding.sound.pay_answered declared seat parked (deciding.fits entry inside)
        (deciding.counted entry inside ▸ deciding.cap entry.player) valid paid
      obtain ⟨frame, waits, leaves⟩ := deciding.sound.paid_frame valid paid
      rw [← freeFirstMulligan_congr answered.next.table] at final
      obtain ⟨advanced, held⟩ := (deciding.answer answered).advance_payable final
      obtain ⟨others, othersHold⟩ := frame.others kept distinct payable holds
      rw [advanced, others, covers_iff asked distinct inside]
      refine ⟨?_, held (othersHold fun own there => holds_declare (waits own there).2.1)⟩
      rw [CoversEntry, middle_eq_nil]
      cases kept with
      | none =>
        obtain ⟨rfl, stock⟩ := leaves rfl
        have undeclared : entry.player ∉ declared.map (·.player) := fun there =>
          (List.disjoint_of_nodup_append deciding.distinct) (List.mem_map_of_mem inside) there
        rw [Option.toList_none, List.append_nil,
          roundCovered_congr frame.table (stock declared undeclared)]
        constructor
        · exact fun all none_ _ => all.2 none_
        · exact fun covers => ⟨fun _ there => (nomatch there), fun none_ =>
            covers none_ ⟨count, parked⟩⟩
      | some own =>
        obtain ⟨-, ready, other⟩ := waits own rfl
        constructor
        · rintro - - ⟨count', keeps⟩
          rw [parked] at keeps
          cases keeps
          exact absurd rfl other
        · refine fun _ => ⟨fun _ there => ?_, fun none_ => by simp at none_⟩
          cases there
          exact canPay_declare ready

theorem Stage.opening_payable (payable : w.Payable) {cards : List ObjectId}
    (done : w.state.handleOpeningHandBottom w.waitingFor player cards =
      .ok (waitingFor, state')) :
    state'.Payable waitingFor ∧ w.Covers player (.cards cards) ∧ state'.HoldsAll waitingFor := by
  rw [World.Payable] at payable
  cases asked : w.waitingFor with
  | mulliganDecision => rw [asked] at done; cases done
  | begun => rw [asked] at done; cases done
  | openingHandBottomCards pending =>
    have covers : w.Covers player (.cards cards) := by
      intro _ _ _ other
      rw [asked] at other
      cases other
    rw [asked] at stage done payable
    cases stage with
    | opening some_ sound distinct =>
      obtain ⟨before, entry, after, rfl, rfl, valid, final⟩ := handleOpeningHandBottom_ok done
      obtain ⟨-, chosen, inside⟩ := validateBottomSelection_ok valid
      have left := bottomSelected_left sound.cards chosen inside
      cases final
      split
      · refine ⟨fun other there => ?_, covers, fun other there => ?_⟩
        · obtain ⟨_, -, rfl⟩ := List.mem_map.mp there
          exact canPay_declare rfl
        · obtain ⟨_, -, rfl⟩ := List.mem_map.mp there
          exact holds_declare rfl
      · refine ⟨fun other there => ?_, covers, trivial⟩
        have around : ((before ++ entry :: after).map (·.player)).Perm
            (entry.player :: (before ++ after).map (·.player)) :=
          List.perm_middle.map MulliganBottomEntry.player
        have gone := (List.nodup_cons.mp (around.nodup_iff.mp distinct)).1
        have apart : other.player ≠ entry.player := fun same =>
          gone (same ▸ List.mem_map_of_mem there)
        have known : other ∈ before ++ entry :: after :=
          ((List.sublist_cons_self entry after).append_left before).subset there
        have hand : (w.state.bottomSelected entry.player cards).hand other.player =
            w.state.hand other.player := (left.hands _).trans (if_neg apart)
        show other.count ≤ ((w.state.bottomSelected entry.player cards).hand other.player).length
        rw [hand]
        exact payable other known

/-- An accepted answer leaves nobody stuck exactly when it is covered. -/
theorem Stage.step_payable (holds : w.Holds) (payable : w.Payable) {answer : Answer}
    {w' : World Rng} (done : w.step shuffler player answer = .ok w') :
    (w'.Payable ↔ w.Covers player answer) ∧ w'.Holds := by
  obtain ⟨⟨waitingFor, state'⟩, applied, result⟩ := bind_eq_ok.mp done
  cases pure_eq_ok.mp result
  cases answer with
  | decision choice => exact stage.decision_payable holds payable applied
  | cards selected =>
    rcases apply_cards applied with opening | bottom
    · obtain ⟨still, covers, held⟩ := stage.opening_payable payable opening
      exact ⟨iff_of_true still covers, held⟩
    · exact stage.bottom_payable holds payable bottom

end

/-- Whoever has to bottom a card after the deal is dealt one. -/
def GameState.StartCovers (state : GameState Rng) : Prop :=
  ∀ entry ∈ state.tinyLeadersForcedMulliganPending, state.libraryOf entry.player ≠ []

theorem forced_congr (table : state'.table = state.table) :
    state'.tinyLeadersForcedMulliganPending = state.tinyLeadersForcedMulliganPending := by
  simp only [GameState.table, Prod.mk.injEq] at table
  obtain ⟨format, -, -, seats, -, -, commanders, -⟩ := table
  rw [tinyLeadersForcedMulliganPending, tinyLeadersForcedMulliganPending, format, seats, commanders]

/-- A player that shares its library with nobody draws until it is empty. -/
theorem drawn_own {draws : List PlayerId} {stock : PlayerId → Nat} {player : PlayerId}
    (own : ∀ other, state.librarySeat other = other) :
    state.drawn draws stock player = min (stock player) (draws.count player) := by
  rw [GameState.drawn, own]
  have mine : (draws.filter fun other => state.librarySeat other = player) =
      List.replicate (draws.count player) player := by
    rw [← List.filter_beq]
    exact List.filter_congr fun other _ => by rw [own, beq_eq_decide]
  rw [mine, List.take_replicate, List.count_replicate_self]

theorem shuffleAll_stock (state : GameState Rng) (shuffler : Shuffler Rng) (holder : PlayerId) :
    ((state.shuffleAll shuffler).library holder).length = (state.library holder).length := by
  rw [shuffleAll]
  generalize state.players = players
  induction players generalizing state with
  | nil => rfl
  | cons player players ih => rw [List.foldl_cons, ih, shuffleLibrary_stock]

/-- The table once everyone has been dealt seven cards. -/
def GameState.dealt (state : GameState Rng) (shuffler : Shuffler Rng) : GameState Rng :=
  (state.clearPrepaid.shuffleAll shuffler).dealHands
    ((state.clearPrepaid.shuffleAll shuffler).seatOrder.map fun player =>
      (player, startingHandSize))

theorem startMulligan_eq (state : GameState Rng) (shuffler : Shuffler Rng) :
    state.startMulligan shuffler =
      (if (state.dealt shuffler).tinyLeadersForcedMulliganPending = [] then
        (state.dealt shuffler).normalMulliganDecision
      else .openingHandBottomCards (state.dealt shuffler).tinyLeadersForcedMulliganPending,
      state.dealt shuffler) := by
  rw [startMulligan, GameState.dealt]
  split
  · next none_ => rw [if_pos none_]
  · next some_ => rw [if_neg some_]

theorem Ready.dealt_hand (ready : Ready pile state) (shuffler : Shuffler Rng)
    (own : ∀ other, state.librarySeat other = other) {player : PlayerId}
    (seat : player ∈ state.seatOrder) :
    ((state.dealt shuffler).hand player).length =
      min (state.libraryOf player).length startingHandSize := by
  have mixed : Shuffled pile state.clearPrepaid (state.clearPrepaid.shuffleAll shuffler) :=
    foldl_shuffled (fun state holder => shuffleLibrary_shuffled shuffler holder) _
  have cards := mixed.cards ⟨ready.cards.placed, ready.cards.piled⟩
  have stock := shuffleAll_stock state.clearPrepaid shuffler player
  have table : (state.clearPrepaid.shuffleAll shuffler).table = state.table := mixed.rest.table
  have empty : (state.clearPrepaid.shuffleAll shuffler).hand player = [] :=
    (congrFun mixed.hands player).trans (ready.handsEmpty player)
  rw [GameState.dealt]
  generalize state.clearPrepaid.shuffleAll shuffler = shuffled at *
  have seated := ready.seated.congr table
  have draws : (shuffled.dealSequence (shuffled.seatOrder.map fun player =>
      (player, startingHandSize))).count player = Keyed.share _ player :=
    seated.count_dealSequence (by simpa [Function.comp_def] using seated.once) (by simp) player
  rw [share_map_const seated.once, if_pos (seatOrder_congr table ▸ seat)] at draws
  rw [dealHands, foldl_drawOne_hand cards, empty,
    drawn_own fun other => (congrFun (librarySeat_congr table) other).trans (own other), draws, stock,
    libraryOf, own]
  exact Nat.zero_add _

/-- After the deal nobody is stuck unless a forced bottom meets an empty hand. -/
theorem Ready.start_payable (ready : Ready pile state) (shuffler : Shuffler Rng) :
    ((World.start shuffler state).Payable ↔ state.StartCovers) ∧
      (World.start shuffler state).Holds := by
  have forced : (state.dealt shuffler).tinyLeadersForcedMulliganPending =
      state.tinyLeadersForcedMulliganPending := forced_congr (ready.deal shuffler).table
  rw [World.start, startMulligan_eq, forced]
  dsimp only
  split
  · next none_ =>
    refine ⟨iff_of_true (fun entry there => ?_) fun entry there => ?_, fun entry there => ?_⟩
    · obtain ⟨_, -, rfl⟩ := List.mem_map.mp there
      exact canPay_declare rfl
    · rw [none_] at there
      cases there
    · obtain ⟨_, -, rfl⟩ := List.mem_map.mp there
      exact holds_declare rfl
  · next some_ =>
    have tiny : state.format = .tinyLeaders := by
      by_contra other
      exact some_ (if_pos other)
    have own : ∀ other, state.librarySeat other = other := fun other => by
      rw [librarySeat, tiny]
      rfl
    refine ⟨forall₂_congr fun entry there => ?_, trivial⟩
    obtain ⟨count, seat⟩ := (forced_pending ready.seated.once).2 entry there
    rw [count, ready.dealt_hand shuffler own seat, Nat.le_min]
    exact ⟨fun enough none_ => by simp [none_] at enough, fun some_ =>
      ⟨List.length_pos_iff.mpr some_, by decide⟩⟩

/-- A run in which every answer is covered. -/
inductive World.CoveredRun (shuffler : Shuffler Rng) (state : GameState Rng) : World Rng → Prop where
  | start : state.StartCovers → CoveredRun shuffler state (start shuffler state)
  | next {w w' : World Rng} {player : PlayerId} {answer : Answer} :
      CoveredRun shuffler state w → w.step shuffler player answer = .ok w' →
      w.Covers player answer → CoveredRun shuffler state w'

theorem World.CoveredRun.payable (ready : Ready pile state) (run : CoveredRun shuffler state w) :
    Stage pile w.counts w.state w.waitingFor ∧ w.Payable ∧ w.Holds := by
  induction run with
  | start covers =>
    obtain ⟨payable, holds⟩ := ready.start_payable shuffler
    exact ⟨(ready.start shuffler).1, payable.mpr covers, holds⟩
  | next _ done covers ih =>
    obtain ⟨stage, payable, holds⟩ := ih
    obtain ⟨advances, counts, -⟩ := stage.step done
    obtain ⟨next, nextHolds⟩ := stage.step_payable holds payable done
    exact ⟨counts ▸ advances.stage, next.mpr covers, nextHolds⟩

/-- In a run whose answers are all covered everybody that is waited for has an answer that is
accepted, and nobody is asked for more cards than it can select; and the first answer that is not
covered leaves somebody stuck. -/
theorem mulligans_unstuck_iff (shuffler : Shuffler Rng) (ready : Ready pile state) :
    ((start shuffler state).Unstuck shuffler ↔ state.StartCovers) ∧
    ∀ w, CoveredRun shuffler state w → w.Unstuck shuffler ∧ w.Payable ∧
      ∀ player answer w', w.step shuffler player answer = .ok w' →
        (w'.Unstuck shuffler ↔ w.Covers player answer) := by
  refine ⟨?_, fun w run => ?_⟩
  · obtain ⟨payable, holds⟩ := ready.start_payable shuffler
    exact ((ready.start shuffler).1.unstuck_iff holds).trans payable
  · obtain ⟨stage, payable, holds⟩ := run.payable ready
    refine ⟨(stage.unstuck_iff holds).mpr payable, payable, fun player answer w' done => ?_⟩
    obtain ⟨advances, counts, -⟩ := stage.step done
    obtain ⟨next, nextHolds⟩ := stage.step_payable holds payable done
    have stage' : Stage pile w'.counts w'.state w'.waitingFor := counts ▸ advances.stage
    exact (stage'.unstuck_iff nextHolds).trans next

end

/-- With decks of eight cards the mulligan of one player is covered. -/
theorem oneMulligan_unstuck : ∃ w,
    (start leaveOrder twoDecks).step leaveOrder 1 (.decision .mulligan) = .ok w ∧
      w.Unstuck leaveOrder := by
  have covers : twoDecks.StartCovers := fun _ there => (nomatch there)
  have asked : (start leaveOrder twoDecks).waitingFor =
      .mulliganDecision [⟨0, 0, 0, .declare⟩, ⟨1, 0, 0, .declare⟩] false [] := by decide +kernel
  have covered : (start leaveOrder twoDecks).Covers 1 (.decision .mulligan) := by
    intro pending freeFirst declared there entry inside own
    rw [asked] at there
    cases there
    have second : entry = ⟨1, 0, 0, .declare⟩ := by
      rcases List.mem_pair.mp inside with rfl | rfl
      · cases own
      · rfl
    subst second
    exact ⟨fun _ cap => absurd cap (by decide +kernel), fun alone => (nomatch alone)⟩
  have run : CoveredRun leaveOrder twoDecks (start leaveOrder twoDecks) := .start covers
  cases done : (start leaveOrder twoDecks).step leaveOrder 1 (.decision .mulligan) with
  | error e =>
    have accepted : ((start leaveOrder twoDecks).step leaveOrder 1
        (.decision .mulligan)).toOption.isSome = true := by decide +kernel
    rw [done] at accepted
    cases accepted
  | ok w =>
    exact ⟨w, rfl, (((mulligans_unstuck_iff leaveOrder twoDecks_ready).2 _ run).2.2 _ _ _
      done).mpr covered⟩

/-- Two players without a card. -/
def noDecks : GameState Unit := { twoDecks with library := fun _ => [], objects := fun _ => none }

/-- A player that keeps after one mulligan owes a card that it does not have. -/
theorem mulligan_without_cards_stuck : ∃ w,
    Reachable leaveOrder (start leaveOrder noDecks) w ∧ 0 ∈ w.pendingPlayers ∧
      ∀ answer w', w.step leaveOrder 0 answer ≠ .ok w' := by
  have stuck : (((start leaveOrder noDecks).run leaveOrder
      [(0, .decision .mulligan), (0, .decision .keep)]).toOption.any fun w =>
        w.waitingFor = .mulliganDecision [⟨0, 1, 0, .bottomCards 1 .keep⟩, ⟨1, 0, 0, .declare⟩]
          false [] ∧ w.state.hand 0 = []) = true := by
    decide +kernel
  cases done : (start leaveOrder noDecks).run leaveOrder
      [(0, .decision .mulligan), (0, .decision .keep)] with
  | error e =>
    rw [done] at stuck
    cases stuck
  | ok w =>
    rw [done] at stuck
    obtain ⟨asked, hand⟩ := of_decide_eq_true stuck
    refine ⟨w, Reachable.start.run done, ?_, fun answer w' taken => ?_⟩
    · rw [pendingPlayers, asked]
      decide
    · obtain ⟨⟨waitingFor, state'⟩, applied, -⟩ := bind_eq_ok.mp taken
      rw [asked] at applied
      cases answer with
      | decision choice => cases applied
      | cards selected =>
        cases selected with
        | nil => cases applied
        | cons card selected =>
          replace applied : w.state.handleMulliganBottom leaveOrder (.mulliganDecision
            [⟨0, 1, 0, .bottomCards 1 .keep⟩, ⟨1, 0, 0, .declare⟩] false []) 0
            (card :: selected) = .ok (waitingFor, state') := applied
          obtain ⟨before, entry, after, count, next, kept, between, split, own, -, -, valid,
            -⟩ := handleMulliganBottom_ok applied
          have held := (validateBottomSelection_ok valid).2.2 card List.mem_cons_self
          rw [hand] at held
          cases held

end Phase.Mulligan
