import Phase.Mulligan.Run

/-! The account of a run: where the cards are, what is owed, and when the procedure is over. -/
namespace Phase.Mulligan
open GameState

variable {Rng : Type} {state state' : GameState Rng} {pile : ObjectId → Option PlayerId}
  {counts : PlayerId → Nat} {waitingFor : WaitingFor}

/-- The players the procedure still waits for; before the decisions, all of them. -/
def World.Waits (w : World Rng) (player : PlayerId) : Prop :=
  match w.waitingFor with
  | .openingHandBottomCards _ => True
  | .mulliganDecision pending _ declared => player ∈ waiting pending declared
  | .begun => False

section
variable {w : World Rng}

section
variable (stage : Stage pile counts state waitingFor)
include stage

theorem Stage.cards : state.Cards pile := by
  cases stage with
  | opening _ sound => exact sound.cards
  | deciding _ deciding => exact deciding.sound.cards
  | begun cleared deciding =>
    subst cleared
    exact ⟨deciding.sound.cards.placed, deciding.sound.cards.piled⟩

theorem Stage.cap (player : PlayerId) :
    counts player ≤ maxMulligansFor state.freeFirstMulligan := by
  cases stage with
  | opening _ _ _ _ _ small =>
    exact (small player).trans (Nat.le_of_succ_le (two_le_maxMulligansFor _))
  | deciding _ deciding => exact deciding.cap player
  | begun cleared deciding =>
    subst cleared
    exact deciding.cap player

theorem Stage.ledger (going : waitingFor ≠ .begun) (player : PlayerId) :
    state.prepaid player = state.bottomed player := by
  cases stage with
  | opening _ sound => exact sound.ledger player
  | deciding _ deciding => exact deciding.sound.ledger player
  | begun => exact absurd rfl going

end

theorem Deciding.hand {pending : List MulliganDecisionEntry} {declared : List MulliganDeclaration}
    (deciding : Deciding pile counts state pending declared) (enough : state.drawsMissed = 0)
    {player : PlayerId} (seat : player ∈ state.seatOrder)
    (out : player ∉ waiting pending declared) :
    (state.hand player).length = startingHandSize -
      max (bottomCountFor (counts player) state.freeFirstMulligan) (state.bottomed player) := by
  have held := deciding.sound.hands enough player seat
  rw [max_eq_right (deciding.kept player seat out)]
  omega

theorem Stage.hand (stage : Stage pile w.counts w.state w.waitingFor)
    (enough : w.state.drawsMissed = 0) {player : PlayerId} (seat : player ∈ w.state.seatOrder)
    (out : ¬w.Waits player) : (w.state.hand player).length = startingHandSize -
      max (bottomCountFor (w.counts player) w.state.freeFirstMulligan)
        (w.state.bottomed player) := by
  rw [World.Waits] at out
  cases asked : w.waitingFor with
  | openingHandBottomCards => simp [asked] at out
  | mulliganDecision =>
    rw [asked] at stage out
    cases stage with
    | deciding _ deciding => exact deciding.hand enough seat out
  | begun =>
    rw [asked] at stage
    cases stage with
    | @begun last cleared deciding =>
      rw [cleared] at enough seat ⊢
      exact deciding.hand enough seat List.not_mem_nil

theorem GameState.Cards.one_place (cards : state.Cards pile) {card : ObjectId} {holder : PlayerId}
    (known : pile card = some holder) :
    ∃ place, (place = .library holder ∨ place = .exile ∨
        ∃ player, place = .hand player ∧ state.librarySeat player = holder) ∧
      ∀ other, (state.container other).count card = if other = place then 1 else 0 := by
  have piled := cards.piled card
  rw [known] at piled
  obtain ⟨object, at_, seat⟩ := Option.map_eq_some_iff.mp piled
  refine ⟨state.placeIn object.zone object.owner, ?_, fun other => ?_⟩
  · cases zone : object.zone with
    | library => exact .inl (congrArg Place.library seat)
    | hand => exact .inr (.inr ⟨object.owner, rfl, seat⟩)
    | exile => exact .inr (.inl rfl)
  · rw [cards.placed card other, at_]
    simp only [Option.map_some, Option.some.injEq]
    exact if_congr eq_comm rfl rfl

/-- Wherever a run stands: every card of a pile is in one place; only a Serum Powder exiles; the
ledger says what each player bottomed since its last redraw; nobody passes the cap; who is no longer
waited for holds what its mulligans leave it; and the procedure ends once, when the last pending
player leaves with nothing declared. -/
theorem mulligans_account (shuffler : Shuffler Rng) (ready : Ready pile state)
    (run : World.Reachable shuffler (World.start shuffler state) w) :
    (∀ card holder, pile card = some holder → ∃ place, (place = .library holder ∨ place = .exile ∨
          ∃ player, place = .hand player ∧ w.state.librarySeat player = holder) ∧
        ∀ other, (w.state.container other).count card = if other = place then 1 else 0) ∧
    (∀ player answer w', w.step shuffler player answer = .ok w' →
      w'.state.exile ≠ w.state.exile → ∃ card, w.UsesPowder player answer card ∧
        card ∈ w.state.hand player ∧ w.state.IsSerumPowder card) ∧
    (w.waitingFor ≠ .begun → ∀ player, w.state.prepaid player = w.state.bottomed player) ∧
    (∀ player, w.counts player ≤ maxMulligansFor w.state.freeFirstMulligan) ∧
    (∀ pending freeFirst declared, w.waitingFor = .mulliganDecision pending freeFirst declared →
      pending ≠ [] ∧ (∀ entry ∈ pending, entry.mulliganCount = w.counts entry.player) ∧
        ∀ d ∈ declared, (openEntry d).mulliganCount = w.counts d.player) ∧
    (w.state.drawsMissed = 0 → ∀ player ∈ w.state.seatOrder, ¬w.Waits player →
      (w.state.hand player).length = startingHandSize -
        max (bottomCountFor (w.counts player) w.state.freeFirstMulligan)
          (w.state.bottomed player)) ∧
    (w.finishes = if w.waitingFor = .begun then 1 else 0) ∧
    (w.waitingFor = .begun → ∀ player answer, ∃ e, w.step shuffler player answer = .error e) ∧
    (∀ player answer w', w.step shuffler player answer = .ok w' → w'.waitingFor = .begun →
      ∃ entry freeFirst, w.waitingFor = .mulliganDecision [entry] freeFirst [] ∧
        entry.player = player) := by
  obtain ⟨stage, finishes⟩ := run.stage ready
  refine ⟨fun card holder known => stage.cards.one_place known,
    fun player answer w' done changed => ?_, stage.ledger, stage.cap,
    fun pending freeFirst declared asked => ?_, fun enough player seat out =>
      stage.hand enough seat out, finishes, fun begun player answer => ?_,
    fun player answer w' done begun => (stage.step done).1.last begun⟩
  · exact (stage.step done).1.exile.resolve_left changed
  · rw [asked] at stage
    cases stage with
    | deciding some_ deciding => exact ⟨some_, deciding.counted, deciding.declaring⟩
  · obtain ⟨e, refused⟩ := apply_begun w.state shuffler player answer
    refine ⟨e, ?_⟩
    rw [World.step, begun, refused]
    rfl

end

/-- Two players with libraries of eight cards. -/
def twoDecks : GameState Unit :=
  { format := .standard
    players := [0, 1]
    isEliminated := fun _ => false
    seatOrder := [0, 1]
    activePlayer := 0
    turnDirection := .normal
    hand := fun _ => []
    library := fun player => (List.range 16).filter fun card => card / 8 = player
    exile := []
    objects := fun card =>
      if card < 16 then
        some { name := "Island", isLand := true, owner := card / 8, zone := .library }
      else none
    commanderCount := fun _ => 0
    prepaidMulliganBottoms := fun _ => none
    rng := ()
    drawsMissed := 0
    bottomed := fun _ => 0 }

def leaveOrder : Shuffler Unit := ⟨fun _ cards => (cards, ()), fun _ cards => .refl cards⟩

theorem twoDecks_ready :
    Ready (fun card => if card < 16 then some (card / 8) else none) twoDecks where
  cards := by
    refine ⟨fun card place => ?_, fun card => ?_⟩
    · show _ = if Option.map _ (if card < 16 then _ else _) = _ then _ else _
      cases place with
      | library holder =>
        show ((List.range 16).filter fun card => card / 8 = holder).count card = _
        rw [List.Nodup.count (List.nodup_range.filter _)]
        by_cases known : card < 16
        · simp [known, placeIn, librarySeat, twoDecks, GameFormat.sharedLibrary]
        · simp [known]
      | hand player =>
        by_cases known : card < 16 <;> simp [known, container, twoDecks, placeIn]
      | exile =>
        by_cases known : card < 16 <;> simp [known, container, twoDecks, placeIn]
    · show Option.map _ (if card < 16 then _ else _) = _
      split <;> rfl
  handsEmpty := fun _ => rfl
  seated := ⟨by decide, by decide⟩
  someone := by decide
  undrawn := rfl
  unbottomed := rfl

/-- One mulligan, then both keep, and the card owed is bottomed. -/
def oneMulligan : Except String (World Unit) :=
  (World.start leaveOrder twoDecks).run leaveOrder
    [(1, .decision .mulligan), (0, .decision .keep), (1, .decision .keep), (1, .cards [8])]

theorem oneMulligan_accounted : ∃ w, oneMulligan = .ok w ∧ w.finishes = 1 ∧
    (w.state.hand 1).length = 6 := by
  have ended : (oneMulligan.toOption.any fun w =>
      w.waitingFor = .begun ∧ w.state.drawsMissed = 0 ∧ w.state.seatOrder = [0, 1] ∧
        max (bottomCountFor (w.counts 1) w.state.freeFirstMulligan) (w.state.bottomed 1) = 1) =
      true := by
    decide +kernel
  cases done : oneMulligan with
  | error e =>
    rw [done] at ended
    cases ended
  | ok w =>
    rw [done] at ended
    obtain ⟨begun, enough, seats, owed⟩ := of_decide_eq_true ended
    obtain ⟨-, -, -, -, -, hands, finishes, -⟩ :=
      mulligans_account leaveOrder twoDecks_ready (World.Reachable.start.run done)
    refine ⟨w, rfl, finishes.trans (if_pos begun), ?_⟩
    rw [hands enough 1 (by simp [seats]) (by simp [World.Waits, begun]), owed]
    rfl

end Phase.Mulligan
