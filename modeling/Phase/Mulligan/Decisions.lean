import Phase.Mulligan.Rounds

/-! What one answer does to its player, and what it leaves to the others. -/
namespace Phase.Mulligan
open GameState Fallible

variable {Rng : Type} {state state' : GameState Rng} {pile : ObjectId → Option PlayerId}

theorem Sound.refl {powder : Prop} (sound : Sound pile state) :
    Next pile powder state.bottomed state state :=
  ⟨sound, rfl, rfl, .inl rfl⟩

theorem Next.mono {used powder : Prop} {bottomed : PlayerId → Nat} (sub : used → powder)
    (next : Next pile used bottomed state state') : Next pile powder bottomed state state' :=
  ⟨next.sound, next.table, next.bottomed, next.exile.imp_right sub⟩

theorem Next.trans {early late : Prop} {middle bottomed : PlayerId → Nat} {between : GameState Rng}
    (first : Next pile early middle state between)
    (second : Next pile late bottomed between state') :
    Next pile (early ∨ late) bottomed state state' where
  sound := second.sound
  table := second.table.trans first.table
  bottomed := second.bottomed
  exile := by
    rcases second.exile with same | used
    · exact first.exile.imp same.trans .inl
    · exact .inr (.inr used)

/-- What an entry says about the mulligans and the bottoms of its player. -/
def MulliganDecisionEntry.Fits (entry : MulliganDecisionEntry) (freeFirst : Bool)
    (bottomed : Nat) : Prop :=
  match entry.phase with
  | .declare => entry.mulliganCount < maxMulligansFor freeFirst
  | .bottomCards count next =>
    count + bottomed = bottomCountFor entry.mulliganCount freeFirst ∧
      (next = .keep ∨ entry.mulliganCount < maxMulligansFor freeFirst)

theorem fits_atCap {freeFirst : Bool} {entry : MulliganDecisionEntry}
    (ready : entry.phase = .declare) : (atCap freeFirst entry).Fits freeFirst 0 := by
  rw [atCap]
  split
  · next below =>
    rw [MulliganDecisionEntry.Fits, ready]
    exact below
  · exact ⟨rfl, .inl rfl⟩

/-- Where a player that answered stands: it waits on, it has declared, or it has kept. -/
inductive Stands (freeFirst : Bool) (player : PlayerId) (count bottomed : Nat)
    (declared : List MulliganDeclaration) :
    Option MulliganDecisionEntry → List MulliganDeclaration → Prop where
  | waits {entry : MulliganDecisionEntry} (own : entry.player = player)
      (counted : entry.mulliganCount = count) (fits : entry.Fits freeFirst bottomed) :
      Stands freeFirst player count bottomed declared (some entry) declared
  | declares {d : MulliganDeclaration} (own : d.player = player)
      (counted : (openEntry d).mulliganCount = count) :
      Stands freeFirst player count bottomed declared none (declared ++ [d])
  | keeps (paid : bottomCountFor count freeFirst ≤ bottomed) :
      Stands freeFirst player count bottomed declared none declared

/-- One answer of `player`: the next state, its ledger, and where the player stands. -/
structure Answered (pile : ObjectId → Option PlayerId) (powder : Prop) (player : PlayerId)
    (count : Nat) (state : GameState Rng) (declared : List MulliganDeclaration)
    (kept : Option MulliganDecisionEntry) (declared' : List MulliganDeclaration)
    (state' : GameState Rng) : Prop where
  next : Next pile powder state'.bottomed state state'
  others : ∀ other, other ≠ player → state'.bottomed other = state.bottomed other
  cap : count ≤ maxMulligansFor state.freeFirstMulligan
  stands : Stands state.freeFirstMulligan player count (state'.bottomed player) declared kept
    declared'

section
variable {entry : MulliganDecisionEntry} {declared : List MulliganDeclaration}

variable (entry declared) in
theorem Sound.keep_answered {powder : Prop} (sound : Sound pile state)
    (cap : entry.mulliganCount ≤ maxMulligansFor state.freeFirstMulligan)
    {kept : Option MulliganDecisionEntry}
    (done : state.resolveDeclarePoint entry state.freeFirstMulligan .keep = .ok (kept, state')) :
    Answered pile powder entry.player entry.mulliganCount state declared kept declared state' := by
  rw [sound.owed, Except.ok.injEq, Prod.mk.injEq] at done
  obtain ⟨rfl, rfl⟩ := done
  refine ⟨sound.refl, fun _ _ => rfl, cap, ?_⟩
  split
  · next paid => exact .keeps paid
  · next owing =>
    refine .waits rfl rfl ⟨?_, .inl rfl⟩
    exact Nat.sub_add_cancel (Nat.le_of_not_le owing)

theorem freeReveal_simultaneous (offered : state.freeRevealOffered entry = true) :
    state.mulliganTiming = .simultaneous := by
  rw [freeRevealOffered] at offered
  rw [mulliganTiming]
  cases format : state.format <;>
    simp [format, GameFormat.freeRevealMulligan, GameFormat.sharedLibrary] at offered ⊢

variable {declared' : List MulliganDeclaration}

theorem Sound.mulligan_answered (sound : Sound pile state) (shuffler : Shuffler Rng)
    (seat : entry.player ∈ state.seatOrder) (ready : entry.phase = .declare)
    (below : entry.mulliganCount < maxMulligansFor state.freeFirstMulligan)
    {kept : Option MulliganDecisionEntry}
    (done : state.decideEntry shuffler entry declared state.freeFirstMulligan .mulligan =
      .ok (kept, declared', state')) :
    Answered pile False entry.player (entry.mulliganCount + 1) state declared kept declared'
      state' := by
  simp only [decideEntry] at done
  cases timing : state.mulliganTiming with
  | simultaneous =>
    simp only [timing] at done
    cases pure_eq_ok.mp done
    exact ⟨sound.refl, fun _ _ => rfl, below, .declares rfl rfl⟩
  | immediate =>
    simp only [timing] at done
    have redrawn := sound.redraw shuffler seat
    have same := freeFirstMulligan_congr redrawn.table
    have fresh := congrFun redrawn.bottomed
    have others : ∀ other, other ≠ entry.player → _ = state.bottomed other := fun other apart =>
      (fresh other).trans (if_neg (by simpa using apart))
    split at done
    · obtain ⟨⟨kept', last⟩, resolved, result⟩ := bind_eq_ok.mp done
      cases pure_eq_ok.mp result
      rw [← same] at resolved below
      have answered : Answered pile False _ _ _ _ _ _ _ := redrawn.sound.keep_answered
        { entry with mulliganCount := entry.mulliganCount + 1 } declared below resolved
      rw [same] at below
      refine ⟨(redrawn.trans answered.next).mono (Or.elim · id id), fun other apart => ?_, below,
        same ▸ answered.stands⟩
      exact (answered.others other apart).trans (others other apart)
    · next room =>
      cases pure_eq_ok.mp done
      refine ⟨⟨redrawn.sound, redrawn.table, rfl, redrawn.exile⟩, others, below, .waits rfl rfl ?_⟩
      rw [ready]
      exact Nat.not_le.mp room

theorem Sound.powder_answered (sound : Sound pile state) {card : ObjectId}
    (seat : entry.player ∈ state.seatOrder) (ready : entry.phase = .declare)
    (below : entry.mulliganCount < maxMulligansFor state.freeFirstMulligan)
    {kept : Option MulliganDecisionEntry}
    (done : state.resolveDeclarePoint entry state.freeFirstMulligan (.useSerumPowder card) =
      .ok (kept, state')) :
    Answered pile (card ∈ state.hand entry.player ∧ state.IsSerumPowder card) entry.player
      entry.mulliganCount state declared kept declared state' := by
  simp only [resolveDeclarePoint] at done
  split at done
  · obtain ⟨last, used, result⟩ := bind_eq_ok.mp done
    cases pure_eq_ok.mp result
    have next := sound.powder seat used
    refine ⟨⟨next.sound, next.table, rfl, next.exile⟩, fun other _ => congrFun next.bottomed other,
      below.le, .waits rfl rfl ?_⟩
    rw [MulliganDecisionEntry.Fits, ready]
    exact below
  · next owing =>
    cases pure_eq_ok.mp done
    rw [sound.ledger] at owing ⊢
    refine ⟨sound.refl, fun _ _ => rfl, below.le, .waits rfl rfl ⟨?_, .inr below⟩⟩
    exact Nat.sub_add_cancel (by omega)

theorem Answered.mono {used powder : Prop} {player : PlayerId} {count : Nat}
    {kept : Option MulliganDecisionEntry} (sub : used → powder)
    (answered : Answered pile used player count state declared kept declared' state') :
    Answered pile powder player count state declared kept declared' state' :=
  ⟨answered.next.mono sub, answered.others, answered.cap, answered.stands⟩

/-- What a decision does. Only a mulligan counts, and only a Serum Powder exiles. -/
theorem Sound.decide_answered (sound : Sound pile state) (shuffler : Shuffler Rng)
    (seat : entry.player ∈ state.seatOrder) (ready : entry.phase = .declare)
    (below : entry.mulliganCount < maxMulligansFor state.freeFirstMulligan)
    {choice : MulliganChoice} {kept : Option MulliganDecisionEntry}
    (done : state.decideEntry shuffler entry declared state.freeFirstMulligan choice =
      .ok (kept, declared', state')) :
    Answered pile (∃ card, choice = .useSerumPowder card ∧ card ∈ state.hand entry.player ∧
        state.IsSerumPowder card) entry.player
      (if choice = .mulligan then entry.mulliganCount + 1 else entry.mulliganCount) state declared
      kept declared' state' := by
  cases choice with
  | keep =>
    obtain ⟨⟨kept', last⟩, resolved, result⟩ := bind_eq_ok.mp done
    cases pure_eq_ok.mp result
    exact sound.keep_answered entry declared below.le resolved
  | mulligan => exact (sound.mulligan_answered shuffler seat ready below done).mono False.elim
  | freeReveal =>
    obtain ⟨offered, done⟩ := ite_error_eq_ok.mp done
    simp only [freeReveal_simultaneous (by simpa using offered)] at done
    cases pure_eq_ok.mp done
    exact ⟨sound.refl, fun _ _ => rfl, below.le, .declares rfl rfl⟩
  | useSerumPowder card =>
    obtain ⟨_, -, done⟩ := bind_eq_ok.mp done
    obtain ⟨⟨kept', last⟩, resolved, result⟩ := bind_eq_ok.mp done
    cases pure_eq_ok.mp result
    exact (sound.powder_answered seat ready below resolved).mono fun used => ⟨card, rfl, used⟩

/-- Paying the bottoms owed, and what was waiting for them. -/
theorem Sound.pay_answered (sound : Sound pile state)
    (declared : List MulliganDeclaration) (seat : entry.player ∈ state.seatOrder)
    {count : Nat} {next : PendingMulliganAction} (parked : entry.phase = .bottomCards count next)
    (fits : entry.Fits state.freeFirstMulligan (state.bottomed entry.player))
    (cap : entry.mulliganCount ≤ maxMulligansFor state.freeFirstMulligan)
    {cards : List ObjectId}
    (valid : state.validateBottomSelection entry.player cards count = .ok ())
    {kept : Option MulliganDecisionEntry}
    (done : ((state.bottomSelected entry.player cards).creditBottoms entry.player count).payEntry
      entry next = .ok (kept, state')) :
    Answered pile (∃ card, next = .useSerumPowder card ∧ card ∈ state.hand entry.player ∧
        state.IsSerumPowder card) entry.player entry.mulliganCount state declared kept declared
      state' := by
  obtain ⟨rfl, distinct, inside⟩ := validateBottomSelection_ok valid
  have paid := sound.pay distinct inside
  have others : ∀ other, other ≠ entry.player → _ = state.bottomed other := fun other apart =>
    (congrFun paid.bottomed other).trans (Function.update_of_ne apart _ _)
  have own := (congrFun paid.bottomed entry.player).trans (Function.update_self ..)
  rw [MulliganDecisionEntry.Fits, parked] at fits
  cases next with
  | keep =>
    cases pure_eq_ok.mp done
    refine ⟨⟨paid.sound, paid.table, rfl, paid.exile.imp_right False.elim⟩, others, cap, .keeps ?_⟩
    rw [own, ← fits.1]
    exact Nat.le_of_eq (Nat.add_comm ..)
  | useSerumPowder card =>
    obtain ⟨last, used, result⟩ := bind_eq_ok.mp done
    cases pure_eq_ok.mp result
    have after := paid.sound.powder (seatOrder_congr paid.table ▸ seat) used
    have held : card ∈ (state.bottomSelected entry.player cards).hand entry.player →
        card ∈ state.hand entry.player := by
      rw [(bottomSelected_left sound.cards distinct inside).hands entry.player, if_pos rfl]
      exact List.mem_of_mem_filter
    have whole := (paid.trans after).mono fun used => used.elim False.elim fun used =>
      (⟨card, rfl, held used.1, (isSerumPowder_congr paid.table card).mp used.2⟩ :
        ∃ c, PendingMulliganAction.useSerumPowder card = .useSerumPowder c ∧
          c ∈ state.hand entry.player ∧ state.IsSerumPowder c)
    refine ⟨⟨whole.sound, whole.table, rfl, whole.exile⟩, fun other apart => ?_, cap,
      .waits rfl rfl ?_⟩
    · rw [after.bottomed]
      exact others other apart
    · exact fits.2.resolve_left (by simp)

end
end Phase.Mulligan
