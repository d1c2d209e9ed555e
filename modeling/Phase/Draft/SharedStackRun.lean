import Mathlib.Data.List.GetD
import Phase.Draft.SharedStack
import Phase.Lib.Fallible
import Phase.Lib.Indexed
import Phase.Lib.Schedule

/-! Along every run of decisions the cards are conserved, the active seat can decide, and
the draft comes to an end. -/
namespace Phase.Draft
open List SharedStackState Nat

open Fallible (bind_eq_ok guard_eq_ok)

namespace SharedStackState

def bag (state : SharedStackState) : Multiset DraftCardInstance :=
  ↑state.mainStack + (state.piles.map Multiset.ofList).sum

/-- Some pile at or after the cursor still holds a card. -/
def Ahead (state : SharedStackState) : Prop :=
  ∃ i pile, state.cursor ≤ i ∧ state.piles[i]? = some pile ∧ pile ≠ []

def Refilled (state : SharedStackState) : Prop :=
  state.mainStack ≠ [] → ∀ pile ∈ state.piles, pile ≠ []

structure Valid (state : SharedStackState) (pileCount seatCount : Nat) : Prop where
  piles : state.piles.length = pileCount
  inspected : state.inspected.length = pileCount
  active : state.activeSeat < seatCount
  cursor : state.cursor < pileCount
  refilled : state.Refilled

variable {state : SharedStackState} {seat pile : Nat}

theorem refill_cases (state : SharedStackState) (pile : Nat) :
    (state.mainStack = [] ∧ state.refill pile = state) ∨
      ∃ rest card, state.mainStack = rest ++ [card] ∧
        state.refill pile = { state with
          mainStack := rest, piles := state.piles.modify pile (· ++ [card]) } := by
  rcases eq_nil_or_concat' state.mainStack with empty | ⟨rest, card, isStack⟩
  · exact .inl ⟨empty, by simp [refill, empty]⟩
  · exact .inr ⟨rest, card, isStack, by simp [refill, isStack]⟩

@[simp] theorem refill_piles_length : (state.refill pile).piles.length = state.piles.length := by
  rcases refill_cases state pile with ⟨-, same⟩ | ⟨rest, card, -, same⟩ <;> simp [same]

@[simp] theorem refill_inspected : (state.refill pile).inspected = state.inspected := by
  rcases refill_cases state pile with ⟨-, same⟩ | ⟨rest, card, -, same⟩ <;> simp [same]

@[simp] theorem refill_activeSeat : (state.refill pile).activeSeat = state.activeSeat := by
  rcases refill_cases state pile with ⟨-, same⟩ | ⟨rest, card, -, same⟩ <;> simp [same]

@[simp] theorem refill_cursor : (state.refill pile).cursor = state.cursor := by
  rcases refill_cases state pile with ⟨-, same⟩ | ⟨rest, card, -, same⟩ <;> simp [same]

theorem refill_bag (bound : pile < state.piles.length) : (state.refill pile).bag = state.bag := by
  rcases refill_cases state pile with ⟨-, same⟩ | ⟨rest, card, isStack, same⟩
  · rw [same]
  · have trade := Indexed.sum_map_modify Multiset.ofList (· ++ [card]) bound
    simp only [← Multiset.coe_add, ← add_assoc] at trade
    have piles := add_right_cancel (trade.trans (add_right_comm _ _ _))
    rw [same, bag, bag, isStack]
    simp only [← Multiset.coe_add]
    rw [piles]
    abel

/-- Putting a card on a pile leaves every pile of the others as it was. -/
theorem refill_other {i : Nat} (other : i ≠ pile) :
    (state.refill pile).piles[i]? = state.piles[i]? := by
  rcases refill_cases state pile with ⟨-, same⟩ | ⟨rest, card, -, same⟩
  · rw [same]
  · simp [same, other.symm]

/-- Where every pile but this one holds a card and this one is refilled, all do. -/
theorem refill_refilled (others : state.mainStack ≠ [] → ∀ i p, i ≠ pile →
    state.piles[i]? = some p → p ≠ []) : (state.refill pile).Refilled := by
  rcases refill_cases state pile with ⟨empty, same⟩ | ⟨rest, card, isStack, same⟩
  · rw [same]
    exact fun some_ => absurd empty some_
  · rintro - p mem
    obtain ⟨i, isPile⟩ := mem_iff_getElem?.mp mem
    by_cases here : i = pile
    · subst here
      simp only [same, getElem?_modify] at isPile
      obtain ⟨old, -, rfl⟩ := Option.map_eq_some_iff.mp isPile
      simp
    · rw [refill_other here] at isPile
      exact others (by simp [isStack]) i p here isPile

theorem set_nil_bag (bound : pile < state.piles.length) :
    ({ state with piles := state.piles.set pile [] }).bag + ↑(state.piles.getD pile []) =
      state.bag := by
  have trade := Indexed.sum_map_set Multiset.ofList bound []
  simp only [Multiset.coe_nil, add_zero] at trade
  rw [getD_eq_getElem _ _ bound, bag, bag, add_assoc, trade]

/-! ### Decisions -/

theorem laterPileAvailable_iff {i : Nat} :
    laterPileAvailable state i = true ↔ ∃ j p, i < j ∧ state.piles[j]? = some p ∧ p ≠ [] := by
  simp only [laterPileAvailable, any_eq_true, Bool.not_eq_true', isEmpty_eq_false_iff]
  constructor
  · rintro ⟨p, mem, filled⟩
    obtain ⟨j, isPile⟩ := mem_iff_getElem?.mp mem
    rw [getElem?_drop] at isPile
    exact ⟨i + 1 + j, p, by omega, isPile, filled⟩
  · rintro ⟨j, p, later, isPile, filled⟩
    refine ⟨p, mem_iff_getElem?.mpr ⟨j - (i + 1), ?_⟩, filled⟩
    rw [getElem?_drop, show i + 1 + (j - (i + 1)) = j by omega]
    exact isPile

variable {decision : SharedStackPileDecision}

/-- What a legal decision may rely on. -/
theorem refusalFor_eq_none :
    refusalFor state seat pile decision = none ↔
      seat = state.activeSeat ∧ pile = state.cursor ∧ ∃ p, state.piles[pile]? = some p ∧
        match decision with
        | .take => p ≠ []
        | .decline => laterPileAvailable state pile ∨
            (pile + 1 = state.piles.length ∧ 2 ≤ state.mainStack.length) := by
  rw [refusalFor]
  by_cases turn : seat ≠ state.activeSeat ∨ pile ≠ state.cursor
  · rw [if_pos turn]
    constructor
    · nofun
    · rintro ⟨isSeat, isPile, -⟩
      exact absurd turn (by simp [isSeat, isPile])
  · obtain ⟨isSeat, isPile⟩ : seat = state.activeSeat ∧ pile = state.cursor := by
      simpa using turn
    cases found : state.piles[pile]? with
    | none => simp
    | some p =>
      cases decision with
      | take => simp [isSeat, isPile, List.isEmpty_iff]
      | decline => simp [isSeat, isPile, or_iff_not_imp_left, succ_le_iff]

/-- How a decision moves cards, and whose turn it leaves. -/
structure Decided (before after : SharedStackState) (drafted : List DraftCardInstance)
    (turnEnds : Bool) : Prop where
  bag : after.bag + ↑drafted = before.bag
  piles : after.piles.length = before.piles.length
  inspected : after.inspected.length = before.inspected.length
  active : after.activeSeat = before.activeSeat
  refilled : after.Refilled
  ended : turnEnds = true → drafted ≠ []
  goesOn : turnEnds = false → drafted = [] ∧ after.cursor = before.cursor + 1 ∧
    after.cursor < after.piles.length ∧ after.Ahead

theorem take_decided {p : List DraftCardInstance} (refilled : state.Refilled)
    (found : state.piles[pile]? = some p) (filled : p ≠ []) :
    Decided state (state.decide seat pile .take).1 (state.decide seat pile .take).2.1
      (state.decide seat pile .take).2.2 := by
  obtain ⟨bound, isPile⟩ := List.getElem?_eq_some_iff.mp found
  have drafted : state.piles.getD pile [] = p := by rw [getD_eq_getElem _ _ bound, isPile]
  refine ⟨?_, by simp [decide], by simp [decide], by simp [decide], ?_, fun _ => ?_, nofun⟩
  · simp only [decide]
    rw [refill_bag (by simpa using bound), set_nil_bag bound]
  · refine refill_refilled fun more i q other isOther => ?_
    rw [getElem?_set_ne other.symm] at isOther
    exact refilled more q (mem_of_getElem? isOther)
  · simp only [decide]
    rw [drafted]
    exact filled

theorem forcedDraw_cases (state : SharedStackState) (seat : Nat) :
    (state.mainStack = [] ∧ state.forcedDraw seat = (state, [])) ∨
      ∃ rest card, state.mainStack = rest ++ [card] ∧
        state.forcedDraw seat = ({ state with
          mainStack := rest, forcedDraws := state.forcedDraws.set seat (some card) }, [card]) := by
  rcases eq_nil_or_concat' state.mainStack with empty | ⟨rest, card, isStack⟩
  · exact .inl ⟨empty, by simp [forcedDraw, empty]⟩
  · exact .inr ⟨rest, card, isStack, by simp [forcedDraw, isStack]⟩

theorem decline_decided (refilled : state.Refilled) (isCursor : pile = state.cursor)
    (bound : pile < state.piles.length) (legal : laterPileAvailable state pile ∨
      (pile + 1 = state.piles.length ∧ 2 ≤ state.mainStack.length)) :
    Decided state (state.decide seat pile .decline).1 (state.decide seat pile .decline).2.1
      (state.decide seat pile .decline).2.2 := by
  have kept : (state.refill pile).Refilled :=
    refill_refilled fun more i p _ isPile => refilled more p (mem_of_getElem? isPile)
  simp only [decide, refill_piles_length]
  by_cases later : pile + 1 < state.piles.length
  · rw [if_pos later]
    refine ⟨?_, by simp [advance], by simp [advance], by simp [advance], kept, nofun, fun _ => ?_⟩
    · have same := refill_bag bound
      simpa [advance, bag] using same
    · have available : laterPileAvailable state pile :=
        legal.resolve_right fun last => by omega
      obtain ⟨j, p, after, isPile, filled⟩ := laterPileAvailable_iff.mp available
      refine ⟨rfl, by simp [advance], by simpa [advance, ← isCursor] using later, j, p, ?_, ?_,
        filled⟩
      · simp only [advance, refill_cursor, ← isCursor]
        omega
      · simp only [advance]
        rw [refill_other (by omega), isPile]
  · rw [if_neg later]
    have last : ¬laterPileAvailable state pile := by
      rw [laterPileAvailable_iff]
      rintro ⟨j, p, after, isPile, -⟩
      have := (List.getElem?_eq_some_iff.mp isPile).1
      omega
    obtain ⟨-, two⟩ := legal.resolve_left last
    -- One of the two cards goes onto the pile, the other one is drawn.
    obtain ⟨empty, -⟩ | ⟨rest, card, isStack, refills⟩ := refill_cases state pile
    · simp [empty] at two
    · have left : (state.refill pile).mainStack = rest := by rw [refills]
      have same := refill_bag bound
      obtain ⟨none_, -⟩ | ⟨rest', card', isRest, draws⟩ := forcedDraw_cases (state.refill pile) seat
      · rw [left] at none_
        simp [isStack, none_] at two
      · rw [draws]
        refine ⟨?_, by simp, by simp, by simp, fun more => ?_, fun _ => by simp, nofun⟩
        · rw [← same, bag, bag, isRest, ← Multiset.coe_add]
          abel
        · exact kept (by simp [isRest])

theorem decide_decided {decision : SharedStackPileDecision} (refilled : state.Refilled)
    (legal : refusalFor state seat pile decision = none) :
    Decided state (state.decide seat pile decision).1 (state.decide seat pile decision).2.1
      (state.decide seat pile decision).2.2 := by
  obtain ⟨-, isCursor, p, found, allowed⟩ := refusalFor_eq_none.mp legal
  cases decision with
  | take => exact take_decided refilled found allowed
  | decline =>
    exact decline_decided refilled isCursor (List.getElem?_eq_some_iff.mp found).1 allowed

theorem exhausted_iff :
    state.exhausted = true ↔ state.mainStack = [] ∧ ∀ pile ∈ state.piles, pile = [] := by
  simp [exhausted, List.isEmpty_iff]

theorem Ahead.not_exhausted (ahead : state.Ahead) : state.exhausted = false := by
  obtain ⟨i, p, -, isPile, filled⟩ := ahead
  refine Bool.eq_false_iff.mpr fun ended => filled ?_
  exact (exhausted_iff.mp ended).2 p (mem_of_getElem? isPile)

theorem Ahead.card_bag_pos (ahead : state.Ahead) : 0 < state.bag.card := by
  obtain ⟨i, p, -, isPile, filled⟩ := ahead
  obtain ⟨card, mem⟩ := exists_mem_of_ne_nil p filled
  have inBag : card ∈ state.bag := Multiset.mem_add.mpr (.inr
    (Indexed.mem_sum_map.mpr ⟨p, mem_of_getElem? isPile, mem⟩))
  exact Multiset.card_pos_iff_exists_mem.mpr ⟨card, inBag⟩

/-- At the start of a turn any card left means a pile to take. -/
theorem ahead_of_turnStart (start : state.cursor = 0) (some_ : 0 < state.piles.length)
    (refilled : state.Refilled) (left : state.exhausted = false) : state.Ahead := by
  by_cases stack : state.mainStack = []
  · have notAll : ¬∀ pile ∈ state.piles, pile = [] := fun all =>
      Bool.eq_false_iff.mp left (exhausted_iff.mpr ⟨stack, all⟩)
    push Not at notAll
    obtain ⟨p, mem, filled⟩ := notAll
    obtain ⟨i, isPile⟩ := mem_iff_getElem?.mp mem
    exact ⟨i, p, by omega, isPile, filled⟩
  · exact ⟨0, state.piles[0], by omega, getElem?_eq_getElem some_,
      refilled stack _ (getElem_mem some_)⟩

/-- The decision that is always legal: take the pile if it holds a card, else put it back. -/
theorem forcedDecision_legal (ahead : state.Ahead) :
    ∃ decision, forcedDecision state state.activeSeat = some decision ∧
      refusalFor state state.activeSeat state.cursor decision = none := by
  obtain ⟨i, p, from_, isPile, filled⟩ := ahead
  have bound : state.cursor < state.piles.length := by
    have := (List.getElem?_eq_some_iff.mp isPile).1
    omega
  have found : state.piles[state.cursor]? = some state.piles[state.cursor] :=
    getElem?_eq_getElem bound
  by_cases here : state.piles[state.cursor] = []
  · have refused : refusalFor state state.activeSeat state.cursor .take ≠ none := by
      rw [Ne, refusalFor_eq_none]
      rintro ⟨-, -, q, isQ, takes⟩
      exact takes (Option.some.inj (isQ.symm.trans found) ▸ here)
    have later : laterPileAvailable state state.cursor := by
      refine laterPileAvailable_iff.mpr ⟨i, p, ?_, isPile, filled⟩
      rcases lt_or_eq_of_le from_ with less | same
      · exact less
      · exact absurd (Option.some.inj (found.symm.trans (same ▸ isPile))) (here ▸ filled.symm)
    have legal : refusalFor state state.activeSeat state.cursor .decline = none :=
      refusalFor_eq_none.mpr ⟨rfl, rfl, _, found, .inl later⟩
    exact ⟨.decline, by simp [forcedDecision, SharedStackPileDecision.all, refused, legal], legal⟩
  · have legal : refusalFor state state.activeSeat state.cursor .take = none :=
      refusalFor_eq_none.mpr ⟨rfl, rfl, _, found, here⟩
    exact ⟨.take, by simp [forcedDecision, SharedStackPileDecision.all, legal], legal⟩

end SharedStackState

/-- Every card on the table or in a pool. -/
def StackSession.allCards (session : StackSession) (state : SharedStackState) :
    Multiset DraftCardInstance :=
  state.bag + (session.pools.map Multiset.ofList).sum

structure StackSession.Valid (session : StackSession) (state : SharedStackState) (pileCount : Nat)
    (cards : Multiset DraftCardInstance) : Prop where
  held : session.sharedStack = some state
  pools : session.pools.length = session.seats.length
  stack : state.Valid pileCount session.seatCount
  conserved : session.allCards state = cards
  phase : (session.status = .drafting ∧ state.Ahead) ∨
    (session.status = .deckbuilding ∧ state.exhausted = true)

variable {session next : StackSession} {decision : SharedStackPileDecision} {pile seat : Nat}

theorem applySharedStackDecision_ok {deltas : List DraftDelta}
    (ok : applySharedStackDecision session seat pile decision = (next, .ok deltas)) :
    session.status = .drafting ∧ seat < session.seatCount ∧
      ∃ state, session.sharedStack = some state ∧ refusalFor state seat pile decision = none ∧
        next = (settleDecision session state seat pile decision).1 := by
  unfold applySharedStackDecision at ok
  split at ok
  · cases ok
  · next drafting =>
    split at ok
    · cases ok
    · next bound =>
      split at ok
      · cases ok
      · next state isState =>
        split at ok
        · cases ok
        · next legal =>
          cases ok
          exact ⟨not_not.mp drafting, not_le.mp bound, state, isState, legal, rfl⟩

theorem applySharedStackDecision_error {error : DraftError}
    (refused : applySharedStackDecision session seat pile decision = (next, .error error)) :
    next = session := by
  unfold applySharedStackDecision at refused
  split at refused
  · cases refused
    rfl
  · split at refused
    · cases refused
      rfl
    · split at refused
      · cases refused
        rfl
      · split at refused
        · cases refused
          rfl
        · cases refused

theorem applySharedStackDecision_legal {state : SharedStackState}
    (drafting : session.status = .drafting) (bound : seat < session.seatCount)
    (isState : session.sharedStack = some state)
    (legal : refusalFor state seat pile decision = none) :
    ∃ next deltas, applySharedStackDecision session seat pile decision = (next, .ok deltas) := by
  refine ⟨(settleDecision session state seat pile decision).1,
    (settleDecision session state seat pile decision).2, ?_⟩
  rw [applySharedStackDecision, if_neg (not_not.mpr drafting), if_neg (not_le.mpr bound), isState]
  simp only [legal]

/-- One accepted decision: who got what, and where the turn stands. -/
structure Settled (session next : StackSession) (state after : SharedStackState) (seat : Nat)
    (drafted : List DraftCardInstance) (turnEnds : Bool) : Prop where
  pools : next.pools = session.pools.modify seat (· ++ drafted)
  left : after.bag + ↑drafted = state.bag
  ended : turnEnds = true → drafted ≠ [] ∧ after.cursor = 0
  goesOn : turnEnds = false →
    drafted = [] ∧ after.cursor = state.cursor + 1 ∧ after.activeSeat = state.activeSeat ∧
      after.Ahead

/-- The state once the turn has moved on, if it has. -/
def SharedStackState.pass (decided : SharedStackState) (turnEnds : Bool) (seatCount : Nat)
    (entry : SharedStackDecisionRecord) : SharedStackState :=
  if turnEnds then (decided.record entry).endTurn seatCount else decided.record entry

namespace SharedStackState

variable {state decided : SharedStackState} {turnEnds : Bool} {seatCount pileCount : Nat}
  {entry : SharedStackDecisionRecord} {drafted : List DraftCardInstance}

@[simp] theorem pass_mainStack :
    (decided.pass turnEnds seatCount entry).mainStack = decided.mainStack := by
  cases turnEnds <;> rfl

@[simp] theorem pass_piles : (decided.pass turnEnds seatCount entry).piles = decided.piles := by
  cases turnEnds <;> rfl

theorem pass_bag : (decided.pass turnEnds seatCount entry).bag = decided.bag := by
  simp [bag]

section
variable (done : Decided state decided drafted turnEnds) (valid : state.Valid pileCount seatCount)
include done valid

theorem pass_valid : (decided.pass turnEnds seatCount entry).Valid pileCount seatCount where
  piles := by rw [pass_piles, done.piles, valid.piles]
  inspected := by
    have kept := done.inspected.trans valid.inspected
    cases turnEnds <;> simpa [pass, record, endTurn] using kept
  active := by
    cases turnEnds with
    | false => exact done.active ▸ valid.active
    | true => exact mod_lt _ (zero_lt_of_lt valid.active)
  cursor := by
    cases turnEnds with
    | false =>
      obtain ⟨-, -, bound, -⟩ := done.goesOn rfl
      rw [done.piles, valid.piles] at bound
      exact bound
    | true => exact zero_lt_of_lt valid.cursor
  refilled := by
    intro more p mem
    rw [pass_mainStack] at more
    rw [pass_piles] at mem
    exact done.refilled more p mem

theorem pass_ahead (left : (decided.pass turnEnds seatCount entry).exhausted = false) :
    (decided.pass turnEnds seatCount entry).Ahead := by
  have kept : (decided.pass turnEnds seatCount entry).Valid pileCount seatCount :=
    pass_valid done valid
  cases turnEnds with
  | false =>
    obtain ⟨-, -, -, ahead⟩ := done.goesOn rfl
    exact ahead
  | true =>
    refine ahead_of_turnStart rfl ?_ kept.refilled left
    rw [kept.piles]
    exact zero_lt_of_lt valid.cursor

end

end SharedStackState

section
variable {session : StackSession} {state : SharedStackState} {pileCount seat pile : Nat}
  {cards : Multiset DraftCardInstance} {decision : SharedStackPileDecision}

theorem sum_pools_modify (pools : session.pools.length = session.seats.length)
    (bound : seat < session.seatCount) (drafted : List DraftCardInstance) :
    ((session.pools.modify seat (· ++ drafted)).map Multiset.ofList).sum =
      (session.pools.map Multiset.ofList).sum + ↑drafted := by
  have inside : seat < session.pools.length := by
    rw [pools]
    exact lt_of_lt_of_le bound (mod_le _ _)
  have trade := Indexed.sum_map_modify Multiset.ofList (· ++ drafted) inside
  simp only [← Multiset.coe_add, ← add_assoc] at trade
  exact add_right_cancel (trade.trans (add_right_comm _ _ _))

/-- A legal decision keeps the session valid and moves the turn as it should. -/
theorem settleDecision_valid (valid : session.Valid state pileCount cards)
    (drafting : session.status = .drafting) (bound : seat < session.seatCount)
    (legal : refusalFor state seat pile decision = none) :
    ∃ after drafted turnEnds, (settleDecision session state seat pile decision).1.Valid after
        pileCount cards ∧
      Settled session (settleDecision session state seat pile decision).1 state after seat drafted
        turnEnds := by
  have opened : (state.openNotice seat session.seatCount).Valid pileCount session.seatCount :=
    ⟨valid.stack.piles, valid.stack.inspected, valid.stack.active, valid.stack.cursor,
      valid.stack.refilled⟩
  have done := @decide_decided (state.openNotice seat session.seatCount) seat pile
    decision opened.refilled legal
  generalize outcome :
    (state.openNotice seat session.seatCount).decide seat pile decision = result at done
  obtain ⟨decided, drafted, turnEnds⟩ := result
  let after := decided.pass turnEnds session.seatCount
    ⟨seat, pile, decision, (state.piles.getD pile []).length⟩
  have isNext : (settleDecision session state seat pile decision).1 = { session with
        pools := session.pools.modify seat (· ++ drafted)
        sharedStack := some after
        status := if after.exhausted then .deckbuilding else session.status } := by
    simp only [settleDecision, outcome]
    change Prod.fst (if after.exhausted = true then (_, _) else (_, _)) = _
    split <;> rfl
  have left : after.bag + ↑drafted = state.bag := by
    rw [pass_bag]
    exact done.bag
  have kept : after.Valid pileCount session.seatCount := pass_valid done opened
  rw [isNext]
  refine ⟨after, drafted, turnEnds, ⟨rfl, by simpa using valid.pools, kept, ?_, ?_⟩,
    ⟨rfl, left, ?_, ?_⟩⟩
  · rw [StackSession.allCards, sum_pools_modify valid.pools bound, ← valid.conserved,
      StackSession.allCards, ← left]
    abel
  · cases ended : after.exhausted with
    | true => exact .inr ⟨rfl, rfl⟩
    | false => exact .inl ⟨drafting, pass_ahead done opened ended⟩
  · rintro rfl
    exact ⟨done.ended rfl, rfl⟩
  · rintro rfl
    obtain ⟨none_, cursor, -, ahead⟩ := done.goesOn rfl
    exact ⟨none_, cursor, done.active, ahead⟩

variable {deltas : List DraftDelta}

theorem accepted_valid {next : StackSession} (valid : session.Valid state pileCount cards)
    (ok : applySharedStackDecision session seat pile decision = (next, .ok deltas)) :
    seat = state.activeSeat ∧ ∃ after drafted turnEnds, next.Valid after pileCount cards ∧
      Settled session next state after seat drafted turnEnds := by
  obtain ⟨drafting, bound, held, isHeld, legal, rfl⟩ := applySharedStackDecision_ok ok
  cases valid.held.symm.trans isHeld
  obtain ⟨isSeat, -, -⟩ := refusalFor_eq_none.mp legal
  exact ⟨isSeat, settleDecision_valid valid drafting bound legal⟩

/-- While drafting, the forced decision is there and is accepted. -/
theorem forced_accepted (valid : session.Valid state pileCount cards)
    (drafting : session.status = .drafting) :
    ∃ decision, forcedDecision state state.activeSeat = some decision ∧ ∃ next deltas,
      applySharedStackDecision session state.activeSeat state.cursor decision =
        (next, .ok deltas) := by
  obtain ⟨-, ahead⟩ : session.status = .drafting ∧ state.Ahead := by
    refine valid.phase.resolve_right fun ended => ?_
    rw [drafting] at ended
    exact nomatch ended.1
  obtain ⟨decision, forced, legal⟩ := forcedDecision_legal ahead
  exact ⟨decision, forced,
    applySharedStackDecision_legal drafting valid.stack.active valid.held legal⟩

/-- Cards still to be drafted, counted in turns of at most `pileCount` decisions. -/
def SharedStackState.decisionsLeft (state : SharedStackState) (pileCount : Nat) : Nat :=
  state.bag.card * pileCount - state.cursor

theorem decisionsLeft_lt {next : StackSession} (valid : session.Valid state pileCount cards)
    (ok : applySharedStackDecision session seat pile decision = (next, .ok deltas))
    {after : SharedStackState} (valid' : next.Valid after pileCount cards) :
    after.decisionsLeft pileCount < state.decisionsLeft pileCount := by
  obtain ⟨-, _, drafted, turnEnds, valid'', settled⟩ := accepted_valid valid ok
  cases valid'.held.symm.trans valid''.held
  have cursor := valid.stack.cursor
  have left := congrArg Multiset.card settled.left
  simp only [Multiset.card_add, Multiset.coe_card] at left
  rw [decisionsLeft, decisionsLeft, ← left]
  cases turnEnds with
  | true =>
    obtain ⟨some_, start⟩ := settled.ended rfl
    have drawn : 0 < drafted.length := length_pos_iff.mpr some_
    have more : pileCount ≤ drafted.length * pileCount := Nat.le_mul_of_pos_left _ drawn
    rw [add_mul]
    omega
  | false =>
    obtain ⟨none_, next_, -, ahead⟩ := settled.goesOn rfl
    have more : pileCount ≤ after.bag.card * pileCount :=
      Nat.le_mul_of_pos_left _ ahead.card_bag_pos
    rw [none_]
    simp only [length_nil, add_zero]
    omega

end

structure StackDecision where
  seat : Nat
  pile : Nat
  decision : SharedStackPileDecision

def stackStep (action : StackDecision) (session : StackSession) : Option StackSession :=
  match applySharedStackDecision session action.seat action.pile action.decision with
  | (next, .ok _) => some next
  | (_, .error _) => none

theorem stackStep_some {action : StackDecision} :
    stackStep action session = some next ↔ ∃ deltas,
      applySharedStackDecision session action.seat action.pile action.decision =
        (next, .ok deltas) := by
  rw [stackStep]
  split
  · next found => simp [found]
  · next found => simp [found]

section
variable {session : StackSession} {state : SharedStackState} {pileCount : Nat}
  {cards : Multiset DraftCardInstance}

theorem run_valid {start : StackSession} {n : Nat} (valid : start.Valid state pileCount cards)
    (run : Schedule.Runs stackStep start n session) :
    ∃ after, session.Valid after pileCount cards ∧
      n + after.decisionsLeft pileCount ≤ state.decisionsLeft pileCount := by
  induction run generalizing state with
  | nil => exact ⟨state, valid, by omega⟩
  | cons action moved _ ih =>
    obtain ⟨deltas, ok⟩ := stackStep_some.mp moved
    obtain ⟨-, middle, -, -, valid', -⟩ := accepted_valid valid ok
    have less := decisionsLeft_lt valid ok valid'
    obtain ⟨after, valid'', bound⟩ := ih valid'
    exact ⟨after, valid'', by omega⟩

/-- Deciding as a stalled seat is made to decide brings the draft to its end. -/
theorem reaches_end (valid : session.Valid state pileCount cards) :
    ∃ n last, Schedule.Runs stackStep session n last ∧ last.status = .deckbuilding := by
  generalize budget : state.decisionsLeft pileCount = left
  induction left using Nat.strongRecOn generalizing session state with
  | ind left ih =>
    obtain ⟨drafting, -⟩ | ⟨ended, -⟩ := valid.phase
    · obtain ⟨decision, -, next, deltas, ok⟩ := forced_accepted valid drafting
      obtain ⟨-, middle, -, -, valid', -⟩ := accepted_valid valid ok
      have less := decisionsLeft_lt valid ok valid'
      obtain ⟨n, last, run, ended⟩ := ih _ (budget ▸ less) valid' rfl
      have moved : stackStep ⟨state.activeSeat, state.cursor, decision⟩ session = some next :=
        stackStep_some.mpr ⟨deltas, ok⟩
      exact ⟨n + 1, last, .cons _ moved run, ended⟩
    · exact ⟨0, session, .nil session, ended⟩

end

theorem dealPiles_spec {n : Nat} {stack : List DraftCardInstance} (enough : n ≤ stack.length) :
    (dealPiles n stack).1.length = n ∧ (∀ pile ∈ (dealPiles n stack).1, pile ≠ []) ∧
      ↑(dealPiles n stack).2 + ((dealPiles n stack).1.map Multiset.ofList).sum =
        (stack : Multiset DraftCardInstance) := by
  induction n generalizing stack with
  | zero => simp [dealPiles]
  | succ n ih =>
    obtain rfl | ⟨rest, card, rfl⟩ := eq_nil_or_concat' stack
    · simp at enough
    · obtain ⟨lengths, filled, bag⟩ := ih (show n ≤ rest.length by simpa using enough)
      simp only [dealPiles, getLast?_concat, dropLast_concat]
      refine ⟨by simp [lengths], ?_, ?_⟩
      · intro pile mem
        rcases mem_cons.mp mem with rfl | mem
        · simp
        · exact filled pile mem
      · rw [map_cons, sum_cons, ← Multiset.coe_add, ← bag]
        abel

section
variable {session started : StackSession} {packsPerSeat pileCount startingSeat : Nat}
  {allPacks : List (List DraftPack)} {shuffle : List DraftCardInstance → List DraftCardInstance}
  {deltas : List DraftDelta}

theorem dealSharedStack_valid (pools : session.pools = replicate session.seats.length [])
    (shuffled : ∀ cards, (shuffle cards).Perm cards) (starter : startingSeat < session.seatCount)
    (dealt : dealSharedStack session packsPerSeat pileCount allPacks shuffle startingSeat =
      .ok (started, deltas)) :
    ∃ state, started.Valid state pileCount ↑allPacks.flatten.flatten ∧
      state.bag = ↑allPacks.flatten.flatten := by
  rw [dealSharedStack, guard_eq_ok] at dealt
  obtain ⟨-, dealt⟩ := dealt
  rw [bind_eq_ok] at dealt
  obtain ⟨piles, needed, dealt⟩ := dealt
  obtain ⟨some_, rfl⟩ : pileCount ≠ 0 ∧ pileCount = piles := by
    rw [pilesNeeded] at needed
    split at needed
    · cases needed
    · next some_ =>
      cases needed
      exact ⟨some_, rfl⟩
  rw [guard_eq_ok] at dealt
  obtain ⟨enough, dealt⟩ := dealt
  cases dealt
  have sameCards := shuffled allPacks.flatten.flatten
  obtain ⟨lengths, filled, bag⟩ := dealPiles_spec
    (show pileCount ≤ (shuffle allPacks.flatten.flatten).length by
      rw [sameCards.length_eq]
      exact not_lt.mp enough)
  have whole : ↑(dealPiles pileCount (shuffle allPacks.flatten.flatten)).2 +
      ((dealPiles pileCount (shuffle allPacks.flatten.flatten)).1.map Multiset.ofList).sum =
      (↑allPacks.flatten.flatten : Multiset DraftCardInstance) :=
    bag.trans (Multiset.coe_eq_coe.mpr sameCards)
  have first : 0 < (dealPiles pileCount (shuffle allPacks.flatten.flatten)).1.length := by
    rw [lengths]
    exact Nat.pos_of_ne_zero some_
  refine ⟨_, ⟨rfl, by simp [openStack, pools], ⟨lengths, by simpa using lengths, starter,
    Nat.pos_of_ne_zero some_, fun _ => filled⟩, ?_, .inl ⟨rfl, 0, _, Nat.le_refl 0,
      getElem?_eq_getElem first, filled _ (getElem_mem first)⟩⟩, whole⟩
  have empty : (openStack session (dealPiles pileCount (shuffle allPacks.flatten.flatten)).1
      (dealPiles pileCount (shuffle allPacks.flatten.flatten)).2 startingSeat).pools =
      replicate session.seats.length [] := pools
  rw [StackSession.allCards, empty]
  simpa [SharedStackState.bag] using whole

/-- The deal and any decisions after it: cards are conserved, no pile is empty while the stack
lasts, the forced decision is there and accepted, a turn that ends has given its seat a card, and
the draft is over after a bounded number of decisions, when the table is empty and not before. -/
theorem shared_stack_draft_finishes (pools : session.pools = replicate session.seats.length [])
    (shuffled : ∀ cards, (shuffle cards).Perm cards) (starter : startingSeat < session.seatCount)
    (dealt : dealSharedStack session packsPerSeat pileCount allPacks shuffle startingSeat =
      .ok (started, deltas))
    {n : Nat} {now : StackSession} (run : Schedule.Runs stackStep started n now) :
    (∃ state, now.sharedStack = some state ∧
      (state.mainStack ++ state.piles.flatten ++ now.pools.flatten).Perm allPacks.flatten.flatten ∧
      (state.mainStack ≠ [] → ∀ pile ∈ state.piles, pile ≠ []) ∧
      (now.status = .drafting → ∃ decision,
        forcedDecision state state.activeSeat = some decision ∧ ∃ next deltas,
          applySharedStackDecision now state.activeSeat state.cursor decision =
            (next, .ok deltas)) ∧
      (∀ seat pile decision next deltas,
        applySharedStackDecision now seat pile decision = (next, .ok deltas) →
          seat = state.activeSeat ∧ ∃ after, next.sharedStack = some after ∧
            ((after.cursor = 0 ∧ ∃ drafted, drafted ≠ [] ∧
                next.pools = now.pools.modify seat (· ++ drafted)) ∨
              (after.cursor = state.cursor + 1 ∧ after.activeSeat = seat ∧
                next.pools = now.pools))) ∧
      (now.status = .drafting ∨ now.status = .deckbuilding) ∧
      (now.status = .deckbuilding ↔
        state.mainStack = [] ∧ ∀ pile ∈ state.piles, pile = [])) ∧
    n ≤ allPacks.flatten.flatten.length * pileCount ∧
    (∃ m last, Schedule.Runs stackStep now m last ∧ last.status = .deckbuilding) ∧
    (∀ seat pile decision next error,
      applySharedStackDecision now seat pile decision = (next, .error error) → next = now) := by
  obtain ⟨first, startValid, startBag⟩ := dealSharedStack_valid pools shuffled starter dealt
  obtain ⟨state, valid, bound⟩ := run_valid startValid run
  refine ⟨⟨state, valid.held, ?_, valid.stack.refilled, forced_accepted valid, ?_, ?_, ?_⟩, ?_,
    reaches_end valid, fun _ _ _ _ _ => applySharedStackDecision_error⟩
  · rw [← Multiset.coe_eq_coe, ← valid.conserved, StackSession.allCards, SharedStackState.bag,
      ← Multiset.coe_add, ← Multiset.coe_add, Indexed.sum_map_ofList, Indexed.sum_map_ofList]
  · intro seat pile decision next deltas ok
    obtain ⟨isSeat, after, drafted, turnEnds, valid', settled⟩ := accepted_valid valid ok
    refine ⟨isSeat, after, valid'.held, ?_⟩
    cases turnEnds with
    | true =>
      obtain ⟨some_, start⟩ := settled.ended rfl
      exact .inl ⟨start, drafted, some_, settled.pools⟩
    | false =>
      obtain ⟨rfl, cursor, active, -⟩ := settled.goesOn rfl
      refine .inr ⟨cursor, active.trans isSeat.symm, ?_⟩
      have same : next.pools = now.pools.modify seat fun pool => pool := by
        simpa using settled.pools
      rw [same]
      exact modify_id seat now.pools
  · exact valid.phase.imp And.left And.left
  · rw [← exhausted_iff]
    obtain ⟨drafting, ahead⟩ | ⟨building, ended⟩ := valid.phase
    · simp [drafting, ahead.not_exhausted]
    · simp [building, ended]
  · rw [decisionsLeft, decisionsLeft, startBag, Multiset.coe_card] at bound
    omega

end

def pileConfig : DraftConfig where
  flow := .legacyBarrier
  source := .cube "cube" "Cube"
  setCode := "cube"
  kind := .winston
  podSize := 2
  cardsPerPack := 2
  packCount := 1
  minDeckSize := 40
  tournamentFormat := .swiss

def pileLobby : StackSession :=
  { DraftSession.new pileConfig [.human 0 "Seat 0", .bot "Bot"] with sharedStack := none }

/-- One pile of one card, two cards on the stack. -/
def onePile : StackSession :=
  openStack pileLobby [[{ instanceId := "c" }]] [{ instanceId := "a" }, { instanceId := "b" }] 0

def afterDecisions (session : StackSession) (actions : List StackDecision) : StackSession :=
  actions.foldl (fun session action => (stackStep action session).getD session) session

/-- Seat 0 puts the only pile back and draws unseen; seat 1 takes what is there. -/
theorem declined_pile_is_taken :
    let last := afterDecisions onePile [⟨0, 0, .decline⟩, ⟨1, 0, .take⟩]
    last.status = .deckbuilding ∧
      last.pools = [[{ instanceId := "a" }], [{ instanceId := "c" }, { instanceId := "b" }]] ∧
      ∃ state, last.sharedStack = some state ∧
        (state.mainStack ++ state.piles.flatten ++ last.pools.flatten).Perm
          [{ instanceId := "a" }, { instanceId := "b" }, { instanceId := "c" }] := by
  have dealt : dealSharedStack pileLobby 1 1
      [[[{ instanceId := "a" }, { instanceId := "b" }]], [[{ instanceId := "c" }]]] id 0 =
      .ok (onePile, [.draftStarted]) := by decide +kernel
  have first : stackStep ⟨0, 0, .decline⟩ onePile =
      some (afterDecisions onePile [⟨0, 0, .decline⟩]) := by decide +kernel
  have second : stackStep ⟨1, 0, .take⟩ (afterDecisions onePile [⟨0, 0, .decline⟩]) =
      some (afterDecisions onePile [⟨0, 0, .decline⟩, ⟨1, 0, .take⟩]) := by decide +kernel
  obtain ⟨⟨state, isState, conserved, -⟩, -⟩ := shared_stack_draft_finishes (by decide)
    (fun cards => Perm.refl cards) (by decide) dealt (.cons _ first (.cons _ second (.nil _)))
  exact ⟨by decide +kernel, by decide +kernel, state, isState, conserved⟩

end Phase.Draft
