import Mathlib.Data.List.GetD
import Phase.Draft.Taking
import Phase.Lib.Indexed

/-! One accepted pick of the barrier flow: what it moves, and how the step, the
round or the draft ends. -/
namespace Phase.Draft
open List Nat

inductive BarrierAction where
  | pick (seat : Nat) (ids : List String)
  | pickWithDraftEffect (seat : Nat) (effectId : String) (ids : List String)

def BarrierAction.seat : BarrierAction → Nat
  | .pick seat _ => seat
  | .pickWithDraftEffect seat _ _ => seat

def applyBarrier (session : DraftSession) :
    BarrierAction → Except DraftError (DraftSession × List DraftDelta)
  | .pick seat ids => applyPick session seat ids
  | .pickWithDraftEffect seat effectId ids => applyPickWithDraftEffect session seat effectId ids

/-- Cards without their order. -/
abbrev bag (cards : List DraftCardInstance) : Multiset DraftCardInstance := ↑cards

def heldCards (held : Option DraftPack) : Multiset DraftCardInstance := bag (held.getD [])

def futureCards (future : List DraftPack) : Multiset DraftCardInstance := bag future.flatten

/-- The cards still in packs, opened or not. -/
def packCards (session : DraftSession) : Multiset DraftCardInstance :=
  (session.currentPack.map heldCards).sum + (session.packsBySeat.map futureCards).sum

def poolCards (session : DraftSession) : Multiset DraftCardInstance :=
  (session.pools.map bag).sum

def allCards (session : DraftSession) : Multiset DraftCardInstance :=
  packCards session + poolCards session

structure BarrierShape (session : DraftSession) : Prop where
  admitted : validateLegacyAdmission session = .ok ()
  seated : 0 < session.seats.length
  packs : session.currentPack.length = session.seats.length
  futures : session.packsBySeat.length = session.seats.length
  pools : session.pools.length = session.seats.length
  flags : session.seatsPickedThisRound.length = session.seats.length
  connected : session.connectedSeats.length = session.seats.length
  unopened : ∀ future ∈ session.packsBySeat, ∀ pack ∈ future, pack ≠ []

/-- Each seat still has one booster for every round to come. -/
def Supplied (session : DraftSession) : Prop :=
  ∀ future ∈ session.packsBySeat,
    future.length + session.currentPackNumber + 1 = session.config.packCount

def picked (session : DraftSession) (seat : Nat) : Bool :=
  session.seatsPickedThisRound.getD seat false

/-- The draft waits for a seat that holds cards, or it is over and no pack has
any. -/
def BarrierPhase (session : DraftSession) : Prop :=
  (session.status = .drafting ∧ Supplied session ∧
    ∃ seat < session.seats.length, owesPick session seat = true ∧ picked session seat = false) ∨
  (session.status = .deckbuilding ∧ packCards session = 0)

variable {podSize seat : Nat} {held : List (Option DraftPack)} {session next : DraftSession}
  {ids : List String} {deltas : List DraftDelta}

theorem nextSeat_lt (direction : PassDirection) (seat : Nat) (positive : 0 < podSize) :
    direction.nextSeat seat podSize < podSize := by
  cases direction <;> exact mod_lt _ positive

/-- How far a pass rotates the packs. -/
def turn (direction : PassDirection) (podSize : Nat) : Nat :=
  match direction with
  | .left => podSize - 1
  | .right => 1

theorem nextSeat_turn (direction : PassDirection) (bound : seat < podSize) :
    direction.nextSeat ((seat + turn direction podSize) % podSize) podSize = seat := by
  cases direction with
  | left =>
    simp only [PassDirection.nextSeat, turn, mod_add_mod]
    rw [show seat + (podSize - 1) + 1 = seat + podSize by omega, add_mod_right, mod_eq_of_lt bound]
  | right =>
    simp only [PassDirection.nextSeat, turn]
    by_cases last : seat + 1 = podSize
    · rw [last, mod_self, mod_eq_of_lt (by omega)]
      omega
    · rw [mod_eq_of_lt (show seat + 1 < podSize by omega),
        show seat + 1 + podSize - 1 = seat + podSize by omega, add_mod_right,
        mod_eq_of_lt bound]

theorem nextSeat_injective {a b : Nat} (direction : PassDirection) (ha : a < podSize)
    (hb : b < podSize) (same : direction.nextSeat a podSize = direction.nextSeat b podSize) :
    a = b := by
  cases direction with
  | left =>
    simp only [PassDirection.nextSeat] at same
    by_cases la : a + 1 = podSize <;> by_cases lb : b + 1 = podSize
    · omega
    · rw [la, mod_self, mod_eq_of_lt (by omega)] at same
      omega
    · rw [lb, mod_self, mod_eq_of_lt (by omega)] at same
      omega
    · rw [mod_eq_of_lt (by omega), mod_eq_of_lt (by omega)] at same
      omega
  | right =>
    simp only [PassDirection.nextSeat] at same
    have wrap (c : Nat) (hc : 0 < c) (hc' : c < podSize) : (c + podSize - 1) % podSize = c - 1 := by
      rw [show c + podSize - 1 = c - 1 + podSize by omega, add_mod_right, mod_eq_of_lt (by omega)]
    have zero : (0 + podSize - 1) % podSize = podSize - 1 := by
      rw [zero_add, mod_eq_of_lt (by omega)]
    rcases Nat.eq_zero_or_pos a with rfl | pa <;> rcases Nat.eq_zero_or_pos b with rfl | pb
    · rfl
    · rw [wrap b pb hb] at same
      omega
    · rw [wrap a pa ha] at same
      omega
    · rw [wrap a pa ha, wrap b pb hb] at same
      omega

/-- A pass is a rotation of the table. -/
theorem passAround_eq_rotate {α : Type} {held : List (Option α)} (direction : PassDirection)
    (size : held.length = podSize) :
    passAround direction podSize held = held.rotate (turn direction podSize) := by
  have length : (passAround direction podSize held).length = podSize := by
    unfold passAround
    rw [Indexed.length_foldl_set, length_replicate]
  refine ext_getElem (by simp [length, size]) fun seat h1 h2 => ?_
  have bound : seat < podSize := length ▸ h1
  let origin := (seat + turn direction podSize) % podSize
  have originBound : origin < podSize := mod_lt _ (by omega)
  have written := @Indexed.getElem?_foldl_set _
    (fun i => direction.nextSeat i podSize) (fun i => (held[i]?).join) (range podSize)
    (fun a ha b hb same => nextSeat_injective direction (mem_range.mp ha) (mem_range.mp hb) same)
    origin (mem_range.mpr originBound) (replicate podSize none)
    (by simpa using nextSeat_lt direction _ (by omega))
  rw [show direction.nextSeat origin podSize = seat from nextSeat_turn direction bound] at written
  have here : (passAround direction podSize held)[seat]? = some (held[origin]?).join := written
  rw [getElem?_eq_getElem h1] at here
  rw [Option.some.inj here, getElem_rotate]
  have inside : origin < held.length := size ▸ originBound
  simp only [getElem?_eq_getElem inside, Option.join_some, origin, size]

theorem sum_heldCards_eq_zero :
    (held.map heldCards).sum = 0 ↔ ∀ pack ∈ held, pack.getD [] = [] := by
  induction held with
  | nil => simp
  | cons pack held ih =>
    rw [map_cons, sum_cons, add_eq_zero, ih]
    simp [heldCards]

theorem packsEmpty_iff (session : DraftSession) :
    packsEmpty session = true ↔ (session.currentPack.map heldCards).sum = 0 := by
  simp [packsEmpty, sum_heldCards_eq_zero]

theorem owesPick_iff : owesPick session seat = true ↔ heldPack session seat ≠ [] := by
  simp [owesPick]

theorem exists_owesPick (h : packsEmpty session = false) :
    ∃ seat < session.currentPack.length, owesPick session seat = true := by
  simp only [packsEmpty, List.all_eq_false, List.isEmpty_iff] at h
  obtain ⟨held, mem, nonempty⟩ := h
  obtain ⟨seat, bound, rfl⟩ := mem_iff_getElem.mp mem
  refine ⟨seat, bound, owesPick_iff.mpr ?_⟩
  simpa [heldPack, getElem?_eq_getElem bound] using nonempty

theorem picked_clearFlags (session : DraftSession) (seat : Nat) :
    picked (clearFlags session) seat = false := by
  simp only [picked, clearFlags, getD_eq_getElem?_getD, getElem?_map]
  cases session.seatsPickedThisRound[seat]? <;> rfl

/-- An opened booster replaces an empty hand, so no card is covered up. -/
theorem sum_openNext {futures : List (List DraftPack)} (same : held.length = futures.length)
    (hands : ∀ pack ∈ held, pack.getD [] = []) :
    ((zipWith openNext held futures).map heldCards).sum +
      ((futures.map tail).map futureCards).sum = (futures.map futureCards).sum := by
  induction held generalizing futures with
  | nil =>
    have : futures = [] := length_eq_zero_iff.mp same.symm
    simp [this]
  | cons pack held ih =>
    cases futures with
    | nil => simp at same
    | cons future futures =>
      have rest := ih (by simpa using same : held.length = futures.length)
        fun p hp => hands p (mem_cons_of_mem pack hp)
      have own : heldCards (openNext pack future) + futureCards future.tail =
          futureCards future := by
        cases future with
        | nil => simp [openNext, heldCards, futureCards, hands pack mem_cons_self]
        | cons next later => simp [openNext, heldCards, futureCards]
      simp only [zipWith_cons_cons, map_cons, sum_cons]
      rw [add_add_add_comm, own, rest]

theorem packCards_openPacks (shape : BarrierShape session) (empty : packsEmpty session = true) :
    packCards (openPacks session) = packCards session := by
  have hands := (packsEmpty_iff session).mp empty
  have opened := sum_openNext (shape.packs.trans shape.futures.symm)
    (sum_heldCards_eq_zero.mp hands)
  simpa only [packCards, openPacks, hands, zero_add] using opened

theorem packCards_passPacks (shape : BarrierShape session) :
    packCards (passPacks session) = packCards session := by
  simp only [packCards, passPacks, passAround_eq_rotate _ shape.packs, Indexed.sum_map_rotate]

theorem validateLegacyAdmission_of_eq {t : DraftSession} (s : DraftSession) (config : t.config = s.config)
    (fifo : t.fifo = s.fifo) (status : t.status ≠ .review)
    (h : validateLegacyAdmission s = .ok ()) : validateLegacyAdmission t = .ok () := by
  simp only [validateLegacyAdmission] at h ⊢
  split at h
  · cases h
  · simp_all

section
variable (shape : BarrierShape session)
include shape

theorem BarrierShape.clearFlags : BarrierShape (clearFlags session) where
  admitted := shape.admitted
  seated := shape.seated
  packs := shape.packs
  futures := shape.futures
  pools := shape.pools
  flags := by simpa [Draft.clearFlags] using shape.flags
  connected := shape.connected
  unopened := shape.unopened

theorem BarrierShape.nextRound : BarrierShape (nextRound session) where
  admitted := shape.admitted
  seated := shape.seated
  packs := shape.packs
  futures := shape.futures
  pools := shape.pools
  flags := shape.flags
  connected := shape.connected
  unopened := shape.unopened

theorem BarrierShape.deckbuilding : BarrierShape { session with status := .deckbuilding } where
  admitted := validateLegacyAdmission_of_eq session rfl rfl (by simp) shape.admitted
  seated := shape.seated
  packs := shape.packs
  futures := shape.futures
  pools := shape.pools
  flags := shape.flags
  connected := shape.connected
  unopened := shape.unopened

theorem BarrierShape.openPacks : BarrierShape (openPacks session) where
  admitted := shape.admitted
  seated := shape.seated
  packs := by simp [Draft.openPacks, shape.packs, shape.futures]
  futures := by simpa [Draft.openPacks] using shape.futures
  pools := shape.pools
  flags := shape.flags
  connected := shape.connected
  unopened := by
    intro future mem pack inside
    obtain ⟨whole, member, rfl⟩ := mem_map.mp mem
    exact shape.unopened whole member pack (mem_of_mem_tail inside)

theorem BarrierShape.passPacks : BarrierShape (passPacks session) where
  admitted := shape.admitted
  seated := shape.seated
  packs := by simp [Draft.passPacks, passAround, Indexed.length_foldl_set]
  futures := shape.futures
  pools := shape.pools
  flags := shape.flags
  connected := shape.connected
  unopened := shape.unopened

/-- What the end of a step leaves behind, whichever way it goes. -/
theorem endStep_spec (drafting : session.status = .drafting) (supplied : Supplied session) :
    BarrierShape (endStep session).1 ∧ BarrierPhase (endStep session).1 ∧
      packCards (endStep session).1 = packCards session ∧
      (endStep session).1.pools = session.pools ∧
      (endStep session).1.seats = session.seats ∧
      ∀ seat, picked (endStep session).1 seat = false := by
  have cleared := shape.clearFlags
  unfold endStep
  dsimp only
  split
  · next empty =>
    have hands := (packsEmpty_iff _).mp empty
    split
    · next last =>
      -- With the last round exhausted nobody has an unopened booster left.
      have spent : ∀ future ∈ session.packsBySeat, future = [] := by
        intro future mem
        have := supplied future mem
        simp only [nextRound, clearFlags] at last
        exact length_eq_zero_iff.mp (by omega)
      have none_ : (session.packsBySeat.map futureCards).sum = 0 :=
        sum_eq_zero fun cards mem => by
          obtain ⟨future, member, rfl⟩ := mem_map.mp mem
          simp [futureCards, spent future member]
      have zero : packCards session = 0 := by
        simp only [packCards, none_, add_zero]
        exact hands
      refine ⟨cleared.nextRound.deckbuilding, .inr ⟨rfl, zero⟩, rfl, rfl, rfl, ?_⟩
      exact picked_clearFlags session
    · next more =>
      have opened := cleared.nextRound.openPacks
      refine ⟨opened, .inl ⟨drafting, ?_, 0, shape.seated, ?_, picked_clearFlags session 0⟩,
        packCards_openPacks cleared.nextRound empty, rfl, rfl, picked_clearFlags session⟩
      · intro future mem
        obtain ⟨whole, member, rfl⟩ := mem_map.mp mem
        have := supplied whole member
        simp only [nextRound, clearFlags, openPacks] at more ⊢
        rw [length_tail]
        omega
      · have here : 0 < session.packsBySeat.length := shape.futures ▸ shape.seated
        have hand : 0 < session.currentPack.length := shape.packs ▸ shape.seated
        have member : session.packsBySeat[0] ∈ session.packsBySeat := getElem_mem here
        have count := supplied _ member
        simp only [nextRound, clearFlags] at more
        obtain ⟨next, later, whole⟩ : ∃ next later, session.packsBySeat[0] = next :: later :=
          exists_cons_of_length_pos (show 0 < session.packsBySeat[0].length by omega)
        have nonempty : next ≠ [] :=
          shape.unopened _ member next (whole ▸ mem_cons_self)
        rw [owesPick_iff]
        simp [heldPack, openPacks, nextRound, clearFlags, getElem?_zipWith,
          getElem?_eq_getElem here, getElem?_eq_getElem hand, whole, openNext, nonempty]
  · next held =>
    have passed := cleared.passPacks
    have stillHeld : packsEmpty (passPacks (clearFlags session)) = false := by
      rw [Bool.eq_false_iff, ne_eq, packsEmpty_iff]
      rw [packsEmpty_iff] at held
      simpa only [passPacks, passAround_eq_rotate _ cleared.packs, Indexed.sum_map_rotate]
        using held
    obtain ⟨seat, bound, owes⟩ := exists_owesPick stillHeld
    exact ⟨passed, .inl ⟨drafting, supplied, seat, passed.packs ▸ bound, owes,
      picked_clearFlags session seat⟩, packCards_passPacks cleared, rfl, rfl,
      picked_clearFlags session⟩

end

/-- The cards of `seat` are dealt out anew between its pack and its pool. -/
def redeal (session : DraftSession) (seat : Nat) (left : DraftPack)
    (pool : List DraftCardInstance) : DraftSession :=
  setPool (setPack session seat left) seat pool

theorem BarrierShape.redeal (shape : BarrierShape session) (seat : Nat) (left : DraftPack)
    (pool : List DraftCardInstance) :
    BarrierShape (redeal session seat left pool) where
  admitted := shape.admitted
  seated := shape.seated
  packs := by simpa [Draft.redeal, setPool, setPack] using shape.packs
  futures := shape.futures
  pools := by simpa [Draft.redeal, setPool, setPack] using shape.pools
  flags := shape.flags
  connected := shape.connected
  unopened := shape.unopened

theorem BarrierShape.markPicked (shape : BarrierShape session) (seat : Nat) :
    BarrierShape (markPicked session seat) where
  admitted := shape.admitted
  seated := shape.seated
  packs := shape.packs
  futures := shape.futures
  pools := shape.pools
  flags := by simpa [Draft.markPicked] using shape.flags
  connected := shape.connected
  unopened := shape.unopened

theorem heldPack_redeal (shape : BarrierShape session) (bound : seat < session.seats.length)
    (left : DraftPack) (pool : List DraftCardInstance) (other : Nat) :
    heldPack (redeal session seat left pool) other =
      if other = seat then left else heldPack session other := by
  have inside : seat < session.currentPack.length := shape.packs ▸ bound
  simp only [heldPack, redeal, setPool, setPack, getElem?_set]
  by_cases same : other = seat
  · simp [same, inside]
  · simp [same, Ne.symm same]

theorem heldCards_getElem (inside : seat < session.currentPack.length) :
    heldCards session.currentPack[seat] = bag (heldPack session seat) := by
  simp [heldCards, heldPack, getElem?_eq_getElem inside]

section
variable (shape : BarrierShape session) (bound : seat < session.seats.length) (left : DraftPack)
  (pool : List DraftCardInstance)
include shape bound left pool

theorem packCards_redeal :
    packCards (redeal session seat left pool) + bag (heldPack session seat) =
      packCards session + bag left := by
  have inside : seat < session.currentPack.length := shape.packs ▸ bound
  have swap := Indexed.sum_map_set heldCards inside (some left)
  rw [heldCards_getElem inside] at swap
  simp only [packCards, redeal, setPool, setPack]
  rw [add_right_comm, swap, add_right_comm]
  rfl

theorem poolCards_redeal :
    poolCards (redeal session seat left pool) + bag (session.pools.getD seat []) =
      poolCards session + bag pool := by
  have inside : seat < session.pools.length := shape.pools ▸ bound
  rw [getD_eq_getElem _ _ inside]
  exact Indexed.sum_map_set bag inside pool

end

/-- What an accepted action of either kind does before the step is checked. -/
structure BarrierMove (session : DraftSession) (seat : Nat) (left : DraftPack)
    (pool : List DraftCardInstance) : Prop where
  drafting : session.status = .drafting
  bound : seat < session.seats.length
  fresh : picked session seat = false
  owes : owesPick session seat = true
  dealt : bag left + bag pool = bag (heldPack session seat) + bag (session.pools.getD seat [])
  smaller : left.length < (heldPack session seat).length

theorem Takes.bag_eq {pack left taken : DraftPack} (h : Takes pack ids left taken) :
    bag left + bag taken = bag pack :=
  Multiset.coe_eq_coe.mpr h.perm

theorem ensureLen_of_length {α : Type} {xs : List α} {len : Nat} (default : α)
    (h : xs.length = len) : ensureLen xs len default = xs := by
  simp [ensureLen, h]

theorem admitPick_ok {name : String} (shape : BarrierShape session)
    (h : admitPick session seat name = .ok next) :
    session = next ∧ session.status = .drafting ∧ seat < session.seats.length ∧
      picked session seat = false := by
  simp only [admitPick, ensureLen_of_length _ shape.flags,
    ensureLen_of_length _ shape.connected] at h
  split at h
  · cases h
  · next drafting =>
    split at h
    · cases h
    · next bound =>
      split at h
      · cases h
      · next fresh =>
        refine ⟨Except.ok.inj h, by simpa using drafting, by omega, ?_⟩
        simpa [picked] using fresh

theorem admitPick_of {name : String} (shape : BarrierShape session)
    (drafting : session.status = .drafting) (bound : seat < session.seats.length)
    (fresh : picked session seat = false) : admitPick session seat name = .ok session := by
  have unpicked : session.seatsPickedThisRound.getD seat false = false := fresh
  simp only [admitPick, ensureLen_of_length _ shape.flags,
    ensureLen_of_length _ shape.connected, unpicked]
  rw [if_neg (by simp [drafting]), if_neg (by omega)]
  rfl

theorem headPack_of_shape (shape : BarrierShape session) (seat : Nat) :
    session.headPack seat = (session.currentPack[seat]?).join := by
  have legacy : session.config.flow = .legacyBarrier := by
    have admitted := shape.admitted
    simp only [validateLegacyAdmission] at admitted
    split at admitted
    · cases admitted
    · simp_all
  simp [DraftSession.headPack, legacy]

theorem requiredPickCount_of_shape (shape : BarrierShape session) (seat : Nat) :
    session.requiredPickCount seat =
      min session.kind.procedure.cardsPerPick (heldPack session seat).length := by
  simp only [DraftSession.requiredPickCount, headPack_of_shape shape, heldPack]
  cases (session.currentPack[seat]?).join <;> rfl

/-- An accepted `Pick` takes the named cards out of the seat's own pack. -/
theorem applyPick_ok (shape : BarrierShape session)
    (h : applyPick session seat ids = .ok (next, deltas)) :
    ∃ left taken, Takes (heldPack session seat) ids left taken ∧
      ids.length = session.requiredPickCount seat ∧ ids.Nodup ∧
      BarrierMove session seat left (session.pools.getD seat [] ++ taken) ∧
      (next, deltas) = finishPick
        (redeal session seat left (session.pools.getD seat [] ++ taken)) seat ids := by
  simp only [applyPick, shape.admitted, bind, Except.bind] at h
  split at h
  · cases h
  · next admitted =>
    obtain ⟨rfl, drafting, bound, fresh⟩ := admitPick_ok shape admitted
    split at h
    · cases h
    · next nonempty =>
      split at h
      · cases h
      · next count =>
        split at h
        · cases h
        · next indices resolved =>
          have takes := takes_of_resolved resolved
          have count' : ids.length = session.requiredPickCount seat := by simpa using count
          have held : heldPack session seat ≠ [] := by simpa using nonempty
          refine ⟨_, _, takes, count', nodup_of_resolved resolved,
            ⟨drafting, bound, fresh, owesPick_iff.mpr held, ?_, ?_⟩, (Except.ok.inj h).symm⟩
          · rw [← takes.bag_eq, bag, bag, ← Multiset.coe_add]
            abel
          · have length := takes.length
            have positive : 0 < ids.length := by
              rw [count', requiredPickCount_of_shape shape]
              have := length_pos_iff.mpr held
              cases session.kind <;> simp [DraftKind.procedure] <;> omega
            omega

theorem isEffectCard_getElem {pool : List DraftCardInstance} {effectId : String} {index : Nat}
    (found : pool.findIdx? (isEffectCard effectId) = some index) : index < pool.length :=
  (findIdx?_eq_some_iff_getElem.mp found).1

/-- An accepted draft-effect pick takes two cards and gives the effect card back. -/
theorem applyPickWithDraftEffect_ok {effectId : String} (shape : BarrierShape session)
    (h : applyPickWithDraftEffect session seat effectId ids = .ok (next, deltas)) :
    ∃ left pool, BarrierMove session seat left pool ∧
      (next, deltas) = finishPick (redeal session seat left pool) seat ids := by
  simp only [applyPickWithDraftEffect, shape.admitted, bind, Except.bind] at h
  split at h
  · next first second =>
    split at h
    · cases h
    · next admitted =>
      obtain ⟨rfl, drafting, bound, fresh⟩ := admitPick_ok shape admitted
      split at h
      · cases h
      · next distinct =>
        split at h
        · cases h
        · cases h
        · next effectIndex pack found hand =>
          split at h
          · cases h
          · next present =>
            have held : heldPack session seat = pack := by simp [heldPack, hand]
            have allPresent : ∀ id ∈ [first, second], ∃ card ∈ pack, card.instanceId = id := by
              intro id mem
              have := find?_eq_none.mp present id mem
              simpa using this
            have takes := takeByIds_takes (by simpa using distinct) allPresent
            have inside := isEffectCard_getElem found
            have effect : bag ((session.pools.getD seat []).eraseIdx effectIndex) +
                bag [(session.pools.getD seat [])[effectIndex]] =
                  bag (session.pools.getD seat []) := by
              refine Multiset.coe_eq_coe.mpr ?_
              exact (perm_append_singleton _ _).trans (getElem_cons_eraseIdx_perm inside)
            have length := takes.length
            refine ⟨_, _, ⟨drafting, bound, fresh, ?_, ?_, ?_⟩, (Except.ok.inj h).symm⟩
            · rw [owesPick_iff, held]
              rintro rfl
              simp at length
            · rw [held, ← takes.bag_eq, ← effect]
              simp only [getElem?_eq_getElem inside, Option.toList_some, bag, ← Multiset.coe_add]
              abel
            · rw [held]
              simp only [getElem?_eq_getElem inside, Option.toList_some,
                length_append, length_cons, length_nil] at length ⊢
              omega
  · cases h

end Phase.Draft
