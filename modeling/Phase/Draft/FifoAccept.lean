import Mathlib.Algebra.Order.BigOperators.Group.List
import Mathlib.Algebra.Order.Group.Nat
import Mathlib.Data.List.GetD
import Phase.Draft.FifoInvariant

/-! The snapshot check accepts every session that satisfies the invariant. -/
namespace Phase.Draft
open Fallible List

theorem refuseIf_eq_ok {condition : Bool} {reason : String} :
    refuseIf condition reason = .ok () ↔ condition = false := by
  cases condition <;> simp [refuseIf]

theorem refuseIf_of {condition : Bool} {reason : String} (h : condition = false) :
    refuseIf condition reason = .ok () := refuseIf_eq_ok.mpr h

theorem mem_idBag {cards : List DraftCardInstance} {id : String} :
    id ∈ idBag cards ↔ ∃ card ∈ cards, card.instanceId = id := by
  simp [idBag]

theorem idBag_cons (card : DraftCardInstance) (cards : List DraftCardInstance) :
    idBag (card :: cards) = card.instanceId ::ₘ idBag cards := rfl

theorem idBag_append (a b : List DraftCardInstance) : idBag (a ++ b) = idBag a + idBag b := by
  simp [idBag]

theorem card_idBag (cards : List DraftCardInstance) : (idBag cards).card = cards.length := by
  simp [idBag]

@[simp] theorem idBag_nil : idBag [] = 0 := rfl

theorem idBag_perm {a b : List DraftCardInstance} (h : a.Perm b) : idBag a = idBag b :=
  Multiset.coe_eq_coe.mpr (h.map _)

theorem idBag_flatten (packs : List DraftPack) : idBag packs.flatten = (packs.map idBag).sum := by
  induction packs with
  | nil => rfl
  | cons pack packs ih => rw [flatten_cons, idBag_append, ih, map_cons, sum_cons]

variable {card : DraftCardInstance} {packs : List (List DraftPack)} {seat : FifoSeatState}

theorem mem_dealtPack {seat round : Nat} (mem : card ∈ dealtPack packs seat round) :
    ∃ row pack, packs[seat]? = some row ∧ row[round]? = some pack ∧
      dealtPack packs seat round = pack := by
  unfold dealtPack at mem ⊢
  cases atSeat : packs[seat]? with
  | none => simp [atSeat] at mem
  | some row =>
    cases atRound : row[round]? with
    | none => simp [atSeat, atRound] at mem
    | some pack => exact ⟨row, pack, rfl, atRound, by simp [atSeat, atRound]⟩

theorem dealtPack_eq {seat round : Nat} (inside : seat < packs.length)
    (insideRow : round < packs[seat].length) : dealtPack packs seat round = packs[seat][round] := by
  simp [dealtPack, inside, insideRow]

theorem mem_deal :
    card ∈ packs.flatten.flatten ↔ ∃ seat round, card ∈ dealtPack packs seat round := by
  constructor
  · intro mem
    obtain ⟨pack, inRows, inPack⟩ := mem_flatten.mp mem
    obtain ⟨row, inPacks, inRow⟩ := mem_flatten.mp inRows
    obtain ⟨seat, inside, rfl⟩ := mem_iff_getElem.mp inPacks
    obtain ⟨round, insideRow, rfl⟩ := mem_iff_getElem.mp inRow
    exact ⟨seat, round, by rwa [dealtPack_eq inside insideRow]⟩
  · rintro ⟨seat, round, mem⟩
    obtain ⟨row, pack, atSeat, atRound, same⟩ := mem_dealtPack mem
    rw [same] at mem
    exact mem_flatten.mpr ⟨pack, mem_flatten.mpr ⟨row, mem_of_getElem? atSeat,
      mem_of_getElem? atRound⟩, mem⟩

section
variable {packs : List (List DraftPack)} {podSize packCount : Nat}

section
variable (deal : GoodDeal podSize packCount packs)
include deal

theorem GoodDeal.bounds {seat round : Nat} {card : DraftCardInstance}
    (mem : card ∈ dealtPack packs seat round) : seat < packs.length ∧ round < packCount := by
  obtain ⟨row, pack, atSeat, atRound, _⟩ := mem_dealtPack mem
  obtain ⟨inside, rfl⟩ := List.getElem?_eq_some_iff.mp atSeat
  obtain ⟨insideRow, _⟩ := List.getElem?_eq_some_iff.mp atRound
  exact ⟨inside, deal.rounds _ (getElem_mem inside) ▸ insideRow⟩

theorem GoodDeal.pack_mem {seat round : Nat} (inside : seat < packs.length)
    (insideRow : round < packCount) : ∃ row ∈ packs, dealtPack packs seat round ∈ row := by
  have length := deal.rounds _ (getElem_mem inside)
  have insideRow : round < packs[seat].length := length ▸ insideRow
  exact ⟨packs[seat], getElem_mem inside, by
    rw [dealtPack_eq inside insideRow]; exact getElem_mem insideRow⟩

/-- Two cards of the deal with one id are one card. -/
theorem GoodDeal.card_eq {a b : DraftCardInstance} (ha : a ∈ packs.flatten.flatten)
    (hb : b ∈ packs.flatten.flatten) (same : a.instanceId = b.instanceId) : a = b :=
  inj_on_of_nodup_map deal.distinct ha hb same

end

end

theorem mem_toFinset_of_nodup {m extra : Multiset String} {id : String}
    (distinct : (m + id ::ₘ extra).Nodup) : id ∉ m.toFinset := by
  rw [Multiset.mem_toFinset]
  intro mem
  have := Multiset.nodup_add.mp distinct
  exact Multiset.disjoint_left.mp this.2.2 mem (Multiset.mem_cons_self id extra)

theorem insert_toFinset (m : Multiset String) (id : String) :
    insert id m.toFinset = (m + {id}).toFinset := by
  rw [add_comm, Multiset.singleton_add, Multiset.toFinset_cons]

section
variable {packs : List (List DraftPack)} {packCount : Nat} {fifo : FifoDraftState}

variable {card : DraftCardInstance} {m : Multiset String}

section
variable (registered : Registered packs packCount fifo)
include registered

theorem Registered.lookup (mem : card ∈ packs.flatten.flatten) :
    ∃ seat round, card ∈ dealtPack packs seat round ∧
      fifo.cards.lookup card.instanceId = some ⟨coordinate packs.length round seat, card⟩ := by
  obtain ⟨seat, round, inPack⟩ := mem_deal.mp mem
  exact ⟨seat, round, inPack, registered.cards seat round card inPack⟩

theorem validateOwnedCard_of (mem : card ∈ packs.flatten.flatten)
    (fresh : card.instanceId ∉ m.toFinset) :
    validateOwnedCard fifo m.toFinset card = .ok (m + {card.instanceId}).toFinset := by
  obtain ⟨seat, round, _, found⟩ := registered.lookup mem
  simp only [validateOwnedCard, found, Option.any_some, decide_true, Bool.not_true,
    Bool.false_or, decide_eq_true_eq]
  rw [if_neg fresh, insert_toFinset]

theorem validateOwnedCards_of {cards : List DraftCardInstance}
    (mem : ∀ card ∈ cards, card ∈ packs.flatten.flatten) (distinct : (m + idBag cards).Nodup) :
    validateOwnedCards fifo cards m.toFinset = .ok (m + idBag cards).toFinset := by
  induction cards generalizing m with
  | nil => simp [validateOwnedCards]
  | cons card cards ih =>
    rw [idBag_cons] at distinct ⊢
    have first := validateOwnedCard_of registered (mem card mem_cons_self)
      (mem_toFinset_of_nodup distinct)
    have shifted : m + card.instanceId ::ₘ idBag cards = m + {card.instanceId} + idBag cards := by
      rw [add_assoc, Multiset.singleton_add]
    rw [shifted] at distinct ⊢
    simp only [validateOwnedCards, first, bind, Except.bind]
    exact ih (fun other later => mem other (mem_cons_of_mem card later)) distinct

end

end

section
variable {packs : List (List DraftPack)} {podSize packCount : Nat} {fifo : FifoDraftState}

variable {m : Multiset String}

theorem catalogueCards_of (deal : GoodDeal podSize packCount packs)
    (registered : Registered packs packCount fifo) {seat round : Nat} {pack : DraftPack}
    (sub : ∀ card ∈ pack, card ∈ dealtPack packs seat round) (distinct : (m + idBag pack).Nodup) :
    catalogueCards fifo (coordinate packs.length round seat) (pack.map (·.instanceId)) m.toFinset =
      .ok (m + idBag pack).toFinset := by
  induction pack generalizing m with
  | nil => simp [catalogueCards]
  | cons card pack ih =>
    rw [idBag_cons] at distinct ⊢
    have inPack := sub card mem_cons_self
    have found := registered.cards seat round card inPack
    have valid := deal.valid card (mem_deal.mpr ⟨seat, round, inPack⟩)
    have fresh := mem_toFinset_of_nodup distinct
    have shifted : m + card.instanceId ::ₘ idBag pack = m + {card.instanceId} + idBag pack := by
      rw [add_assoc, Multiset.singleton_add]
    rw [shifted] at distinct ⊢
    simp only [map_cons, catalogueCards, found]
    rw [if_neg (by simpa [valid] using fresh), insert_toFinset]
    exact ih (fun other later => sub other (mem_cons_of_mem card later)) distinct

variable {session : DraftSession}

section
variable (deal : GoodDeal podSize packCount packs)
include deal

section
variable (registered : Registered packs packCount fifo)
  (pod : session.config.podSize = packs.length)
  (sizes : session.packSizes = (packs.headD []).map length)
include registered pod sizes

theorem cataloguePack_of {seat round : Nat} (inside : seat < packs.length)
    (insideRow : round < packCount) (distinct : (m + idBag (dealtPack packs seat round)).Nodup) :
    cataloguePack session fifo round seat m.toFinset =
      .ok (m + idBag (dealtPack packs seat round)).toFinset := by
  obtain ⟨row, inPacks, inRow⟩ := deal.pack_mem inside insideRow
  have nonempty := (deal.sizes row inPacks _ inRow).1
  have found := registered.listed seat inside round insideRow
  have first : seat = 0 → session.packSizes.getD round 0 = (dealtPack packs seat round).length := by
    rintro rfl
    obtain ⟨row₀, others, rfl⟩ := exists_cons_of_length_pos inside
    have bound : round < row₀.length := deal.rounds row₀ mem_cons_self ▸ insideRow
    simp [sizes, dealtPack, bound]
  rw [← pod] at found
  have nonempty : dealtPack packs seat round ≠ [] := ne_nil_of_length_pos nonempty
  simp only [cataloguePack, found, bind, Except.bind]
  rw [refuseIf_of (by simp [provenance, pod, nonempty])]
  rw [refuseIf_of (by simpa [provenance] using first), pod]
  exact catalogueCards_of deal registered (fun _ mem => mem) distinct

theorem catalogue_of {cells : List (Nat × Nat)}
    (inside : ∀ cell ∈ cells, cell.1 < packCount ∧ cell.2 < packs.length)
    (distinct : (m + (cells.map fun cell => idBag (dealtPack packs cell.2 cell.1)).sum).Nodup) :
    catalogue session fifo cells m.toFinset =
      .ok (m + (cells.map fun cell => idBag (dealtPack packs cell.2 cell.1)).sum).toFinset := by
  induction cells generalizing m with
  | nil => simp [catalogue]
  | cons cell cells ih =>
    obtain ⟨round, seat⟩ := cell
    obtain ⟨insideRow, insideSeat⟩ := inside (round, seat) mem_cons_self
    rw [map_cons, sum_cons, ← add_assoc] at distinct ⊢
    have own := (Multiset.nodup_add.mp distinct).1
    simp only [catalogue, cataloguePack_of deal registered pod sizes insideSeat insideRow own,
      bind, Except.bind]
    exact ih (fun other later => inside other (mem_cons_of_mem _ later)) distinct

end

/-- The coordinates cover the deal. -/
theorem sum_coordinates (pod : session.config.podSize = packs.length)
    (rounds : session.config.packCount = packCount) :
    ((coordinates session).map fun cell => idBag (dealtPack packs cell.2 cell.1)).sum =
      idBag packs.flatten.flatten := by
  simp only [coordinates, Indexed.sum_map_flatMap, map_map, Function.comp_def, pod, rounds]
  rw [Indexed.sum_range_comm]
  have rows : packs.map (fun row => idBag row.flatten) = (range packs.length).map fun seat =>
      ((range packCount).map fun round => idBag (dealtPack packs seat round)).sum := by
    rw [← Indexed.map_range_getD (fun row => idBag row.flatten) packs []]
    refine map_congr_left fun seat mem => ?_
    have inside : seat < packs.length := mem_range.mp mem
    have length := deal.rounds _ (getElem_mem inside)
    rw [idBag_flatten, getD_eq_getElem _ _ inside, ← length,
      ← Indexed.map_range_getD idBag packs[seat] []]
    refine congrArg sum (map_congr_left fun round _ => ?_)
    rw [dealtPack, getD_eq_getElem _ _ inside]
  rw [← rows]
  simp [map_flatten, sum_flatten, idBag_flatten, Function.comp_def]

end

end

section
variable {packs : List (List DraftPack)} {podSize packCount : Nat} {fifo : FifoDraftState}
  {session : DraftSession}

theorem futureIds_cons (pack : DraftPack) (future : List DraftPack) :
    futureIds (pack :: future) = idBag pack + futureIds future := by
  simp [futureIds, idBag_append]

variable {m : Multiset String}

theorem validateFuture_of (registered : Registered packs packCount fifo)
    (pod : session.seats.length = packs.length) {seat round : Nat} {future : List DraftPack}
    (inside : seat < packs.length) (fits : round + future.length ≤ packCount)
    (dealt : ∀ i (h : i < future.length), future[i] = dealtPack packs seat (round + i))
    (distinct : (m + futureIds future).Nodup) :
    validateFuture session fifo seat round future m.toFinset =
      .ok (m + futureIds future).toFinset := by
  induction future generalizing round m with
  | nil => simp [validateFuture, futureIds]
  | cons pack future ih =>
    have here : pack = dealtPack packs seat round := dealt 0 (by simp)
    have found := registered.listed seat inside round (by simp at fits; omega)
    have member : ∀ card ∈ pack, card ∈ packs.flatten.flatten := fun card mem =>
      mem_deal.mpr ⟨seat, round, here ▸ mem⟩
    rw [futureIds_cons, ← add_assoc] at distinct ⊢
    have own := (Multiset.nodup_add.mp distinct).1
    rw [← pod] at found
    simp only [validateFuture, found, bind, Except.bind]
    rw [refuseIf_of (by simp [provenance, here])]
    rw [validateOwnedCards_of registered member own]
    refine ih (by simp at fits; omega) (fun i h => ?_) distinct
    have := dealt (i + 1) (by simpa using h)
    rw [getElem_cons_succ] at this
    rw [this]
    congr 1
    omega

theorem validateFutures_of (deal : GoodDeal podSize packCount packs)
    (registered : Registered packs packCount fifo) (pod : session.seats.length = packs.length)
    (rounds : session.config.packCount = packCount) {unopened seat : Nat}
    {futures : List (List DraftPack)} (bound : unopened ≤ packCount)
    (sealed_ : futures = (packs.drop seat).map (·.drop unopened))
    (distinct : (m + (futures.map futureIds).sum).Nodup) :
    validateFutures session fifo unopened seat futures m.toFinset =
      .ok (m + (futures.map futureIds).sum).toFinset := by
  induction futures generalizing seat m with
  | nil => simp [validateFutures]
  | cons future futures ih =>
    have inside : seat < packs.length := by
      by_contra outside
      rw [drop_eq_nil_of_le (by omega)] at sealed_
      cases sealed_
    rw [drop_eq_getElem_cons inside, map_cons, cons.injEq] at sealed_
    obtain ⟨rfl, rest⟩ := sealed_
    have length := deal.rounds _ (getElem_mem inside)
    rw [map_cons, sum_cons, ← add_assoc] at distinct ⊢
    have own := (Multiset.nodup_add.mp distinct).1
    have dealt : ∀ i (h : i < (packs[seat].drop unopened).length),
        (packs[seat].drop unopened)[i] = dealtPack packs seat (unopened + i) := by
      intro i h
      have inRow : unopened + i < packs[seat].length := by simp at h; omega
      rw [getElem_drop, dealtPack_eq inside inRow]
    simp only [validateFutures, bind, Except.bind]
    rw [refuseIf_of (by simp [length, rounds])]
    rw [validateFuture_of registered pod inside (by simp [length]; omega) dealt own]
    exact ih rest distinct

end

def ledgerOf (owned : Multiset String) (openers : Multiset Nat) (packIds : Multiset DraftPackId)
    (returns : Multiset String) : LiveLedger :=
  ⟨owned.toFinset, openers.toFinset, packIds.toFinset, returns.toFinset⟩

def returnedIds (fifo : FifoDraftState) (cards : List DraftCardInstance) : Multiset String :=
  idBag (cards.filter fun card => (fifo.returnedEffects.lookup card.instanceId).isSome)

section
variable {packs : List (List DraftPack)} {podSize packCount : Nat} {fifo : FifoDraftState}
  {session : DraftSession}

theorem returnedIds_cons (card : DraftCardInstance) (cards : List DraftCardInstance) :
    returnedIds fifo (card :: cards) =
      (if (fifo.returnedEffects.lookup card.instanceId).isSome then {card.instanceId} else 0) +
        returnedIds fifo cards := by
  unfold returnedIds
  rw [filter_cons]
  split
  · rw [idBag_cons, Multiset.singleton_add]
  · rw [zero_add]

section
variable (registered : Registered packs packCount fifo)
include registered

theorem validateLiveCards_of {seat round : Nat} {cards : List DraftCardInstance}
    (member : ∀ card ∈ cards, card ∈ packs.flatten.flatten)
    (returned : ∀ card ∈ cards, ∀ assignment,
      fifo.returnedEffects.lookup card.instanceId = some assignment →
        assignment = coordinate packs.length round seat ∧
          card.draftEffect = some .additionalPick)
    (native : ∀ card ∈ cards, fifo.returnedEffects.lookup card.instanceId = none →
      card ∈ dealtPack packs seat round) {m r : Multiset String} {o : Multiset Nat}
    {p : Multiset DraftPackId} (distinct : (m + idBag cards).Nodup) :
    validateLiveCards fifo (coordinate packs.length round seat) cards (ledgerOf m o p r) =
      .ok (ledgerOf (m + idBag cards) o p (r + returnedIds fifo cards)) := by
  induction cards generalizing m r with
  | nil => simp [validateLiveCards, returnedIds]
  | cons card cards ih =>
    rw [idBag_cons] at distinct ⊢
    have owned := validateOwnedCard_of registered (member card mem_cons_self)
      (mem_toFinset_of_nodup distinct)
    have shifted : m + card.instanceId ::ₘ idBag cards = m + {card.instanceId} + idBag cards := by
      rw [add_assoc, Multiset.singleton_add]
    rw [shifted] at distinct ⊢
    have rest := @ih (fun other later => member other (mem_cons_of_mem card later))
      (fun other later => returned other (mem_cons_of_mem card later))
      (fun other later => native other (mem_cons_of_mem card later)) (m + {card.instanceId})
    have ownedLedger : validateOwnedCard fifo (ledgerOf m o p r).owned card =
      .ok (m + {card.instanceId}).toFinset := owned
    simp only [validateLiveCards, ownedLedger, bind, Except.bind]
    rw [returnedIds_cons]
    cases assigned : fifo.returnedEffects.lookup card.instanceId with
    | some assignment =>
      obtain ⟨rfl, effect⟩ := returned card mem_cons_self assignment assigned
      dsimp only
      rw [refuseIf_of (by simp [effect])]
      have := @rest (r + {card.instanceId}) distinct
      simpa [ledgerOf, add_assoc] using this
    | none =>
      have found := registered.cards seat round card (native card mem_cons_self assigned)
      rw [refuseIf_of (by simp [found])]
      have := @rest r distinct
      simpa [ledgerOf] using this

theorem validateLivePack_of {queued : QueuedDraftPack} (ok : QueuedOk packs session fifo queued)
    (round : queued.round < packCount) (member : ∀ card ∈ queued.pack, card ∈ packs.flatten.flatten)
    {m r : Multiset String} {o : Multiset Nat} {p : Multiset DraftPackId}
    (distinct : (m + idBag queued.pack).Nodup) (opener : queued.openingSeat ∉ o)
    (packId : queued.packId ∉ p) :
    validateLivePack session fifo queued (ledgerOf m o p r) =
      .ok (ledgerOf (m + idBag queued.pack) (o + {queued.openingSeat}) (p + {queued.packId})
        (r + returnedIds fifo queued.pack)) := by
  have found := registered.listed queued.openingSeat ok.opener queued.round round
  rw [← ok.id] at found
  have nonempty := ok.nonempty
  have smaller := ok.smaller
  have kept := ok.kept
  simp only [validateLivePack, found, bind, Except.bind]
  rw [refuseIf_of (by simp [provenance, ok.size, ok.round, ledgerOf, opener, packId])]
  rw [refuseIf_of (by
    simp only [Bool.or_eq_false_iff, decide_eq_false_iff_not, Bool.and_eq_false_iff, not_lt, not_le]
    refine ⟨⟨by omega, smaller⟩, ?_⟩
    by_cases whole : queued.pack.length < queued.originalSize
    · exact .inr (kept whole)
    · exact .inl (by omega))]
  have openers : insert queued.openingSeat (ledgerOf m o p r).origins =
      (o + {queued.openingSeat}).toFinset := by
    rw [add_comm, Multiset.singleton_add, Multiset.toFinset_cons]
    rfl
  have ids : insert queued.packId (ledgerOf m o p r).packIds = (p + {queued.packId}).toFinset := by
    rw [add_comm, Multiset.singleton_add, Multiset.toFinset_cons]
    rfl
  rw [openers, ids]
  have cards := @validateLiveCards_of packs packCount fifo registered queued.openingSeat
    queued.round queued.pack member (by rw [← ok.id]; exact ok.returned) ok.native m r
    (o + {queued.openingSeat}) (p + {queued.packId}) distinct
  rw [← ok.id] at cards
  exact cards

theorem validateQueue_of {queue : List QueuedDraftPack}
    (ok : ∀ queued ∈ queue, QueuedOk packs session fifo queued)
    (round : ∀ queued ∈ queue, queued.round < packCount)
    (member : ∀ queued ∈ queue, ∀ card ∈ queued.pack, card ∈ packs.flatten.flatten)
    {m r : Multiset String} {o : Multiset Nat} {p : Multiset DraftPackId}
    (distinct : (m + (queue.map fun queued => idBag queued.pack).sum).Nodup)
    (openers : (o + (queue.map (·.openingSeat) : List Nat)).Nodup)
    (packIds : (p + (queue.map (·.packId) : List DraftPackId)).Nodup) :
    validateQueue session fifo queue (ledgerOf m o p r) =
      .ok (ledgerOf (m + (queue.map fun queued => idBag queued.pack).sum)
        (o + (queue.map (·.openingSeat) : List Nat)) (p + (queue.map (·.packId) : List DraftPackId))
        (r + (queue.map fun queued => returnedIds fifo queued.pack).sum)) := by
  induction queue generalizing m r o p with
  | nil => simp [validateQueue]
  | cons queued queue ih =>
    simp only [map_cons, sum_cons, ← Multiset.cons_coe, ← Multiset.singleton_add,
      ← add_assoc] at distinct openers packIds ⊢
    have first := validateLivePack_of (r := r) registered (ok queued mem_cons_self)
      (round queued mem_cons_self) (member queued mem_cons_self)
      (Multiset.nodup_add.mp distinct).1
      (fun mem => Multiset.disjoint_left.mp
        (Multiset.nodup_add.mp (Multiset.nodup_add.mp openers).1).2.2 mem (by simp))
      (fun mem => Multiset.disjoint_left.mp
        (Multiset.nodup_add.mp (Multiset.nodup_add.mp packIds).1).2.2 mem (by simp))
    simp only [validateQueue, first, bind, Except.bind]
    exact ih (fun q later => ok q (mem_cons_of_mem queued later))
      (fun q later => round q (mem_cons_of_mem queued later))
      (fun q later => member q (mem_cons_of_mem queued later)) distinct openers packIds

end

end

theorem validateScope_of {clock : DraftClock} {target : DraftClockTarget}
    {paused : Option DraftPausedState} {duration now : Nat}
    (ok : ScopeOk clock target paused duration now) :
    validateScope clock target paused duration now = .ok () := by
  obtain ⟨same, scope⟩ := ok
  cases paused with
  | none =>
    obtain ⟨deadlineMs, state, bound, remaining⟩ := scope
    simp only [validateScope, same, ne_eq, not_true_eq_false, if_false, state]
    exact refuseIf_of (by simp; omega)
  | some phase =>
    obtain ⟨remainingMs, state, remaining⟩ := scope
    simp only [validateScope, same, ne_eq, not_true_eq_false, if_false, state]
    exact refuseIf_of (by simpa using remaining)

variable {fifo : FifoDraftState}

theorem validatePromptClock_of {session : DraftSession} {prompt : DraftPrompt}
    (ok : ClockOk session.config.clockPolicy.pick seat.roundCompletedSteps prompt.id fifo.paused
      fifo.lastNowMs prompt.clock) : validatePromptClock session fifo seat prompt = .ok () := by
  unfold ClockOk at ok
  unfold validatePromptClock
  cases duration : pickDuration session.config.clockPolicy.pick seat.roundCompletedSteps with
  | none =>
    rw [duration] at ok
    rw [ok]
  | some ms =>
    rw [duration] at ok
    obtain ⟨running, there, scope⟩ := ok
    rw [there]
    exact validateScope_of scope

theorem prompt_none_of_empty {policy : PickClockPolicy} {index : Nat}
    (ok : LoosePrompt policy fifo index seat) (empty : seat.queue = []) : seat.prompt = none := by
  cases there : seat.prompt with
  | none => rfl
  | some prompt =>
    obtain ⟨_, _, ⟨head, rest, front, _⟩, _⟩ := ok.prompts prompt there
    rw [empty] at front
    cases front

theorem validatePrompt_of {session : DraftSession} {index : Nat} {liveDrafting : Bool}
    (ok : Prompted session.config.clockPolicy.pick fifo index seat)
    (live : liveDrafting = false → seat.queue = []) :
    validatePrompt session fifo liveDrafting index seat = .ok () := by
  cases front : seat.queue with
  | nil =>
    simp only [validatePrompt, front, head?_nil]
    exact refuseIf_of (by rw [prompt_none_of_empty ok.toLoosePrompt front]; rfl)
  | cons head rest =>
    cases liveDrafting with
    | false => simp [live rfl] at front
    | true =>
      obtain ⟨prompt, there⟩ := Option.isSome_iff_exists.mp (ok.asked (by simp [front]))
      obtain ⟨id, positive, ⟨_, _, front', packId⟩, clock⟩ := ok.prompts prompt there
      rw [front] at front'
      obtain ⟨rfl, _⟩ := front'
      simp only [validatePrompt, front, head?_cons, there, bind, Except.bind]
      rw [refuseIf_of (by simp [id, packId]; omega)]
      exact validatePromptClock_of clock

section
variable {packs : List (List DraftPack)} {podSize packCount : Nat} {fifo : FifoDraftState}
  {session : DraftSession}

theorem coordinate_injective {n round a b : Nat} (same : coordinate n round a = coordinate n round b) :
    a = b := Nat.add_left_cancel same

/-- The manifest accounts for every card of a round. -/
theorem supply_le_roundSupply (registered : Registered packs packCount fifo)
    (rounds : session.config.packCount = packCount) (positive : 0 < packCount) :
    supply packs (min session.currentPackNumber (packCount - 1)) ≤ roundSupply session fifo := by
  let round := min session.currentPackNumber (packCount - 1)
  have inRound : round < packCount := by
    omega
  let entry (seat : Nat) : Sigma fun _ : DraftPackId => DraftPackProvenance :=
    ⟨coordinate packs.length round seat, provenance packs round seat⟩
  have listed : ((range packs.length).map entry).Subperm fifo.packs.entries := by
    refine subperm_of_subset ?_ ?_
    · refine nodup_range.map_on fun a _ b _ same => ?_
      exact coordinate_injective (congrArg Sigma.fst same)
    · intro found mem
      obtain ⟨seat, inside, rfl⟩ := mem_map.mp mem
      exact of_mem_dlookup (registered.listed seat (mem_range.mp inside) round inRound)
  obtain ⟨some_, perm, sub⟩ := listed
  have sums := Sublist.sum_le_sum (((sub.map (·.2)).filter
    fun pack => pack.round = round).map (·.originalSize)) fun n _ => Nat.zero_le n
  rw [(((perm.map (·.2)).filter fun pack => pack.round = round).map (·.originalSize)).sum_eq]
    at sums
  have whole : supply packs round = (((((range packs.length).map entry).map (·.2)).filter
      fun pack => pack.round = round).map (·.originalSize)).sum := by
    rw [filter_eq_self.mpr (by simp [entry, provenance])]
    simp only [supply, map_map, Function.comp_def, entry, provenance, dealtPack]
    rw [← Indexed.map_range_getD (fun row => (row.getD round []).length) packs []]
  rw [whole]
  simpa only [roundSupply, rounds] using sums

/-- The origins of the packs in a queue. -/
def queueOpeners (seat : FifoSeatState) : Multiset Nat :=
  ((seat.queue.map (·.openingSeat) : List Nat) : Multiset Nat)

def queueReturns (fifo : FifoDraftState) (seat : FifoSeatState) : Multiset String :=
  (seat.queue.map fun queued => returnedIds fifo queued.pack).sum

/-- What the check asks of one seat, apart from its queue. -/
structure SeatCounts (session : DraftSession) (fifo : FifoDraftState) (index : Nat)
    (seat : FifoSeatState) : Prop where
  prompted : Prompted session.config.clockPolicy.pick fifo index seat
  completed : seat.completedSteps ≤ fifo.cards.entries.length
  thisRound : seat.roundCompletedSteps ≤ seat.completedSteps
  supplied : seat.roundCompletedSteps ≤ roundSupply session fifo

variable {r m : Multiset String} {p : Multiset DraftPackId}

theorem validateSeat_of (registered : Registered packs packCount fifo)
    (pod : session.seats.length = packs.length) {index : Nat} {seat : FifoSeatState}
    {liveDrafting : Bool} (counts : SeatCounts session fifo index seat)
    (live : liveDrafting = false → seat.queue = [])
    (ok : ∀ queued ∈ seat.queue, QueuedOk packs session fifo queued)
    (round : ∀ queued ∈ seat.queue, queued.round < packCount)
    (member : ∀ queued ∈ seat.queue, ∀ card ∈ queued.pack, card ∈ packs.flatten.flatten)
    {o : Multiset Nat} (distinct : (m + queueIds seat).Nodup)
    (openers : (o + queueOpeners seat).Nodup) (packIds : (p + queuePackIds seat).Nodup) :
    validateSeat session fifo liveDrafting index seat (ledgerOf m o p r) =
      .ok (ledgerOf (m + queueIds seat) (o + queueOpeners seat) (p + queuePackIds seat)
        (r + queueReturns fifo seat)) := by
  have short : seat.queue.length ≤ session.seats.length := by
    have own : (seat.queue.map (·.openingSeat)).Nodup :=
      Multiset.coe_nodup.mp (Multiset.nodup_add.mp openers).2.1
    have inside : seat.queue.map (·.openingSeat) ⊆ range packs.length := by
      intro opener mem
      obtain ⟨queued, there, rfl⟩ := mem_map.mp mem
      exact mem_range.mpr (ok queued there).opener
    have := (subperm_of_subset own inside).length_le
    simpa [pod] using this
  have bound := counts.prompted.bound
  have completed := counts.completed
  have thisRound := counts.thisRound
  have supplied := counts.supplied
  have steps : seat.generation ≤ seat.completedSteps + 1 := by
    have := counts.prompted.steps
    split at this <;> omega
  simp only [validateSeat, bind, Except.bind]
  rw [refuseIf_of (by simp; omega)]
  rw [refuseIf_of (by simpa using supplied)]
  rw [refuseIf_of (by
    cases liveDrafting with
    | true => simpa using short
    | false => simp [live rfl])]
  rw [validateQueue_of registered ok round member distinct openers packIds]
  rw [validatePrompt_of counts.prompted live]
  rfl

theorem validateSeats_of (registered : Registered packs packCount fifo)
    (pod : session.seats.length = packs.length) {liveDrafting : Bool} {index : Nat}
    {seats : List FifoSeatState}
    (counts : ∀ i seat, seats[i]? = some seat → SeatCounts session fifo (index + i) seat)
    (live : ∀ seat ∈ seats, liveDrafting = false → seat.queue = [])
    (ok : ∀ seat ∈ seats, ∀ queued ∈ seat.queue, QueuedOk packs session fifo queued)
    (round : ∀ seat ∈ seats, ∀ queued ∈ seat.queue, queued.round < packCount)
    (member : ∀ seat ∈ seats, ∀ queued ∈ seat.queue, ∀ card ∈ queued.pack,
      card ∈ packs.flatten.flatten) {o : Multiset Nat}
    (distinct : (m + (seats.map queueIds).sum).Nodup)
    (openers : (o + (seats.map queueOpeners).sum).Nodup)
    (packIds : (p + (seats.map queuePackIds).sum).Nodup) :
    validateSeats session fifo liveDrafting index seats (ledgerOf m o p r) =
      .ok (ledgerOf (m + (seats.map queueIds).sum) (o + (seats.map queueOpeners).sum)
        (p + (seats.map queuePackIds).sum) (r + (seats.map (queueReturns fifo)).sum)) := by
  induction seats generalizing index m r o p with
  | nil => simp [validateSeats]
  | cons seat seats ih =>
    simp only [map_cons, sum_cons, ← add_assoc] at distinct openers packIds ⊢
    have first := validateSeat_of (r := r) registered pod (counts 0 seat (by simp))
      (live seat mem_cons_self) (ok seat mem_cons_self)
      (round seat mem_cons_self) (member seat mem_cons_self)
      (Multiset.nodup_add.mp distinct).1 (Multiset.nodup_add.mp openers).1
      (Multiset.nodup_add.mp packIds).1
    simp only [Nat.add_zero] at first
    simp only [validateSeats, first, bind, Except.bind]
    refine ih (fun i other there => ?_) (fun s later => live s (mem_cons_of_mem seat later))
      (fun s later => ok s (mem_cons_of_mem seat later))
      (fun s later => round s (mem_cons_of_mem seat later))
      (fun s later => member s (mem_cons_of_mem seat later)) distinct openers packIds
    have := counts (i + 1) other (by simpa using there)
    rwa [show index + (i + 1) = index + 1 + i by omega] at this

end

section
variable {packs : List (List DraftPack)} {packCount : Nat} {fifo : FifoDraftState}
  {session : DraftSession}

def removedIds (removed : List RemovedDraftCard) : Multiset String :=
  ((removed.map (·.cardInstanceId) : List String) : Multiset String)

theorem validateRemoved_of (registered : Registered packs packCount fifo)
    (passes : session.kind.procedure.distribution = .pickAndPass) {unopened : Nat}
    (bound : unopened ≤ packCount) {removed : List RemovedDraftCard}
    (ok : ∀ entry ∈ removed, RemovedOk packs session.config.selectionPolicy unopened entry)
    {m : Multiset String} (distinct : (m + removedIds removed).Nodup) :
    validateRemoved session fifo unopened removed m.toFinset =
      .ok (m + removedIds removed).toFinset := by
  induction removed generalizing m with
  | nil => simp [validateRemoved, removedIds]
  | cons entry removed ih =>
    have shape : removedIds (entry :: removed) = entry.cardInstanceId ::ₘ removedIds removed := rfl
    rw [shape] at distinct ⊢
    have fresh := mem_toFinset_of_nodup distinct
    have shifted : m + entry.cardInstanceId ::ₘ removedIds removed =
        m + {entry.cardInstanceId} + removedIds removed := by
      rw [add_assoc, Multiset.singleton_add]
    rw [shifted] at distinct ⊢
    obtain ⟨⟨seat, inside, round, opened, source⟩, ⟨seat', round', card, inPack, same, origin⟩,
      enabled⟩ := ok entry mem_cons_self
    have foundCard := registered.cards seat' round' card inPack
    have foundPack := registered.listed seat inside round (by omega)
    rw [same] at foundCard
    rw [← source] at foundPack
    simp only [validateRemoved, foundCard, bind, Except.bind]
    rw [refuseIf_of (by
      simp only [foundPack, Option.any_some, provenance, opened, decide_true, Bool.not_true,
        Bool.or_false, Bool.or_eq_false_iff, decide_eq_false_iff_not, fresh, not_false_eq_true,
        and_true]
      rcases origin with own | effect
      · simp [own]
      · simp [effect])]
    rw [validateRemovalSource, passes]
    rw [refuseIf_of (by simp [enabled])]
    rw [insert_toFinset]
    exact ih (fun other later => ok other (mem_cons_of_mem entry later)) distinct

section
variable (deal : GoodDeal session.seats.length packCount packs)
  (registered : Registered packs packCount fifo) {index : Nat}
include deal registered

theorem validateProgress_of {seat : FifoSeatState} {pool : List DraftCardInstance}
    (ok : ProgressOk packs session index seat pool) :
    validateProgress session fifo index seat pool = .ok () := by
  unfold ProgressOk at ok
  unfold validateProgress
  cases distribution : session.kind.procedure.distribution with
  | pickAndPass =>
    rw [distribution] at ok
    exact refuseIf_of (by simp; omega)
  | allAtOnce =>
    rw [distribution] at ok
    obtain ⟨completed, thisRound, generation, own⟩ := ok
    simp only [bind, Except.bind]
    rw [refuseIf_of]
    · exact refuseIf_of (by simp [completed, thisRound, generation])
    · rw [any_eq_false]
      intro card mem
      obtain ⟨pack, inRow, inPack⟩ := mem_flatten.mp (own card mem)
      obtain ⟨round, insideRow, rfl⟩ := mem_iff_getElem.mp inRow
      have dealt : card ∈ dealtPack packs index round := by
        rw [dealtPack, getD_eq_getElem _ _ insideRow]
        exact inPack
      obtain ⟨inside, inRound⟩ := deal.bounds dealt
      have foundCard := registered.cards index round card dealt
      have foundPack := registered.listed index inside round inRound
      simp [openedBy, foundCard, foundPack, provenance]
  | sharedStackPiles count => rw [distribution] at ok; exact ok.elim

theorem validateAllProgress_of {seats : List FifoSeatState} {pools : List (List DraftCardInstance)}
    (ok : ∀ i seat pool, seats[i]? = some seat → pools[i]? = some pool →
      ProgressOk packs session (index + i) seat pool) :
    validateAllProgress session fifo index seats pools = .ok () := by
  induction seats generalizing index pools with
  | nil => rfl
  | cons seat seats ih =>
    cases pools with
    | nil => rfl
    | cons pool pools =>
      have first := validateProgress_of deal registered (ok 0 seat pool (by simp) (by simp))
      rw [Nat.add_zero] at first
      simp only [validateAllProgress, first, bind, Except.bind]
      refine ih fun i s q atS atQ => ?_
      have := ok (i + 1) s q (by simpa using atS) (by simpa using atQ)
      rwa [show index + (i + 1) = index + 1 + i by omega] at this

end

theorem validateReview_of (phase : PhaseOk session fifo) :
    validateReview session fifo (phaseOf session fifo = some .review)
      (nextUnopened session (phaseOf session fifo)) = .ok () := by
  unfold PhaseOk at phase
  cases now : phaseOf session fifo with
  | none =>
    rw [now] at phase
    simp [validateReview, phase.2.2.2]
  | some live =>
    rw [now] at phase
    cases live with
    | drafting => simp [validateReview, phase.2.2.2.2]
    | review =>
      obtain ⟨_, more, _, _, timed, clock, there, scope⟩ := phase
      simp only [validateReview, decide_true, there, nextUnopened, Option.isSome_some, if_true,
        bind, Except.bind]
      rw [refuseIf_of (by simp [timed]; omega)]
      exact validateScope_of scope

theorem validateRounds_of (phase : PhaseOk session fifo) :
    validateRounds session (phaseOf session fifo) = .ok () := by
  unfold PhaseOk at phase
  cases now : phaseOf session fifo with
  | none =>
    rw [now] at phase
    obtain ⟨last, direction, _⟩ := phase
    simp only [validateRounds, bind, Except.bind]
    rw [refuseIf_of (by simp)]
    rw [refuseIf_of (by simp)]
    rw [refuseIf_of (by simp [last])]
    refine refuseIf_of ?_
    by_cases passes : session.kind.procedure.distribution = .pickAndPass
    · simp [last, direction passes]
    · simp [passes]
  | some live =>
    rw [now] at phase
    have facts : session.kind.procedure.distribution = .pickAndPass ∧
        session.currentPackNumber < session.config.packCount ∧
        session.passDirection = PassDirection.forPack session.currentPackNumber := by
      cases live with
      | drafting => exact ⟨phase.1, phase.2.1, phase.2.2.1⟩
      | review => exact ⟨phase.1, by omega, phase.2.2.1⟩
    obtain ⟨passes, inRange, direction⟩ := facts
    simp only [validateRounds, bind, Except.bind]
    rw [refuseIf_of (by simp [passes])]
    rw [refuseIf_of (by simp; omega)]
    exact refuseIf_of (by simp [Nat.ne_of_lt inRange, direction])

end

section
variable {packs : List (List DraftPack)} {fifo : FifoDraftState} {session : DraftSession}
  {unopened : Nat}

theorem Stock.nodup (deal : GoodDeal session.seats.length session.config.packCount packs)
    (stock : Stock packs session fifo unopened) : (heldIds session fifo).Nodup := by
  rw [stock.conserved]
  exact Multiset.coe_nodup.mpr deal.distinct

theorem map_queueOpeners {seats : List FifoSeatState} (ok : ∀ seat ∈ seats,
    ∀ queued ∈ seat.queue, QueuedOk packs session fifo queued) :
    (seats.map queuePackIds).sum = ((seats.map queueOpeners).sum).map
      (coordinate packs.length session.currentPackNumber) := by
  induction seats with
  | nil => rfl
  | cons seat seats ih =>
    rw [map_cons, sum_cons, map_cons, sum_cons, Multiset.map_add,
      ← ih fun s later => ok s (mem_cons_of_mem seat later)]
    congr 1
    simp only [queuePackIds, queueOpeners, Multiset.map_coe, map_map]
    refine congrArg _ (map_congr_left fun queued mem => ?_)
    have here := ok seat mem_cons_self queued mem
    rw [here.id, here.round]
    rfl

/-- The cards marked as returned are the ones listed as returned. -/
theorem returns_card (returned : ∀ id ∈ fifo.returnedEffects.keys, ∃ seat ∈ fifo.seats,
      ∃ queued ∈ seat.queue, ∃ card ∈ queued.pack, card.instanceId = id) :
    ((fifo.seats.map (queueReturns fifo)).sum).toFinset.card =
      fifo.returnedEffects.entries.length := by
  have keys : ((fifo.seats.map (queueReturns fifo)).sum).toFinset =
      fifo.returnedEffects.keys.toFinset := by
    ext id
    simp only [Multiset.mem_toFinset, mem_toFinset, Indexed.mem_sum_map,
      queueReturns, returnedIds, mem_idBag, mem_filter]
    constructor
    · rintro ⟨seat, _, queued, _, card, ⟨_, marked⟩, rfl⟩
      exact AList.mem_keys.mpr (AList.lookup_isSome.mp marked)
    · intro listed
      obtain ⟨seat, inSeats, queued, inQueue, card, inPack, rfl⟩ := returned id listed
      exact ⟨seat, inSeats, queued, inQueue, card,
        ⟨inPack, AList.lookup_isSome.mpr (AList.mem_keys.mp listed)⟩, rfl⟩
  rw [keys, List.toFinset_card_of_nodup fifo.returnedEffects.keys_nodup, AList.keys, List.keys,
    length_map]

theorem phase_unopened (phase : PhaseOk session fifo) :
    nextUnopened session (phaseOf session fifo) ≤ session.config.packCount := by
  unfold PhaseOk at phase
  unfold nextUnopened
  cases now : phaseOf session fifo with
  | none => simp
  | some live =>
    rw [now] at phase
    cases live with
    | drafting => exact phase.2.1
    | review =>
      simp only [Option.isSome_some, if_true]
      omega

theorem queue_empty_of_not_drafting (phase : PhaseOk session fifo)
    (other : phaseOf session fifo ≠ some .drafting) : ∀ seat ∈ fifo.seats, seat.queue = [] := by
  unfold PhaseOk at phase
  cases now : phaseOf session fifo with
  | none =>
    rw [now] at phase
    exact phase.2.2.1
  | some live =>
    rw [now] at phase
    cases live with
    | drafting => exact absurd now other
    | review => exact phase.2.2.2.1

/-- A round with a pack in a queue has been opened. -/
theorem round_lt_of_queued (phase : PhaseOk session fifo) {seat : FifoSeatState}
    (inSeats : seat ∈ fifo.seats) {queued : QueuedDraftPack} (inQueue : queued ∈ seat.queue) :
    session.currentPackNumber < session.config.packCount := by
  by_cases drafting : phaseOf session fifo = some .drafting
  · unfold PhaseOk at phase
    rw [drafting] at phase
    exact phase.2.1
  · have empty := queue_empty_of_not_drafting phase drafting seat inSeats
    rw [empty] at inQueue
    cases inQueue

theorem pool_le_total (stock : Stock packs session fifo unopened) {pool : List DraftCardInstance}
    (mem : pool ∈ session.pools) : pool.length ≤ packs.flatten.flatten.length := by
  have total := congrArg Multiset.card stock.conserved
  have one : (idBag pool).card ≤ ((session.pools.map idBag).sum).card :=
    Multiset.card_le_card (single_le_sum (fun bag _ => Multiset.zero_le bag) _ (mem_map_of_mem mem))
  simp only [heldIds, Multiset.card_add] at total
  rw [card_idBag] at one total
  omega

theorem seatCounts_of (positive : 0 < session.config.packCount)
    (registered : Registered packs session.config.packCount fifo)
    (stock : Stock packs session fifo unopened) (pools : session.pools.length = fifo.seats.length)
    {index : Nat} {seat : FifoSeatState} (there : fifo.seats[index]? = some seat)
    (prompted : Prompted session.config.clockPolicy.pick fifo index seat) :
    SeatCounts session fifo index seat := by
  obtain ⟨inside, here⟩ := List.getElem?_eq_some_iff.mp there
  have insideP : index < session.pools.length := pools ▸ inside
  have progress := stock.progress index seat session.pools[index] there
    (getElem?_eq_getElem insideP)
  have total := pool_le_total stock (getElem_mem insideP)
  have counters : seat.completedSteps ≤ packs.flatten.flatten.length ∧
      seat.roundCompletedSteps ≤ seat.completedSteps := by
    unfold ProgressOk at progress
    cases distribution : session.kind.procedure.distribution with
    | pickAndPass =>
      rw [distribution] at progress
      exact ⟨progress.1.trans total, progress.2.2⟩
    | allAtOnce =>
      rw [distribution] at progress
      exact ⟨by rw [progress.1]; exact Nat.zero_le _, by rw [progress.1, progress.2.1]⟩
    | sharedStackPiles count =>
      rw [distribution] at progress
      exact progress.elim
  refine ⟨prompted, by rw [registered.cardTotal]; exact counters.1, counters.2, ?_⟩
  have own : seat.roundCompletedSteps ≤ (fifo.seats.map (·.roundCompletedSteps)).sum :=
    single_le_sum (fun n _ => Nat.zero_le n) _ (mem_map_of_mem (mem_of_getElem? there))
  have supplied := stock.supplied
  have listed := @supply_le_roundSupply packs session.config.packCount fifo session registered rfl
    positive
  omega

theorem removed_nil_of_allAtOnce
    (config : validateFifoConfig session.config session.seats.length .fifoSnapshot = .ok ())
    (all : session.config.kind.procedure.distribution = .allAtOnce)
    (ok : ∀ entry ∈ fifo.removed,
      RemovedOk packs session.config.selectionPolicy unopened entry) : fifo.removed = [] := by
  have default : session.config.selectionPolicy = {} := by
    simp only [validateFifoConfig, guard_eq_ok, bind_eq_ok, all] at config
    obtain ⟨_, _, _, _, _, _, _, _, _, _, _, _, policy⟩ := config
    simp only [ite_throw_eq_ok, not_or, ne_eq, Decidable.not_not] at policy
    exact policy.1.1
  refine eq_nil_iff_forall_not_mem.mpr fun entry mem => ?_
  have enabled := (ok entry mem).enabled
  rw [default] at enabled
  cases reason : entry.reason <;> rw [reason] at enabled <;> cases enabled

theorem validateCards_of (valid : FifoValid packs session fifo)
    (started : Started packs session fifo) :
    validateCards session fifo (phaseOf session fifo) (idBag packs.flatten.flatten).toFinset =
      .ok () := by
  have deal := started.deal
  have stock := started.stock
  have registered := started.registered
  have pod : session.seats.length = packs.length := deal.seats.symm
  have nodup := Stock.nodup deal stock
  have dims : ∀ length ∈ session.perSeatLengths fifo, length = session.seats.length := valid.dims
  have positive : 0 < session.config.packCount := by
    have config := valid.config
    simp only [validateFifoConfig, guard_eq_ok, bind_eq_ok] at config
    omega
  have poolDims : session.pools.length = fifo.seats.length := by
    have a := dims fifo.seats.length (by simp [DraftSession.perSeatLengths])
    have b := dims session.pools.length (by simp [DraftSession.perSeatLengths])
    omega
  let futures := (session.packsBySeat.map futureIds).sum
  let live := (fifo.seats.map queueIds).sum
  let pooled := (session.pools.map idBag).sum
  have all : (futures + live + pooled + removedIds fifo.removed).Nodup := nodup
  have three := (Multiset.nodup_add.mp all).1
  have two := (Multiset.nodup_add.mp three).1
  have one := (Multiset.nodup_add.mp two).1
  have bound := phase_unopened started.phase
  have opened : validateFutures session fifo (nextUnopened session (phaseOf session fifo)) 0
      session.packsBySeat (0 : Multiset String).toFinset = .ok (0 + futures).toFinset :=
    validateFutures_of deal registered pod rfl bound
      (by exact stock.futures) (by rw [zero_add]; exact one)
  rw [zero_add] at opened
  have openers : (0 + (fifo.seats.map queueOpeners).sum : Multiset Nat).Nodup := by
    rw [zero_add]
    have := stock.distinct
    rw [map_queueOpeners stock.queued] at this
    exact Multiset.Nodup.of_map _ this
  have rounds : ∀ seat ∈ fifo.seats, ∀ queued ∈ seat.queue,
      queued.round < session.config.packCount := by
    intro seat mem queued inQueue
    rw [(stock.queued seat mem queued inQueue).round]
    exact round_lt_of_queued started.phase mem inQueue
  have counts : ∀ i seat, fifo.seats[i]? = some seat → SeatCounts session fifo (0 + i) seat := by
    intro i seat there
    rw [Nat.zero_add]
    exact seatCounts_of positive registered stock poolDims there (started.prompts i seat there)
  have seats : validateSeats session fifo (decide (phaseOf session fifo = some .drafting)) 0
      fifo.seats (ledgerOf futures 0 0 0) = .ok (ledgerOf (futures + live)
        (0 + (fifo.seats.map queueOpeners).sum) (0 + (fifo.seats.map queuePackIds).sum)
        (0 + (fifo.seats.map (queueReturns fifo)).sum)) :=
    validateSeats_of registered pod counts (fun seat mem other =>
        queue_empty_of_not_drafting started.phase (by simpa using other) seat mem)
      stock.queued rounds stock.queuedCards two openers (by rw [zero_add]; exact stock.distinct)
  simp only [zero_add] at seats
  have cards : ∀ card ∈ session.pools.flatten, card ∈ packs.flatten.flatten := by
    intro card mem
    obtain ⟨pool, inPools, inPool⟩ := mem_flatten.mp mem
    exact stock.pooledCards pool inPools card inPool
  have pools := validateOwnedCards_of (m := futures + live) registered cards
    (by rw [idBag_flatten]; exact three)
  rw [idBag_flatten] at pools
  have removed : validateRemoved session fifo (nextUnopened session (phaseOf session fifo))
      fifo.removed (futures + live + pooled).toFinset =
        .ok (futures + live + pooled + removedIds fifo.removed).toFinset := by
    cases distribution : session.kind.procedure.distribution with
    | pickAndPass => exact validateRemoved_of registered distribution bound stock.removed all
    | allAtOnce =>
      have none_ := removed_nil_of_allAtOnce valid.config (valid.kind ▸ distribution) stock.removed
      simp [none_, validateRemoved, removedIds]
    | sharedStackPiles count =>
      have config := valid.config
      rw [valid.kind] at distribution
      simp only [validateFifoConfig, guard_eq_ok, bind_eq_ok, distribution] at config
      obtain ⟨_, _, _, _, _, _, _, _, _, _, refused⟩ := config
      cases refused
  have empty : (∅ : Finset String) = (0 : Multiset String).toFinset := rfl
  simp only [validateCards, bind, Except.bind]
  rw [empty, opened]
  dsimp only
  rw [show (⟨((session.packsBySeat.map futureIds).sum).toFinset, (∅ : Finset Nat),
    (∅ : Finset DraftPackId), (0 : Multiset String).toFinset⟩ : LiveLedger) =
      ledgerOf futures 0 0 0 from rfl, seats]
  dsimp only
  rw [refuseIf_of]
  · rw [refuseIf_of (by simpa [ledgerOf] using returns_card stock.returned)]
    rw [show (ledgerOf (futures + live) (fifo.seats.map queueOpeners).sum
      (fifo.seats.map queuePackIds).sum (fifo.seats.map (queueReturns fifo)).sum).owned =
        (futures + live).toFinset from rfl, pools]
    dsimp only
    rw [removed]
    have same : futures + live + pooled + removedIds fifo.removed = idBag packs.flatten.flatten :=
      stock.conserved
    rw [same]
    exact refuseIf_of (by simp)
  · by_cases drafting : phaseOf session fifo = some .drafting
    · have phase := started.phase
      unfold PhaseOk at phase
      rw [drafting] at phase
      obtain ⟨_, _, _, ⟨seat, inSeats, waiting⟩, _⟩ := phase
      obtain ⟨queued, rest, front⟩ := exists_cons_of_ne_nil waiting
      have member : queued.packId ∈ (fifo.seats.map queuePackIds).sum :=
        Indexed.mem_sum_map.mpr ⟨seat, inSeats, by simp [queuePackIds, front]⟩
      have nonempty : ((fifo.seats.map queuePackIds).sum).toFinset ≠ ∅ :=
        Finset.ne_empty_of_mem (Multiset.mem_toFinset.mpr member)
      simp [ledgerOf, nonempty]
    · simp [drafting]

theorem validateStarted_of (valid : FifoValid packs session fifo)
    (started : Started packs session fifo) :
    validateStarted session fifo (phaseOf session fifo) = .ok () := by
  have deal := started.deal
  have registered := started.registered
  have pod : session.config.podSize = packs.length := by
    have config := valid.config
    simp only [validateFifoConfig, guard_eq_ok, bind_eq_ok] at config
    have := deal.seats
    omega
  have seated : 0 < session.seats.length := by
    have config := valid.config
    simp only [validateFifoConfig, guard_eq_ok, bind_eq_ok] at config
    omega
  have sizes : session.packSizes.length = session.config.packCount := by
    have inside : 0 < packs.length := deal.seats ▸ seated
    obtain ⟨row, rows, rfl⟩ := exists_cons_of_length_pos inside
    rw [started.sizes, length_map]
    exact deal.rounds row mem_cons_self
  have cover := sum_coordinates deal pod rfl
  have inside : ∀ cell ∈ coordinates session,
      cell.1 < session.config.packCount ∧ cell.2 < packs.length := by
    intro cell mem
    simp only [coordinates, mem_flatMap, mem_range, mem_map] at mem
    obtain ⟨round, inRound, seat, inSeat, rfl⟩ := mem
    exact ⟨inRound, pod ▸ inSeat⟩
  have catalogued := catalogue_of (m := 0) deal registered pod started.sizes inside
    (by rw [cover]; exact Multiset.coe_nodup.mpr deal.distinct)
  rw [zero_add, cover] at catalogued
  have empty : (∅ : Finset String) = (0 : Multiset String).toFinset := rfl
  simp only [validateStarted, bind, Except.bind]
  rw [refuseIf_of (by simp [registered.packTotal, sizes, deal.seats])]
  rw [empty, catalogued]
  dsimp only
  rw [refuseIf_of (by
    have distinct : (idBag packs.flatten.flatten).Nodup := Multiset.coe_nodup.mpr deal.distinct
    rw [Multiset.toFinset_card_of_nodup distinct, registered.cardTotal, card_idBag]
    simp)]
  rw [validateRounds_of started.phase]
  rw [validateCards_of valid started]
  rw [validateAllProgress_of deal registered (by
    intro i seat pool atS atP
    rw [Nat.zero_add]
    exact started.stock.progress i seat pool atS atP)]
  exact validateReview_of started.phase

/-- The snapshot check accepts every session that satisfies the invariant. -/
theorem validateFifoSnapshot_of (valid : FifoValid packs session fifo) :
    validateFifoSnapshot session = .ok () := by
  have phase : session.livePhase fifo = .ok (phaseOf session fifo) := by
    unfold DraftSession.livePhase phaseOf
    cases status : session.status <;> simp only
    obtain ⟨paused, there⟩ := Option.isSome_iff_exists.mp (valid.paused.mp status)
    simp [there]
  have identity := valid.identity
  have revision := valid.revision
  have time := valid.time
  simp only [validateFifoSnapshot, bind, Except.bind]
  rw [valid.config]
  rw [refuseIf_of (by simp [valid.kind, valid.setCode])]
  rw [fifoRef_of valid.there]
  dsimp only
  rw [refuseIf_of (by simp [identity]; omega)]
  rw [refuseIf_of (by
    rw [any_eq_false]
    intro length mem
    simpa using valid.dims length mem)]
  rw [refuseIf_of valid.modern]
  rw [phase]
  dsimp only
  rw [refuseIf_of (by
    have paused := valid.paused
    by_cases status : session.status = .paused
    · simp [status, paused.mp status]
    · have : fifo.paused.isSome = false := Bool.eq_false_iff.mpr fun h => status (paused.mpr h)
      simp [status, this])]
  rcases valid.state with ⟨lobby, empty⟩ | ⟨running, started⟩
  · rw [if_pos lobby, empty]
  · rw [if_neg running, validateStarted_of valid started]

end

end Phase.Draft
