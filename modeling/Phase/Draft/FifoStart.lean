import Phase.Draft.FifoRound

/-! Starting a FIFO draft: every booster of a good deal enters the manifest. -/
namespace Phase.Draft
open Fallible List

/-- One booster of the deal. -/
structure Cell where
  seat : Nat
  round : Nat
  pack : DraftPack

def Cell.id (podSize : Nat) (cell : Cell) : DraftPackId := coordinate podSize cell.round cell.seat

def Cell.provenance (podSize : Nat) (cell : Cell) : DraftPackProvenance :=
  { packId := cell.id podSize
    openingSeat := cell.seat
    round := cell.round
    originalSize := cell.pack.length
    originalCardIds := cell.pack.map (·.instanceId) }

/-- The boosters of one seat, and of all seats, in the order they are registered. -/
def rowCells (seat : Nat) : Nat → List DraftPack → List Cell
  | _, [] => []
  | round, pack :: row => ⟨seat, round, pack⟩ :: rowCells seat (round + 1) row

def dealCells : Nat → List (List DraftPack) → List Cell
  | _, [] => []
  | seat, row :: rows => rowCells seat 0 row ++ dealCells (seat + 1) rows

/-- Boosters that can be registered one after the other. -/
structure GoodCells (podSize : Nat) (cells : List Cell) : Prop where
  ids : (cells.map (Cell.id podSize)).Nodup
  sizes : ∀ cell ∈ cells, 0 < cell.pack.length ∧ cell.pack.length ≤ 255
  valid : ∀ cell ∈ cells, ∀ card ∈ cell.pack, validDraftId card.instanceId = true
  distinct : ((cells.flatMap (·.pack)).map (·.instanceId)).Nodup

/-- The manifest lists these boosters and nothing else. -/
structure Recorded (podSize : Nat) (cells : List Cell) (fifo : FifoDraftState) : Prop where
  packs : ∀ cell ∈ cells, fifo.packs.lookup (cell.id podSize) = some (cell.provenance podSize)
  packsOnly : ∀ id, id ∉ cells.map (Cell.id podSize) → fifo.packs.lookup id = none
  packTotal : fifo.packs.entries.length = cells.length
  cards : ∀ cell ∈ cells, ∀ card ∈ cell.pack,
    fifo.cards.lookup card.instanceId = some ⟨cell.id podSize, card⟩
  cardsOnly : ∀ id, id ∉ (cells.flatMap (·.pack)).map (·.instanceId) → fifo.cards.lookup id = none
  cardTotal : fifo.cards.entries.length = (cells.flatMap (·.pack)).length

/-- Fresh, valid and distinct ids register. -/
theorem exists_registerCards {packId : DraftPackId} {pack : DraftPack}
    {cards : AList fun _ : String => DraftCardProvenance}
    (valid : ∀ card ∈ pack, validDraftId card.instanceId = true)
    (distinct : (pack.map (·.instanceId)).Nodup)
    (fresh : ∀ card ∈ pack, cards.lookup card.instanceId = none) :
    ∃ cards', registerCards packId pack cards = .ok cards' := by
  induction pack generalizing cards with
  | nil => exact ⟨cards, rfl⟩
  | cons card pack ih =>
    obtain ⟨absent, distinct⟩ := nodup_cons.mp distinct
    unfold registerCards
    rw [if_neg (by simp [valid card mem_cons_self, fresh card mem_cons_self])]
    refine ih (fun other later => valid other (mem_cons_of_mem card later)) distinct ?_
    intro other later
    have apart : other.instanceId ≠ card.instanceId := fun same =>
      absent (mem_map.mpr ⟨other, later, same⟩)
    rw [AList.lookup_insert_ne apart]
    exact fresh other (mem_cons_of_mem card later)

section
variable {podSize : Nat} {fifo : FifoDraftState} {done rest : List Cell}

/-- One more booster. -/
theorem Recorded.register {cell : Cell} (good : GoodCells podSize (done ++ cell :: rest))
    (recorded : Recorded podSize done fifo) :
    ∃ cards, registerCards (cell.id podSize) cell.pack fifo.cards = .ok cards ∧
      Recorded podSize (done ++ [cell]) { fifo with
        cards, packs := fifo.packs.insert (cell.id podSize) (cell.provenance podSize) } := by
  have mem : cell ∈ done ++ cell :: rest := by simp
  have ids := good.ids
  have distinct := good.distinct
  rw [map_append, nodup_append] at ids
  rw [flatMap_append, flatMap_cons, map_append, map_append, nodup_append] at distinct
  have newId : cell.id podSize ∉ done.map (Cell.id podSize) := fun there =>
    ids.2.2 _ there _ mem_cons_self rfl
  have newCard : ∀ card ∈ cell.pack,
      card.instanceId ∉ (done.flatMap (·.pack)).map (·.instanceId) := fun card inPack there =>
    distinct.2.2 _ there _ (mem_append_left _ (mem_map_of_mem inPack)) rfl
  obtain ⟨cards, registered⟩ := @exists_registerCards (cell.id podSize) cell.pack fifo.cards
    (good.valid cell mem) (nodup_append.mp distinct.2.1).1
    (fun card inPack => recorded.cardsOnly _ (newCard card inPack))
  obtain ⟨_, _, found, kept, total⟩ := registerCards_ok registered
  refine ⟨cards, registered, ?_, ?_, ?_, ?_, ?_, ?_⟩
  · intro other there
    rcases mem_append.mp there with before | now
    · have apart : other.id podSize ≠ cell.id podSize := fun same =>
        newId (same ▸ mem_map_of_mem before)
      rw [AList.lookup_insert_ne apart]
      exact recorded.packs other before
    · obtain rfl : other = cell := by simpa using now
      exact AList.lookup_insert _
  · intro id absent
    simp only [map_append, map_cons, map_nil, mem_append, mem_singleton, not_or] at absent
    rw [AList.lookup_insert_ne absent.2]
    exact recorded.packsOnly id absent.1
  · have unlisted : cell.id podSize ∉ fifo.packs :=
      AList.lookup_eq_none.mp (recorded.packsOnly _ newId)
    rw [AList.entries_insert_of_notMem unlisted]
    simp [recorded.packTotal]
  · intro other there card inPack
    rcases mem_append.mp there with before | now
    · rw [kept]
      · exact recorded.cards other before card inPack
      · intro again
        obtain ⟨card', inCell, same⟩ := mem_map.mp again
        exact newCard card' inCell (same ▸ mem_map_of_mem (mem_flatMap.mpr ⟨other, before, inPack⟩))
    · obtain rfl : other = cell := by simpa using now
      exact found card inPack
  · intro id absent
    simp only [flatMap_append, flatMap_cons, flatMap_nil, append_nil,
      map_append, mem_append, not_or] at absent
    rw [kept id absent.2]
    exact recorded.cardsOnly id absent.1
  · rw [total, recorded.cardTotal]
    simp

theorem registerRow_recorded {seat round : Nat} {row : List DraftPack}
    (good : GoodCells podSize (done ++ rowCells seat round row ++ rest))
    (recorded : Recorded podSize done fifo) :
    ∃ fifo', registerRow podSize seat round row fifo = .ok fifo' ∧
      Recorded podSize (done ++ rowCells seat round row) fifo' ∧
      fifo' = { fifo with cards := fifo'.cards, packs := fifo'.packs } := by
  induction row generalizing round fifo done with
  | nil => exact ⟨fifo, rfl, by simpa [rowCells] using recorded, rfl⟩
  | cons pack row ih =>
    let cell : Cell := ⟨seat, round, pack⟩
    have good' : GoodCells podSize (done ++ cell :: (rowCells seat (round + 1) row ++ rest)) := by
      simpa [rowCells] using good
    obtain ⟨cards, registered, recorded'⟩ := recorded.register good'
    have size := good'.sizes cell (by simp)
    have good'' : GoodCells podSize (done ++ [cell] ++ rowCells seat (round + 1) row ++ rest) := by
      simpa using good'
    obtain ⟨fifo', others, recorded'', same⟩ := ih good'' recorded'
    refine ⟨fifo', ?_, by simpa [rowCells] using recorded'', same⟩
    have small : ¬(pack.length = 0 ∨ 255 < pack.length) := by
      have : 0 < pack.length ∧ pack.length ≤ 255 := size
      omega
    unfold registerRow
    rw [if_neg small]
    dsimp only
    rw [show registerCards (coordinate podSize round seat) pack fifo.cards = .ok cards from
      registered]
    exact others

theorem registerPacks_recorded {seat : Nat} {rows : List (List DraftPack)}
    (good : GoodCells podSize (done ++ dealCells seat rows))
    (recorded : Recorded podSize done fifo) :
    ∃ fifo', registerPacks podSize seat rows fifo = .ok fifo' ∧
      Recorded podSize (done ++ dealCells seat rows) fifo' ∧
      fifo' = { fifo with cards := fifo'.cards, packs := fifo'.packs } := by
  induction rows generalizing seat fifo done with
  | nil => exact ⟨fifo, rfl, by simpa [dealCells] using recorded, rfl⟩
  | cons row rows ih =>
    have good' : GoodCells podSize (done ++ rowCells seat 0 row ++ dealCells (seat + 1) rows) := by
      simpa [dealCells] using good
    obtain ⟨middle, first, recorded', same⟩ := registerRow_recorded good' recorded
    obtain ⟨fifo', others, recorded'', same'⟩ := ih good' recorded'
    refine ⟨fifo', ?_, by simpa [dealCells] using recorded'', ?_⟩
    · unfold registerPacks
      rw [first]
      exact others
    · rw [same', same]

end

variable {round seat : Nat}

theorem mem_rowCells {row : List DraftPack} {cell : Cell} :
    cell ∈ rowCells seat round row ↔
      ∃ i, ∃ h : i < row.length, cell = ⟨seat, round + i, row[i]⟩ := by
  induction row generalizing round with
  | nil => simp [rowCells]
  | cons pack row ih =>
    rw [rowCells, mem_cons, ih]
    constructor
    · rintro (rfl | ⟨i, inside, rfl⟩)
      · exact ⟨0, by simp, rfl⟩
      · exact ⟨i + 1, by simpa using inside, by simp; omega⟩
    · rintro ⟨i, inside, rfl⟩
      cases i with
      | zero => exact .inl rfl
      | succ i => exact .inr ⟨i, by simpa using inside, by simp; omega⟩

variable {rows : List (List DraftPack)}

theorem mem_dealCells {cell : Cell} :
    cell ∈ dealCells seat rows ↔ ∃ i, ∃ h : i < rows.length, ∃ j, ∃ h' : j < rows[i].length,
      cell = ⟨seat + i, j, rows[i][j]⟩ := by
  induction rows generalizing seat with
  | nil => simp [dealCells]
  | cons row rows ih =>
    rw [dealCells, mem_append, ih, mem_rowCells]
    constructor
    · rintro (⟨j, inside, rfl⟩ | ⟨i, inside, j, insideRow, rfl⟩)
      · exact ⟨0, by simp, j, inside, by simp⟩
      · exact ⟨i + 1, by simpa using inside, j, by simpa using insideRow, by simp; omega⟩
    · rintro ⟨i, inside, j, insideRow, rfl⟩
      cases i with
      | zero => exact .inl ⟨j, insideRow, by simp⟩
      | succ i =>
        exact .inr ⟨i, by simpa using inside, j, by simpa using insideRow, by simp; omega⟩

theorem flatMap_rowCells (seat round : Nat) (row : List DraftPack) :
    (rowCells seat round row).flatMap (·.pack) = row.flatten := by
  induction row generalizing round with
  | nil => rfl
  | cons pack row ih => rw [rowCells, flatMap_cons, ih, flatten_cons]

theorem flatMap_dealCells (seat : Nat) (rows : List (List DraftPack)) :
    (dealCells seat rows).flatMap (·.pack) = rows.flatten.flatten := by
  induction rows generalizing seat with
  | nil => rfl
  | cons row rows ih =>
    rw [dealCells, flatMap_append, ih, flatMap_rowCells, flatten_cons, flatten_append]

theorem length_rowCells (seat round : Nat) (row : List DraftPack) :
    (rowCells seat round row).length = row.length := by
  induction row generalizing round with
  | nil => rfl
  | cons pack row ih => rw [rowCells, length_cons, ih, length_cons]

theorem length_dealCells (seat : Nat) {packCount : Nat}
    (rounds : ∀ row ∈ rows, row.length = packCount) :
    (dealCells seat rows).length = rows.length * packCount := by
  induction rows generalizing seat with
  | nil => simp [dealCells]
  | cons row rows ih =>
    rw [dealCells, length_append, length_rowCells, rounds row mem_cons_self,
      ih _ fun other later => rounds other (mem_cons_of_mem row later), length_cons,
      Nat.succ_mul, Nat.add_comm]

variable {n : Nat}

/-- A coordinate names its seat and its round. -/
theorem coordinate_seat (inside : seat < n) : coordinate n round seat % n = seat := by
  rw [coordinate, Nat.mul_add_mod_of_lt inside]

theorem coordinate_round {a b : Nat} (inside : seat < n)
    (same : coordinate n a seat = coordinate n b seat) : a = b :=
  Nat.eq_of_mul_eq_mul_right (Nat.zero_lt_of_lt inside) (Nat.add_right_cancel same)

theorem nodup_rowCells (inside : seat < n) (row : List DraftPack) :
    ((rowCells seat round row).map (Cell.id n)).Nodup := by
  induction row generalizing round with
  | nil => simp [rowCells]
  | cons pack row ih =>
    rw [rowCells, map_cons, nodup_cons]
    refine ⟨fun again => ?_, ih⟩
    obtain ⟨cell, mem, same⟩ := mem_map.mp again
    obtain ⟨i, _, rfl⟩ := mem_rowCells.mp mem
    have : round + 1 + i = round := coordinate_round inside same
    omega

theorem nodup_dealCells (fits : seat + rows.length ≤ n) :
    ((dealCells seat rows).map (Cell.id n)).Nodup := by
  induction rows generalizing seat with
  | nil => simp [dealCells]
  | cons row rows ih =>
    rw [length_cons] at fits
    rw [dealCells, map_append, nodup_append]
    refine ⟨nodup_rowCells (by omega) row, ih (by omega), ?_⟩
    intro a inRow b later same
    obtain ⟨cell, mem, rfl⟩ := mem_map.mp inRow
    obtain ⟨other, mem', rfl⟩ := mem_map.mp later
    obtain ⟨i, _, rfl⟩ := mem_rowCells.mp mem
    obtain ⟨j, inside, _, _, rfl⟩ := mem_dealCells.mp mem'
    have seats := congrArg (· % n) same
    simp only [Cell.id] at seats
    rw [coordinate_seat (by omega), coordinate_seat (by omega)] at seats
    omega

section
variable {packs : List (List DraftPack)} {podSize packCount : Nat} {fifo : FifoDraftState}

section
variable (deal : GoodDeal podSize packCount packs)
include deal

theorem GoodDeal.cells : GoodCells packs.length (dealCells 0 packs) where
  ids := nodup_dealCells (by omega)
  sizes := by
    intro cell mem
    obtain ⟨i, inside, j, insideRow, rfl⟩ := mem_dealCells.mp mem
    exact deal.sizes _ (getElem_mem inside) _ (getElem_mem insideRow)
  valid := by
    intro cell mem card inPack
    refine deal.valid card ?_
    rw [← flatMap_dealCells 0]
    exact mem_flatMap.mpr ⟨cell, mem, inPack⟩
  distinct := by
    rw [flatMap_dealCells]
    exact deal.distinct

theorem cell_of_deal {seat round : Nat} (inside : seat < packs.length)
    (insideRow : round < packCount) :
    (⟨seat, round, dealtPack packs seat round⟩ : Cell) ∈ dealCells 0 packs := by
  have insideRow : round < packs[seat].length :=
    (deal.rounds _ (getElem_mem inside)).symm ▸ insideRow
  refine mem_dealCells.mpr ⟨seat, inside, round, insideRow, ?_⟩
  rw [dealtPack_eq inside insideRow, Nat.zero_add]

theorem Recorded.registered (recorded : Recorded packs.length (dealCells 0 packs) fifo) :
    Registered packs packCount fifo where
  listed := fun seat inside round insideRow =>
    recorded.packs _ (cell_of_deal deal inside insideRow)
  packTotal := recorded.packTotal.trans (length_dealCells 0 deal.rounds)
  cards := by
    intro seat round card mem
    obtain ⟨inside, insideRow⟩ := deal.bounds mem
    exact recorded.cards _ (cell_of_deal deal inside insideRow) card mem
  cardTotal := by rw [recorded.cardTotal, flatMap_dealCells]

/-- A good deal registers whole. -/
theorem registerPacks_registered (noPacks : fifo.packs = ∅) (noCards : fifo.cards = ∅) :
    ∃ fifo', registerPacks podSize 0 packs fifo = .ok fifo' ∧ Registered packs packCount fifo' ∧
      fifo' = { fifo with cards := fifo'.cards, packs := fifo'.packs } := by
  have blank : Recorded packs.length [] fifo := by
    refine ⟨by simp, fun id _ => ?_, ?_, by simp, fun id _ => ?_, ?_⟩
    · rw [noPacks, AList.lookup_empty]
    · rw [noPacks]; rfl
    · rw [noCards, AList.lookup_empty]
    · rw [noCards]; rfl
  obtain ⟨fifo', done, recorded, same⟩ := registerPacks_recorded deal.cells blank
  rw [deal.seats] at done
  exact ⟨fifo', done, Recorded.registered deal recorded, same⟩

end

end

section
variable {packs : List (List DraftPack)} {session : DraftSession} {fifo fifo' : FifoDraftState}

theorem untouched_iff {seat : FifoSeatState} : seat.untouched = true ↔ seat = {} := by
  obtain ⟨queue, generation, prompt, completedSteps, roundCompletedSteps⟩ := seat
  simp [FifoSeatState.untouched, and_assoc, and_comm, and_left_comm]

/-- What the lobby check says. -/
structure Blank (session : DraftSession) (fifo : FifoDraftState) : Prop where
  packs : fifo.packs = ∅
  cards : fifo.cards = ∅
  removed : fifo.removed = []
  returned : fifo.returnedEffects = ∅
  review : fifo.review = none
  pools : ∀ pool ∈ session.pools, pool = []
  seats : ∀ seat ∈ fifo.seats, seat = {}

theorem blank_of_lobby (h : validateLobby session fifo = .ok ()) : Blank session fifo := by
  unfold validateLobby at h
  rw [refuseIf_eq_ok] at h
  simp only [Bool.or_eq_false_iff, Bool.not_eq_false', any_eq_false, Bool.not_eq_true',
    Bool.not_eq_false, untouched_iff, Option.isSome_eq_false_iff, Option.isNone_iff_eq_none,
    List.isEmpty_iff] at h
  obtain ⟨⟨⟨⟨⟨⟨⟨⟨⟨packs, cards⟩, removed⟩, returned⟩, review⟩, _⟩, _⟩, pools⟩, _⟩, seats⟩ := h
  exact ⟨AList.ext packs, AList.ext cards, removed, AList.ext returned, review, pools, seats⟩

theorem sum_map_zero {α M : Type} [AddCommMonoid M] {f : α → M} {xs : List α}
    (zero : ∀ x ∈ xs, f x = 0) : (xs.map f).sum = 0 := by
  refine sum_eq_zero fun m mem => ?_
  obtain ⟨x, inXs, rfl⟩ := mem_map.mp mem
  exact zero x inXs

/-- Before the first selection the cards are in order as soon as the sealed packs
and the pools hold them all. -/
theorem stock_of_blank {round : Nat} (seats : ∀ seat ∈ fifo.seats, seat = {})
    (removed : fifo.removed = []) (returned : fifo.returnedEffects = ∅)
    (futures : session.packsBySeat = packs.map (·.drop round))
    (conserved : (session.packsBySeat.map futureIds).sum + (session.pools.map idBag).sum =
      idBag packs.flatten.flatten)
    (pooled : ∀ pool ∈ session.pools, ∀ card ∈ pool, card ∈ packs.flatten.flatten)
    (progress : ∀ index pool, session.pools[index]? = some pool →
      ProgressOk packs session index {} pool) :
    Stock packs session fifo round where
  conserved := by
    have queues : (fifo.seats.map queueIds).sum = 0 := sum_map_zero fun seat mem => by
      rw [seats seat mem]
      rfl
    rw [heldIds, queues, removed, add_zero, ← conserved]
    exact add_zero _
  futures := futures
  queuedCards := by
    intro seat mem queued inQueue
    rw [seats seat mem] at inQueue
    cases inQueue
  pooledCards := pooled
  queued := by
    intro seat mem queued inQueue
    rw [seats seat mem] at inQueue
    cases inQueue
  distinct := by
    have ids : (fifo.seats.map queuePackIds).sum = 0 := sum_map_zero fun seat mem => by
      rw [seats seat mem]
      rfl
    rw [ids]
    exact Multiset.nodup_zero
  returned := by
    intro id listed
    rw [returned] at listed
    cases listed
  removed := by
    intro entry mem
    rw [removed] at mem
    cases mem
  supplied := by
    have steps : (fifo.seats.map (·.roundCompletedSteps)).sum = 0 :=
      sum_map_zero fun seat mem => by rw [seats seat mem]
    have queues : (fifo.seats.map queueSize).sum = 0 := sum_map_zero fun seat mem => by
      rw [seats seat mem]
      rfl
    rw [steps, queues]
    exact Nat.zero_le _
  progress := by
    intro index seat pool there pooled
    rw [seats seat (mem_of_getElem? there)]
    exact progress index pool pooled

theorem prompted_blank (policy : PickClockPolicy) (index : Nat) :
    Prompted policy fifo index {} where
  prompts := fun _ found => nomatch found
  bound := Nat.zero_le _
  steps := Nat.zero_le _
  asked := fun waiting => absurd rfl waiting

theorem sum_idBag_rows : (packs.map futureIds).sum = idBag packs.flatten.flatten := by
  rw [idBag_flatten, map_flatten, sum_flatten, map_map]
  refine congrArg sum (map_congr_left fun row _ => ?_)
  exact idBag_flatten row

/-- A lobby whose boosters have been dealt and registered. -/
structure DealtLobby (packs : List (List DraftPack)) (session : DraftSession) (fifo : FifoDraftState) :
    Prop extends Framed session fifo where
  deal : GoodDeal session.seats.length session.config.packCount packs
  registered : Registered packs session.config.packCount fifo
  sizes : session.packSizes = (packs.headD []).map length
  futures : session.packsBySeat = packs
  lobby : session.status = .lobby
  pools : ∀ pool ∈ session.pools, pool = []
  seats : ∀ seat ∈ fifo.seats, seat = {}
  removed : fifo.removed = []
  returned : fifo.returnedEffects = ∅
  review : fifo.review = none

theorem FifoValid.dealt (valid : FifoValid packs session fifo) (lobby : session.status = .lobby)
    (deal : GoodDeal session.seats.length session.config.packCount packs)
    (h : registerPacks session.seats.length 0 packs fifo = .ok fifo') :
    DealtLobby packs (dealtFifo session fifo' packs) fifo' ∧ fifo'.lastNowMs = fifo.lastNowMs := by
  have blank : Blank session fifo := by
    rcases valid.state with ⟨_, checked⟩ | ⟨running, _⟩
    · exact blank_of_lobby checked
    · exact absurd lobby running
  obtain ⟨_, done, registered, same⟩ := registerPacks_registered deal blank.packs blank.cards
  obtain rfl := Except.ok.inj (h.symm.trans done)
  obtain ⟨_, _, packsLength⟩ := valid.toFramed.lengths
  have unpaused := valid.toFramed.unpaused (by rw [lobby]; decide)
  refine ⟨⟨⟨rfl, valid.flow, valid.config, valid.kind, valid.setCode, by rw [same]; exact valid.identity,
    by rw [same]; exact valid.revision, by rw [same]; exact valid.time, ?_, valid.modern, ?_⟩, deal,
    registered, rfl, rfl, lobby, blank.pools, by rw [same]; exact blank.seats,
    by rw [same]; exact blank.removed, by rw [same]; exact blank.returned,
    by rw [same]; exact blank.review⟩, by rw [same]⟩
  · have dims := valid.dims
    have length : fifo'.seats.length = fifo.seats.length := by rw [same]
    simp only [DraftSession.perSeatLengths, dealtFifo] at dims ⊢
    rw [length, deal.seats]
    rwa [packsLength] at dims
  · rw [same]
    simp [dealtFifo, lobby, unpaused]

/-- Pick and pass: the first round opens. -/
theorem DealtLobby.opens (dealt : DealtLobby packs session fifo)
    (passes : session.kind.procedure.distribution = .pickAndPass) :
    Underway packs session fifo 0 ∧ ∀ seat ∈ fifo.seats, seat.queue = [] := by
  have stock : Stock packs session fifo 0 := by
    refine stock_of_blank dealt.seats dealt.removed dealt.returned (by simp [dealt.futures]) ?_ ?_ ?_
    · have pools : (session.pools.map idBag).sum = 0 := sum_map_zero fun pool mem => by
        rw [dealt.pools pool mem]
        rfl
      rw [pools, add_zero, dealt.futures]
      exact sum_idBag_rows
    · intro pool mem card inPool
      rw [dealt.pools pool mem] at inPool
      cases inPool
    · intro index pool there
      rw [dealt.pools pool (mem_of_getElem? there), ProgressOk, passes]
      simp
  refine ⟨⟨dealt.deal, dealt.registered, dealt.sizes, passes, stock, ?_⟩, ?_⟩
  · intro index seat there
    rw [dealt.seats seat (mem_of_getElem? there)]
    exact (prompted_blank _ index).toLoosePrompt
  · intro seat mem
    rw [dealt.seats seat mem]

/-- Sealed: every seat gets its boosters whole. -/
theorem DealtLobby.spreads (dealt : DealtLobby packs session fifo)
    (all : session.kind.procedure.distribution = .allAtOnce) :
    FifoValid packs { session with
      pools := packs.map flatten
      packsBySeat := packs.map fun _ => []
      currentPackNumber := session.config.packCount
      status := .deckbuilding } fifo := by
  have deal := dealt.deal
  obtain ⟨_, poolsLength, packsLength⟩ := dealt.toFramed.lengths
  have unpaused := dealt.toFramed.unpaused (by rw [dealt.lobby]; decide)
  refine ⟨⟨dealt.there, dealt.flow, dealt.config, dealt.kind, dealt.setCode, dealt.identity,
    dealt.revision, dealt.time, ?_, dealt.modern, by simp [unpaused]⟩,
    .inr ⟨by simp, deal, dealt.registered, dealt.sizes, ?_, ?_, ?_⟩⟩
  · have dims := dealt.dims
    simp only [DraftSession.perSeatLengths, length_map] at dims ⊢
    rw [poolsLength, packsLength] at dims
    rwa [deal.seats]
  · refine ⟨rfl, fun passes => ?_, fun seat mem => by rw [dealt.seats seat mem], dealt.review⟩
    rw [all] at passes
    cases passes
  · refine stock_of_blank dealt.seats dealt.removed dealt.returned ?_ ?_ ?_ ?_
    · exact map_congr_left fun row mem =>
        (drop_eq_nil_of_le (Nat.le_of_eq (deal.rounds row mem))).symm
    · have futures : ((packs.map fun _ => ([] : List DraftPack)).map futureIds).sum = 0 :=
        sum_map_zero fun future mem => by
          obtain ⟨_, _, rfl⟩ := mem_map.mp mem
          rfl
      rw [futures, zero_add, map_map]
      exact sum_idBag_rows
    · intro pool mem card inPool
      obtain ⟨row, inPacks, rfl⟩ := mem_map.mp mem
      rw [flatten_flatten]
      exact mem_flatten.mpr ⟨row.flatten, mem_map_of_mem inPacks, inPool⟩
    · intro index pool there
      rw [ProgressOk]
      rw [all]
      refine ⟨rfl, rfl, rfl, fun card mem => ?_⟩
      rw [getElem?_map, Option.map_eq_some_iff] at there
      obtain ⟨row, atRow, rfl⟩ := there
      rw [getD_eq_getElem?_getD, atRow]
      exact mem
  · intro index seat there
    rw [dealt.seats seat (mem_of_getElem? there)]
    exact prompted_blank _ index

theorem startFifo_valid (valid : FifoValid packs session fifo)
    (deal : GoodDeal session.seats.length session.config.packCount packs) {next : DraftSession}
    {deltas : List DraftDelta}
    (h : startFifo session (some (.ok packs)) fifo.lastNowMs = .ok (next, deltas)) :
    ∃ fifo', FifoValid packs next fifo' := by
  obtain ⟨_, _, fifo', source, lobby, _, _, _, there, done, branches⟩ := startFifo_ok h
  obtain rfl := Except.ok.inj (Option.some.inj source)
  obtain rfl := Option.some.inj (valid.there.symm.trans there)
  obtain ⟨dealt, time⟩ := valid.dealt lobby deal done
  rcases branches with ⟨all, rfl⟩ | ⟨passes, opened⟩
  · exact ⟨fifo', dealt.spreads all⟩
  · obtain ⟨underway, empty⟩ := dealt.opens passes
    rw [← time] at opened
    exact openFifoRound_valid dealt.toFramed (by rw [dealt.lobby]; decide)
      dealt.toFramed.sizes.2.2 underway empty opened

end

end Phase.Draft
