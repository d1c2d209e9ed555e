import Phase.Draft.BarrierStep
import Phase.Draft.FifoAccept

/-! A selection moves cards and nothing else: what `moved` does to the queues, the
pools, the removed cards and the returned draft effects. -/
namespace Phase.Draft
open List Option

theorem lookup_eraseEach {β : Type} (map : AList fun _ : String => β) (ids : List String)
    (id : String) : (eraseEach map ids).lookup id = if id ∈ ids then none else map.lookup id := by
  unfold eraseEach
  induction ids generalizing map with
  | nil => simp
  | cons other ids ih =>
    rw [foldl_cons, ih]
    by_cases same : id = other
    · subst same
      simp
    · simp [same, AList.lookup_erase_ne same]

theorem lookup_insertEach {β : Type} (map : AList fun _ : String => β) (value : β)
    (ids : List String) (id : String) :
    (insertEach map value ids).lookup id = if id ∈ ids then some value else map.lookup id := by
  unfold insertEach
  induction ids generalizing map with
  | nil => simp
  | cons other ids ih =>
    rw [foldl_cons, ih]
    by_cases same : id = other
    · subst same
      simp
    · simp [same, AList.lookup_insert_ne same]

/-- A remainder at or below the threshold is thrown away whole, any other stays whole. -/
theorem discardRemainder_spec (threshold : Nat) (remainder : DraftPack) :
    (remainder.length ≤ threshold ∧
        discardRemainder threshold remainder = ([], remainder.map (·.instanceId))) ∨
      (threshold < remainder.length ∧ discardRemainder threshold remainder = (remainder, [])) := by
  unfold discardRemainder
  split
  · next small => exact .inl ⟨small, rfl⟩
  · next large => exact .inr ⟨Nat.lt_of_not_le large, rfl⟩

/-- The seats once `seat` has given up its head and, if something is left of it,
`recipient` has got that. -/
def passedSeats (seats : List FifoSeatState) (seat : Nat) (state : FifoSeatState)
    (head : QueuedDraftPack) (recipient : Nat) (left : DraftPack) : List FifoSeatState :=
  let popped := seats.set seat { state with
    queue := state.queue.tail
    completedSteps := state.completedSteps + 1
    roundCompletedSteps := state.roundCompletedSteps + 1
    prompt := none }
  if left.isEmpty then popped
  else popped.modify recipient fun next =>
    { next with queue := next.queue ++ [{ head with pack := left }] }

section
variable {seats : List FifoSeatState} {seat recipient : Nat} {state : FifoSeatState}
  {head : QueuedDraftPack} {rest : List QueuedDraftPack} {left : DraftPack}

theorem length_passedSeats : (passedSeats seats seat state head recipient left).length =
    seats.length := by
  unfold passedSeats
  split <;> simp

/-- A quantity summed over all queued packs loses the head's share and gains the
remainder's. -/
theorem sum_passedSeats {M : Type} [AddCancelCommMonoid M] (g : QueuedDraftPack → M)
    (there : seats[seat]? = some state) (front : state.queue = head :: rest)
    (bound : recipient < seats.length) :
    ((passedSeats seats seat state head recipient left).map fun s => (s.queue.map g).sum).sum +
        g head =
      (seats.map fun s => (s.queue.map g).sum).sum +
        if left = [] then 0 else g { head with pack := left } := by
  obtain ⟨inside, here⟩ := List.getElem?_eq_some_iff.mp there
  let f (s : FifoSeatState) := (s.queue.map g).sum
  let after : FifoSeatState := { state with
    queue := state.queue.tail
    completedSteps := state.completedSteps + 1
    roundCompletedSteps := state.roundCompletedSteps + 1
    prompt := none }
  have popped := Indexed.sum_map_set f inside after
  have own : f state = g head + f after := by simp [f, after, front]
  have lost : ((seats.set seat after).map f).sum + g head = (seats.map f).sum := by
    rw [here, own, ← add_assoc] at popped
    exact add_right_cancel popped
  unfold passedSeats
  by_cases none_ : left = []
  · simp only [none_, isEmpty_nil, if_true, add_zero]
    exact lost
  · have some_ : left.isEmpty = false := by simpa using none_
    simp only [some_, none_, if_false, Bool.false_eq_true]
    have bound' : recipient < (seats.set seat after).length := by simpa using bound
    have pushed := Indexed.sum_map_modify f
      (fun next => { next with queue := next.queue ++ [{ head with pack := left }] }) bound'
    have grown : f { (seats.set seat after)[recipient] with
        queue := (seats.set seat after)[recipient].queue ++ [{ head with pack := left }] } =
        f (seats.set seat after)[recipient] + g { head with pack := left } := by simp [f]
    rw [grown, ← add_assoc, add_right_comm] at pushed
    have gained := add_right_cancel pushed
    rw [← lost, add_right_comm, ← gained]

/-- Seat by seat: the selecting seat has made one more step and lost its prompt,
every other seat is as it was, with perhaps the remainder behind its queue. -/
theorem seat_passedSeats (there : seats[seat]? = some state) {i : Nat} {after : FifoSeatState}
    (found : (passedSeats seats seat state head recipient left)[i]? = some after) :
    ∃ before, seats[i]? = some before ∧
      (if i = seat then
        after.completedSteps = before.completedSteps + 1 ∧
          after.roundCompletedSteps = before.roundCompletedSteps + 1 ∧ after.prompt = none ∧
          after.generation = before.generation
      else
        after.completedSteps = before.completedSteps ∧
          after.roundCompletedSteps = before.roundCompletedSteps ∧
          after.prompt = before.prompt ∧ after.generation = before.generation) ∧
      ∃ more, after.queue = (if i = seat then before.queue.tail else before.queue) ++ more ∧
        ∀ queued ∈ more, left ≠ [] ∧ queued = { head with pack := left } := by
  obtain ⟨inside, here⟩ := List.getElem?_eq_some_iff.mp there
  unfold passedSeats at found
  split at found
  · next none_ =>
    rw [getElem?_set] at found
    split at found
    · next same =>
      subst same
      obtain rfl := some.inj found
      exact ⟨state, there, by simp, [], by simp, by simp⟩
    · next other =>
      exact ⟨after, found, by simp [Ne.symm other], [], by simp [Ne.symm other], by simp⟩
  · next some_ =>
    have nonempty : left ≠ [] := by simpa using some_
    rw [getElem?_modify, getElem?_set] at found
    by_cases own : seat = i
    · subst own
      simp only [if_true, inside, Option.map_eq_map, Option.map_some, Option.some.injEq] at found
      subst found
      by_cases receives : recipient = seat
      · exact ⟨state, there, by simp [receives],
          [{ head with pack := left }], by simp [receives], by simpa using nonempty⟩
      · exact ⟨state, there, by simp [receives], [], by simp [receives], by simp⟩
    · simp only [own, if_false, Option.map_eq_map, Option.map_eq_some_iff] at found
      obtain ⟨before, at_, rfl⟩ := found
      by_cases receives : recipient = i
      · exact ⟨before, at_, by simp [receives, Ne.symm own],
          [{ head with pack := left }], by simp [receives, Ne.symm own], by simpa using nonempty⟩
      · exact ⟨before, at_, by simp [receives, Ne.symm own], [],
          by simp [receives, Ne.symm own], by simp⟩

theorem mem_queuedIds {s : FifoSeatState} (inSeats : s ∈ seats) {queued : QueuedDraftPack}
    (inQueue : queued ∈ s.queue) {card : DraftCardInstance} (mem : card ∈ queued.pack) :
    card.instanceId ∈ (seats.map queueIds).sum :=
  Indexed.mem_sum_map.mpr ⟨s, inSeats, Indexed.mem_sum_map.mpr
    ⟨queued, inQueue, mem_idBag.mpr ⟨card, mem, rfl⟩⟩⟩

end

/-- How a selection takes the head and the seat's pool apart, and what becomes of
the pieces: `left` passes on, `discarded` is thrown away. -/
structure Parted (head : DraftPack) (pool : List DraftCardInstance) (threshold : Nat)
    (picked burned effects : List String) (unpicked selected unburned burnt kept returned
      left : DraftPack) (discarded : List String) : Prop where
  picks : Takes head picked unpicked selected
  burns : Takes unpicked burned unburned burnt
  returns : Takes pool effects kept returned
  rest : ((unburned ++ returned).length ≤ threshold ∧ left = [] ∧
      discarded = (unburned ++ returned).map (·.instanceId)) ∨
    (threshold < (unburned ++ returned).length ∧ left = unburned ++ returned ∧ discarded = [])

variable {left pack taken : DraftPack} {ids : List String}

theorem Takes.bag (takes : Takes pack ids left taken) :
    idBag pack = idBag left + (ids : Multiset String) := by
  rw [← idBag_perm takes.perm, idBag_append, ← takes.named]
  rfl

theorem Takes.bag_taken (takes : Takes pack ids left taken) :
    idBag taken = (ids : Multiset String) := by
  rw [← takes.named]
  rfl

variable {card : DraftCardInstance}

theorem Takes.taken_mem (takes : Takes pack ids left taken) (mem : card ∈ taken) :
    card ∈ pack ∧ card.instanceId ∈ ids :=
  ⟨takes.perm.subset (mem_append_right left mem), takes.named ▸ mem_map_of_mem mem⟩

/-- A card that is not named stays. -/
theorem Takes.left_mem (takes : Takes pack ids left taken) (mem : card ∈ pack)
    (unnamed : card.instanceId ∉ ids) : card ∈ left := by
  rcases mem_append.mp (takes.perm.mem_iff.mpr mem) with stays | taken
  · exact stays
  · exact absurd (takes.taken_mem taken).2 unnamed

section
variable {head : DraftPack} {pool : List DraftCardInstance} {threshold : Nat}
  {picked burned effects discarded : List String}
  {unpicked selected unburned burnt kept returned left : DraftPack}

theorem Parted.bag (parted : Parted head pool threshold picked burned effects unpicked selected
    unburned burnt kept returned left discarded) :
    idBag left + (discarded : Multiset String) + (picked : Multiset String) +
        (burned : Multiset String) =
      idBag head + (effects : Multiset String) := by
  have whole : idBag left + (discarded : Multiset String) = idBag (unburned ++ returned) := by
    rcases parted.rest with ⟨_, rfl, rfl⟩ | ⟨_, rfl, rfl⟩
    · rfl
    · rw [Multiset.coe_nil, add_zero]
  rw [whole, idBag_append, parted.returns.bag_taken, parted.picks.bag, parted.burns.bag]
  abel

variable {card : DraftCardInstance}

section
variable (parted : Parted head pool threshold picked burned effects unpicked selected unburned
  burnt kept returned left discarded)
include parted

/-- Where a card of the remainder ends up. -/
theorem Parted.remainder (mem : card ∈ unburned ++ returned) :
    card ∈ left ∨ card.instanceId ∈ discarded := by
  rcases parted.rest with ⟨_, _, rfl⟩ | ⟨_, rfl, _⟩
  · exact .inr (mem_map_of_mem mem)
  · exact .inl mem

theorem Parted.left_mem (mem : card ∈ left) :
    card ∈ head ∨ (card ∈ pool ∧ card.instanceId ∈ effects) := by
  have inRest : card ∈ unburned ++ returned := by
    rcases parted.rest with ⟨_, rfl, _⟩ | ⟨_, rfl, _⟩
    · cases mem
    · exact mem
  rcases mem_append.mp inRest with stays | back
  · exact .inl (parted.picks.kept.subset (parted.burns.kept.subset stays))
  · exact .inr (parted.returns.taken_mem back)

theorem Parted.discarded_mem {id : String} (mem : id ∈ discarded) :
    0 < threshold ∧ ∃ card, card.instanceId = id ∧
      (card ∈ head ∨ (card ∈ pool ∧ card.instanceId ∈ effects)) := by
  rcases parted.rest with ⟨small, _, rfl⟩ | ⟨_, _, rfl⟩
  · obtain ⟨card, inRest, rfl⟩ := mem_map.mp mem
    refine ⟨Nat.lt_of_lt_of_le (length_pos_of_mem inRest) small, card, rfl, ?_⟩
    rcases mem_append.mp inRest with stays | back
    · exact .inl (parted.picks.kept.subset (parted.burns.kept.subset stays))
    · exact .inr (parted.returns.taken_mem back)
  · cases mem

theorem Parted.length_left : left.length + picked.length ≤ head.length + effects.length := by
  have bags := congrArg Multiset.card parted.bag
  simp only [Multiset.card_add, card_idBag, Multiset.coe_card] at bags
  omega

theorem Parted.threshold_lt (some_ : left ≠ []) : threshold < left.length := by
  rcases parted.rest with ⟨_, empty, _⟩ | ⟨large, rfl, _⟩
  · exact absurd empty some_
  · exact large

end

end

/-- The session once the pieces are where they belong. -/
def settled (session : DraftSession) (fifo : FifoDraftState) (seat : Nat) (state : FifoSeatState)
    (head : QueuedDraftPack) (picked burned effects : List String)
    (kept selected left : DraftPack) (discarded : List String) : FifoDraftState × DraftSession :=
  let fifo := { fifo with
    seats := passedSeats fifo.seats seat state head
      (session.passDirection.nextSeat seat session.config.podSize) left
    removed := fifo.removed ++ removals .burn head.packId burned ++
      removals .threshold head.packId discarded
    returnedEffects := eraseEach (insertEach (eraseEach fifo.returnedEffects (picked ++ burned))
      head.packId effects) discarded }
  (fifo, { session with pools := session.pools.set seat (kept ++ selected), fifo := some fifo })

variable {head : QueuedDraftPack} {fifo : FifoDraftState}

theorem Admitted.parted {session : DraftSession} {seat : Nat} {state : FifoSeatState}
    {picked burned effects : List String}
    (admitted : Admitted session fifo seat state head picked burned effects) :
    ∃ unpicked selected unburned burnt kept returned left discarded,
      Parted head.pack (session.pools.getD seat []) session.config.selectionPolicy.discardThreshold
        picked burned effects unpicked selected unburned burnt kept returned left discarded ∧
      moved session fifo seat state head picked burned effects =
        (settled session fifo seat state head picked burned effects kept selected left
          discarded).2 := by
  obtain ⟨distinctP, distinctB, apart⟩ := nodup_append.mp admitted.distinct
  have picks := takeByIds_takes distinctP fun id mem =>
    (admitted.present id (mem_append_left burned mem)).2
  have burns := @takeByIds_takes (takeByIds head.pack picked).1 burned distinctB fun id mem => by
    obtain ⟨card, inHead, same⟩ := (admitted.present id (mem_append_right picked mem)).2
    refine ⟨card, picks.left_mem inHead ?_, same⟩
    rw [same]
    exact fun named => apart id named id mem rfl
  have returns := takeByIds_takes admitted.effects_distinct fun id mem => by
    obtain ⟨card, inPool, is⟩ := admitted.effects_owned id mem
    simp only [isEffectCard, Bool.and_eq_true, decide_eq_true_eq] at is
    exact ⟨card, inPool, is.1⟩
  refine ⟨_, _, _, _, _, _, _, _, ⟨picks, burns, returns, ?_⟩, rfl⟩
  rcases discardRemainder_spec session.config.selectionPolicy.discardThreshold
    ((takeByIds (takeByIds head.pack picked).1 burned).1 ++
      (takeByIds (session.pools.getD seat []) effects).2) with ⟨small, eq⟩ | ⟨large, eq⟩
  · exact .inl ⟨small, by rw [eq], by rw [eq]⟩
  · exact .inr ⟨large, by rw [eq], by rw [eq]⟩

theorem cardsPerPick_pos (kind : DraftKind) : 0 < kind.procedure.cardsPerPick := by
  cases kind <;> decide

/-- A pick and its draft effects grow the pool by one card at least, and by no more
than one step's worth. -/
theorem Admitted.picks_bounds {session : DraftSession} {seat : Nat} {state : FifoSeatState}
    {picked burned effects : List String}
    (admitted : Admitted session fifo seat state head picked burned effects)
    (nonempty : 0 < head.pack.length) :
    effects.length + 1 ≤ picked.length ∧
      picked.length ≤ session.kind.procedure.cardsPerPick + effects.length := by
  have positive := cardsPerPick_pos session.kind
  rcases admitted.picks with ⟨rfl, count⟩ | ⟨_, count, _⟩
  · rw [DraftSession.requiredPickCount, admitted.opened] at count
    simp only [map_some, getD_some] at count
    simp only [length_nil]
    omega
  · omega

/-- An admitted selection on a session whose cards are in order, and what it makes
of that session. -/
structure Selecting (packs : List (List DraftPack)) (session after : DraftSession)
    (fifo fifo' : FifoDraftState) (seat : Nat) (state : FifoSeatState) (head : QueuedDraftPack)
    (picked burned effects : List String) (unpicked selected unburned burnt kept returned
      left : DraftPack) (discarded : List String) : Prop where
  deal : GoodDeal session.seats.length session.config.packCount packs
  stock : Stock packs session fifo (session.currentPackNumber + 1)
  passes : session.kind.procedure.distribution = .pickAndPass
  admitted : Admitted session fifo seat state head picked burned effects
  parted : Parted head.pack (session.pools.getD seat [])
    session.config.selectionPolicy.discardThreshold picked burned effects unpicked selected
    unburned burnt kept returned left discarded
  recipient : session.passDirection.nextSeat seat session.config.podSize < fifo.seats.length
  pooled : session.pools.length = fifo.seats.length
  done : settled session fifo seat state head picked burned effects kept selected left discarded =
    (fifo', after)

namespace Selecting
variable {packs : List (List DraftPack)} {session after : DraftSession}
  {fifo fifo' : FifoDraftState} {seat : Nat} {state : FifoSeatState} {head : QueuedDraftPack}
  {picked burned effects discarded : List String}
  {unpicked selected unburned burnt kept returned left : DraftPack}
  (sel : Selecting packs session after fifo fifo' seat state head picked burned effects unpicked
    selected unburned burnt kept returned left discarded)
include sel

theorem fifo_eq : fifo' = { fifo with
    seats := passedSeats fifo.seats seat state head
      (session.passDirection.nextSeat seat session.config.podSize) left
    removed := fifo.removed ++ removals .burn head.packId burned ++
      removals .threshold head.packId discarded
    returnedEffects := eraseEach (insertEach (eraseEach fifo.returnedEffects (picked ++ burned))
      head.packId effects) discarded } := (congrArg Prod.fst sel.done).symm

theorem after_eq : after = { session with
    pools := session.pools.set seat (kept ++ selected), fifo := some fifo' } := by
  rw [sel.fifo_eq]
  exact (congrArg Prod.snd sel.done).symm

theorem bounds : seat < fifo.seats.length ∧ seat < session.pools.length := by
  have inside := (List.getElem?_eq_some_iff.mp sel.admitted.seated).1
  exact ⟨inside, sel.pooled ▸ inside⟩

theorem pool_mem : session.pools.getD seat [] ∈ session.pools := by
  rw [getD_eq_getElem _ _ sel.bounds.2]
  exact getElem_mem sel.bounds.2

theorem head_mem : state ∈ fifo.seats ∧ head ∈ state.queue := by
  obtain ⟨rest, front⟩ := sel.admitted.front
  exact ⟨mem_of_getElem? sel.admitted.seated, front ▸ mem_cons_self⟩

theorem headOk : QueuedOk packs session fifo head :=
  sel.stock.queued state sel.head_mem.1 head sel.head_mem.2

/-- The queued packs give up the head and get the remainder. -/
theorem sum_queues {M : Type} [AddCancelCommMonoid M] (g : QueuedDraftPack → M) :
    (fifo'.seats.map fun s => (s.queue.map g).sum).sum + g head =
      (fifo.seats.map fun s => (s.queue.map g).sum).sum +
        if left = [] then 0 else g { head with pack := left } := by
  obtain ⟨rest, front⟩ := sel.admitted.front
  rw [sel.fifo_eq]
  exact sum_passedSeats g sel.admitted.seated front sel.recipient

theorem queues : (fifo'.seats.map queueIds).sum + idBag head.pack =
    (fifo.seats.map queueIds).sum + idBag left := by
  refine (sel.sum_queues fun queued => idBag queued.pack).trans (congrArg _ ?_)
  split
  · next none_ => rw [none_, idBag_nil]
  · rfl

theorem pools : (after.pools.map idBag).sum + (effects : Multiset String) =
    (session.pools.map idBag).sum + (picked : Multiset String) := by
  have changed := Indexed.sum_map_set idBag sel.bounds.2 (kept ++ selected)
  have own := sel.parted.returns.bag
  rw [getD_eq_getElem _ _ sel.bounds.2] at own
  rw [own, idBag_append, sel.parted.picks.bag_taken] at changed
  rw [sel.after_eq]
  refine add_right_cancel (b := idBag kept) ?_
  rw [add_assoc, add_comm (effects : Multiset String), changed, add_comm (idBag kept), add_assoc]

theorem removedIds_after : removedIds fifo'.removed =
    removedIds fifo.removed + (burned : Multiset String) + (discarded : Multiset String) := by
  rw [sel.fifo_eq]
  simp [removedIds, removals, Function.comp_def]

/-- No card is lost or made. -/
theorem held : heldIds after fifo' = heldIds session fifo := by
  have futures : after.packsBySeat = session.packsBySeat := by rw [sel.after_eq]
  refine add_right_cancel (b := idBag head.pack + (effects : Multiset String)) ?_
  calc
    heldIds after fifo' + (idBag head.pack + (effects : Multiset String)) =
        (session.packsBySeat.map futureIds).sum +
          ((fifo'.seats.map queueIds).sum + idBag head.pack) +
          ((after.pools.map idBag).sum + (effects : Multiset String)) +
          removedIds fifo'.removed := by
      rw [heldIds, futures, removedIds]
      abel
    _ = (session.packsBySeat.map futureIds).sum + (fifo.seats.map queueIds).sum +
          (session.pools.map idBag).sum + removedIds fifo.removed +
          (idBag left + (discarded : Multiset String) + (picked : Multiset String) +
            (burned : Multiset String)) := by
      rw [sel.queues, sel.pools, sel.removedIds_after]
      abel
    _ = heldIds session fifo + (idBag head.pack + (effects : Multiset String)) := by
      rw [sel.parted.bag]
      rfl

theorem nodup : (heldIds session fifo).Nodup := Stock.nodup sel.deal sel.stock

theorem nodup_after : (heldIds after fifo').Nodup := sel.held ▸ sel.nodup

variable {id : String} {card : DraftCardInstance}

/-- A card still in a queue has been neither picked nor thrown away. -/
theorem queued_apart (mem : id ∈ (fifo'.seats.map queueIds).sum) :
    id ∉ picked ++ burned ∧ id ∉ discarded := by
  have all : ((after.packsBySeat.map futureIds).sum + (fifo'.seats.map queueIds).sum +
      (after.pools.map idBag).sum + removedIds fifo'.removed).Nodup := sel.nodup_after
  obtain ⟨three, _, apartR⟩ := Multiset.nodup_add.mp all
  obtain ⟨two, _, apartP⟩ := Multiset.nodup_add.mp three
  have inTwo : id ∈ (after.packsBySeat.map futureIds).sum + (fifo'.seats.map queueIds).sum :=
    Multiset.mem_add.mpr (.inr mem)
  have notPooled := Multiset.disjoint_left.mp apartP inTwo
  have notRemoved := Multiset.disjoint_left.mp apartR (Multiset.mem_add.mpr (.inl inTwo))
  rw [sel.removedIds_after] at notRemoved
  simp only [Multiset.mem_add, Multiset.mem_coe, not_or] at notRemoved
  refine ⟨?_, notRemoved.2⟩
  rw [mem_append, not_or]
  refine ⟨fun named => notPooled ?_, notRemoved.1.2⟩
  rw [Indexed.mem_sum_map, sel.after_eq]
  refine ⟨kept ++ selected, mem_set sel.bounds.2 _, ?_⟩
  rw [idBag_append, sel.parted.picks.bag_taken]
  exact Multiset.mem_add.mpr (.inr (Multiset.mem_coe.mpr named))

/-- A queued card is not in a pool. -/
theorem effects_apart (mem : id ∈ (fifo.seats.map queueIds).sum) : id ∉ effects := by
  have all : ((session.packsBySeat.map futureIds).sum + (fifo.seats.map queueIds).sum +
      (session.pools.map idBag).sum + removedIds fifo.removed).Nodup := sel.nodup
  obtain ⟨three, _, _⟩ := Multiset.nodup_add.mp all
  obtain ⟨_, _, apart⟩ := Multiset.nodup_add.mp three
  intro named
  refine Multiset.disjoint_left.mp apart (Multiset.mem_add.mpr (.inr mem)) ?_
  rw [Indexed.mem_sum_map]
  refine ⟨_, sel.pool_mem, ?_⟩
  rw [sel.parted.returns.bag]
  exact Multiset.mem_add.mpr (.inr (Multiset.mem_coe.mpr named))

theorem lookup_returned (id : String) : fifo'.returnedEffects.lookup id =
    if id ∈ discarded then none else if id ∈ effects then some head.packId
    else if id ∈ picked ++ burned then none else fifo.returnedEffects.lookup id := by
  rw [sel.fifo_eq]
  rw [lookup_eraseEach, lookup_insertEach, lookup_eraseEach]

/-- An entry of a queue after the selection is an old one, or the remainder. -/
theorem queued_cases {s : FifoSeatState} (inSeats : s ∈ fifo'.seats) {queued : QueuedDraftPack}
    (inQueue : queued ∈ s.queue) :
    (∃ old ∈ fifo.seats, queued ∈ old.queue) ∨
      (left ≠ [] ∧ queued = { head with pack := left }) := by
  rw [sel.fifo_eq] at inSeats
  obtain ⟨i, at_⟩ := mem_iff_getElem?.mp inSeats
  obtain ⟨before, there, _, more, queue, new⟩ := seat_passedSeats sel.admitted.seated at_
  rw [queue] at inQueue
  rcases mem_append.mp inQueue with old | fresh
  · refine .inl ⟨before, mem_of_getElem? there, ?_⟩
    split at old
    · exact mem_of_mem_tail old
    · exact old
  · exact .inr (new queued fresh)

theorem dealt_of_head (mem : card ∈ head.pack) : card ∈ packs.flatten.flatten :=
  sel.stock.queuedCards state sel.head_mem.1 head sel.head_mem.2 card mem

theorem dealt_of_pool (mem : card ∈ session.pools.getD seat []) : card ∈ packs.flatten.flatten :=
  sel.stock.pooledCards _ sel.pool_mem card mem

/-- A card of the pool that is named as a draft effect is one. -/
theorem effect_of_named (inPool : card ∈ session.pools.getD seat [])
    (named : card.instanceId ∈ effects) : card.draftEffect = some .additionalPick := by
  obtain ⟨other, owned, is⟩ := sel.admitted.effects_owned _ named
  simp only [isEffectCard, Bool.and_eq_true, decide_eq_true_eq] at is
  obtain rfl := sel.deal.card_eq (sel.dealt_of_pool owned) (sel.dealt_of_pool inPool) is.1
  exact is.2

theorem lookup_queued (mem : id ∈ (fifo'.seats.map queueIds).sum) :
    fifo'.returnedEffects.lookup id =
      if id ∈ effects then some head.packId else fifo.returnedEffects.lookup id := by
  obtain ⟨unnamed, live⟩ := sel.queued_apart mem
  rw [sel.lookup_returned, if_neg live, if_neg unnamed]

theorem queuedCards_after : ∀ s ∈ fifo'.seats, ∀ queued ∈ s.queue, ∀ card ∈ queued.pack,
    card ∈ packs.flatten.flatten := by
  intro s inSeats queued inQueue card mem
  rcases sel.queued_cases inSeats inQueue with ⟨old, inOld, inOldQueue⟩ | ⟨_, rfl⟩
  · exact sel.stock.queuedCards old inOld queued inOldQueue card mem
  · rcases sel.parted.left_mem mem with inHead | ⟨inPool, _⟩
    · exact sel.dealt_of_head inHead
    · exact sel.dealt_of_pool inPool

theorem pooledCards_after : ∀ pool ∈ after.pools, ∀ card ∈ pool, card ∈ packs.flatten.flatten := by
  intro pool inPools card mem
  rw [sel.after_eq] at inPools
  rcases mem_or_eq_of_mem_set inPools with old | rfl
  · exact sel.stock.pooledCards pool old card mem
  · rcases mem_append.mp mem with stays | taken
    · exact sel.dealt_of_pool (sel.parted.returns.kept.subset stays)
    · exact sel.dealt_of_head (sel.parted.picks.taken_mem taken).1

theorem length_left : left.length + 1 ≤ head.pack.length := by
  have bounds := sel.admitted.picks_bounds sel.headOk.nonempty
  have lengths := sel.parted.length_left
  omega

/-- The remainder is again what is left of its booster. -/
theorem left_ok (some_ : left ≠ []) {s : FifoSeatState} (inSeats : s ∈ fifo'.seats)
    (inQueue : { head with pack := left } ∈ s.queue) :
    QueuedOk packs after fifo' { head with pack := left } := by
  have before := sel.headOk
  have shorter := sel.length_left
  refine ⟨before.opener, ?_, before.id, before.size, length_pos_of_ne_nil some_, ?_, ?_, ?_, ?_⟩
  · rw [before.round, sel.after_eq]
  · exact (Nat.le_of_succ_le shorter).trans before.smaller
  · intro _
    rw [sel.after_eq]
    exact sel.parted.threshold_lt some_
  · intro card mem assignment marked
    rw [sel.lookup_queued (mem_queuedIds inSeats inQueue mem)] at marked
    split at marked
    · next named =>
      refine ⟨(some.inj marked).symm, ?_⟩
      rcases sel.parted.left_mem mem with inHead | ⟨inPool, _⟩
      · have queued := sel.effects_apart (mem_queuedIds sel.head_mem.1 sel.head_mem.2 inHead)
        exact absurd named queued
      · exact sel.effect_of_named inPool named
    · next unnamed =>
      rcases sel.parted.left_mem mem with inHead | ⟨_, named⟩
      · exact before.returned card inHead assignment marked
      · exact absurd named unnamed
  · intro card mem unmarked
    rw [sel.lookup_queued (mem_queuedIds inSeats inQueue mem)] at unmarked
    split at unmarked
    · cases unmarked
    · next unnamed =>
      rcases sel.parted.left_mem mem with inHead | ⟨_, named⟩
      · exact before.native card inHead unmarked
      · exact absurd named unnamed

theorem queued_after : ∀ s ∈ fifo'.seats, ∀ queued ∈ s.queue,
    QueuedOk packs after fifo' queued := by
  intro s inSeats queued inQueue
  rcases sel.queued_cases inSeats inQueue with ⟨old, inOld, inOldQueue⟩ | ⟨some_, rfl⟩
  · have before := sel.stock.queued old inOld queued inOldQueue
    have same : ∀ card ∈ queued.pack, fifo'.returnedEffects.lookup card.instanceId =
        fifo.returnedEffects.lookup card.instanceId := by
      intro card mem
      have unnamed := sel.effects_apart (mem_queuedIds inOld inOldQueue mem)
      rw [sel.lookup_queued (mem_queuedIds inSeats inQueue mem), if_neg unnamed]
    refine ⟨before.opener, ?_, before.id, before.size, before.nonempty, before.smaller, ?_, ?_, ?_⟩
    · rw [before.round, sel.after_eq]
    · rw [sel.after_eq]
      exact before.kept
    · intro card mem assignment marked
      rw [same card mem] at marked
      exact before.returned card mem assignment marked
    · intro card mem unmarked
      rw [same card mem] at unmarked
      exact before.native card mem unmarked
  · exact sel.left_ok some_ inSeats inQueue

theorem head_le : idBag head.pack ≤ (fifo.seats.map queueIds).sum := by
  obtain ⟨inSeats, inQueue⟩ := sel.head_mem
  have inner : idBag head.pack ≤ queueIds state :=
    single_le_sum (fun bag _ => Multiset.zero_le bag) _ (mem_map_of_mem inQueue)
  exact inner.trans (single_le_sum (fun bag _ => Multiset.zero_le bag) _ (mem_map_of_mem inSeats))

/-- The remainder is in a queue, and so is everything that was in one and not in
the head. -/
theorem mem_queues_after
    (mem : id ∈ idBag left ∨ (id ∈ (fifo.seats.map queueIds).sum ∧ id ∉ idBag head.pack)) :
    id ∈ (fifo'.seats.map queueIds).sum := by
  have counts := congrArg (Multiset.count id) sel.queues
  have less := Multiset.count_le_of_le id sel.head_le
  rw [Multiset.count_add, Multiset.count_add] at counts
  rw [← Multiset.count_pos]
  rcases mem with inLeft | ⟨inQueues, notHead⟩
  · have := Multiset.count_pos.mpr inLeft
    omega
  · have := Multiset.count_pos.mpr inQueues
    have := Multiset.count_eq_zero.mpr notHead
    omega

/-- Every card that is still marked as returned is still in a queue. -/
theorem returned_after : ∀ id ∈ fifo'.returnedEffects.keys, ∃ s ∈ fifo'.seats,
    ∃ queued ∈ s.queue, ∃ card ∈ queued.pack, card.instanceId = id := by
  intro id listed
  have marked := AList.lookup_isSome.mpr (AList.mem_keys.mp listed)
  rw [sel.lookup_returned] at marked
  suffices inQueues : id ∈ (fifo'.seats.map queueIds).sum by
    obtain ⟨s, inSeats, inSeat⟩ := Indexed.mem_sum_map.mp inQueues
    obtain ⟨queued, inQueue, inPack⟩ := Indexed.mem_sum_map.mp inSeat
    exact ⟨s, inSeats, queued, inQueue, mem_idBag.mp inPack⟩
  split at marked
  · cases marked
  · next live =>
    split at marked
    · next named =>
      obtain ⟨card, back, rfl⟩ := mem_map.mp (sel.parted.returns.named ▸ named)
      rcases sel.parted.remainder (mem_append_right unburned back) with inLeft | gone
      · exact sel.mem_queues_after (.inl (mem_idBag.mpr ⟨card, inLeft, rfl⟩))
      · exact absurd gone live
    · split at marked
      · cases marked
      · next unnamed =>
        obtain ⟨s, inSeats, queued, inQueue, card, inPack, rfl⟩ :=
          sel.stock.returned id (AList.mem_keys.mpr (AList.lookup_isSome.mp marked))
        by_cases inHead : card.instanceId ∈ idBag head.pack
        · obtain ⟨other, here, same⟩ := mem_idBag.mp inHead
          rw [mem_append, not_or, ← same] at unnamed
          have stays := sel.parted.burns.left_mem (sel.parted.picks.left_mem here unnamed.1)
            unnamed.2
          rcases sel.parted.remainder (mem_append_left returned stays) with inLeft | gone
          · exact sel.mem_queues_after (.inl (mem_idBag.mpr ⟨other, inLeft, same⟩))
          · exact absurd (same ▸ gone) live
        · exact sel.mem_queues_after (.inr ⟨mem_queuedIds inSeats inQueue inPack, inHead⟩)

theorem distinct_after : (fifo'.seats.map queuePackIds).sum.Nodup := by
  have packIds : queuePackIds = fun s : FifoSeatState =>
      (s.queue.map fun queued => ({queued.packId} : Multiset DraftPackId)).sum := by
    funext s
    unfold queuePackIds
    induction s.queue with
    | nil => rfl
    | cons queued queue ih =>
      rw [map_cons, ← Multiset.cons_coe, ih, map_cons, sum_cons, Multiset.singleton_add]
  have moved := sel.sum_queues fun queued => ({queued.packId} : Multiset DraftPackId)
  have before := sel.stock.distinct
  rw [packIds] at before ⊢
  refine Multiset.nodup_of_le ?_ before
  rw [← Multiset.add_le_add_iff_right, moved]
  refine Multiset.add_le_add_left ?_
  split
  · exact Multiset.zero_le _
  · exact le_rfl

theorem removedOk_of {reason : DraftRemovalReason} (same : card.instanceId = id)
    (origin : card ∈ head.pack ∨ (card ∈ session.pools.getD seat [] ∧ card.instanceId ∈ effects))
    (enabled : removalEnabled session.config.selectionPolicy reason = true) :
    RemovedOk packs session.config.selectionPolicy (session.currentPackNumber + 1)
      ⟨id, head.packId, reason⟩ := by
  have headOk := sel.headOk
  refine ⟨⟨head.openingSeat, headOk.opener, head.round, ?_, headOk.id⟩, ?_, enabled⟩
  · rw [headOk.round]
    exact Nat.lt_succ_self _
  have dealt : card ∈ packs.flatten.flatten := by
    rcases origin with inHead | ⟨inPool, _⟩
    · exact sel.dealt_of_head inHead
    · exact sel.dealt_of_pool inPool
  obtain ⟨opener, round, inPack⟩ := mem_deal.mp dealt
  rcases origin with inHead | ⟨inPool, named⟩
  · cases marked : fifo.returnedEffects.lookup card.instanceId with
    | none => exact ⟨head.openingSeat, head.round, card, headOk.native card inHead marked, same,
        .inl headOk.id⟩
    | some assignment =>
      exact ⟨opener, round, card, inPack, same,
        .inr (headOk.returned card inHead assignment marked).2⟩
  · exact ⟨opener, round, card, inPack, same, .inr (sel.effect_of_named inPool named)⟩

theorem removed_after : ∀ removed ∈ fifo'.removed,
    RemovedOk packs after.config.selectionPolicy (session.currentPackNumber + 1) removed := by
  intro removed mem
  rw [sel.after_eq]
  rw [sel.fifo_eq] at mem
  rcases mem_append.mp mem with earlier | thrown
  · rcases mem_append.mp earlier with old | burnt
    · exact sel.stock.removed removed old
    · obtain ⟨id, named, rfl⟩ := mem_map.mp burnt
      obtain ⟨_, card, inHead, same⟩ := sel.admitted.present id (mem_append_right picked named)
      refine sel.removedOk_of same (.inl inHead) ?_
      have count := sel.admitted.burns
      have positive := length_pos_of_mem named
      simp only [removalEnabled, decide_eq_true_eq]
      omega
  · obtain ⟨id, named, rfl⟩ := mem_map.mp thrown
    obtain ⟨positive, card, same, origin⟩ := sel.parted.discarded_mem named
    exact sel.removedOk_of same origin (by simpa [removalEnabled] using positive)

theorem sum_steps : (fifo'.seats.map (·.roundCompletedSteps)).sum =
    (fifo.seats.map (·.roundCompletedSteps)).sum + 1 := by
  have set_ : (fifo'.seats.map (·.roundCompletedSteps)) = (fifo.seats.set seat { state with
        roundCompletedSteps := state.roundCompletedSteps + 1 }).map (·.roundCompletedSteps) := by
    rw [sel.fifo_eq]
    refine ext_getElem? fun i => ?_
    rw [getElem?_map, getElem?_map]
    cases there : (passedSeats fifo.seats seat state head
        (session.passDirection.nextSeat seat session.config.podSize) left)[i]? with
    | none =>
      rw [getElem?_eq_none_iff, length_passedSeats] at there
      rw [getElem?_eq_none_iff.mpr (by simpa using there)]
    | some s =>
      obtain ⟨before, was, counters, _⟩ := seat_passedSeats sel.admitted.seated there
      by_cases own : i = seat
      · subst own
        rw [if_pos rfl] at counters
        obtain rfl := some.inj (was.symm.trans sel.admitted.seated)
        rw [getElem?_set_self sel.bounds.1]
        simp [counters.2.1]
      · rw [if_neg own] at counters
        rw [getElem?_set_ne (Ne.symm own), was]
        simp [counters.2.1]
  obtain ⟨inside, here⟩ := List.getElem?_eq_some_iff.mp sel.admitted.seated
  have changed := Indexed.sum_map_set (fun s : FifoSeatState => s.roundCompletedSteps)
    inside { state with roundCompletedSteps := state.roundCompletedSteps + 1 }
  rw [here] at changed
  rw [set_]
  dsimp only at changed
  omega

theorem supplied_after :
    (fifo'.seats.map (·.roundCompletedSteps)).sum + (fifo'.seats.map queueSize).sum ≤
      supply packs (min after.currentPackNumber (after.config.packCount - 1)) := by
  have sizes := sel.sum_queues fun queued => queued.pack.length
  have shorter := sel.length_left
  have steps := sel.sum_steps
  have before := sel.stock.supplied
  have given : (if left = [] then 0 else left.length) = left.length := by
    split
    · next none_ => rw [none_, length_nil]
    · rfl
  rw [given] at sizes
  rw [sel.after_eq]
  change (fifo'.seats.map queueSize).sum + head.pack.length =
    (fifo.seats.map queueSize).sum + left.length at sizes
  dsimp only
  omega

theorem progress_after : ∀ index s pool, fifo'.seats[index]? = some s →
    after.pools[index]? = some pool → ProgressOk packs after index s pool := by
  intro index s pool atS atP
  rw [sel.fifo_eq] at atS
  rw [sel.after_eq] at atP ⊢
  obtain ⟨before, was, counters, _⟩ := seat_passedSeats sel.admitted.seated atS
  by_cases own : index = seat
  · subst own
    rw [if_pos rfl] at counters
    obtain ⟨completed, thisRound, _⟩ := counters
    rw [getElem?_set_self sel.bounds.2, some.injEq] at atP
    have progress := sel.stock.progress index before _ was (getElem?_eq_getElem sel.bounds.2)
    have keeps := sel.parted.returns.length
    rw [getD_eq_getElem _ _ sel.bounds.2] at keeps
    have takes : selected.length = picked.length := by
      rw [← sel.parted.picks.named, length_map]
    have bounds := sel.admitted.picks_bounds sel.headOk.nonempty
    unfold ProgressOk at progress ⊢
    rw [sel.passes] at progress
    dsimp only
    rw [sel.passes]
    rw [← atP, length_append, completed, Nat.succ_mul]
    omega
  · rw [if_neg own] at counters
    obtain ⟨completed, thisRound, _⟩ := counters
    rw [getElem?_set_ne (Ne.symm own)] at atP
    have progress := sel.stock.progress index before pool was atP
    unfold ProgressOk at progress ⊢
    rw [sel.passes] at progress
    rw [sel.passes]
    rw [completed, thisRound]
    exact progress

theorem stock_after : Stock packs after fifo' (session.currentPackNumber + 1) where
  conserved := sel.held.trans sel.stock.conserved
  futures := by
    rw [sel.after_eq]
    exact sel.stock.futures
  queuedCards := sel.queuedCards_after
  pooledCards := sel.pooledCards_after
  queued := sel.queued_after
  distinct := sel.distinct_after
  returned := sel.returned_after
  removed := sel.removed_after
  supplied := sel.supplied_after
  progress := sel.progress_after

end Selecting

end Phase.Draft
