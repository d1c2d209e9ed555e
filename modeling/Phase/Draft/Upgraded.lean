import Phase.Draft.Confluence
import Phase.Draft.FifoAccept
import Phase.Draft.Upgrade

/-! The upgraded session sits at the same table as the legacy session it was made from. -/
namespace Phase.Draft.Legacy
open Fallible List

variable {inventory : Inventory} {out fifo : FifoDraftState} {source session : DraftSession}
  {seat : Nat} {states : List FifoSeatState} {live : LivePacks} {context : LegacyUpgradeContext}
  {future : List DraftPack} {futures : List (List DraftPack)}

theorem takeInventory_nodup {cards : List DraftCardInstance} {out : Inventory}
    (taken : takeInventory cards inventory = .ok out) :
    (cards.map (·.instanceId)).Nodup ∧ ∀ card ∈ cards, inventory.lookup card.instanceId = none := by
  induction cards generalizing inventory with
  | nil => exact ⟨nodup_nil, by simp⟩
  | cons card cards ih =>
    simp only [takeInventory, ite_error_eq_ok, Bool.or_eq_true, not_or] at taken
    obtain ⟨⟨-, fresh⟩, rest⟩ := taken
    obtain ⟨nodup, absent⟩ := ih rest
    have here : inventory.lookup card.instanceId = none := by simpa using fresh
    have apart : ∀ other ∈ cards, other.instanceId ≠ card.instanceId := by
      intro other mem same
      have := absent other mem
      rw [same, AList.lookup_insert] at this
      cases this
    refine ⟨nodup_cons.mpr ⟨?_, nodup⟩, ?_⟩
    · intro mem
      obtain ⟨other, inside, same⟩ := mem_map.mp mem
      exact apart other inside same
    · intro other mem
      rcases mem_cons.mp mem with rfl | mem
      · exact here
      · have := absent other mem
        rwa [AList.lookup_insert_ne (apart other mem)] at this

/-- What recording the evidence leaves alone. -/
structure SameSeats (before after : FifoDraftState) : Prop where
  seats : after.seats = before.seats
  removed : after.removed = before.removed
  review : after.review = before.review

theorem recordCards_seats {packId : DraftPackId} {ids : List String}
    (recorded : recordCards inventory packId ids fifo = .ok out) : SameSeats fifo out := by
  induction ids generalizing fifo with
  | nil =>
    obtain rfl := Except.ok.inj recorded
    exact ⟨rfl, rfl, rfl⟩
  | cons id ids ih =>
    simp only [recordCards] at recorded
    split at recorded
    · cases recorded
    · rw [ite_error_eq_ok] at recorded
      obtain ⟨seats, removed, review⟩ := ih recorded.2
      exact ⟨seats, removed, review⟩

theorem recordProvenance_seats {packs : List DraftPackProvenance}
    (recorded : recordProvenance inventory packs fifo = .ok out) : SameSeats fifo out := by
  induction packs generalizing fifo with
  | nil =>
    obtain rfl := Except.ok.inj recorded
    exact ⟨rfl, rfl, rfl⟩
  | cons pack packs ih =>
    simp only [recordProvenance, bind_eq_ok, guard_eq_ok] at recorded
    obtain ⟨middle, cards, -, rest⟩ := recorded
    have first := recordCards_seats cards
    have later := ih rest
    exact ⟨later.seats.trans first.seats, later.removed.trans first.removed,
      later.review.trans first.review⟩

theorem recordProgress_queues {checked : Bool} {progress : List LegacySeatProgress}
    {out : List FifoSeatState}
    (recorded : recordProgress source inventory checked seat progress states = .ok out) :
    out.map (·.queue) = states.map (·.queue) := by
  induction states generalizing seat progress out with
  | nil =>
    cases progress <;>
    · obtain rfl := Except.ok.inj recorded
      rfl
  | cons state states ih =>
    cases progress with
    | nil =>
      obtain rfl := Except.ok.inj recorded
      rfl
    | cons evidence progress =>
      simp only [recordProgress, bind_eq_ok, pure_eq_ok] at recorded
      obtain ⟨-, -, -, -, rest, done, rfl⟩ := recorded
      simp [ih done]

theorem markReturned_seats {packId : DraftPackId} {pack : DraftPack}
    (marked : markReturned packId pack fifo = .ok out) : SameSeats fifo out := by
  induction pack generalizing fifo with
  | nil =>
    obtain rfl := Except.ok.inj marked
    exact ⟨rfl, rfl, rfl⟩
  | cons card cards ih =>
    simp only [markReturned] at marked
    split at marked
    · exact ih marked
    · rw [ite_error_eq_ok] at marked
      obtain ⟨seats, removed, review⟩ := ih marked.2
      exact ⟨seats, removed, review⟩

/-- The packs that come to wait at a seat, in order. -/
def waiting (entries : List (Nat × QueuedDraftPack)) (seat : Nat) : List DraftPack :=
  (entries.filter fun entry => entry.1 = seat).map (·.2.pack)

theorem waiting_append (left right : List (Nat × QueuedDraftPack)) (seat : Nat) :
    waiting (left ++ right) seat = waiting left seat ++ waiting right seat := by
  simp [waiting]

theorem waiting_cons (entry : Nat × QueuedDraftPack) (entries : List (Nat × QueuedDraftPack))
    (seat : Nat) : waiting (entry :: entries) seat =
      (if entry.1 = seat then [entry.2.pack] else []) ++ waiting entries seat := by
  by_cases here : entry.1 = seat <;> simp [waiting, here]

theorem foldl_enqueue (entries : List (Nat × QueuedDraftPack)) (states : List FifoSeatState)
    (seat : Nat) : (((entries.foldl enqueue states)[seat]?).map packQueue) =
      (states[seat]?).map fun state => packQueue state ++ waiting entries seat := by
  induction entries generalizing states with
  | nil => simp [waiting]
  | cons entry entries ih =>
    rw [foldl_cons, ih, enqueue, getElem?_modify, waiting_cons]
    by_cases here : entry.1 = seat
    · cases states[seat]? <;> simp [here, packQueue]
    · cases states[seat]? <;> simp [here]

/-- What a seat still has to pick from. -/
def unserved (source : DraftSession) (seat : Nat) : List DraftPack :=
  if picked source seat then [] else queued (heldPack source seat)

/-- What a seat hands on. -/
def handedOn (source : DraftSession) (seat : Nat) : List DraftPack :=
  if picked source seat then queued (heldPack source seat) else []

structure Collected (source : DraftSession) (seats : List Nat) (fifo out : FifoDraftState)
    (live : LivePacks) : Prop where
  same : SameSeats fifo out
  pending : ∀ seat, waiting live.pending seat =
    (seats.filter fun other => other = seat).flatMap (unserved source)
  passed : ∀ seat, waiting live.passed seat =
    (seats.filter fun giver =>
      source.passDirection.nextSeat giver source.config.podSize = seat).flatMap (handedOn source)
  places : ∀ entry ∈ live.pending ++ live.passed, entry.1 ∈ seats ∨
    ∃ giver ∈ seats, entry.1 = source.passDirection.nextSeat giver source.config.podSize
  cards : ((live.pending ++ live.passed).map fun entry => bag entry.2.pack).sum =
    (seats.map fun seat => bag (heldPack source seat)).sum

theorem flatMap_filter_cons {α β : Type} (p : α → Bool) (f : α → List β) (x : α) (xs : List α) :
    ((x :: xs).filter p).flatMap f = (if p x then f x else []) ++ (xs.filter p).flatMap f := by
  by_cases here : p x = true <;> simp [here]

theorem collectLive_spec {seats : List Nat}
    (collected : collectLive source seats fifo = .ok (out, live)) :
    Collected source seats fifo out live := by
  induction seats generalizing fifo out live with
  | nil =>
    obtain ⟨rfl, rfl⟩ := Prod.mk.inj (Except.ok.inj collected)
    exact ⟨⟨rfl, rfl, rfl⟩, by simp [waiting], by simp [waiting], by simp, rfl⟩
  | cons seat seats ih =>
    have moved (entry : Nat × QueuedDraftPack) : (entry.1 ∈ seats ∨ ∃ giver ∈ seats,
        entry.1 = source.passDirection.nextSeat giver source.config.podSize) →
        entry.1 ∈ seat :: seats ∨ ∃ giver ∈ seat :: seats,
          entry.1 = source.passDirection.nextSeat giver source.config.podSize := by
      rintro (mem | ⟨giver, mem, same⟩)
      · exact .inl (mem_cons_of_mem seat mem)
      · exact .inr ⟨giver, mem_cons_of_mem seat mem, same⟩
    simp only [collectLive] at collected
    split at collected
    · next empty =>
      obtain ⟨same, pending, passed, places, cards⟩ := ih collected
      refine ⟨same, fun other => ?_, fun other => ?_, fun entry mem => moved entry
        (places entry mem), ?_⟩
      · rw [pending, flatMap_filter_cons]
        simp [unserved, queued, empty]
      · rw [passed, flatMap_filter_cons]
        simp [handedOn, queued, empty]
      · rw [cards, map_cons, empty]
        simp [bag]
    · next some_ =>
      simp only [bind_eq_ok] at collected
      obtain ⟨packId, -, collected⟩ := collected
      split at collected
      · cases collected
      · next original _ =>
        simp only [bind_eq_ok, Prod.exists] at collected
        obtain ⟨marked, marking, later, rest, done, collected⟩ := collected
        obtain ⟨same, pending, passed, places, cards⟩ := ih done
        have first := markReturned_seats marking
        have whole : SameSeats fifo later := ⟨same.seats.trans first.seats,
          same.removed.trans first.removed, same.review.trans first.review⟩
        split at collected
        · next flag =>
          obtain ⟨rfl, rfl⟩ := Prod.mk.inj (Except.ok.inj collected)
          have flag : picked source seat = true := flag
          refine ⟨whole, fun other => ?_, fun other => ?_, ?_, ?_⟩
          · rw [pending, flatMap_filter_cons]
            simp [unserved, flag]
          · rw [waiting_cons, passed, flatMap_filter_cons]
            simp [handedOn, flag, queued, some_]
          · intro entry mem
            rcases mem_append.mp mem with before | after
            · exact moved entry (places entry (mem_append_left _ before))
            · rcases mem_cons.mp after with rfl | after
              · exact .inr ⟨seat, mem_cons_self, rfl⟩
              · exact moved entry (places entry (mem_append_right _ after))
          · simp only [map_append, map_cons, sum_append, sum_cons] at cards ⊢
            rw [← cards]
            abel
        · next flag =>
          obtain ⟨rfl, rfl⟩ := Prod.mk.inj (Except.ok.inj collected)
          have flag : picked source seat = false := Bool.eq_false_iff.mpr flag
          refine ⟨whole, fun other => ?_, fun other => ?_, ?_, ?_⟩
          · rw [waiting_cons, pending, flatMap_filter_cons]
            simp [unserved, flag, queued, some_]
          · rw [passed, flatMap_filter_cons]
            simp [handedOn, flag]
          · intro entry mem
            rcases mem_cons.mp mem with rfl | later
            · exact .inl mem_cons_self
            · exact moved entry (places entry later)
          · simp only [cons_append, map_cons, sum_cons] at cards ⊢
            rw [← cards]

theorem filter_eq_singleton {xs : List Nat} (nodup : xs.Nodup) {p : Nat → Bool} {x : Nat}
    (mem : x ∈ xs) (only : ∀ y ∈ xs, p y = true ↔ y = x) : xs.filter p = [x] := by
  have same : xs.filter p = xs.filter (· = x) :=
    filter_congr fun y inside => Bool.eq_iff_iff.mpr (by simpa using only y inside)
  rw [same, filter_eq, count_eq_one_of_mem nodup mem]
  rfl

/-- Queued seat by seat, the live packs are the queues of the table. -/
theorem Collected.queues (collected : Collected source (range source.config.podSize) fifo out live)
    (pod : source.config.podSize = source.seats.length) (bound : seat < source.seats.length) :
    waiting (live.pending ++ live.passed) seat = (barrierTable source).queues seat := by
  have positive : 0 < source.seats.length := by omega
  have range : ∀ {k : Nat}, k ∈ range source.config.podSize ↔ k < source.seats.length := by
    intro k
    rw [mem_range, pod]
  have self := filter_eq_singleton (@nodup_range source.config.podSize) (x := seat)
    (p := fun other => decide (other = seat)) (range.mpr bound) (by simp)
  have giver := filter_eq_singleton (@nodup_range source.config.podSize) (x := origin source seat)
    (p := fun giver => decide (source.passDirection.nextSeat giver source.config.podSize = seat))
    (range.mpr (origin_lt positive seat)) (by
      intro other inside
      rw [decide_eq_true_eq, pod, eq_comm, ← origin_eq_iff bound (range.mp inside), eq_comm])
  rw [waiting_append, collected.pending, collected.passed, self, giver]
  simp [barrierTable, bound, unserved, handedOn]

/-- A live session whose packs have been queued and prompted. -/
def draftingWith (carried : DraftSession) (fifo : FifoDraftState) (states : List FifoSeatState) :
    DraftSession :=
  { carried with status := .drafting, fifo := some { fifo with seats := states } }

theorem restoreClocks_off {pendingClock : Option DraftClockState} {seats : List Nat}
    {out : List FifoSeatState}
    (restored : restoreClocks source pendingClock .off seats states = .ok out) : out = states := by
  unfold restoreClocks at restored
  split at restored
  · exact (Except.ok.inj restored).symm
  · simp only [ne_eq, not_true_eq_false, if_false, ite_error_eq_ok] at restored
    exact (Except.ok.inj restored.2).symm

/-- The queues the upgrade builds, before anything is done with them. -/
structure Requeued (source : DraftSession) (context : LegacyUpgradeContext)
    (carried : DraftSession) (fifo out : FifoDraftState) (live : LivePacks)
    (states : List FifoSeatState) : Prop where
  collected : Collected source (range source.config.podSize) fifo out live
  reconciled : reconcileSeats carried.config.clockPolicy.pick out.sessionId context.nowMs 0
    ((live.pending ++ live.passed).foldl enqueue out.seats) = .ok states

theorem upgradeActive_ok {carried upgraded : DraftSession}
    (off : carried.config.clockPolicy.pick = .off)
    (done : upgradeActive source context carried fifo = .ok upgraded) :
    ∃ out live states, Requeued source context carried fifo out live states ∧
      (source.status = .paused ∧ upgraded = { carried with
          status := .paused
          fifo := some { out with
            seats := states.map (freezeClock context.nowMs), paused := context.paused } } ∨
        source.status ≠ .paused ∧ (∀ state ∈ states, state.queue = []) ∧
          (∃ deltas, finishFifoRound (draftingWith carried out states) context.nowMs =
            .ok (upgraded, deltas)) ∨
        source.status ≠ .paused ∧ (∃ state ∈ states, state.queue ≠ []) ∧
          upgraded = draftingWith carried out states) := by
  simp only [upgradeActive, guard_eq_ok, bind_eq_ok, Prod.exists] at done
  obtain ⟨-, out, live, collected, states, reconciled, restored, restoring, done⟩ := done
  rw [off] at restoring
  obtain rfl := restoreClocks_off restoring
  refine ⟨out, live, restored, ⟨collectLive_spec collected, reconciled⟩, ?_⟩
  by_cases paused : source.status = .paused
  · rw [if_pos paused, pure_eq_ok] at done
    exact .inl ⟨paused, done.symm⟩
  rw [if_neg paused] at done
  by_cases empty : restored.all (fun state => state.queue.isEmpty) = true
  · rw [if_pos empty] at done
    simp only [bind_eq_ok, Prod.exists, pure_eq_ok] at done
    obtain ⟨finished, deltas, ended, rfl⟩ := done
    refine .inr (.inl ⟨paused, ?_, deltas, ended⟩)
    simpa using empty
  · rw [if_neg empty, pure_eq_ok] at done
    refine .inr (.inr ⟨paused, ?_, done.symm⟩)
    simpa using empty

/-- What the upgrade of a session that has started went through. -/
structure StartedUpgrade (source : DraftSession) (context : LegacyUpgradeContext)
    (fresh upgraded : DraftSession) (packSizes : List Nat) (fifo : FifoDraftState)
    (active : Bool) : Prop where
  distinct : ((physicalCards source).map (·.instanceId)).Nodup
  queues : fifo.seats.map (·.queue) = replicate source.seats.length []
  removed : fifo.removed = []
  review : fifo.review = none
  activity : isActive source context.paused = .ok active
  emptied : active = false → ownsLivePacks source = false
  live : active = true →
    upgradeActive source context (carryOver source fresh packSizes) fifo = .ok upgraded
  ended : active = false → upgraded = { carryOver source fresh packSizes with
    currentPackNumber := source.config.packCount, fifo := some fifo }

theorem upgradeStarted_ok {upgraded : DraftSession} {config : DraftConfig}
    (done : upgradeStarted source context (lobbySession config source.seats context.sessionId) =
      .ok upgraded) :
    validatePersistedSnapshot upgraded = .ok () ∧ ∃ packSizes fifo active,
      StartedUpgrade source context (lobbySession config source.seats context.sessionId) upgraded
        packSizes fifo active := by
  simp only [upgradeStarted, bind_eq_ok] at done
  obtain ⟨inventory, taken, provenance, -, fresh, there, fifo, recorded, -, -, packSizes, -, -, -,
    -, -, active, activity, _, emptied, progress, -, -, -, seats, progressed, result, upgrading,
    _, valid, same⟩ := done
  obtain rfl := pure_eq_ok.mp same
  have blank := Except.ok.inj there
  have recorded := recordProvenance_seats recorded
  have queues := recordProgress_queues progressed
  refine ⟨valid, packSizes, { fifo with seats, lastNowMs := context.nowMs }, active, ?_⟩
  refine ⟨(takeInventory_nodup taken).1, ?_, ?_, ?_, activity, ?_, ?_, ?_⟩
  · rw [queues, recorded.seats, ← blank]
    simp
  · rw [recorded.removed, ← blank]
  · rw [recorded.review, ← blank]
  · intro idle
    simpa [refuseIf, idle] using emptied
  · intro running
    rwa [carryOn, if_pos running] at upgrading
  · intro idle
    rw [carryOn, if_neg (by simp [idle])] at upgrading
    exact (Except.ok.inj upgrading).symm

theorem catalogue_nonempty {places : List (Nat × Nat)} {catalog out : Finset String}
    (catalogued : catalogue session fifo places catalog = .ok out) {place : Nat × Nat}
    (mem : place ∈ places) : ∃ pack, fifo.packs.lookup
      (coordinate session.config.podSize place.1 place.2) = some pack ∧
        pack.originalCardIds ≠ [] := by
  induction places generalizing catalog with
  | nil => cases mem
  | cons first places ih =>
    simp only [catalogue, bind_eq_ok] at catalogued
    obtain ⟨middle, here, rest⟩ := catalogued
    rcases mem_cons.mp mem with rfl | later
    · simp only [cataloguePack] at here
      split at here
      · cases here
      · next pack found =>
        simp only [bind_eq_ok] at here
        obtain ⟨⟨⟩, sized, -⟩ := here
        refine ⟨pack, found, fun empty => ?_⟩
        rw [refuseIf_eq_ok] at sized
        simp only [empty, length_nil, Bool.or_eq_false_iff, decide_eq_false_iff_not,
          not_not] at sized
        omega
    · exact ih rest later

theorem validateFuture_listed {round : Nat} {owned out : Finset String}
    (checked : validateFuture session fifo seat round future owned = .ok out) {i : Nat}
    {pack : DraftPack} (found : future[i]? = some pack) :
    (fifo.packs.lookup (coordinate session.seats.length (round + i) seat)).map
      (·.originalCardIds) = some (pack.map (·.instanceId)) := by
  induction future generalizing round owned i with
  | nil => simp at found
  | cons first future ih =>
    simp only [validateFuture, bind_eq_ok] at checked
    obtain ⟨⟨⟩, listed, _, _, rest⟩ := checked
    rw [refuseIf_eq_ok] at listed
    cases i with
    | zero =>
      obtain rfl : first = pack := by simpa using found
      simpa using listed
    | succ i =>
      have later := ih rest (by simpa using found)
      rwa [Nat.add_assoc, Nat.add_comm 1 i] at later

theorem validateFutures_listed {unopened : Nat} {owned out : Finset String}
    (checked : validateFutures session fifo unopened seat futures owned = .ok out) {i : Nat}
    (found : futures[i]? = some future) :
    future.length = session.config.packCount - unopened ∧ ∀ j pack, future[j]? = some pack →
      (fifo.packs.lookup (coordinate session.seats.length (unopened + j) (seat + i))).map
        (·.originalCardIds) = some (pack.map (·.instanceId)) := by
  induction futures generalizing seat owned i with
  | nil => simp at found
  | cons first futures ih =>
    simp only [validateFutures, bind_eq_ok] at checked
    obtain ⟨⟨⟩, sized, _, here, rest⟩ := checked
    rw [refuseIf_eq_ok] at sized
    cases i with
    | zero =>
      obtain rfl : first = future := by simpa using found
      exact ⟨by simpa using sized, fun j pack at_ => validateFuture_listed here at_⟩
    | succ i =>
      have later := ih rest (by simpa using found)
      rwa [Nat.add_assoc, Nat.add_comm 1 i] at later

/-- What a live FIFO session that passes its check owes its boosters. -/
structure LiveChecked (session : DraftSession) (fifo : FifoDraftState) : Prop where
  lengths : ∀ length ∈ session.perSeatLengths fifo, length = session.seats.length
  direction : session.passDirection = PassDirection.forPack session.currentPackNumber
  inside : session.currentPackNumber < session.config.packCount
  supplied : ∀ future ∈ session.packsBySeat,
    future.length = session.config.packCount - (session.currentPackNumber + 1)
  unopened : ∀ future ∈ session.packsBySeat, ∀ pack ∈ future, pack ≠ []

theorem validateFifoSnapshot_live (there : session.fifo = some fifo)
    (drafting : session.status = .drafting)
    (passes : session.kind.procedure.distribution = .pickAndPass)
    (valid : validateFifoSnapshot session = .ok ()) : LiveChecked session fifo := by
  have notLobby : session.status ≠ .lobby := by rw [drafting]; decide
  simp only [validateFifoSnapshot, bind_eq_ok, fifoRef_ok, if_neg notLobby] at valid
  obtain ⟨⟨⟩, config, _, -, _, there', _, -, ⟨⟩, lengths, _, -, phase, live, _, -, started⟩ := valid
  obtain rfl := Option.some.inj (there.symm.trans there')
  simp only [DraftSession.livePhase, drafting, Except.ok.injEq] at live
  subst live
  simp only [validateStarted, bind_eq_ok] at started
  obtain ⟨_, -, catalog, catalogued, _, -, ⟨⟩, rounds, ⟨⟩, cards, -⟩ := started
  obtain ⟨-, pod, -⟩ := validateFifoConfig_ok config
  simp only [validateRounds, bind_eq_ok] at rounds
  obtain ⟨_, -, ⟨⟩, inside, _, -, rounds⟩ := rounds
  rw [refuseIf_eq_ok] at inside rounds lengths
  have inside : session.currentPackNumber < session.config.packCount := by simpa using inside
  simp only [validateCards, bind_eq_ok] at cards
  obtain ⟨owned, futures, -⟩ := cards
  have lengths : ∀ length ∈ session.perSeatLengths fifo, length = session.seats.length := by
    simpa using any_eq_false.mp lengths
  have unopened : nextUnopened session (some .drafting) = session.currentPackNumber + 1 := rfl
  rw [unopened] at futures
  have listed {future : List DraftPack} (mem : future ∈ session.packsBySeat) :=
    mem_iff_getElem?.mp mem
  refine ⟨lengths, ?_, inside, ?_, ?_⟩
  · rw [if_neg (Nat.ne_of_lt inside)] at rounds
    simpa [passes] using rounds
  · intro future mem
    obtain ⟨i, found⟩ := listed mem
    exact (validateFutures_listed futures found).1
  · rintro future mem pack member rfl
    obtain ⟨i, found⟩ := listed mem
    obtain ⟨j, at_⟩ := mem_iff_getElem?.mp member
    obtain ⟨size, ids⟩ := validateFutures_listed futures found
    have ids := ids j [] at_
    have seat : i < session.seats.length := by
      have := (List.getElem?_eq_some_iff.mp found).1
      rwa [lengths session.packsBySeat.length (by simp [DraftSession.perSeatLengths])] at this
    have round : session.currentPackNumber + 1 + j < session.config.packCount := by
      have := (List.getElem?_eq_some_iff.mp at_).1
      omega
    have place : (session.currentPackNumber + 1 + j, i) ∈ coordinates session := by
      simp only [coordinates, mem_flatMap, mem_map, mem_range]
      exact ⟨_, round, i, by omega, rfl⟩
    obtain ⟨original, lookup, nonempty⟩ := catalogue_nonempty catalogued place
    rw [pod] at lookup
    rw [Nat.zero_add, lookup] at ids
    exact nonempty (by simpa using ids)

def queueCards (state : FifoSeatState) : Multiset DraftCardInstance :=
  (state.queue.map fun queued => bag queued.pack).sum

/-- The cards of a FIFO session that has removed none: unopened, queued or picked. -/
def fifoCards (session : DraftSession) (fifo : FifoDraftState) : Multiset DraftCardInstance :=
  (session.packsBySeat.map futureCards).sum + (fifo.seats.map queueCards).sum + poolCards session

theorem sum_queueCards {before after : List FifoSeatState}
    (same : after.map (·.queue) = before.map (·.queue)) :
    (after.map queueCards).sum = (before.map queueCards).sum := by
  have through (states : List FifoSeatState) : states.map queueCards =
      (states.map (·.queue)).map fun queue => (queue.map fun queued => bag queued.pack).sum := by
    rw [map_map]
    rfl
  rw [through, same, ← through]

theorem sum_queueCards_empty (empty : ∀ state ∈ states, state.queue = []) :
    (states.map queueCards).sum = 0 := by
  refine sum_eq_zero fun cards mem => ?_
  obtain ⟨state, inside, rfl⟩ := mem_map.mp mem
  simp [queueCards, empty state inside]

theorem foldl_enqueue_cards {entries : List (Nat × QueuedDraftPack)}
    (places : ∀ entry ∈ entries, entry.1 < states.length) :
    ((entries.foldl enqueue states).map queueCards).sum =
      (states.map queueCards).sum + (entries.map fun entry => bag entry.2.pack).sum := by
  induction entries generalizing states with
  | nil => simp
  | cons entry entries ih =>
    have bound := places entry mem_cons_self
    have bounds : ∀ other ∈ entries, other.1 < (enqueue states entry).length := by
      intro other mem
      rw [enqueue, length_modify]
      exact places other (mem_cons_of_mem entry mem)
    have rest := ih bounds
    have one : ((enqueue states entry).map queueCards).sum =
        (states.map queueCards).sum + bag entry.2.pack := by
      have step := Indexed.sum_map_modify queueCards
        (fun state : FifoSeatState => { state with queue := state.queue ++ [entry.2] }) bound
      have pushed : queueCards { states[entry.1] with
          queue := states[entry.1].queue ++ [entry.2] } =
            queueCards states[entry.1] + bag entry.2.pack := by
        simp [queueCards]
      rw [pushed, ← add_assoc, add_right_comm] at step
      exact add_right_cancel step
    rw [foldl_cons, rest, one, map_cons, sum_cons, add_assoc]

theorem openSeats_cards {podSize round index : Nat}
    {packs : AList fun _ : DraftPackId => DraftPackProvenance} {futures' : List (List DraftPack)}
    {states' : List FifoSeatState}
    (opened : openSeats podSize round packs index futures states = .ok (futures', states')) :
    (futures'.map futureCards).sum + (states'.map queueCards).sum =
      (futures.map futureCards).sum + (states.map queueCards).sum := by
  induction futures generalizing index states futures' states' with
  | nil =>
    obtain ⟨rfl, rfl⟩ := opened
    rfl
  | cons future futures ih =>
    cases states with
    | nil =>
      obtain ⟨rfl, rfl⟩ := opened
      rfl
    | cons state states =>
      simp only [openSeats, bind_eq_ok, pure_eq_ok, Prod.exists, Prod.mk.injEq] at opened
      obtain ⟨rest, state', first, futures'', states'', others, rfl, rfl⟩ := opened
      obtain ⟨pack, original, rfl, -, rfl⟩ := openSeat_ok first
      have later := ih others
      have moved : futureCards rest + queueCards { state with
          roundCompletedSteps := 0
          queue := state.queue ++ [⟨coordinate podSize round index, original.openingSeat, round,
            original.originalSize, pack⟩] } =
          futureCards (pack :: rest) + queueCards state := by
        simp only [futureCards, queueCards, map_append, sum_append, map_cons, map_nil, sum_cons,
          sum_nil, flatten_cons, bag, ← Multiset.coe_add, add_zero]
        abel
      simp only [map_cons, sum_cons]
      rw [add_add_add_comm, moved, later, add_add_add_comm]

theorem finishFifoRound_cards {next : DraftSession} {now : Nat} {deltas : List DraftDelta}
    (there : session.fifo = some fifo) (removed : fifo.removed = [])
    (done : finishFifoRound session now = .ok (next, deltas)) :
    ∃ fifo', next.fifo = some fifo' ∧ next.config = session.config ∧
      next.pools = session.pools ∧ fifo'.removed = [] ∧
      fifoCards next fifo' = fifoCards session fifo := by
  obtain ⟨_, states, there', reconciled, outcome⟩ := finishFifoRound_ok done
  obtain rfl : fifo = _ := Option.some.inj (there.symm.trans there')
  have same := sum_queueCards (reconcileSeats_queues reconciled)
  rcases outcome with ⟨-, rfl⟩ | ⟨-, -, rfl⟩ | ⟨-, -, -, opened⟩ | ⟨-, -, -, clock, -, rfl⟩
  · exact ⟨_, rfl, rfl, rfl, removed, by simp only [fifoCards, poolCards, same]⟩
  · exact ⟨_, rfl, rfl, rfl, removed, by simp only [fifoCards, poolCards, same]⟩
  · obtain ⟨_, futures, dealt, states', there'', opening, reconciled', rfl⟩ :=
      openFifoRound_ok opened
    obtain rfl := Option.some.inj there''
    refine ⟨_, rfl, rfl, rfl, removed, ?_⟩
    have later := sum_queueCards (reconcileSeats_queues reconciled')
    simp only [fifoCards, poolCards]
    rw [later, openSeats_cards opening, same]
  · exact ⟨_, rfl, rfl, rfl, removed, by simp only [fifoCards, poolCards, same]⟩

/-- The queues hold what was in front of the seats. -/
theorem Requeued.cards {carried : DraftSession}
    (requeued : Requeued source context carried fifo out live states)
    (pod : source.config.podSize = source.seats.length)
    (packs : source.currentPack.length = source.seats.length)
    (blank : fifo.seats.map (·.queue) = replicate source.seats.length []) :
    (states.map queueCards).sum = (source.currentPack.map heldCards).sum := by
  have collected := requeued.collected
  have count : out.seats.length = source.seats.length := by
    rw [collected.same.seats, ← length_map (f := (·.queue)), blank, length_replicate]
  have none_ : (out.seats.map queueCards).sum = 0 := by
    refine sum_queueCards_empty fun state mem => ?_
    rw [collected.same.seats] at mem
    have := mem_map_of_mem (f := (·.queue)) mem
    rw [blank] at this
    exact eq_of_mem_replicate this
  have places : ∀ entry ∈ live.pending ++ live.passed, entry.1 < out.seats.length := by
    intro entry mem
    rw [count]
    rcases collected.places entry mem with own | ⟨giver, inside, same⟩
    · rwa [mem_range, pod] at own
    · rw [same, pod]
      rw [mem_range] at inside
      exact nextSeat_lt _ _ (by omega)
  have held : (range source.config.podSize).map (fun seat => bag (heldPack source seat)) =
      source.currentPack.map heldCards := by
    refine ext_getElem (by simp [pod, packs]) fun seat _ inside => ?_
    rw [length_map] at inside
    simp [heldPack, heldCards, getElem?_eq_getElem inside]
  rw [sum_queueCards (reconcileSeats_queues requeued.reconciled), foldl_enqueue_cards places,
    none_, zero_add, collected.cards, held]

end Phase.Draft.Legacy
