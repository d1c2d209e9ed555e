import Phase.Draft.Upgraded

/-! Whatever the seats choose, a draft that was upgraded half-way ends as it would have ended
under the barrier. -/
namespace Phase.Draft.Legacy
open Fallible List

/-- The bitmaps an old save may lack, filled in the way a pick fills them in. -/
def padded (source : DraftSession) : DraftSession :=
  { source with
    seatsPickedThisRound := ensureLen source.seatsPickedThisRound source.seats.length false
    connectedSeats := ensureLen source.connectedSeats source.seats.length true }

theorem ensureLen_ensureLen {α : Type} (xs : List α) (len : Nat) (default : α) :
    ensureLen (ensureLen xs len default) len default = ensureLen xs len default := by
  have filled : len - (ensureLen xs len default).length = 0 := by
    simp only [ensureLen, length_append, length_replicate]
    omega
  rw [ensureLen, filled, replicate_zero, append_nil]

theorem length_ensureLen {α : Type} {xs : List α} {len : Nat} (default : α)
    (optional : xs.length = 0 ∨ xs.length = len) : (ensureLen xs len default).length = len := by
  rw [ensureLen, length_append, length_replicate]
  omega

theorem getD_ensureLen_false (xs : List Bool) (len k : Nat) :
    (ensureLen xs len false).getD k false = xs.getD k false := by
  simp only [ensureLen, getD_eq_getElem?_getD, getElem?_append, getElem?_replicate]
  split
  · rfl
  · next outside =>
    rw [getElem?_eq_none (Nat.le_of_not_lt outside)]
    split <;> rfl

theorem admitPick_padded (source : DraftSession) (seat : Nat) (action : String) :
    Draft.admitPick (padded source) seat action = Draft.admitPick source seat action := by
  simp only [Draft.admitPick, padded, ensureLen_ensureLen]

theorem applyPick_padded (source : DraftSession) (seat : Nat) (ids : List String) :
    Draft.applyPick (padded source) seat ids = Draft.applyPick source seat ids := by
  unfold Draft.applyPick
  rw [admitPick_padded]
  rfl

variable {source final : DraftSession}
  {choose : Nat → DraftPack → List DraftCardInstance → List String}

theorem schedule_padded (schedule : BarrierSchedule choose source final) :
    final = source ∨ BarrierSchedule choose (padded source) final := by
  induction schedule with
  | start => exact .inl rfl
  | pick _ front applied ih =>
    rcases ih with rfl | before
    · rw [← applyPick_padded] at applied
      exact .inr (.pick .start front applied)
    · exact .inr (.pick before front applied)

theorem picked_padded (source : DraftSession) (seat : Nat) :
    picked (padded source) seat = picked source seat :=
  getD_ensureLen_false source.seatsPickedThisRound source.seats.length seat

theorem barrierTable_padded (source : DraftSession) :
    barrierTable (padded source) = barrierTable source := by
  simp only [barrierTable, picked_padded]
  rfl

variable {session : DraftSession}

theorem admitPick_admits {next : DraftSession} {seat : Nat} {action : String}
    (admitted : Draft.admitPick session seat action = .ok next) :
    next = padded session ∧ session.status = .drafting ∧ seat < session.seats.length ∧
      picked session seat = false := by
  unfold Draft.admitPick at admitted
  rw [ite_error_eq_ok, ite_error_eq_ok, ite_error_eq_ok] at admitted
  obtain ⟨drafting, bound, fresh, same⟩ := admitted
  refine ⟨(Except.ok.inj same).symm, not_not.mp drafting, by omega, ?_⟩
  rw [← picked_padded]
  exact Bool.eq_false_iff.mpr fresh

theorem applyPick_admits {next : DraftSession} {seat : Nat} {ids : List String}
    {deltas : List DraftDelta} (applied : Draft.applyPick session seat ids = .ok (next, deltas)) :
    session.status = .drafting ∧ seat < session.seats.length ∧
      owesPick session seat = true ∧ picked session seat = false := by
  simp only [Draft.applyPick, bind_eq_ok] at applied
  obtain ⟨-, -, admitted, admission, applied⟩ := applied
  obtain ⟨rfl, drafting, bound, fresh⟩ := admitPick_admits admission
  rw [ite_error_eq_ok] at applied
  refine ⟨drafting, bound, ?_, fresh⟩
  simpa [owesPick, padded, heldPack] using applied.1

/-- A schedule goes nowhere when no seat may pick. -/
theorem schedule_stuck (schedule : BarrierSchedule choose source final)
    (stuck : source.status = .drafting → ∀ seat < source.seats.length,
      owesPick source seat = true → picked source seat = true) : final = source := by
  induction schedule with
  | start => rfl
  | pick _ _ applied ih =>
    subst ih
    obtain ⟨drafting, bound, owes, fresh⟩ := applyPick_admits applied
    rw [stuck drafting _ bound owes] at fresh
    cases fresh

theorem fifo_schedule_stuck {rules : EventRules} {start : DraftSession}
    (schedule : FifoSchedule rules choose start final) (flow : start.config.flow = .fifoAsync)
    (stopped : start.status ≠ .drafting) : final = start := by
  induction schedule with
  | start => rfl
  | @select _ _ seat _ _ _ _ _ _ _ applied ih =>
    subst ih
    obtain ⟨fifo, candidate, there, _, reduced, _⟩ := applyAt_ok applied
    obtain ⟨_, _, _, _, admitted, _, _⟩ := selectFifo_ok (by exact flow) reduced
    exact absurd admitted.drafting stopped

section
variable {source carried : DraftSession} {context : LegacyUpgradeContext}
  {fifo out : FifoDraftState} {live : LivePacks} {states : List FifoSeatState}

/-- The packs queued at a seat are those the barrier has it wait for. -/
theorem Requeued.table (requeued : Requeued source context carried fifo out live states)
    (pod : source.config.podSize = source.seats.length)
    (blank : fifo.seats.map (·.queue) = replicate source.seats.length []) (seat : Nat) :
    ((states[seat]?).map packQueue).getD [] = (barrierTable source).queues seat := by
  have collected := requeued.collected
  have queues : out.seats.map (·.queue) = replicate source.seats.length [] := by
    rw [collected.same.seats, blank]
  have before : (out.seats[seat]?).map packQueue =
      if seat < source.seats.length then some [] else none := by
    have at_ := congrArg (fun q => (q[seat]?).map (map (·.pack))) queues
    simp only [getElem?_map, Option.map_map, getElem?_replicate] at at_
    rw [show packQueue = (map (·.pack)) ∘ (·.queue) from rfl, at_]
    split <;> rfl
  rw [queues_reconciled requeued.reconciled, foldl_enqueue]
  by_cases bound : seat < source.seats.length
  · rw [if_pos bound] at before
    rw [← collected.queues pod bound]
    cases found : out.seats[seat]? with
    | none => rw [found] at before; cases before
    | some state =>
      rw [found] at before
      rw [Option.map_some, Option.getD_some, Option.some.inj before, nil_append]
  · rw [if_neg bound, Option.map_eq_none_iff] at before
    simp [before, barrierTable, bound]

theorem nodup_held (distinct : ((physicalCards source).map (·.instanceId)).Nodup) (seat : Nat) :
    ((heldPack source seat).map (·.instanceId)).Nodup := by
  cases found : source.currentPack[seat]? with
  | none => simp [heldPack, found]
  | some held =>
    have mem : held.getD [] ∈ source.currentPack.map fun held => held.getD [] :=
      mem_map_of_mem (mem_of_getElem? found)
    have part : Sublist (held.getD []) (physicalCards source) :=
      ((sublist_flatten_of_mem mem).trans (sublist_append_right _ _)).trans
        (sublist_append_left _ _)
    have same : heldPack source seat = held.getD [] := by simp [heldPack, found]
    rw [same]
    exact (part.map _).nodup distinct

theorem nodup_future (distinct : ((physicalCards source).map (·.instanceId)).Nodup)
    {future : List DraftPack} (mem : future ∈ source.packsBySeat) {pack : DraftPack}
    (inside : pack ∈ future) : (pack.map (·.instanceId)).Nodup := by
  have part : Sublist pack (physicalCards source) :=
    ((sublist_flatten_of_mem (mem_flatten_of_mem mem inside)).trans
      (sublist_append_left _ _)).trans (sublist_append_left _ _)
  exact (part.map _).nodup distinct

theorem mem_barrierTable_queues {seat : Nat} {pack : DraftPack}
    (mem : pack ∈ (barrierTable source).queues seat) : ∃ giver, pack = heldPack source giver := by
  have only {giver : Nat} (inside : pack ∈ queued (heldPack source giver)) :
      pack = heldPack source giver := by
    unfold queued at inside
    split at inside
    · cases inside
    · exact mem_singleton.mp inside
  simp only [barrierTable] at mem
  split at mem
  · rcases mem_append.mp mem with own | given
    · split at own
      · cases own
      · exact ⟨seat, only own⟩
    · split at given
      · exact ⟨origin source seat, only given⟩
      · cases given
  · cases mem

end

/-- A legacy session the upgrade takes on. -/
structure Upgradable (source : DraftSession) : Prop where
  admitted : validateLegacyAdmission source = .ok ()
  kind : source.kind = source.config.kind
  seated : 0 < source.seats.length
  pod : source.config.podSize = source.seats.length
  packs : source.currentPack.length = source.seats.length
  futures : source.packsBySeat.length = source.seats.length
  pools : source.pools.length = source.seats.length
  flags : source.seatsPickedThisRound.length = 0 ∨
    source.seatsPickedThisRound.length = source.seats.length
  connected : source.connectedSeats.length = 0 ∨
    source.connectedSeats.length = source.seats.length

/-- The configuration the upgraded session runs under. -/
def fifoConfig (source : DraftSession) (context : LegacyUpgradeContext) : DraftConfig :=
  { source.config with flow := .fifoAsync, clockPolicy := context.clockPolicy }

def freshSession (source : DraftSession) (context : LegacyUpgradeContext) : DraftSession :=
  lobbySession (fifoConfig source context) source.seats context.sessionId

theorem optional_length {length count : Nat}
    (fits : (length ≠ 0 && length ≠ count) = false) : length = 0 ∨ length = count := by
  rcases (Bool.and_eq_false_iff.mp fits) with empty | full
  · exact .inl (by simpa using empty)
  · exact .inr (by simpa using full)

variable {context : LegacyUpgradeContext}

theorem upgradeLegacySnapshot_ok {source result : LegacySession}
    (legacy : source.config.flow = .legacyBarrier)
    (done : upgradeLegacySnapshot source context = .ok result) :
    Upgradable source.toDraftSession ∧
      upgradeFresh source.toDraftSession context (freshSession source.toDraftSession context) =
        .ok result.toDraftSession := by
  have notFifo : source.toDraftSession.config.flow ≠ .fifoAsync := by
    rw [legacy]
    exact DraftFlow.noConfusion
  simp only [upgradeLegacySnapshot, bind_eq_ok, if_neg notFifo, guard_eq_ok, pure_eq_ok] at done
  obtain ⟨⟨⟩, persisted, ⟨⟩, config, _, -, -, -, ⟨⟩, sized, fresh, created, upgraded, upgrading,
    same⟩ := done
  rw [validatePersistedSnapshot, show source.toDraftSession.config.flow = .legacyBarrier from legacy]
    at persisted
  simp only [bind_eq_ok, guard_eq_ok, not_not] at persisted
  obtain ⟨⟨⟩, admitted, kind, -⟩ := persisted
  obtain ⟨seated, pod, -⟩ := validateFifoConfig_ok config
  obtain ⟨-, -, -, rfl, -⟩ := newFifo_ok created
  rw [refuseIf_eq_ok] at sized
  simp only [wrongDimensions, Bool.or_eq_false_iff, any_cons, any_nil, Bool.or_false,
    decide_eq_false_iff_not, not_not] at sized
  obtain ⟨⟨⟨⟨pools, packs, futures⟩, -⟩, connected⟩, flags⟩ := sized
  refine ⟨⟨admitted, kind, seated, pod, packs, futures, pools, optional_length flags,
    optional_length connected⟩, ?_⟩
  rw [← same]
  exact upgrading

theorem Upgradable.policy (upgradable : Upgradable source) :
    source.config.selectionPolicy = {} := by
  have admitted := upgradable.admitted
  rw [validateLegacyAdmission, ite_error_eq_ok] at admitted
  simp only [not_or, not_not] at admitted
  exact admitted.1.2.2.2.1

section
variable {source : DraftSession} {context : LegacyUpgradeContext} {packSizes : List Nat}
  {fifo out : FifoDraftState} {live : LivePacks} {states : List FifoSeatState}

/-- The upgraded session of a draft that goes on. -/
def keptSession (source : DraftSession) (context : LegacyUpgradeContext) (packSizes : List Nat)
    (out : FifoDraftState) (states : List FifoSeatState) : DraftSession :=
  draftingWith (carryOver source (freshSession source context) packSizes) out states

theorem kept_seated (upgradable : Upgradable source) (clocks : context.clockPolicy = {})
    (distinct : ((physicalCards source).map (·.instanceId)).Nodup)
    (blank : fifo.seats.map (·.queue) = replicate source.seats.length [])
    (requeued : Requeued source context (carryOver source (freshSession source context) packSizes)
      fifo out live states)
    (checked : LiveChecked (keptSession source context packSizes out states)
      { out with seats := states }) :
    FifoSeated (keptSession source context packSizes out states) { out with seats := states } ∧
      fifoTable (keptSession source context packSizes out states) { out with seats := states } =
        barrierTable source := by
  have queues := requeued.table upgradable.pod blank
  refine ⟨⟨⟨rfl, rfl, upgradable.pod, ?_, upgradable.pools, upgradable.futures, upgradable.policy,
    ?_, ?_, fun future mem pack inside => nodup_future distinct mem inside⟩,
    .inl ⟨rfl, checked.direction⟩⟩, Table.ext (funext queues) rfl rfl rfl⟩
  · exact checked.lengths _ mem_cons_self
  · show context.clockPolicy.reviewDurationMs = 0
    rw [clocks]
  · intro state mem queued inside
    obtain ⟨i, found⟩ := mem_iff_getElem?.mp mem
    have here := queues i
    rw [show states[i]? = some state from found, Option.map_some, Option.getD_some] at here
    have packed : queued.pack ∈ packQueue state := mem_map_of_mem inside
    rw [here] at packed
    obtain ⟨giver, same⟩ := mem_barrierTable_queues packed
    rw [same]
    exact nodup_held distinct giver

theorem padded_seated (upgradable : Upgradable source) (drafting : source.status = .drafting)
    (distinct : ((physicalCards source).map (·.instanceId)).Nodup)
    (checked : LiveChecked (keptSession source context packSizes out states)
      { out with seats := states })
    (waits : ∃ seat < source.seats.length, owesPick source seat = true ∧
      picked source seat = false) : BarrierSeated (padded source) := by
  obtain ⟨seat, bound, owes, fresh⟩ := waits
  refine ⟨⟨upgradable.admitted, upgradable.seated, upgradable.packs, upgradable.futures,
    upgradable.pools, length_ensureLen _ upgradable.flags, length_ensureLen _ upgradable.connected,
    checked.unopened⟩, .inl ⟨drafting, ?_, seat, bound, owes, ?_⟩, fun _ => checked.direction,
    fun giver _ => nodup_held distinct giver, fun future mem pack => nodup_future distinct mem⟩
  · intro future mem
    have supplied := checked.supplied future mem
    have inside := checked.inside
    change future.length = source.config.packCount - (source.currentPackNumber + 1) at supplied
    change source.currentPackNumber < source.config.packCount at inside
    show future.length + source.currentPackNumber + 1 = source.config.packCount
    omega
  · rw [picked_padded, fresh]

/-- The live draft and its upgrade are two ways to play the same table. -/
theorem kept_agrees {rules : EventRules}
    {choose : Nat → DraftPack → List DraftCardInstance → List String}
    {final legacyFinal : DraftSession} {start : FifoDraftState}
    (seated : FifoSeated (keptSession source context packSizes out states) start)
    (legacySeated : BarrierSeated (padded source))
    (table : fifoTable (keptSession source context packSizes out states) start =
      barrierTable source) (pod : source.config.podSize = source.seats.length)
    (schedule : FifoSchedule rules choose (keptSession source context packSizes out states) final)
    (done : final.status ≠ .drafting)
    (legacySchedule : BarrierSchedule choose (padded source) legacyFinal)
    (legacyDone : legacyFinal.status ≠ .drafting) : final.pools = legacyFinal.pools := by
  obtain ⟨fifo', n, seatedEnd, config, run⟩ := schedule.runs seated
  obtain ⟨m, legacyEnd, _, legacySeats, legacyRun⟩ := legacySchedule.runs legacySeated
  have ended : Schedule.Ended (Table.step (draftRules source.config.podSize
      source.config.packCount choose)) (fifoTable final fifo') := by
    refine Table.ended_of_drained ((drained_iff ?_).mpr ?_)
    · rw [seatedEnd.states, ← seatedEnd.pod, config]
      rfl
    · rcases seatedEnd.phase with ⟨drafting, _⟩ | ⟨_, empty⟩
      · exact absurd drafting done
      · exact empty
  have legacyOver : legacyFinal.status = .deckbuilding := by
    rcases legacyEnd.phase with ⟨drafting, _⟩ | ⟨ended, _⟩
    · exact absurd drafting legacyDone
    · exact ended
  rw [barrierTable_padded, ← table] at legacyRun
  change Schedule.Runs (Table.step (draftRules source.seats.length source.config.packCount
    choose)) _ m _ at legacyRun
  rw [← pod] at legacyRun
  obtain ⟨same, _⟩ := run.end_unique Table.step_commutes ended legacyRun
    (Table.ended_of_drained (drained_of_deckbuilding legacyEnd legacyOver))
  refine pools_eq ?_ fun k => congrFun (congrArg Table.pools same) k
  rw [seatedEnd.pools, legacyEnd.shape.pools, legacySeats, ← seatedEnd.pod, config]
  exact pod

end

/-- What an upgraded session keeps: its pools, all its cards, and the pools it will end with. -/
structure Preserved (source upgraded : DraftSession) : Prop where
  flow : upgraded.config.flow = .fifoAsync
  pools : upgraded.pools = source.pools
  cards : ∃ fifo, upgraded.fifo = some fifo ∧ fifo.removed = [] ∧
    fifoCards upgraded fifo = allCards source
  completions : ∀ (rules : EventRules)
    (choose : Nat → DraftPack → List DraftCardInstance → List String)
    (final legacyFinal : DraftSession), FifoSchedule rules choose upgraded final →
      final.status ≠ .drafting → BarrierSchedule choose source legacyFinal →
      legacyFinal.status ≠ .drafting → final.pools = legacyFinal.pools

/-- A session that is not drafting picks no more, before or after the upgrade. -/
theorem completions_of_stopped {upgraded : DraftSession} (flow : upgraded.config.flow = .fifoAsync)
    (pools : upgraded.pools = source.pools) (stopped : source.status ≠ .drafting)
    (still : upgraded.status ≠ .drafting) (rules : EventRules)
    (choose : Nat → DraftPack → List DraftCardInstance → List String)
    (final legacyFinal : DraftSession) (schedule : FifoSchedule rules choose upgraded final)
    (_ : final.status ≠ .drafting) (legacySchedule : BarrierSchedule choose source legacyFinal)
    (_ : legacyFinal.status ≠ .drafting) : final.pools = legacyFinal.pools := by
  rw [fifo_schedule_stuck schedule flow still,
    schedule_stuck legacySchedule fun drafting => absurd drafting stopped, pools]

theorem sum_futureCards_empty {futures : List (List DraftPack)}
    (empty : ∀ future ∈ futures, future = []) : (futures.map futureCards).sum = 0 := by
  refine sum_eq_zero fun cards mem => ?_
  obtain ⟨future, inside, rfl⟩ := mem_map.mp mem
  simp [futureCards, bag, empty future inside]

theorem sum_bag_empty {pools : List (List DraftCardInstance)}
    (empty : ∀ pool ∈ pools, pool = []) : (pools.map bag).sum = 0 := by
  refine sum_eq_zero fun cards mem => ?_
  obtain ⟨pool, inside, rfl⟩ := mem_map.mp mem
  simp [bag, empty pool inside]

theorem fifoCards_fresh {fifo : FifoDraftState} {count : Nat}
    (futures : session.packsBySeat = replicate count [])
    (states : fifo.seats = replicate count {})
    (pools : session.pools = replicate count []) : fifoCards session fifo = 0 := by
  rw [fifoCards, poolCards, futures, states, pools,
    sum_futureCards_empty fun future mem => eq_of_mem_replicate mem,
    sum_queueCards_empty fun state mem => by rw [eq_of_mem_replicate mem],
    sum_bag_empty fun pool mem => eq_of_mem_replicate mem]
  rfl

theorem upgradeLobby_preserves {upgraded : DraftSession} (upgradable : Upgradable source)
    (lobby : source.status = .lobby)
    (done : upgradeLobby source context (freshSession source context) = .ok upgraded) :
    Preserved source upgraded ∧ validatePersistedSnapshot upgraded = .ok () := by
  simp only [upgradeLobby, bind_eq_ok] at done
  obtain ⟨⟨⟩, blank, fifo, there, ⟨⟩, valid, same⟩ := done
  obtain rfl := pure_eq_ok.mp same
  obtain rfl := Except.ok.inj there
  rw [refuseIf_eq_ok] at blank
  simp only [Bool.or_eq_false_iff, any_eq_false, Bool.not_eq_true', Bool.not_eq_false] at blank
  obtain ⟨⟨⟨⟨⟨pools, packs⟩, futures⟩, -⟩, -⟩, -⟩ := blank
  have pools : ∀ pool ∈ source.pools, pool = [] := fun pool mem => by simpa using pools pool mem
  have futures : ∀ future ∈ source.packsBySeat, future = [] :=
    fun future mem => by simpa using futures future mem
  have none_ : source.pools = replicate source.seats.length [] :=
    eq_replicate_iff.mpr ⟨upgradable.pools, pools⟩
  refine ⟨⟨rfl, none_.symm, ⟨_, rfl, rfl, ?_⟩, ?_⟩, valid⟩
  · have held : ∀ pack ∈ source.currentPack, pack.getD [] = [] := by
      intro pack mem
      have := packs pack mem
      cases pack with
      | none => rfl
      | some cards => simp at this
    rw [allCards, packCards, poolCards, sum_heldCards_eq_zero.mpr held,
      sum_futureCards_empty futures, sum_bag_empty pools]
    exact fifoCards_fresh rfl rfl rfl
  · refine completions_of_stopped rfl none_.symm ?_ DraftStatus.noConfusion
    rw [lobby]
    exact DraftStatus.noConfusion

section
variable {source upgraded : DraftSession} {context : LegacyUpgradeContext}
  {packSizes : List Nat} {fifo : FifoDraftState} {active : Bool}

theorem upgradeOver_preserves
    (started : StartedUpgrade source context (freshSession source context) upgraded packSizes fifo
      active) (idle : active = false) : Preserved source upgraded := by
  obtain rfl := started.ended idle
  have stopped : source.status ≠ .drafting := by
    intro drafting
    have activity := started.activity
    rw [isActive, drafting, idle] at activity
    cases activity
  have owned := started.emptied idle
  simp only [ownsLivePacks, Bool.or_eq_false_iff, any_eq_false, Bool.not_eq_true',
    Bool.not_eq_false] at owned
  have blank : ∀ state ∈ fifo.seats, state.queue = [] := by
    intro state mem
    have := mem_map_of_mem (f := (·.queue)) mem
    rw [started.queues] at this
    exact eq_of_mem_replicate this
  have held : ∀ pack ∈ source.currentPack, pack.getD [] = [] :=
    fun pack mem => by simpa using owned.1 pack mem
  refine ⟨rfl, rfl, ⟨fifo, rfl, started.removed, ?_⟩,
    completions_of_stopped rfl rfl stopped stopped⟩
  rw [fifoCards, sum_queueCards_empty blank, allCards, packCards,
    sum_heldCards_eq_zero.mpr held, add_zero, zero_add]
  rfl

section
variable {carried : DraftSession} {out : FifoDraftState} {live : LivePacks}
  {states : List FifoSeatState} (requeued : Requeued source context carried fifo out live states)
  (upgradable : Upgradable source)
  (blank : fifo.seats.map (·.queue) = replicate source.seats.length [])
include requeued upgradable blank

/-- The cards, while the packs are queued as they were held. -/
theorem Requeued.conserved {session : DraftSession} {held : FifoDraftState}
    (futures : session.packsBySeat = source.packsBySeat) (pools : session.pools = source.pools)
    (queues : held.seats.map (·.queue) = states.map (·.queue)) :
    fifoCards session held = allCards source := by
  rw [fifoCards, sum_queueCards queues, requeued.cards upgradable.pod upgradable.packs blank,
    poolCards, futures, pools]
  congr 1
  exact add_comm _ _

/-- When no pack waits for a seat, no seat has a pick to make. -/
theorem no_pick_of_empty (empty : ∀ state ∈ states, state.queue = []) (seat : Nat)
    (bound : seat < source.seats.length) (owes : owesPick source seat = true) :
    picked source seat = true := by
  by_contra fresh
  obtain ⟨rest, front⟩ := front_of_owing bound (Bool.eq_false_iff.mpr fresh) owes
  rw [← requeued.table upgradable.pod blank] at front
  cases found : states[seat]? with
  | none => simp [found] at front
  | some state => simp [found, packQueue, empty state (mem_of_getElem? found)] at front

end

theorem upgradeLive_preserves (upgradable : Upgradable source) (clocks : context.clockPolicy = {})
    (passes : source.kind.procedure.distribution = .pickAndPass)
    (started : StartedUpgrade source context (freshSession source context) upgraded packSizes fifo
      active) (running : active = true) (valid : validatePersistedSnapshot upgraded = .ok ()) :
    Preserved source upgraded := by
  have blank := started.queues
  obtain ⟨out, live, states, requeued, outcome⟩ := upgradeActive_ok
    (show context.clockPolicy.pick = .off by rw [clocks]) (started.live running)
  have removed : out.removed = [] := requeued.collected.same.removed.trans started.removed
  have conserved {session : DraftSession} {held : FifoDraftState} :=
    @Requeued.conserved source context fifo _ out live states requeued upgradable blank session held
  have drafting (notPaused : source.status ≠ .paused) : source.status = .drafting := by
    have activity := started.activity
    rw [isActive] at activity
    cases status : source.status <;> simp_all
  rcases outcome with ⟨paused, rfl⟩ | ⟨notPaused, empty, deltas, finished⟩ | ⟨notPaused, -, rfl⟩
  · refine ⟨rfl, rfl, ⟨_, rfl, removed, conserved rfl rfl ?_⟩,
      completions_of_stopped rfl rfl ?_ DraftStatus.noConfusion⟩
    · rw [map_map]
      rfl
    · rw [paused]
      exact DraftStatus.noConfusion
  · have there : (keptSession source context packSizes out states).fifo =
        some { out with seats := states } := rfl
    obtain ⟨held, there, config, pools, removed', cards⟩ :=
      finishFifoRound_cards there removed finished
    have flow : upgraded.config.flow = .fifoAsync := by rw [config]; rfl
    refine ⟨flow, pools, ⟨held, there, removed', cards.trans (conserved rfl rfl rfl)⟩, ?_⟩
    intro _ _ _ legacyFinal _ _ legacySchedule legacyDone
    obtain rfl := schedule_stuck legacySchedule fun _ =>
      no_pick_of_empty requeued upgradable blank empty
    exact absurd (drafting notPaused) legacyDone
  · refine ⟨rfl, rfl, ⟨_, rfl, removed, conserved rfl rfl rfl⟩, ?_⟩
    intro rules choose final legacyFinal schedule done legacySchedule legacyDone
    have checked := validateFifoSnapshot_live rfl rfl
      (show source.config.kind.procedure.distribution = _ by rw [← upgradable.kind, passes]) valid
    by_cases waits : ∃ seat < source.seats.length, owesPick source seat = true ∧
        picked source seat = false
    · obtain ⟨seated, table⟩ := kept_seated upgradable clocks started.distinct blank requeued checked
      have legacySeated := padded_seated upgradable (drafting notPaused) started.distinct checked
        waits
      rcases schedule_padded legacySchedule with rfl | legacySchedule
      · exact absurd (drafting notPaused) legacyDone
      · exact kept_agrees seated legacySeated table upgradable.pod schedule done legacySchedule
          legacyDone
    · obtain rfl := schedule_stuck legacySchedule fun _ seat bound owes => by
        by_contra fresh
        exact waits ⟨seat, bound, owes, Bool.eq_false_iff.mpr fresh⟩
      exact absurd (drafting notPaused) legacyDone

end

/-- An upgraded session has the pools it had and every card it had, passes its check, and,
whatever the seats choose and in whatever order, ends with the pools the barrier ends with. -/
theorem upgrade_preserves_draft {source result : LegacySession} {context : LegacyUpgradeContext}
    (passes : source.kind.procedure.distribution = .pickAndPass)
    (legacy : source.config.flow = .legacyBarrier) (clocks : context.clockPolicy = {})
    (done : upgradeLegacySnapshot source context = .ok result) :
    result.pools = source.pools ∧
      (∃ fifo, result.fifo = some fifo ∧ fifo.removed = [] ∧
        fifoCards result.toDraftSession fifo = allCards source.toDraftSession) ∧
      validateFifoSnapshot result.toDraftSession = .ok () ∧
      ∀ (rules : EventRules) (choose : Nat → DraftPack → List DraftCardInstance → List String)
        (final legacyFinal : DraftSession),
        FifoSchedule rules choose result.toDraftSession final → final.status ≠ .drafting →
        BarrierSchedule choose source.toDraftSession legacyFinal →
        legacyFinal.status ≠ .drafting → final.pools = legacyFinal.pools := by
  obtain ⟨upgradable, upgraded⟩ := upgradeLegacySnapshot_ok legacy done
  have preserved : Preserved source.toDraftSession result.toDraftSession ∧
      validatePersistedSnapshot result.toDraftSession = .ok () := by
    unfold upgradeFresh at upgraded
    split at upgraded
    · next lobby => exact upgradeLobby_preserves upgradable lobby upgraded
    · obtain ⟨valid, packSizes, fifo, active, started⟩ := upgradeStarted_ok upgraded
      cases running : active with
      | false => exact ⟨upgradeOver_preserves started running, valid⟩
      | true =>
        exact ⟨upgradeLive_preserves upgradable clocks passes started running valid, valid⟩
  obtain ⟨⟨flow, pools, cards, completions⟩, valid⟩ := preserved
  rw [validatePersistedSnapshot, flow] at valid
  exact ⟨pools, cards, valid, completions⟩

def numberedPacks : List (List DraftPack) :=
  [[[{ instanceId := "cube-0-0-0" }, { instanceId := "cube-0-0-1" }]],
    [[{ instanceId := "cube-1-0-0" }, { instanceId := "cube-1-0-1" }]]]

/-- Seat 0 has picked from its first booster, seat 1 has not. -/
def halfStep : LegacySession where
  toDraftSession := afterActions (dealPacks (DraftSession.new cubeConfig twoSeats) numberedPacks)
    [.pick 0 ["cube-0-0-1"]]
  sharedStack := none
  boosterPackPool := none

def bareContext : LegacyUpgradeContext where
  sessionId := "draft"
  nowMs := 0
  clockPolicy := {}
  paused := none
  pendingClock := none
  provenance := none
  progress := none

def halfStepUpgraded : LegacySession :=
  ((upgradeLegacySnapshot halfStep bareContext).toOption).getD halfStep

theorem halfStep_upgrade_agrees :
    halfStepUpgraded.status = .drafting ∧ halfStepUpgraded.pools = halfStep.pools ∧
      validateFifoSnapshot halfStepUpgraded.toDraftSession = .ok () ∧
      ∀ choose final legacyFinal,
        FifoSchedule noEvent choose halfStepUpgraded.toDraftSession final →
        final.status ≠ .drafting → BarrierSchedule choose halfStep.toDraftSession legacyFinal →
        legacyFinal.status ≠ .drafting → final.pools = legacyFinal.pools := by
  have upgraded : upgradeLegacySnapshot halfStep bareContext = .ok halfStepUpgraded := by
    decide +kernel
  obtain ⟨pools, -, valid, completions⟩ :=
    upgrade_preserves_draft (by decide) (by decide) rfl upgraded
  exact ⟨by decide +kernel, pools, valid, fun choose => completions noEvent choose⟩

end Phase.Draft.Legacy
