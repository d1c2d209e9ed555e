import Phase.Draft.BarrierTable

/-! Whoever is quick and whoever is slow, a FIFO draft ends with the same pools, and
they are the pools of the barrier draft. -/
namespace Phase.Draft
open Fallible List DraftSession

/-- A run of accepted selections in which seat `i` picks what `choose i` makes of
its head pack and its pool. -/
inductive FifoSchedule (rules : EventRules)
    (choose : Nat → DraftPack → List DraftCardInstance → List String) (start : DraftSession) :
    DraftSession → Prop
  | start : FifoSchedule rules choose start start
  | select {session next : DraftSession} {seat nowMs : Nat} {promptId : DraftPromptId}
      {pack : DraftPack} {deltas : List DraftDelta}
      {source : Option (Except DraftError (List (List DraftPack)))} :
      FifoSchedule rules choose start session → session.headPack seat = some pack →
      applyAt rules source session
        (.select seat promptId (choose seat pack (session.pools.getD seat [])) [] []) nowMs =
          .ok (next, deltas) →
      FifoSchedule rules choose start next

/-- The same for the picks of the barrier flow. -/
inductive BarrierSchedule (choose : Nat → DraftPack → List DraftCardInstance → List String)
    (start : DraftSession) : DraftSession → Prop
  | start : BarrierSchedule choose start start
  | pick {session next : DraftSession} {seat : Nat} {pack : DraftPack} {deltas : List DraftDelta} :
      BarrierSchedule choose start session → session.headPack seat = some pack →
      applyPick session seat (choose seat pack (session.pools.getD seat [])) =
        .ok (next, deltas) →
      BarrierSchedule choose start next

section
variable {choose : Nat → DraftPack → List DraftCardInstance → List String}

theorem FifoSchedule.runs {rules : EventRules} {start session : DraftSession}
    {fifo : FifoDraftState} (seated : FifoSeated start fifo)
    (schedule : FifoSchedule rules choose start session) :
    ∃ fifo' n, FifoSeated session fifo' ∧ session.config = start.config ∧
      Schedule.Runs (Table.step (draftRules start.config.podSize start.config.packCount choose))
        (fifoTable start fifo) n (fifoTable session fifo') := by
  induction schedule with
  | start => exact ⟨fifo, 0, seated, rfl, .nil _⟩
  | @select _ _ seat _ _ _ _ _ _ front applied ih =>
    obtain ⟨before, n, seatedBefore, config, run⟩ := ih
    obtain ⟨after, seatedAfter, config', stepped⟩ := select_steps seatedBefore front applied
    rw [config] at stepped config'
    exact ⟨after, n + 1, seatedAfter, config', run.snoc seat stepped⟩

theorem BarrierSchedule.runs {start session : DraftSession} (seated : BarrierSeated start)
    (schedule : BarrierSchedule choose start session) :
    ∃ n, BarrierSeated session ∧ session.config = start.config ∧
      session.seats = start.seats ∧
      Schedule.Runs (Table.step (draftRules start.seats.length start.config.packCount choose))
        (barrierTable start) n (barrierTable session) := by
  induction schedule with
  | start => exact ⟨0, seated, rfl, rfl, .nil _⟩
  | @pick session next seat pack deltas _ front applied ih =>
    obtain ⟨n, seatedBefore, config, seats, run⟩ := ih
    have held : heldPack session seat = pack := by
      rw [headPack_of_shape seatedBefore.shape] at front
      simp [heldPack, front]
    rw [← held] at applied
    obtain ⟨seatedAfter, config', seats', stepped⟩ := pick_steps seatedBefore applied
    rw [config, seats] at stepped
    exact ⟨n + 1, seatedAfter, config'.trans config, seats'.trans seats, run.snoc seat stepped⟩

end

/-- The table right after the deal. -/
def openingTable (packs : List (List DraftPack)) : Table DraftCardInstance where
  queues seat := (packs.getD seat []).head?.toList
  pools _ := []
  futures seat := (packs.getD seat []).tail
  round := 0

theorem getD_replicate_nil {α : Type} (n k : Nat) : (replicate n ([] : List α)).getD k [] = [] := by
  simp only [getD_eq_getElem?_getD, getElem?_replicate]
  split <;> rfl

variable {config : DraftConfig} {seats : List DraftSeat} {packs : List (List DraftPack)}
  {deltas : List DraftDelta}

theorem newFifo_ok {sessionId : String} {lobby : DraftSession}
    (h : newFifo config seats sessionId = .ok lobby) :
    config.flow = .fifoAsync ∧ validateFifoConfig config seats.length .configuration = .ok () ∧
      validDraftId sessionId = true ∧
      lobby = lobbySession config seats sessionId ∧
      validateFifoSnapshot lobby = .ok () := by
  simp only [newFifo, guard_eq_ok, bind_eq_ok, pure_eq_ok] at h
  obtain ⟨flow, _, valid, identity, _, snapshot, rfl⟩ := h
  exact ⟨by simpa using flow, valid, by simpa using identity, rfl, snapshot⟩

theorem validateFifoConfig_ok {seatCount : Nat} {context : AdmissionContext}
    (h : validateFifoConfig config seatCount context = .ok ()) :
    0 < seatCount ∧ config.podSize = seatCount ∧ 0 < config.packCount ∧
      config.kind.admitPodSize config.source config.tournamentFormat seatCount context = .ok () ∧
      validateLayout config seatCount = .ok () := by
  simp only [validateFifoConfig, guard_eq_ok, bind_eq_ok] at h
  obtain ⟨_, pod, _, admitted, dims, _, _, layout, _⟩ := h
  exact ⟨by omega, by omega, by omega, admitted, layout⟩

theorem start_seated {rules : EventRules} {sessionId : String} {lobby start : DraftSession}
    {now : Nat} (passes : config.kind.procedure.distribution = .pickAndPass)
    (policy : config.selectionPolicy = {}) (clocks : config.clockPolicy = {})
    (created : newFifo config seats sessionId = .ok lobby)
    (started : applyAt rules (some (.ok packs)) lobby .startDraft now = .ok (start, deltas)) :
    ∃ fifo, FifoSeated start fifo ∧ start.config = config ∧
      fifoTable start fifo = openingTable packs ∧
      Dealt seats.length config.packCount packs ∧
      ∀ row ∈ packs, ∀ pack ∈ row, (pack.map (·.instanceId)).Nodup := by
  obtain ⟨flow, valid, _, rfl, _⟩ := newFifo_ok created
  obtain ⟨_, pod, _, _, _⟩ := validateFifoConfig_ok valid
  obtain ⟨fifo, candidate, there, _, reduced, committed⟩ := applyAt_ok started
  have states₀ : fifo.seats = replicate seats.length {} := by
    rw [← Option.some.inj there]
  simp only [reduceFifo] at reduced
  obtain ⟨packs', _, fifo', source, _, _, rows, rounds, there', registered, outcome⟩ :=
    startFifo_ok reduced
  obtain rfl : packs = packs' := by simpa using source
  obtain rfl := Option.some.inj there'
  obtain ⟨states, checked⟩ := registerPacks_ok registered
  have states : fifo'.seats = replicate seats.length {} := states.trans states₀
  have blank : ∀ state ∈ fifo'.seats, state.queue = [] := by
    intro state mem
    rw [states] at mem
    rw [eq_of_mem_replicate mem]
  rcases outcome with ⟨all, _⟩ | ⟨_, opened⟩
  · exact absurd (all.symm.trans passes) (by simp)
  · have shape : FifoShape (dealtFifo (lobbySession config seats sessionId) fifo' packs) fifo' := by
      refine ⟨rfl, flow, pod, ?_, ?_, rows, policy, ?_, ?_, ?_⟩
      · rw [states]
        exact length_replicate
      · exact length_replicate
      · show config.clockPolicy.reviewDurationMs = 0
        rw [clocks]
      · intro state mem queued inside
        rw [blank state mem] at inside
        cases inside
      · exact fun row mem pack inside => (checked row mem pack inside).2
    obtain ⟨final, seated, config', _, table⟩ := openFifoRound_opens shape blank opened
    have opening : fifoTable candidate final = openingTable packs := by
      rw [table]
      refine Table.ext rfl (funext fun k => ?_) rfl rfl
      exact getD_replicate_nil seats.length k
    have dealt : Dealt seats.length config.packCount packs :=
      ⟨rows, rounds, fun row mem pack inside => (checked row mem pack inside).1⟩
    have named := fun row mem pack inside => (checked row mem pack inside).2
    rcases committed with ⟨rfl, rfl⟩ | ⟨final', thereFinal, _, rfl, _⟩
    · exact ⟨final, seated, config', opening, dealt, named⟩
    · obtain rfl : final = final' := Option.some.inj (seated.there.symm.trans thereFinal)
      refine ⟨_, ⟨⟨rfl, seated.flow, seated.pod, seated.states, seated.pools, seated.futures,
        seated.policy, seated.review, seated.named, seated.unopened⟩, seated.phase⟩, config',
        opening, dealt, named⟩

/-- The barrier session with the same configuration and the same boosters. -/
def barrierStart (config : DraftConfig) (seats : List DraftSeat)
    (packs : List (List DraftPack)) : DraftSession :=
  dealPacks (new { config with flow := .legacyBarrier } seats) packs

theorem barrier_starts {config : DraftConfig} {seats : List DraftSeat}
    {packs : List (List DraftPack)} (policy : config.selectionPolicy = {})
    (clocks : config.clockPolicy = {})
    (valid : validateFifoConfig config seats.length .configuration = .ok ()) :
    startPickAndPass (new { config with flow := .legacyBarrier } seats) (.ok packs) =
      .ok (barrierStart config seats packs, [.draftStarted]) := by
  obtain ⟨_, _, _, admitted, layout⟩ := validateFifoConfig_ok valid
  have legacy : validateLegacyAdmission
      (new { config with flow := .legacyBarrier } seats) = .ok () := by
    simp [validateLegacyAdmission, new, policy, clocks]
  have layout' : validateLayout { config with flow := .legacyBarrier } seats.length = .ok () :=
    layout
  simp only [startPickAndPass, bind_eq_ok, guard_eq_ok, pure_eq_ok]
  exact ⟨(), legacy, not_not.mpr rfl, (), layout', (), admitted, not_not.mpr rfl, packs, rfl, rfl⟩

theorem barrierTable_start (dealt : Dealt seats.length config.packCount packs) :
    barrierTable (barrierStart config seats packs) = openingTable packs := by
  have unpicked : ∀ seat, picked (barrierStart config seats packs) seat = false := by
    intro seat
    simp only [picked, barrierStart, dealPacks, new, getD_eq_getElem?_getD, getElem?_replicate]
    split <;> rfl
  refine Table.ext (funext fun k => ?_) (funext fun k => ?_) (funext fun k => ?_) rfl
  · simp only [barrierTable, unpicked, openingTable]
    have size : (barrierStart config seats packs).seats.length = packs.length := dealt.seats.symm
    rw [size]
    by_cases inside : k < packs.length
    · have held : heldPack (barrierStart config seats packs) k = packs[k].headD [] := by
        simp only [heldPack, barrierStart, dealPacks, getElem?_map,
          getElem?_eq_getElem inside, Option.map_some, Option.join_some]
        cases packs[k] <;> rfl
      rw [held, getD_eq_getElem _ _ inside]
      cases row : packs[k] with
      | nil => simp [queued]
      | cons pack later =>
        have nonempty := dealt.nonempty _ (getElem_mem inside) pack (row ▸ mem_cons_self)
        simp [inside, queued, nonempty]
    · simp [inside]
  · exact getD_replicate_nil seats.length k
  · simp only [barrierTable, barrierStart, dealPacks, openingTable, getD_eq_getElem?_getD,
      getElem?_map]
    cases packs[k]? <;> rfl

theorem barrierStart_seated (dealt : Dealt seats.length config.packCount packs)
    (named : ∀ row ∈ packs, ∀ pack ∈ row, (pack.map (·.instanceId)).Nodup)
    (rounds : 0 < config.packCount)
    (started : startPickAndPass (new { config with flow := .legacyBarrier } seats)
      (.ok packs) = .ok (barrierStart config seats packs, deltas)) :
    BarrierSeated (barrierStart config seats packs) := by
  have sound := @deal_sound { config with flow := .legacyBarrier } seats packs _ _ dealt rounds
    started
  refine ⟨sound.shape, sound.phase, fun _ => rfl, ?_, ?_⟩
  · intro seat bound
    have inside : seat < packs.length := dealt.seats ▸ bound
    simp only [heldPack, barrierStart, dealPacks, getElem?_map,
      getElem?_eq_getElem inside, Option.map_some, Option.join_some]
    cases row : packs[seat] with
    | nil => simp
    | cons pack later =>
      exact named _ (getElem_mem inside) pack (row ▸ mem_cons_self)
  · intro future mem pack inside
    obtain ⟨row, member, rfl⟩ := mem_map.mp mem
    exact named row member pack (mem_of_mem_tail inside)

theorem pools_eq {a b : List (List DraftCardInstance)} (length : a.length = b.length)
    (each : ∀ k, a.getD k [] = b.getD k []) : a = b := by
  refine ext_getElem length fun k ha hb => ?_
  have := each k
  rwa [getD_eq_getElem _ _ ha, getD_eq_getElem _ _ hb] at this

/-- Complete schedules of selections, in whatever order the seats make them, end
with the same pools, and so does every complete barrier draft of the same boosters. -/
theorem fifo_schedules_agree_with_barrier {rules : EventRules}
    {choose : Nat → DraftPack → List DraftCardInstance → List String} {config : DraftConfig}
    {seats : List DraftSeat} {sessionId : String} {lobby start left right : DraftSession}
    {packs : List (List DraftPack)} {now : Nat} {deltas : List DraftDelta}
    (passes : config.kind.procedure.distribution = .pickAndPass)
    (policy : config.selectionPolicy = {}) (clocks : config.clockPolicy = {})
    (created : newFifo config seats sessionId = .ok lobby)
    (started : applyAt rules (some (.ok packs)) lobby .startDraft now = .ok (start, deltas))
    (leftRun : FifoSchedule rules choose start left) (leftDone : left.status = .deckbuilding)
    (rightRun : FifoSchedule rules choose start right)
    (rightDone : right.status = .deckbuilding) :
    left.pools = right.pools ∧
      startPickAndPass (new { config with flow := .legacyBarrier } seats)
          (.ok packs) = .ok (barrierStart config seats packs, [.draftStarted]) ∧
      ∀ barrier, BarrierSchedule choose (barrierStart config seats packs) barrier →
        barrier.status = .deckbuilding → barrier.pools = left.pools := by
  obtain ⟨fifo, seated, sameConfig, table, dealt, named⟩ :=
    start_seated passes policy clocks created started
  have valid := (newFifo_ok created).2.1
  obtain ⟨_, pod, rounds, _, _⟩ := validateFifoConfig_ok valid
  have barrierStarted := @barrier_starts config seats packs policy clocks valid
  have ended {session : DraftSession} {fifo' : FifoDraftState}
      (seated' : FifoSeated session fifo') (config' : session.config = start.config)
      (done : session.status = .deckbuilding) :
      Schedule.Ended (Table.step (draftRules start.config.podSize start.config.packCount choose))
        (fifoTable session fifo') := by
    refine Table.ended_of_drained ?_
    rw [drained_iff (show start.config.podSize = fifo'.seats.length by
      rw [← config', seated'.pod, seated'.states])]
    rcases seated'.phase with ⟨drafting, _⟩ | ⟨_, empty⟩
    · rw [done] at drafting
      cases drafting
    · exact empty
  obtain ⟨fifoL, _, seatedL, configL, runL⟩ := leftRun.runs seated
  obtain ⟨fifoR, _, seatedR, configR, runR⟩ := rightRun.runs seated
  have endedL := ended seatedL configL leftDone
  have size {session : DraftSession} {fifo' : FifoDraftState}
      (seated' : FifoSeated session fifo') (config' : session.config = start.config) :
      session.pools.length = seats.length := by
    rw [seated'.pools, ← seated'.pod, config', sameConfig, pod]
  refine ⟨?_, barrierStarted, ?_⟩
  · obtain ⟨same, _⟩ := runL.end_unique Table.step_commutes endedL runR
      (ended seatedR configR rightDone)
    refine pools_eq ((size seatedL configL).trans (size seatedR configR).symm) fun k => ?_
    exact congrFun (congrArg Table.pools same) k
  · intro barrier schedule done
    have seatedB := barrierStart_seated dealt named rounds barrierStarted
    obtain ⟨_, seatedE, _, seatsE, runB⟩ := schedule.runs seatedB
    have sameRules : draftRules (barrierStart config seats packs).seats.length
        (barrierStart config seats packs).config.packCount choose =
          draftRules start.config.podSize start.config.packCount choose := by
      rw [sameConfig, pod]
      rfl
    rw [sameRules, barrierTable_start dealt, ← table] at runB
    obtain ⟨same, _⟩ := runB.end_unique Table.step_commutes
      (Table.ended_of_drained (drained_of_deckbuilding seatedE done)) runL endedL
    refine pools_eq ?_ fun k => congrFun (congrArg Table.pools same) k
    rw [size seatedL configL, seatedE.shape.pools, seatsE]
    rfl

/-- Event rules that no draft action consults. -/
def noEvent : EventRules where
  submitDeck _ _ _ _ := none
  generatePairings session := session.event
  reportMatchResult _ _ _ := none

def firstCard (_ : Nat) (pack : DraftPack) (_ : List DraftCardInstance) : List String :=
  (pack.take 1).map (·.instanceId)

def takeFirst (session : DraftSession) (seat : Nat) :
    Except DraftError (DraftSession × List DraftDelta) :=
  let promptId := ((session.fifo.bind fun fifo => fifo.seats[seat]?).bind (·.prompt)).map (·.id)
  applyAt noEvent none session (.select seat (promptId.getD ⟨"", 0, 0⟩)
    (firstCard seat ((session.headPack seat).getD []) (session.pools.getD seat [])) [] []) 0

/-- The session after the named seats have each taken the first card of their
pack, if they all could. -/
def afterFirstCards : DraftSession → List Nat → Option DraftSession
  | session, [] => some session
  | session, seat :: seats => do
      guard (session.headPack seat).isSome
      let (next, _) ← (takeFirst session seat).toOption
      afterFirstCards next seats

theorem firstCards_schedule {start session final : DraftSession} {seats : List Nat}
    (schedule : FifoSchedule noEvent firstCard start session)
    (h : afterFirstCards session seats = some final) :
    FifoSchedule noEvent firstCard start final := by
  induction seats generalizing session with
  | nil =>
    obtain rfl := Option.some.inj h
    exact schedule
  | cons seat seats ih =>
    cases head : session.headPack seat with
    | none => simp [afterFirstCards, head, guard, failure] at h
    | some pack =>
      cases outcome : takeFirst session seat with
      | error e => simp [afterFirstCards, outcome, Except.toOption] at h
      | ok result =>
        have rest : afterFirstCards result.1 seats = some final := by
          simpa [afterFirstCards, head, outcome, Except.toOption, guard] using h
        simp only [takeFirst, head, Option.getD_some] at outcome
        exact ih (.select schedule head outcome) rest

def fifoConfig : DraftConfig := { cubeConfig with flow := .fifoAsync }

def fifoLobby : DraftSession := lobbySession fifoConfig twoSeats "draft"

def fifoStart : DraftSession :=
  (((applyAt noEvent (some (.ok unevenPacks)) fifoLobby .startDraft 0).map
    Prod.fst).toOption).getD fifoLobby

/-- Seat 1 waits for seat 0 or goes first; the pools are the same. -/
theorem uneven_schedules_agree : ∃ waited first : DraftSession,
    afterFirstCards fifoStart [0, 1, 1] = some waited ∧
      afterFirstCards fifoStart [1, 0, 1] = some first ∧ waited.pools = first.pools := by
  have created : newFifo fifoConfig twoSeats "draft" = .ok fifoLobby := by decide +kernel
  have started : applyAt noEvent (some (.ok unevenPacks)) fifoLobby .startDraft 0 =
      .ok (fifoStart, [.draftStarted]) := by decide +kernel
  have complete : ∀ seats ∈ [[0, 1, 1], [1, 0, 1]],
      (afterFirstCards fifoStart seats).any (fun final => final.status = .deckbuilding) = true := by
    decide +kernel
  obtain ⟨waited, left, leftDone⟩ := (Option.any_eq_true _ _).mp (complete [0, 1, 1] (by simp))
  obtain ⟨first, right, rightDone⟩ := (Option.any_eq_true _ _).mp (complete [1, 0, 1] (by simp))
  have agree := fifo_schedules_agree_with_barrier rfl rfl rfl created started
    (firstCards_schedule .start left) (by simpa using leftDone)
    (firstCards_schedule .start right) (by simpa using rightDone)
  exact ⟨waited, first, left, right, agree.1⟩

end Phase.Draft
