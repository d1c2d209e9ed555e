import Mathlib.Algebra.Order.BigOperators.Group.List
import Phase.Draft.BarrierStep

/-! Whole runs of the barrier flow: no card is lost, no seat is served twice in a
step, no draft gets stuck, and every draft ends with its packs empty. -/
namespace Phase.Draft
open List DraftSession

/-- The action passed the packs on, opened the next ones, or ended the draft. -/
def endsStep (deltas : List DraftDelta) : Bool :=
  deltas.any fun delta => match delta with
    | .packPassed | .packExhausted _ | .transitionedTo _ => true
    | _ => false

/-- `session` is reached from `start` by `accepted` accepted actions; `since` are
the seats that have picked since the packs last moved. A refused action leaves
the session as it is. -/
inductive BarrierRun (start : DraftSession) : DraftSession → List Nat → Nat → Prop
  | start : BarrierRun start start [] 0
  | accept {session next : DraftSession} {since : List Nat} {accepted : Nat}
      {action : BarrierAction} {deltas : List DraftDelta} :
      BarrierRun start session since accepted →
      applyBarrier session action = .ok (next, deltas) →
      BarrierRun start next (if endsStep deltas then [] else action.seat :: since) (accepted + 1)

/-- Boosters dealt to every seat: as many as there are rounds, none empty. -/
structure Dealt (podSize packCount : Nat) (packs : List (List DraftPack)) : Prop where
  seats : packs.length = podSize
  rounds : ∀ row ∈ packs, row.length = packCount
  nonempty : ∀ row ∈ packs, ∀ pack ∈ row, pack ≠ []

/-- What a run of the barrier flow keeps true of the session it reaches. -/
structure BarrierSound (packs : List (List DraftPack)) (session : DraftSession)
    (since : List Nat) (accepted : Nat) : Prop where
  shape : BarrierShape session
  phase : BarrierPhase session
  since : ∀ seat < session.seats.length, picked session seat = true ↔ seat ∈ since
  conserved : allCards session = bag packs.flatten.flatten
  progress : accepted + (packCards session).card ≤ packs.flatten.flatten.length

theorem endsStep_cardPicked (seat : Nat) (ids : List String) :
    endsStep (ids.map fun id => DraftDelta.cardPicked seat id) = false := by
  simp [endsStep]

theorem endsStep_endStep (session : DraftSession) : endsStep (endStep session).2 = true := by
  unfold endStep
  dsimp only
  repeat' split
  all_goals rfl

variable {session next start : DraftSession} {seat accepted : Nat} {deltas : List DraftDelta}
  {action : BarrierAction} {pool : List DraftCardInstance} {since : List Nat}
  {packs : List (List DraftPack)} {seats : List DraftSeat}

theorem picked_markPicked (shape : BarrierShape session) (bound : seat < session.seats.length)
    (other : Nat) :
    picked (markPicked session seat) other = (decide (other = seat) || picked session other) := by
  have inside : seat < session.seatsPickedThisRound.length := shape.flags ▸ bound
  simp only [picked, markPicked, Indexed.getD_set]
  by_cases same : other = seat
  · simp [same, inside]
  · simp [same, Ne.symm same]

/-- The picks of a step accumulate until every seat holding cards has made one. -/
theorem finishPick_spec (shape : BarrierShape session) (drafting : session.status = .drafting)
    (supplied : Supplied session) (bound : seat < session.seats.length) (ids : List String) :
    let result := finishPick session seat ids
    BarrierShape result.1 ∧ BarrierPhase result.1 ∧ packCards result.1 = packCards session ∧
      result.1.pools = session.pools ∧ result.1.seats = session.seats ∧
      ((endsStep result.2 = false ∧
          ∀ other, picked result.1 other = (decide (other = seat) || picked session other)) ∨
        (endsStep result.2 = true ∧ roundComplete (markPicked session seat) = true ∧
          ∀ other, picked result.1 other = false)) := by
  have marked := shape.markPicked seat
  simp only [finishPick]
  split
  · next complete =>
    obtain ⟨shape', phase', cards, pools, seats, clear⟩ := endStep_spec marked drafting supplied
    refine ⟨shape', phase', cards, pools, seats, .inr ⟨?_, complete, clear⟩⟩
    have := endsStep_endStep (markPicked session seat)
    simp_all [endsStep]
  · next open_ =>
    simp only [roundComplete, all_eq_true, mem_range, Bool.or_eq_true,
      Bool.not_eq_true', not_forall, not_or, Bool.not_eq_false, Bool.not_eq_true] at open_
    obtain ⟨waiting, inside, owes, unpicked⟩ := open_
    exact ⟨marked, .inl ⟨drafting, supplied, waiting, inside, owes, unpicked⟩, rfl, rfl, rfl,
      .inl ⟨endsStep_cardPicked seat ids, picked_markPicked shape bound⟩⟩

theorem applyBarrier_ok (shape : BarrierShape session)
    (h : applyBarrier session action = .ok (next, deltas)) :
    ∃ left pool ids, BarrierMove session action.seat left pool ∧
      (next, deltas) = finishPick (redeal session action.seat left pool) action.seat ids := by
  cases action with
  | pick seat ids =>
    obtain ⟨left, taken, _, _, _, move, result⟩ := applyPick_ok shape h
    exact ⟨left, _, ids, move, result⟩
  | pickWithDraftEffect seat effectId ids =>
    obtain ⟨left, pool, move, result⟩ := applyPickWithDraftEffect_ok shape h
    exact ⟨left, pool, ids, move, result⟩

theorem BarrierPhase.supplied (phase : BarrierPhase session)
    (drafting : session.status = .drafting) : Supplied session := by
  rcases phase with ⟨_, supplied, _⟩ | ⟨done, _⟩
  · exact supplied
  · rw [drafting] at done
    cases done

section
variable (shape : BarrierShape session) {left : DraftPack}
  (move : BarrierMove session seat left pool)
include shape move

theorem allCards_redeal : allCards (redeal session seat left pool) = allCards session := by
  have packs := packCards_redeal shape move.bound left pool
  have pools := poolCards_redeal shape move.bound left pool
  have both : allCards (redeal session seat left pool) +
      (bag (heldPack session seat) + bag (session.pools.getD seat [])) =
        allCards session + (bag left + bag pool) := by
    simp only [allCards]
    rw [add_add_add_comm, packs, pools, add_add_add_comm]
  rw [move.dealt] at both
  exact add_right_cancel both

theorem card_packCards_redeal :
    (packCards (redeal session seat left pool)).card < (packCards session).card := by
  have cards := congrArg Multiset.card (packCards_redeal shape move.bound left pool)
  simp only [Multiset.card_add, Multiset.coe_card] at cards
  have := move.smaller
  omega

end

theorem step_sound (sound : BarrierSound packs session since accepted)
    (h : applyBarrier session action = .ok (next, deltas)) :
    BarrierSound packs next (if endsStep deltas then [] else action.seat :: since)
      (accepted + 1) := by
  obtain ⟨left, pool, ids, move, result⟩ := applyBarrier_ok sound.shape h
  have moved := sound.shape.redeal action.seat left pool
  obtain ⟨shape, phase, cards, pools, seats, flags⟩ := finishPick_spec moved move.drafting
    (sound.phase.supplied move.drafting) move.bound ids
  rw [← result] at shape phase cards pools seats flags
  dsimp only at shape phase cards pools seats flags
  refine ⟨shape, phase, ?_, ?_, ?_⟩
  · intro seat bound
    rcases flags with ⟨open_, flags⟩ | ⟨ended, _, flags⟩
    · have before := sound.since seat (seats ▸ bound)
      simp only [flags seat, open_, Bool.false_eq_true, ↓reduceIte, mem_cons,
        Bool.or_eq_true, decide_eq_true_eq]
      exact or_congr_right before
    · simp [flags seat, ended]
  · have same : allCards next = allCards (redeal session action.seat left pool) := by
      simp only [allCards, poolCards, cards, pools]
    rw [same, allCards_redeal sound.shape move, sound.conserved]
  · have fewer := card_packCards_redeal sound.shape move
    have := sound.progress
    rw [cards]
    omega

theorem run_sound (opening : BarrierSound packs start [] 0)
    (run : BarrierRun start session since accepted) :
    BarrierSound packs session since accepted := by
  induction run with
  | start => exact opening
  | accept _ applied sound => exact step_sound sound applied

theorem admitPodSize_pos {kind : DraftKind} {source : DraftSource} {format : TournamentFormat}
    {podSize : Nat} {context : AdmissionContext}
    (h : kind.admitPodSize source format podSize context = .ok ()) : 0 < podSize := by
  rcases Nat.eq_zero_or_pos podSize with rfl | positive
  · have refused : (kind.procedure.allowsPodSize format 0 ||
        (source.isCube && kind.procedure.allowsLocalCubePodSize format 0)) = false := by
      cases kind <;> cases format <;> cases source <;> rfl
    simp only [DraftKind.admitPodSize, refused, Bool.false_eq_true, ↓reduceIte] at h
    split at h
    · split at h <;> cases h
    · cases h
  · exact positive

theorem startPickAndPass_ok {config : DraftConfig}
    (h : startPickAndPass (new config seats) (.ok packs) = .ok (start, deltas)) :
    start = dealPacks (new config seats) packs ∧ 0 < seats.length ∧
      validateLegacyAdmission (new config seats) = .ok () := by
  simp only [startPickAndPass, bind, Except.bind] at h
  split at h
  · cases h
  · next admitted =>
    split at h
    · cases h
    · split at h
      · cases h
      · split at h
        · cases h
        · next _ _ _ _ size =>
          split at h
          · cases h
          · exact ⟨(congrArg Prod.fst (Except.ok.inj h)).symm, admitPodSize_pos size, admitted⟩

theorem sum_deal (rows : ∀ row ∈ packs, row ≠ []) :
    ((packs.map head?).map heldCards).sum + ((packs.map tail).map futureCards).sum =
      bag packs.flatten.flatten := by
  induction packs with
  | nil => rfl
  | cons row packs ih =>
    have rest := ih fun r hr => rows r (mem_cons_of_mem row hr)
    obtain ⟨pack, row, rfl⟩ := exists_cons_of_ne_nil (rows row mem_cons_self)
    simp only [map_cons, head?_cons, tail_cons, sum_cons, flatten_cons,
      flatten_append, bag, ← Multiset.coe_add] at rest ⊢
    rw [add_add_add_comm, rest]
    simp [heldCards, futureCards, bag]

theorem deal_sound {config : DraftConfig} {seats : List DraftSeat}
    {packs : List (List DraftPack)} {start : DraftSession} {deltas : List DraftDelta}
    (dealt : Dealt seats.length config.packCount packs) (rounds : 0 < config.packCount)
    (h : startPickAndPass (new config seats) (.ok packs) = .ok (start, deltas)) :
    BarrierSound packs start [] 0 := by
  obtain ⟨rfl, seated, admitted⟩ := startPickAndPass_ok h
  have rows : ∀ row ∈ packs, row ≠ [] := by
    rintro row mem rfl
    have := dealt.rounds [] mem
    simp at this
    omega
  have packs_eq : packCards (dealPacks (new config seats) packs) =
      bag packs.flatten.flatten := sum_deal rows
  have unpicked : ∀ seat, picked (dealPacks (new config seats) packs) seat = false := by
    intro seat
    simp [picked, dealPacks, new, getD_eq_getElem?_getD, getElem?_replicate]
    split <;> rfl
  constructor
  · constructor
    · exact validateLegacyAdmission_of_eq (new config seats) rfl rfl (by simp [dealPacks]) admitted
    · exact seated
    · simpa [dealPacks, new] using dealt.seats
    · simpa [dealPacks, new] using dealt.seats
    · simp [dealPacks, new]
    · simp [dealPacks, new]
    · simp [dealPacks, new]
    · intro future mem pack inside
      obtain ⟨row, member, rfl⟩ := mem_map.mp mem
      exact dealt.nonempty row member pack (mem_of_mem_tail inside)
  · refine .inl ⟨rfl, ?_, 0, seated, ?_, unpicked 0⟩
    · intro future mem
      obtain ⟨row, member, rfl⟩ := mem_map.mp mem
      have := dealt.rounds row member
      simp only [dealPacks, new, length_tail]
      omega
    · have here : 0 < packs.length := dealt.seats ▸ seated
      have member : packs[0] ∈ packs := getElem_mem here
      obtain ⟨pack, row, whole⟩ := exists_cons_of_ne_nil (rows _ member)
      have nonempty := dealt.nonempty _ member pack (whole ▸ mem_cons_self)
      rw [owesPick_iff]
      simp [heldPack, dealPacks, getElem?_map, getElem?_eq_getElem here, whole, nonempty]
  · intro seat _
    simp [unpicked seat]
  · have none_ : poolCards (dealPacks (new config seats) packs) = 0 := by
      simp [poolCards, dealPacks, new, bag]
    rw [allCards, packs_eq, none_, add_zero]
  · rw [packs_eq]
    simp [bag]

theorem bag_heldPack_le (shape : BarrierShape session) (bound : seat < session.seats.length) :
    bag (heldPack session seat) ≤ allCards session := by
  have inside : seat < session.currentPack.length := shape.packs ▸ bound
  rw [← heldCards_getElem inside]
  have one : heldCards session.currentPack[seat] ≤ (session.currentPack.map heldCards).sum :=
    single_le_sum (fun cards _ => Multiset.zero_le cards) _ (mem_map_of_mem (getElem_mem inside))
  exact one.trans (le_add_right (le_add_right le_rfl))

theorem exists_accepted (shape : BarrierShape session) (phase : BarrierPhase session)
    (drafting : session.status = .drafting)
    (distinct : ((allCards session).map (·.instanceId)).Nodup) :
    ∃ action next deltas, applyBarrier session action = .ok (next, deltas) := by
  rcases phase with ⟨_, _, seat, bound, owes, fresh⟩ | ⟨done, _⟩
  · let pack := heldPack session seat
    let ids := (pack.take (session.requiredPickCount seat)).map (·.instanceId)
    have held : heldPack session seat ≠ [] := owesPick_iff.mp owes
    have required := requiredPickCount_of_shape shape seat
    have packIds : (pack.map (·.instanceId)).Nodup :=
      Multiset.nodup_of_le (Multiset.map_le_map (bag_heldPack_le shape bound)) distinct
    have idsDistinct : ids.Nodup := by
      refine packIds.sublist ?_
      exact (take_sublist _ pack).map _
    have present : ∀ id ∈ ids, ∃ card ∈ pack, card.instanceId = id := by
      intro id mem
      obtain ⟨card, taken, same⟩ := mem_map.mp mem
      exact ⟨card, mem_of_mem_take taken, same⟩
    have count : ids.length = session.requiredPickCount seat := by
      simp only [ids, pack, length_map, length_take]
      omega
    have resolves : ∃ indices, resolveIndices seat pack ids [] = .ok indices :=
      exists_resolveIndices seat idsDistinct present (by simp)
    obtain ⟨indices, resolved⟩ := resolves
    have accepted : applyPick session seat ids = .ok (finishPick
        (setPool (setPack session seat (takeIndices pack indices).1) seat
          (session.pools.getD seat [] ++ (takeIndices pack indices).2)) seat ids) := by
      simp only [applyPick, shape.admitted, admitPick_of shape drafting bound fresh, bind,
        Except.bind]
      rw [if_neg (by simpa using held), if_neg (by simpa using count)]
      simp only [pack] at resolved
      simp only [resolved]
      rfl
    exact ⟨.pick seat ids, _, _, accepted⟩
  · rw [drafting] at done
    cases done

/-- One accepted action leads from one session to the next. -/
def Accepts (session next : DraftSession) : Prop :=
  ∃ action deltas, applyBarrier session action = .ok (next, deltas)

theorem reaches_deckbuilding (sound : BarrierSound packs session since accepted)
    (distinct : (packs.flatten.flatten.map (·.instanceId)).Nodup) :
    ∃ final, Relation.ReflTransGen Accepts session final ∧ final.status = .deckbuilding ∧
      packCards final = 0 := by
  -- Every accepted action takes a card out of the packs.
  induction size : (packs.flatten.flatten.length - accepted) using Nat.strong_induction_on
    generalizing session since accepted with
  | _ size ih =>
    rcases sound.phase with ⟨drafting, _, _⟩ | ⟨done, empty⟩
    · have ids : ((allCards session).map (·.instanceId)).Nodup := by
        rw [sound.conserved]
        exact distinct
      obtain ⟨action, next, deltas, applied⟩ :=
        exists_accepted sound.shape sound.phase drafting ids
      have later := step_sound sound applied
      have := later.progress
      obtain ⟨final, reached, done⟩ := ih _ (by omega) later rfl
      exact ⟨final, .head ⟨action, deltas, applied⟩ reached, done⟩
    · exact ⟨session, .refl, done, empty⟩

theorem served_once (sound : BarrierSound packs session since accepted)
    (h : applyBarrier session action = .ok (next, deltas)) :
    action.seat ∉ since ∧ (endsStep deltas = true → ∀ seat < session.seats.length,
      owesPick session seat = true → seat ∈ action.seat :: since) := by
  obtain ⟨left, pool, ids, move, result⟩ := applyBarrier_ok sound.shape h
  have moved := sound.shape.redeal action.seat left pool
  constructor
  · intro again
    have := (sound.since _ move.bound).mpr again
    simp [move.fresh] at this
  · intro ended seat bound owes
    obtain ⟨_, _, _, _, _, flags⟩ := finishPick_spec moved move.drafting
      (sound.phase.supplied move.drafting) move.bound ids
    rw [← result] at flags
    rcases flags with ⟨open_, _⟩ | ⟨_, complete, _⟩
    · simp [ended] at open_
    · by_cases own : seat = action.seat
      · exact own ▸ mem_cons_self
      · have served := all_eq_true.mp complete seat (mem_range.mpr bound)
        have flag := picked_markPicked moved move.bound seat
        have held : owesPick (markPicked (redeal session action.seat left pool) action.seat) seat
            = owesPick session seat := by
          have := heldPack_redeal sound.shape move.bound left pool seat
          rw [if_neg own] at this
          simpa [owesPick, heldPack, markPicked] using congrArg (!isEmpty ·) this
        rw [held, owes] at served
        have marked : picked (markPicked (redeal session action.seat left pool) action.seat) seat
            = true := by simpa [picked] using served
        have same : picked (redeal session action.seat left pool) seat = picked session seat := rfl
        rw [flag, same] at marked
        have before : picked session seat = true := by simpa [own] using marked
        exact mem_cons_of_mem _ ((sound.since seat bound).mp before)

/-- What the table may rely on after any run of accepted picks. -/
structure BarrierGuarantee (packs : List (List DraftPack)) (session : DraftSession)
    (since : List Nat) (accepted : Nat) : Prop where
  conserved : allCards session = bag packs.flatten.flatten
  moves : ∀ seat ids next deltas, applyPick session seat ids = .ok (next, deltas) →
    ∃ left taken, Takes (heldPack session seat) ids left taken ∧ ids.Nodup ∧
      taken.length = session.requiredPickCount seat ∧
      next.pools = session.pools.set seat (session.pools.getD seat [] ++ taken)
  once : ∀ action next deltas, applyBarrier session action = .ok (next, deltas) →
    action.seat ∉ since ∧ (endsStep deltas = true → ∀ seat < session.seats.length,
      owesPick session seat = true → seat ∈ action.seat :: since)
  unstuck : session.status = .drafting →
    ∃ seat < session.seats.length, owesPick session seat = true ∧ seat ∉ since
  finite : accepted + (packCards session).card ≤ packs.flatten.flatten.length
  ending : session.status = .drafting ∨ (session.status = .deckbuilding ∧ packCards session = 0)
  reaches : (packs.flatten.flatten.map (·.instanceId)).Nodup →
    ∃ final, Relation.ReflTransGen Accepts session final ∧ final.status = .deckbuilding ∧
      packCards final = 0

theorem applyPick_pools {ids : List String} (sound : BarrierSound packs session since accepted)
    (h : applyPick session seat ids = .ok (next, deltas)) :
    ∃ left taken, Takes (heldPack session seat) ids left taken ∧ ids.Nodup ∧
      taken.length = session.requiredPickCount seat ∧
      next.pools = session.pools.set seat (session.pools.getD seat [] ++ taken) := by
  obtain ⟨left, taken, takes, count, distinct, move, result⟩ := applyPick_ok sound.shape h
  obtain ⟨_, _, _, pools, _⟩ := finishPick_spec (sound.shape.redeal seat left _) move.drafting
    (sound.phase.supplied move.drafting) move.bound ids
  rw [← result] at pools
  refine ⟨left, taken, takes, distinct, ?_, pools⟩
  rw [← count, ← takes.named, length_map]

/-- From any deal of non-empty boosters, however the seats pick, the draft keeps
its cards, serves each seat once a step, never waits for nobody and ends with
its packs empty. -/
theorem barrier_draft_conserves_and_finishes {config : DraftConfig} {seats : List DraftSeat}
    {packs : List (List DraftPack)} {start session : DraftSession} {deltas : List DraftDelta}
    {since : List Nat} {accepted : Nat} (rounds : 0 < config.packCount)
    (dealt : Dealt seats.length config.packCount packs)
    (started : startPickAndPass (new config seats) (.ok packs) = .ok (start, deltas))
    (run : BarrierRun start session since accepted) :
    BarrierGuarantee packs session since accepted := by
  have sound := run_sound (deal_sound dealt rounds started) run
  constructor
  · exact sound.conserved
  · intro seat ids next deltas applied
    exact applyPick_pools sound applied
  · intro action next deltas applied
    exact served_once sound applied
  · intro drafting
    rcases sound.phase with ⟨_, _, seat, bound, owes, fresh⟩ | ⟨done, _⟩
    · refine ⟨seat, bound, owes, fun mem => ?_⟩
      have := (sound.since seat bound).mpr mem
      simp [fresh] at this
    · rw [drafting] at done
      cases done
  · exact sound.progress
  · exact sound.phase.imp And.left id
  · exact reaches_deckbuilding sound

def cubeConfig : DraftConfig where
  flow := .legacyBarrier
  source := .cube "cube" "Cube"
  setCode := "cube"
  kind := .quick
  podSize := 2
  cardsPerPack := 2
  packCount := 1
  minDeckSize := 40
  tournamentFormat := .swiss

def twoSeats : List DraftSeat := [.human 0 "Seat 0", .bot "Bot"]

/-- Seat 0 opens two cards, seat 1 only one. -/
def unevenPacks : List (List DraftPack) :=
  [[[{ instanceId := "a" }, { instanceId := "b" }]], [[{ instanceId := "c" }]]]

def afterActions (session : DraftSession) (actions : List BarrierAction) : DraftSession :=
  actions.foldl (fun session action =>
    match applyBarrier session action with
    | .ok (next, _) => next
    | .error _ => session) session

def unevenStart : DraftSession := dealPacks (new cubeConfig twoSeats) unevenPacks

theorem uneven_packs_finish :
    let final := afterActions unevenStart [.pick 0 ["a"], .pick 1 ["c"], .pick 1 ["b"]]
    final.status = .deckbuilding ∧ final.pools = [[{ instanceId := "a" }],
      [{ instanceId := "c" }, { instanceId := "b" }]] ∧
      BarrierGuarantee unevenPacks final [] 3 := by
  have dealt : Dealt twoSeats.length cubeConfig.packCount unevenPacks :=
    ⟨by decide, by decide, by decide⟩
  have started : startPickAndPass (new cubeConfig twoSeats) (.ok unevenPacks) =
      .ok (unevenStart, [.draftStarted]) := by decide +kernel
  have first : applyBarrier unevenStart (.pick 0 ["a"]) =
      .ok (afterActions unevenStart [.pick 0 ["a"]], [.cardPicked 0 "a"]) := by decide +kernel
  have second : applyBarrier (afterActions unevenStart [.pick 0 ["a"]]) (.pick 1 ["c"]) =
      .ok (afterActions unevenStart [.pick 0 ["a"], .pick 1 ["c"]],
        [.cardPicked 1 "c", .packPassed]) := by decide +kernel
  have third : applyBarrier (afterActions unevenStart [.pick 0 ["a"], .pick 1 ["c"]])
      (.pick 1 ["b"]) = .ok (afterActions unevenStart [.pick 0 ["a"], .pick 1 ["c"], .pick 1 ["b"]],
        [.cardPicked 1 "b", .transitionedTo .deckbuilding]) := by decide +kernel
  have run := BarrierRun.accept (BarrierRun.accept (BarrierRun.accept .start first) second) third
  have guarantee := barrier_draft_conserves_and_finishes (by decide) dealt started run
  exact ⟨by decide +kernel, by decide +kernel, guarantee⟩

end Phase.Draft
