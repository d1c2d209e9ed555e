import Phase.Draft.LegacyApply
import Phase.Lib.Editing
import Phase.Lib.Fallible

/-! What a refused action of the legacy flow has done to the session. -/
namespace Phase.Draft.Legacy
open Editing List EStateM

def Failure.isRefusal : Failure → Prop
  | .refused _ => True
  | .panicked => False

/-- The same session, up to entries at the end of the bitmaps that read as their absence
does. -/
structure Padded (s t : LegacySession) : Prop where
  rest : t = { s with
    seatsPickedThisRound := t.seatsPickedThisRound, connectedSeats := t.connectedSeats }
  picked : ∃ n, t.seatsPickedThisRound = s.seatsPickedThisRound ++ replicate n false
  connected : ∃ n, t.connectedSeats = s.connectedSeats ++ replicate n true

namespace Padded

theorem refl (s : LegacySession) : Padded s s :=
  ⟨rfl, ⟨0, (append_nil _).symm⟩, 0, (append_nil _).symm⟩

theorem trans {s t u : LegacySession} (first : Padded s t) (second : Padded t u) : Padded s u := by
  obtain ⟨m, picked⟩ := first.picked
  obtain ⟨n, picked'⟩ := second.picked
  obtain ⟨i, connected⟩ := first.connected
  obtain ⟨j, connected'⟩ := second.connected
  refine ⟨?_, ⟨m + n, ?_⟩, i + j, ?_⟩
  · rw [second.rest, first.rest]
  · rw [picked', picked, append_assoc, replicate_append_replicate]
  · rw [connected', connected, append_assoc, replicate_append_replicate]

theorem ensureFlags (s : LegacySession) (podSize : Nat) :
    Padded s { s with
      seatsPickedThisRound := ensureLen s.seatsPickedThisRound podSize false
      connectedSeats := ensureLen s.connectedSeats podSize true } :=
  ⟨rfl, ⟨_, rfl⟩, _, rfl⟩

end Padded

section
variable {α β : Type}

/-- A step that only pads the session, when it succeeds and when it refuses. -/
abbrev Pads (step : Reducer α) : Prop := Steady Failure.isRefusal Padded step

/-- An action whose refusals leave the session as it was, up to padding. -/
abbrev IsAtomic (action : Reducer α) : Prop := Atomic Failure.isRefusal Padded action

abbrev NeverRefuses (step : Reducer α) : Prop := Granted Failure.isRefusal step

theorem Pads.and {step : Reducer α} {rest : α → Reducer β} (first : Pads step)
    (second : ∀ a, Pads (rest a)) : Pads (step >>= rest) := first.bind Padded.trans second

theorem Pads.andThen {step : Reducer α} {rest : α → Reducer β} (first : Pads step)
    (second : ∀ a, IsAtomic (rest a)) : IsAtomic (step >>= rest) := first.then Padded.trans second

theorem get_pads : Pads (get : Reducer LegacySession) := steady_get Padded.refl

theorem modify_pads {f : LegacySession → LegacySession} (moves : ∀ s, Padded s (f s)) :
    Pads (modify f : Reducer PUnit) := steady_modify moves

theorem refuse_pads (error : DraftError) : Pads (refuse error : Reducer α) :=
  steady_throw Padded.refl _

theorem refuseWhen_pads (c : Prop) [Decidable c] (error : DraftError) :
    Pads (refuseWhen c error) := by
  unfold refuseWhen
  split
  · exact refuse_pads error
  · exact steady_pure Padded.refl ()

theorem attempt_pads (verdict : Except DraftError α) : Pads (attempt verdict) := by
  cases verdict with
  | ok a => exact steady_pure Padded.refl a
  | error error => exact refuse_pads error

theorem require_pads (error : DraftError) (found : Option α) : Pads (require error found) := by
  cases found with
  | some a => exact steady_pure Padded.refl a
  | none => exact refuse_pads error

theorem expect_pads (found : Option α) : Pads (expect found) := by
  cases found with
  | some a => exact steady_pure Padded.refl a
  | none => exact steady_throw Padded.refl _

theorem indexed_pads (xs : List α) (i : Nat) : Pads (indexed xs i) := expect_pads _

theorem expect_granted (found : Option α) : NeverRefuses (expect found) := by
  cases found with
  | some a => exact granted_pure a
  | none => exact fun _ => id

theorem putPack_granted (seat : Nat) (pack : DraftPack) : NeverRefuses (putPack seat pack) :=
  granted_modify _

theorem putPool_granted (seat : Nat) (pool : List DraftCardInstance) :
    NeverRefuses (putPool seat pool) := granted_modify _

theorem putEvent_granted (event : EventRecord) : NeverRefuses (putEvent event) :=
  granted_modify _

theorem putStatus_granted (status : DraftStatus) : NeverRefuses (putStatus status) :=
  granted_modify _

end

theorem openPick_pads (seat : Nat) (action : String) : Pads (openPick seat action) := by
  refine get_pads.and fun session => ?_
  refine (refuseWhen_pads _ _).and fun _ => ?_
  refine (refuseWhen_pads _ _).and fun _ => ?_
  refine (modify_pads fun s => Padded.ensureFlags s s.seatCount).and fun _ => ?_
  exact get_pads.and fun padded => refuseWhen_pads _ _

theorem settlePick_granted (seat : Nat) (ids : List String) : NeverRefuses (settlePick seat ids) :=
  granted_get.bind fun _ => (granted_set _).bind fun _ => granted_pure _

theorem applyPick_atomic (seat : Nat) (ids : List String) : IsAtomic (applyPick seat ids) := by
  refine get_pads.andThen fun session => ?_
  refine (attempt_pads _).andThen fun _ => ?_
  refine (openPick_pads seat _).andThen fun _ => ?_
  refine get_pads.andThen fun padded => ?_
  refine (indexed_pads _ _).andThen fun held => ?_
  refine (refuseWhen_pads _ _).andThen fun _ => ?_
  refine (refuseWhen_pads _ _).andThen fun _ => ?_
  refine (attempt_pads _).andThen fun indices => ?_
  refine Granted.atomic ?_
  refine (putPack_granted seat _).bind fun _ => ?_
  refine (expect_granted _).bind fun pool => ?_
  exact (putPool_granted seat _).bind fun _ => settlePick_granted seat ids

theorem applyPickWithDraftEffect_atomic (seat : Nat) (effectId : String) (ids : List String) :
    IsAtomic (applyPickWithDraftEffect seat effectId ids) := by
  refine get_pads.andThen fun session => ?_
  refine (attempt_pads _).andThen fun _ => ?_
  refine (refuseWhen_pads _ _).andThen fun _ => ?_
  refine (openPick_pads seat _).andThen fun _ => ?_
  refine get_pads.andThen fun padded => ?_
  refine (refuseWhen_pads _ _).andThen fun _ => ?_
  refine (indexed_pads _ _).andThen fun pool => ?_
  refine (require_pads _ _).andThen fun effectIndex => ?_
  refine (indexed_pads _ _).andThen fun held => ?_
  refine (require_pads _ _).andThen fun pack => ?_
  split
  · exact (refuse_pads _).atomic
  · refine Granted.atomic ?_
    refine (putPack_granted seat _).bind fun _ => ?_
    refine (putPool_granted seat _).bind fun _ => ?_
    exact (putPack_granted seat _).bind fun _ => settlePick_granted seat ids

theorem applySubmitDeck_atomic (around : Surroundings) (seat : Nat)
    (mainDeck commanders : List String) :
    IsAtomic (applySubmitDeck around seat mainDeck commanders) := by
  refine get_pads.andThen fun session => ?_
  refine (refuseWhen_pads _ _).andThen fun _ => ?_
  refine (refuseWhen_pads _ _).andThen fun _ => ?_
  refine (refuseWhen_pads _ _).andThen fun _ => ?_
  refine (indexed_pads _ _).andThen fun pool => ?_
  refine (refuseWhen_pads _ _).andThen fun _ => ?_
  refine Granted.atomic ?_
  refine (putEvent_granted _).bind fun _ => ?_
  refine granted_get.bind fun submitted => ?_
  split
  · exact (putStatus_granted _).bind fun _ => granted_pure _
  · exact granted_pure _

theorem applyGeneratePairings_atomic (around : Surroundings) :
    IsAtomic (applyGeneratePairings around) := by
  refine get_pads.andThen fun session => ?_
  refine (refuseWhen_pads _ _).andThen fun _ => ?_
  refine (refuseWhen_pads _ _).andThen fun _ => ?_
  refine (refuseWhen_pads _ _).andThen fun _ => ?_
  refine Granted.atomic ?_
  refine (putEvent_granted _).bind fun _ => ?_
  refine granted_get.bind fun paired => ?_
  refine (putEvent_granted _).bind fun _ => ?_
  refine (putStatus_granted _).bind fun _ => ?_
  exact granted_get.bind fun credited => (putEvent_granted _).bind fun _ => granted_pure _

theorem applyReportMatchResult_atomic (matchId : String) (winnerSeat : Option Nat) :
    IsAtomic (applyReportMatchResult matchId winnerSeat) := by
  refine get_pads.andThen fun session => ?_
  refine (refuseWhen_pads _ _).andThen fun _ => ?_
  refine (require_pads _ _).andThen fun index => ?_
  refine (indexed_pads _ _).andThen fun pairing => ?_
  refine (refuseWhen_pads _ _).andThen fun _ => ?_
  refine (refuseWhen_pads _ _).andThen fun _ => ?_
  refine (attempt_pads _).andThen fun winner => ?_
  refine Granted.atomic ?_
  refine (putEvent_granted _).bind fun _ => ?_
  exact granted_get.bind fun settled => (putStatus_granted _).bind fun _ => granted_pure _

theorem applyAdvanceRound_atomic : IsAtomic applyAdvanceRound := by
  refine get_pads.andThen fun session => ?_
  refine (refuseWhen_pads _ _).andThen fun _ => ?_
  exact ((putStatus_granted _).bind fun _ => granted_pure _).atomic

theorem applyReplaceSeatWithBot_atomic (seat : Nat) (name : Option String) :
    IsAtomic (applyReplaceSeatWithBot seat name) := by
  refine get_pads.andThen fun session => ?_
  refine (refuseWhen_pads _ _).andThen fun _ => ?_
  exact ((granted_modify _).bind fun _ => granted_pure _).atomic

theorem applySetSeatConnected_atomic (seat : Nat) (connected : Bool) :
    IsAtomic (applySetSeatConnected seat connected) := by
  refine get_pads.andThen fun session => ?_
  refine (refuseWhen_pads _ _).andThen fun _ => ?_
  refine (indexed_pads _ _).andThen fun occupant => ?_
  cases occupant with
  | bot name => exact (refuse_pads _).atomic
  | human playerId displayName =>
    refine Granted.atomic ?_
    exact (granted_modify _).bind fun _ => (granted_modify _).bind fun _ => granted_pure _

/-- A decision that is refused leaves the very session it was given. -/
theorem decision_refused {session next : StackSession} {seat pile : Nat}
    {decision : SharedStackPileDecision} {error : DraftError}
    (refused : Draft.applySharedStackDecision session seat pile decision = (next, .error error)) :
    next = session := by
  unfold Draft.applySharedStackDecision at refused
  split at refused
  · cases refused
    rfl
  split at refused
  · cases refused
    rfl
  cases stack : session.sharedStack with
  | none =>
    simp only [stack, Prod.mk.injEq] at refused
    exact refused.1.symm
  | some state =>
    cases verdict : refusalFor state seat pile decision with
    | some reason =>
      simp only [stack, verdict, Prod.mk.injEq] at refused
      exact refused.1.symm
    | none => simp [stack, verdict] at refused

theorem applySharedStackDecision_atomic (seat pile : Nat) (decision : SharedStackPileDecision) :
    IsAtomic (applySharedStackDecision seat pile decision) := by
  intro session
  cases decided : Draft.applySharedStackDecision session.toStackSession seat pile decision with
  | mk next result =>
    cases result with
    | ok deltas =>
      simp only [applySharedStackDecision, run_bind, run_get, decided]
      exact trivial
    | error error =>
      obtain rfl := decision_refused decided
      simp only [applySharedStackDecision, run_bind, run_get, decided]
      exact fun _ => Padded.refl session

/-- The boosters are not those the distribution deals. -/
def Malformed (session : LegacySession) (allPacks : List (List DraftPack)) : Prop :=
  let procedure := session.kind.procedure
  match procedure.distribution with
  | .pickAndPass => False
  | .allAtOnce => dealsPerSeat session procedure.packsPerPlayer allPacks = false
  | .sharedStackPiles pileCount =>
    dealsPerSeat session procedure.packsPerPlayer allPacks = false ∨
      allPacks.flatten.flatten.length < pileCount

/-- What a start has written down by the time the boosters are looked at. -/
def recorded (session : LegacySession) (source : PackSource) (allPacks : List (List DraftPack)) :
    LegacySession :=
  { session with
    boosterPackPool := source.boosterPackPool, packSizes := recordedSizes allPacks }

variable {allPacks : List (List DraftPack)} {session : LegacySession}

theorem recorded_padded_iff {source : PackSource} :
    Padded session (recorded session source allPacks) ↔
      source.boosterPackPool = session.boosterPackPool ∧
        recordedSizes allPacks = session.packSizes := by
  constructor
  · intro padded
    exact ⟨congrArg LegacySession.boosterPackPool padded.rest,
      congrArg (fun t : LegacySession => t.packSizes) padded.rest⟩
  · rintro ⟨pool, sizes⟩
    have same : recorded session source allPacks = session := by
      unfold recorded
      rw [pool, sizes]
    rw [same]
    exact Padded.refl session

theorem pileCount_pos {kind : DraftKind} {pileCount : Nat}
    (piles : kind.procedure.distribution = .sharedStackPiles pileCount) : 0 < pileCount := by
  cases kind <;> simp [DraftKind.procedure] at piles
  omega

theorem openBooster_granted (seat : Nat) (packs : List DraftPack) :
    NeverRefuses (openBooster seat packs) := by
  cases packs with
  | nil => exact fun _ => id
  | cons first rest =>
    refine granted_get.bind fun session => ?_
    split
    · exact granted_set _
    · exact fun _ => id

theorem dealToPass_granted (allPacks : List (List DraftPack)) :
    NeverRefuses (dealToPass allPacks) := by
  refine (granted_modify _).bind fun _ => ?_
  refine (granted_forM fun (dealt : List DraftPack × Nat) =>
    openBooster_granted dealt.2 dealt.1).bind fun _ => ?_
  exact (granted_modify _).bind fun _ => granted_pure _

theorem dealsPerSeat_eq_false_iff {packsPerSeat : Nat} :
    dealsPerSeat session packsPerSeat allPacks = false ↔
      allPacks.length ≠ session.seats.length ∨
        allPacks.any (fun packs => packs.length ≠ packsPerSeat) = true := by
  simp only [dealsPerSeat, decide_eq_false_iff_not, not_and_or, all_eq_true, any_eq_true,
    decide_eq_true_eq, not_forall, exists_prop]

theorem dealSharedStack_refused_iff {packsPerSeat pileCount : Nat}
    (shuffle : List DraftCardInstance → List DraftCardInstance) (startingSeat : Nat)
    (piles : 0 < pileCount) :
    (∃ error, dealSharedStack session.toStackSession packsPerSeat pileCount allPacks shuffle
        startingSeat = .error error) ↔
      dealsPerSeat session packsPerSeat allPacks = false ∨
        allPacks.flatten.flatten.length < pileCount := by
  have needed : pilesNeeded pileCount = .ok pileCount := if_neg (Nat.ne_of_gt piles)
  rw [dealsPerSeat_eq_false_iff]
  unfold dealSharedStack
  by_cases wrong : allPacks.length ≠ session.seats.length ∨
      allPacks.any (fun packs => packs.length ≠ packsPerSeat) = true
  · rw [if_pos wrong]
    exact iff_of_true ⟨_, rfl⟩ (.inl wrong)
  rw [if_neg wrong, needed]
  by_cases few : allPacks.flatten.flatten.length < pileCount
  · refine iff_of_true ⟨.insufficientCards allPacks.flatten.flatten.length pileCount, ?_⟩ (.inr few)
    simp only [Fallible.ok_bind, if_pos few]
    rfl
  · refine iff_of_false ?_ (not_or.mpr ⟨wrong, few⟩)
    rintro ⟨error, failed⟩
    simp only [Fallible.ok_bind, if_neg few] at failed
    cases failed

/-- The deal goes through, or refuses malformed boosters where it stands, or panics. -/
theorem deal_ends (around : Surroundings) (session : LegacySession)
    (allPacks : List (List DraftPack)) :
    Ends (fun _ _ => ¬Malformed session allPacks)
      (fun failure t => failure.isRefusal ∧ Malformed session allPacks ∧ t = session ∨
        ¬failure.isRefusal ∧ ¬Malformed session allPacks)
      ((deal around session.kind.procedure allPacks).run session) := by
  cases distribution : session.kind.procedure.distribution with
  | pickAndPass =>
    have fine : ¬Malformed session allPacks := by simp [Malformed, distribution]
    simp only [deal, distribution]
    exact (dealToPass_granted allPacks session).mono (fun _ _ _ => fine)
      fun _ _ granted => .inr ⟨granted, fine⟩
  | allAtOnce =>
    have malformed : Malformed session allPacks ↔
        dealsPerSeat session session.kind.procedure.packsPerPlayer allPacks = false := by
      simp only [Malformed, distribution]
    rw [malformed]
    simp only [deal, distribution, dealAllAtOnce, run_bind, run_get]
    by_cases short : dealsPerSeat session session.kind.procedure.packsPerPlayer allPacks = false
    · rw [refuseWhen, if_pos short]
      exact .inl ⟨trivial, short, rfl⟩
    · rw [refuseWhen, if_neg short]
      exact short
  | sharedStackPiles pileCount =>
    have malformed : Malformed session allPacks ↔ ∃ error,
        dealSharedStack session.toStackSession session.kind.procedure.packsPerPlayer pileCount
          allPacks around.shuffleStack around.startingSeat = .error error := by
      simp only [Malformed, distribution]
      exact (dealSharedStack_refused_iff _ _ (pileCount_pos distribution)).symm
    rw [malformed]
    simp only [deal, distribution, dealStack, run_bind, run_get]
    cases dealt : dealSharedStack session.toStackSession session.kind.procedure.packsPerPlayer
        pileCount allPacks around.shuffleStack around.startingSeat with
    | error error => exact .inl ⟨trivial, ⟨error, rfl⟩, rfl⟩
    | ok result =>
      rintro ⟨error, failed⟩
      cases failed

theorem apply_run (around : Surroundings) (action : LegacyAction) (session : LegacySession) :
    (apply around action).run session =
      if session.config.flow = .fifoAsync then
        .error (.refused .explicitTimeRequired) session
      else
        match validateLegacyAdmission session.toDraftSession with
        | .error error => .error (.refused error) session
        | .ok () =>
          if action = .fifoOnly then .error (.refused .incompatibleFlow) session
          else (applyExisting around action).run session := by
  simp only [apply, run_bind, run_get]
  by_cases fifo : session.config.flow = .fifoAsync
  · rw [refuseWhen, if_pos fifo, if_pos fifo]
    rfl
  rw [refuseWhen, if_neg fifo, if_neg fifo]
  cases admitted : validateLegacyAdmission session.toDraftSession with
  | error error => rfl
  | ok value =>
    by_cases only : action = .fifoOnly
    · subst only
      rfl
    · simp only [if_neg only]
      rw [refuseWhen, if_neg only]
      rfl

theorem applyStartDraft_run (around : Surroundings) (session : LegacySession) :
    (applyStartDraft around).run session =
      match admitStart session with
      | .error error => .error (.refused error) session
      | .ok () =>
        match around.packSource with
        | none => .error .panicked session
        | some source =>
          match source.generatePacks session.config session.seatCount with
          | .error error => .error (.refused error) session
          | .ok allPacks => (deal around session.kind.procedure allPacks).run
              (recorded session source allPacks) := by
  simp only [applyStartDraft, run_bind, run_get]
  cases admitStart session with
  | error error => rfl
  | ok value =>
    cases around.packSource with
    | none => rfl
    | some source =>
      simp only [generateStartPacks, attempt, expect, run_bind, run_get, run_pure]
      cases source.generatePacks session.config session.seatCount <;> rfl

/-- An action other than a start leaves the session as it was when it is refused. -/
theorem applyExisting_atomic {around : Surroundings} {action : LegacyAction}
    (other : action ≠ .startDraft) : IsAtomic (applyExisting around action) := by
  cases action with
  | startDraft => exact absurd rfl other
  | fifoOnly => exact (refuse_pads _).atomic
  | pick seat ids => exact applyPick_atomic seat ids
  | pickWithDraftEffect seat effectId ids => exact applyPickWithDraftEffect_atomic seat effectId ids
  | sharedStackDecision seat pile decision =>
    exact applySharedStackDecision_atomic seat pile decision
  | submitDeck seat mainDeck commanders =>
    exact applySubmitDeck_atomic around seat mainDeck commanders
  | generatePairings => exact applyGeneratePairings_atomic around
  | reportMatchResult matchId winnerSeat => exact applyReportMatchResult_atomic matchId winnerSeat
  | advanceRound => exact applyAdvanceRound_atomic
  | replaceSeatWithBot seat name => exact applyReplaceSeatWithBot_atomic seat name
  | setSeatConnected seat connected => exact applySetSeatConnected_atomic seat connected

/-- A start that is admitted, whose source answers with malformed boosters, and for which the
session does not already hold what the start writes down before it looks at them. -/
structure Misdeals (around : Surroundings) (action : LegacyAction) (session : LegacySession)
    (source : PackSource) (allPacks : List (List DraftPack)) : Prop where
  start : action = .startDraft
  legacy : validateLegacyAdmission session.toDraftSession = .ok ()
  admitted : admitStart session = .ok ()
  given : around.packSource = some source
  generated : source.generatePacks session.config session.seatCount = .ok allPacks
  malformed : Malformed session allPacks
  unwritten : source.boosterPackPool ≠ session.boosterPackPool ∨
    recordedSizes allPacks ≠ session.packSizes

theorem deal_padded_iff (around : Surroundings) (session : LegacySession) (source : PackSource)
    (allPacks : List (List DraftPack)) :
    (∀ error after, (deal around session.kind.procedure allPacks).run
        (recorded session source allPacks) = .error (.refused error) after →
      Padded session after) ↔
    ¬(Malformed session allPacks ∧ (source.boosterPackPool ≠ session.boosterPackPool ∨
      recordedSizes allPacks ≠ session.packSizes)) := by
  have ends := deal_ends around (recorded session source allPacks) allPacks
  constructor
  · rintro padded ⟨malformed, unwritten⟩
    cases ran : (deal around session.kind.procedure allPacks).run
        (recorded session source allPacks) with
    | ok deltas after => exact ends.ok ran malformed
    | error failure after =>
      obtain ⟨refused, -, rfl⟩ | ⟨-, fine⟩ := ends.error ran
      · cases failure with
        | panicked => exact refused
        | refused error =>
          obtain ⟨pool, sizes⟩ := recorded_padded_iff.mp (padded error _ ran)
          exact unwritten.elim (absurd pool) (absurd sizes)
      · exact fine malformed
  · intro fine error after refused
    obtain ⟨-, malformed, rfl⟩ | ⟨never, -⟩ := ends.error refused
    · have written : ¬(source.boosterPackPool ≠ session.boosterPackPool ∨
          recordedSizes allPacks ≠ session.packSizes) :=
        fun unwritten => fine ⟨malformed, unwritten⟩
      exact recorded_padded_iff.mpr (by simpa only [not_or, not_not] using written)
    · exact absurd trivial never

theorem start_padded_iff (around : Surroundings) (session : LegacySession)
    (legacy : validateLegacyAdmission session.toDraftSession = .ok ()) :
    (∀ error after, (applyStartDraft around).run session = .error (.refused error) after →
      Padded session after) ↔
    ¬∃ source allPacks, Misdeals around .startDraft session source allPacks := by
  rw [applyStartDraft_run]
  cases admitted : admitStart session with
  | error error =>
    refine iff_of_true ?_ ?_
    · rintro error after ⟨⟩
      exact Padded.refl session
    · rintro ⟨source, allPacks, misdeal⟩
      cases admitted.symm.trans misdeal.admitted
  | ok value =>
    cases given : around.packSource with
    | none =>
      refine iff_of_true ?_ ?_
      · rintro error after ⟨⟩
      · rintro ⟨source, allPacks, misdeal⟩
        cases given.symm.trans misdeal.given
    | some source =>
      dsimp only
      cases generated : source.generatePacks session.config session.seatCount with
      | error error =>
        refine iff_of_true ?_ ?_
        · rintro error after ⟨⟩
          exact Padded.refl session
        · rintro ⟨source', allPacks, misdeal⟩
          obtain rfl : source = source' := Option.some.inj (given.symm.trans misdeal.given)
          cases generated.symm.trans misdeal.generated
      | ok allPacks =>
        refine (deal_padded_iff around session source allPacks).trans (not_congr ?_)
        constructor
        · rintro ⟨malformed, unwritten⟩
          exact ⟨source, allPacks, rfl, legacy, admitted, given, generated, malformed, unwritten⟩
        · rintro ⟨source', allPacks', misdeal⟩
          obtain rfl : source = source' := Option.some.inj (given.symm.trans misdeal.given)
          obtain rfl : allPacks = allPacks' :=
            Except.ok.inj (generated.symm.trans misdeal.generated)
          exact ⟨misdeal.malformed, misdeal.unwritten⟩

/-- A refused action leaves the session exactly as it was, up to padding of its bitmaps, but for
a start that turns down the boosters it was dealt after writing about them. -/
theorem refused_padded_iff (around : Surroundings) (action : LegacyAction)
    (session : LegacySession) :
    (∀ error after, (apply around action).run session = .error (.refused error) after →
      Padded session after) ↔
    ¬∃ source allPacks, Misdeals around action session source allPacks := by
  rw [apply_run]
  by_cases fifo : session.config.flow = .fifoAsync
  · rw [if_pos fifo]
    refine iff_of_true ?_ ?_
    · rintro error after ⟨⟩
      exact Padded.refl session
    · rintro ⟨source, allPacks, misdeal⟩
      have refused : validateLegacyAdmission session.toDraftSession = .error .incompatibleFlow :=
        if_pos (.inl (by simp [fifo]))
      cases refused.symm.trans misdeal.legacy
  rw [if_neg fifo]
  cases legacy : validateLegacyAdmission session.toDraftSession with
  | error error =>
    refine iff_of_true ?_ ?_
    · rintro error after ⟨⟩
      exact Padded.refl session
    · rintro ⟨source, allPacks, misdeal⟩
      cases legacy.symm.trans misdeal.legacy
  | ok value =>
    by_cases start : action = .startDraft
    · subst start
      exact start_padded_iff around session legacy
    · refine iff_of_true ?_ ?_
      · intro error after refused
        by_cases only : action = .fifoOnly
        · rw [if_pos only] at refused
          cases refused
          exact Padded.refl session
        · rw [if_neg only] at refused
          exact (applyExisting_atomic start session).error refused trivial
      · rintro ⟨source, allPacks, misdeal⟩
        exact start misdeal.start

/-- A two-seat shared-stack pod that has not started. -/
def winstonLobby : LegacySession :=
  { DraftSession.new
      { flow := .legacyBarrier, source := .set (.uniformByRound ["TST"]), setCode := "TST"
        kind := .winston, podSize := 2, cardsPerPack := 14, packCount := 3, minDeckSize := 40
        tournamentFormat := .swiss }
      [.human 0 "Host", .human 1 "Guest"] with
    sharedStack := none
    boosterPackPool := none }

/-- A source whose boosters hold no cards. -/
def emptyBoosters : Surroundings where
  packSource := some {
    boosterPackPool := none
    generatePacks := fun config seatCount =>
      .ok (replicate seatCount (replicate config.packCount [])) }
  shuffleBracket := fun _ _ => id
  shuffleStack := id
  startingSeat := 0
  validateLimitedDeck := fun _ _ _ _ => true

/-- The start is refused for want of cards, and the sizes of the empty boosters stay. -/
theorem refused_start_keeps_sizes :
    ¬∀ around action session error after,
      (apply around action).run session = .error (.refused error) after → Padded session after := by
  intro atomic
  have refused : (apply emptyBoosters .startDraft).run winstonLobby =
      .error (.refused (.insufficientCards 0 3)) { winstonLobby with packSizes := [0, 0, 0] } := by
    rfl
  have kept := (atomic _ _ _ _ _ refused).rest
  exact absurd (congrArg (fun session => session.packSizes) kept) (by decide)

end Phase.Draft.Legacy
