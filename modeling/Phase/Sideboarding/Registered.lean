import Phase.Lib.Fallible
import Phase.Sideboarding.Submission

/-! What a submission that is accepted stores, against what the player registered. -/
namespace Phase.Sideboarding
open Fallible List EStateM

variable {Data : Type}

def copiesSubmitted (cards : List DeckCardCount) (name : String) : Nat :=
  copies (·.name) (·.count) cards name

def copiesIn (entries : List (DeckEntry Data)) (name : String) : Nat :=
  copies (·.card.name) (·.count) entries name

def sizeSubmitted (cards : List DeckCardCount) : Nat := total (·.count) cards

def sizeOf (entries : List (DeckEntry Data)) : Nat := total (·.count) entries

namespace MatchState

/-- The greatest sideboard of the format. -/
def cap (state : MatchState Data) : Option UInt32 := match state.sideboardPolicy with
  | .forbidden => some 0
  | .limited max => some max
  | .unlimited => none

end MatchState

/-- The decks of a seat hold every card it registered as often as it registered it, the main deck
is no smaller than the format or the registered main deck, and the sideboard is within its cap. -/
structure KeepsPool (state : MatchState Data) (pool : PlayerDeckPool Data) : Prop where
  copies : ∀ name, copiesIn pool.currentMain name + copiesIn pool.currentSideboard name =
    copiesIn pool.registeredMain name + copiesIn pool.registeredSideboard name
  enough : min state.minCards.toNat (sizeOf pool.registeredMain) ≤ sizeOf pool.currentMain
  capped : ∀ max, state.cap = some max → sizeOf pool.currentSideboard ≤ max.toNat

/-- No sum that the check compares hides a wrap that the other side does not have. -/
structure CountsFit (state : MatchState Data) (pool : PlayerDeckPool Data)
    (main sideboard : List DeckCardCount) : Prop where
  wraps : ∀ name, (copiesSubmitted main name + copiesSubmitted sideboard name) / 2 ^ 32 =
    (copiesIn pool.registeredMain name + copiesIn pool.registeredSideboard name) / 2 ^ 32
  registered : sizeOf pool.registeredMain < 2 ^ 32 ∨ state.minCards.toNat ≤ sizeSubmitted main
  capped : state.cap.isSome → sizeSubmitted sideboard < 2 ^ 32

variable {name : String}

theorem face_name {pool : PlayerDeckPool Data} {face : CardFace Data}
    (found : pool.face? name = some face) : face.name = name := by
  obtain ⟨entry, first, rfl⟩ := Option.map_eq_some_iff.mp found
  simpa using find?_some first

theorem exists_of_copies {α : Type} {name : α → String} {count : α → UInt32} {cards : List α}
    {wanted : String} (listed : 0 < copies name count cards wanted) :
    ∃ card ∈ cards, name card = wanted := by
  induction cards with
  | nil => cases listed
  | cons card cards ih =>
    rw [copies_cons] at listed
    by_cases same : name card = wanted
    · exact ⟨card, by simp, same⟩
    · rw [if_neg same, Nat.zero_add] at listed
      obtain ⟨card', inside, same'⟩ := ih listed
      exact ⟨card', mem_cons_of_mem _ inside, same'⟩

theorem exists_face {pool : PlayerDeckPool Data}
    (listed : 0 < copiesIn pool.registeredMain name + copiesIn pool.registeredSideboard name) :
    ∃ face, pool.face? name = some face := by
  have inside : ∃ entry ∈ pool.registeredMain ++ pool.registeredSideboard,
      entry.card.name = name := by
    by_cases main : 0 < copiesIn pool.registeredMain name
    · obtain ⟨entry, mem, same⟩ := exists_of_copies main
      exact ⟨entry, mem_append_left _ mem, same⟩
    · obtain ⟨entry, mem, same⟩ := @exists_of_copies _ _ _ pool.registeredSideboard name (by
        change 0 < copiesIn pool.registeredSideboard name
        omega)
      exact ⟨entry, mem_append_right _ mem, same⟩
  obtain ⟨entry, mem, same⟩ := inside
  unfold PlayerDeckPool.face?
  cases found : (pool.registeredMain ++ pool.registeredSideboard ++ pool.registeredCommander ++
      pool.registeredCompanion).find? (·.card.name = name) with
  | some entry => exact ⟨entry.card, rfl⟩
  | none =>
    have absent := find?_eq_none.mp found entry (mem_append_left _ (mem_append_left _ mem))
    simp [same] at absent

/-- The entries of a submission whose names all have faces hold its counts. -/
theorem countsToEntries_ok {pool : PlayerDeckPool Data} {cards : List DeckCardCount}
    (faced : ∀ name, 0 < copiesSubmitted cards name → ∃ face, pool.face? name = some face) :
    ∃ entries, countsToEntries pool.face? cards = .ok entries ∧
      (∀ name, copiesIn entries name = copiesSubmitted cards name) ∧
      sizeOf entries = sizeSubmitted cards := by
  induction cards with
  | nil => exact ⟨[], rfl, fun _ => rfl, rfl⟩
  | cons card cards ih =>
    have later : ∀ name, 0 < copiesSubmitted cards name → ∃ face, pool.face? name = some face := by
      intro name listed
      apply faced
      unfold copiesSubmitted at listed ⊢
      rw [copies_cons]
      omega
    obtain ⟨entries, read, each, all⟩ := ih later
    rw [countsToEntries]
    by_cases none : card.count = 0
    · rw [if_pos none]
      refine ⟨entries, read, ?_, ?_⟩
      · intro name
        rw [each, copiesSubmitted, copiesSubmitted, copies_cons, none]
        simp
      · rw [all, sizeSubmitted, sizeSubmitted, total, total, map_cons, none]
        simp
    · rw [if_neg none]
      have positive : 0 < card.count.toNat := by
        have : card.count.toNat ≠ 0 := fun zero => none (UInt32.toNat_inj.mp zero)
        omega
      obtain ⟨face, found⟩ := faced card.name (by
        unfold copiesSubmitted
        rw [copies_cons, if_pos rfl]
        omega)
      simp only [found, read]
      refine ⟨⟨face, card.count⟩ :: entries, rfl, ?_, ?_⟩
      · intro name
        unfold copiesIn copiesSubmitted at each ⊢
        rw [copies_cons, copies_cons, each, face_name found]
      · unfold sizeOf sizeSubmitted total at all ⊢
        rw [map_cons, sum_cons, map_cons, sum_cons, all]

variable {state : MatchState Data} {player : PlayerId} {main sideboard : List DeckCardCount}
  {pool : PlayerDeckPool Data}

/-- What an accepted submission has passed, with sums that wrap. -/
structure Passes (state : MatchState Data) (player : PlayerId) (pool : PlayerDeckPool Data)
    (main sideboard : List DeckCardCount) : Prop where
  phase : state.matchPhase = .betweenGames
  found : state.pool? player = some pool
  enough : min state.minCards.toUInt32 (totalCount pool.registeredMain) ≤ submittedTotal main
  capped : ∀ max, state.cap = some max → submittedTotal sideboard ≤ max
  same : ∀ name,
    held (copiesSubmitted main name + copiesSubmitted sideboard name) =
      held (copiesIn pool.registeredMain name + copiesIn pool.registeredSideboard name)

theorem bounds_eq (found : state.pool? player = some pool) :
    state.sideboardSubmissionBounds player =
      (min state.minCards.toUInt32 (totalCount pool.registeredMain), state.cap) := by
  unfold MatchState.sideboardSubmissionBounds
  rw [found]
  rfl

theorem sameCounts_submitted : sameCounts (mergeCounts (toCountMap main) (toCountMap sideboard))
    (mergeCounts (entriesToCountMap pool.registeredMain)
      (entriesToCountMap pool.registeredSideboard)) = true ↔
    ∀ name, held (copiesSubmitted main name + copiesSubmitted sideboard name) =
      held (copiesIn pool.registeredMain name + copiesIn pool.registeredSideboard name) := by
  rw [sameCounts_iff]
  unfold toCountMap entriesToCountMap
  simp only [lookup_merged]
  rfl

theorem checkSubmission_ok : checkSubmission player main sideboard state = .ok pool ↔
    Passes state player pool main sideboard := by
  unfold checkSubmission
  cases found : state.pool? player with
  | none =>
    constructor
    · intro passed
      simp only [guard_eq_ok] at passed
      cases passed.2
    · intro passes
      cases found.symm.trans passes.found
  | some pool' =>
    rw [bounds_eq found]
    cases cap : state.cap with
    | none =>
      simp only [guard_eq_ok, pure_eq_ok, Bool.not_eq_true', Bool.not_eq_false,
        sameCounts_submitted, not_not]
      constructor
      · rintro ⟨phase, enough, same, rfl⟩
        exact ⟨phase, found, UInt32.not_lt.mp enough, by simp [cap], same⟩
      · rintro ⟨phase, found', enough, -, same⟩
        cases found.symm.trans found'
        exact ⟨phase, UInt32.not_lt.mpr enough, same, rfl⟩
    | some max =>
      simp only [guard_eq_ok, pure_eq_ok, Bool.not_eq_true', Bool.not_eq_false,
        sameCounts_submitted, not_not]
      constructor
      · rintro ⟨phase, enough, capped, same, rfl⟩
        exact ⟨phase, found, UInt32.not_lt.mp enough, by simpa [cap] using UInt32.not_lt.mp capped,
          same⟩
      · rintro ⟨phase, found', enough, capped, same⟩
        cases found.symm.trans found'
        exact ⟨phase, UInt32.not_lt.mpr enough, UInt32.not_lt.mpr (capped max cap), same, rfl⟩

theorem Passes.listed (passes : Passes state player pool main sideboard)
    (listed : 0 < copiesSubmitted main name + copiesSubmitted sideboard name) :
    ∃ face, pool.face? name = some face :=
  exists_face ((held_inj (passes.same name)).1.mp listed)

theorem Passes.entries (passes : Passes state player pool main sideboard) :
    ∃ entries entries', countsToEntries pool.face? main = .ok entries ∧
      countsToEntries pool.face? sideboard = .ok entries' ∧
      (∀ name, copiesIn entries name = copiesSubmitted main name) ∧
      (∀ name, copiesIn entries' name = copiesSubmitted sideboard name) ∧
      sizeOf entries = sizeSubmitted main ∧ sizeOf entries' = sizeSubmitted sideboard := by
  obtain ⟨entries, read, each, all⟩ := @countsToEntries_ok _ pool main fun name listed =>
    passes.listed (by omega)
  obtain ⟨entries', read', each', all'⟩ := @countsToEntries_ok _ pool sideboard fun name listed =>
    passes.listed (by omega)
  exact ⟨entries, entries', read, read', each, each', all, all'⟩

theorem find?_modify_findIdx {α : Type*} {p : α → Bool} {f : α → α}
    (keeps : ∀ a, p a → p (f a)) (xs : List α) :
    (xs.modify (xs.findIdx p) f).find? p = (xs.find? p).map f := by
  induction xs with
  | nil => rfl
  | cons a xs ih =>
    cases here : p a with
    | true => simp [findIdx_cons, here, keeps a here]
    | false => simpa [findIdx_cons, here] using ih

variable {change : PlayerDeckPool Data → PlayerDeckPool Data}

theorem pool?_modifyPool (keeps : ∀ pool, (change pool).player = pool.player) :
    (state.modifyPool player change).pool? player = (state.pool? player).map change := by
  apply find?_modify_findIdx
  intro pool own
  rw [keeps]
  exact own

/-- The state after a submission with these entries. -/
def withSubmission (player : PlayerId) (entries entries' : List (DeckEntry Data))
    (state : MatchState Data) : MatchState Data :=
  let state := state.modifyPool player ({ · with currentMain := entries })
  let state := state.modifyPool player ({ · with currentSideboard := entries' })
  if player ∈ state.sideboardSubmitted then state
  else { state with sideboardSubmitted := state.sideboardSubmitted ++ [player] }

theorem withSubmission_pool? (found : state.pool? player = some pool)
    (entries entries' : List (DeckEntry Data)) :
    (withSubmission player entries entries' state).pool? player =
      some { pool with currentMain := entries, currentSideboard := entries' } := by
  have pools : (withSubmission player entries entries' state).pool? player =
      ((state.modifyPool player ({ · with currentMain := entries })).modifyPool player
        ({ · with currentSideboard := entries' })).pool? player := by
    unfold withSubmission
    dsimp only
    split <;> rfl
  rw [pools, pool?_modifyPool, pool?_modifyPool, found]
  · rfl
  · intro pool
    rfl
  · intro pool
    rfl

/-- A submission is refused by its check and changes nothing, or is stored whole. -/
theorem storeSubmission_cases :
    (∃ message, (storeSubmission player main sideboard).run state = .error message state) ∨
    ∃ pool entries entries', Passes state player pool main sideboard ∧
      countsToEntries pool.face? main = .ok entries ∧
      countsToEntries pool.face? sideboard = .ok entries' ∧
      (storeSubmission player main sideboard).run state =
        .ok () (withSubmission player entries entries' state) := by
  cases checked : checkSubmission player main sideboard state with
  | error message =>
    left
    refine ⟨message, ?_⟩
    unfold storeSubmission
    simp only [run_bind, run_get, checked, ofExcept]
    rfl
  | ok pool =>
    right
    have passes := checkSubmission_ok.mp checked
    obtain ⟨entries, entries', read, read', -⟩ := passes.entries
    refine ⟨pool, entries, entries', passes, read, read', ?_⟩
    unfold storeSubmission
    simp only [run_bind, run_get, checked, ofExcept, run_pure, read, read', run_modify]
    rfl

theorem withSubmission_archenemy (entries entries' : List (DeckEntry Data)) :
    (withSubmission player entries entries' state).archenemy = state.archenemy := by
  unfold withSubmission
  dsimp only
  split <;> rfl

theorem players_modifyPool (keeps : ∀ pool, (change pool).player = pool.player) :
    (state.modifyPool player change).deckPools.map (·.player) = state.deckPools.map (·.player) := by
  unfold MatchState.modifyPool
  apply ext_getElem?
  intro i
  rw [getElem?_map, getElem?_map, getElem?_modify, Option.map_eq_map, Option.map_map]
  congr 1
  funext pool
  split
  · exact keeps pool
  · rfl

theorem pool?_eq_none {other : PlayerId} :
    state.pool? other = none ↔ other ∉ state.deckPools.map (·.player) := by
  unfold MatchState.pool?
  simp

/-- No submission adds or takes away a pool. -/
theorem withSubmission_missing (entries entries' : List (DeckEntry Data)) (other : PlayerId) :
    (withSubmission player entries entries' state).pool? other = none ↔
      state.pool? other = none := by
  have players : (withSubmission player entries entries' state).deckPools.map (·.player) =
      state.deckPools.map (·.player) := by
    have twice : (((state.modifyPool player ({ · with currentMain := entries })).modifyPool player
        ({ · with currentSideboard := entries' })).deckPools).map (·.player) =
        state.deckPools.map (·.player) := by
      rw [players_modifyPool, players_modifyPool]
      · intro pool
        rfl
      · intro pool
        rfl
    rw [← twice]
    unfold withSubmission
    dsimp only
    split <;> rfl
  rw [pool?_eq_none, pool?_eq_none, players]

theorem minCards_lt (state : MatchState Data) : state.minCards.toNat < 2 ^ 16 :=
  state.minCards.toNat_lt

theorem toNat_min (a b : UInt32) : (min a b).toNat = min a.toNat b.toNat := by
  rw [show min a b = if a ≤ b then a else b from rfl]
  split
  · next le =>
    have := UInt32.le_iff_toNat_le.mp le
    omega
  · next gt =>
    have := mt UInt32.le_iff_toNat_le.mpr gt
    omega

section
variable (passes : Passes state player pool main sideboard)
include passes

/-- The size check of the main deck means what it says unless the registered main deck wraps. -/
theorem Passes.enough_iff :
    min state.minCards.toNat (sizeOf pool.registeredMain) ≤ sizeSubmitted main ↔
      sizeOf pool.registeredMain < 2 ^ 32 ∨ state.minCards.toNat ≤ sizeSubmitted main := by
  have enough := UInt32.le_iff_toNat_le.mp passes.enough
  have submitted : (submittedTotal main).toNat ≤ sizeSubmitted main := totalOf_le main
  have registered : (totalCount pool.registeredMain).toNat =
      sizeOf pool.registeredMain % 2 ^ 32 := totalOf_toNat pool.registeredMain
  have small := minCards_lt state
  rw [toNat_min, UInt16.toNat_toUInt32] at enough
  constructor
  · omega
  · rintro (fits | fits)
    · omega
    · omega

theorem Passes.capped_iff :
    (∀ max, state.cap = some max → sizeSubmitted sideboard ≤ max.toNat) ↔
      (state.cap.isSome → sizeSubmitted sideboard < 2 ^ 32) := by
  have submitted : (submittedTotal sideboard).toNat = sizeSubmitted sideboard % 2 ^ 32 :=
    totalOf_toNat sideboard
  constructor
  · intro all some
    obtain ⟨max, cap⟩ := Option.isSome_iff_exists.mp some
    have := all max cap
    have := max.toNat_lt
    omega
  · intro fits max cap
    have capped := UInt32.le_iff_toNat_le.mp (passes.capped max cap)
    rw [submitted, Nat.mod_eq_of_lt (fits (by simp [cap]))] at capped
    exact capped

/-- What was accepted is what was registered exactly when no sum wraps on one side alone. -/
theorem Passes.keeps_iff {kept : PlayerDeckPool Data}
    (registered : kept.registeredMain = pool.registeredMain)
    (registered' : kept.registeredSideboard = pool.registeredSideboard)
    (each : ∀ name, copiesIn kept.currentMain name = copiesSubmitted main name)
    (each' : ∀ name, copiesIn kept.currentSideboard name = copiesSubmitted sideboard name)
    (all : sizeOf kept.currentMain = sizeSubmitted main)
    (all' : sizeOf kept.currentSideboard = sizeSubmitted sideboard) :
    KeepsPool state kept ↔ CountsFit state pool main sideboard := by
  have wraps (name : String) : copiesIn kept.currentMain name + copiesIn kept.currentSideboard name =
      copiesIn kept.registeredMain name + copiesIn kept.registeredSideboard name ↔
      (copiesSubmitted main name + copiesSubmitted sideboard name) / 2 ^ 32 =
      (copiesIn pool.registeredMain name + copiesIn pool.registeredSideboard name) / 2 ^ 32 := by
    rw [each, each', registered, registered']
    exact eq_iff_wraps (held_inj (passes.same name)).2
  constructor
  · intro keeps
    constructor
    · intro name
      exact (wraps name).mp (keeps.copies name)
    · have enough := keeps.enough
      rw [all, registered] at enough
      exact passes.enough_iff.mp enough
    · have capped := keeps.capped
      rw [all'] at capped
      exact passes.capped_iff.mp capped
  · intro fits
    constructor
    · intro name
      exact (wraps name).mpr (fits.wraps name)
    · rw [all, registered]
      exact passes.enough_iff.mpr fits.registered
    · rw [all']
      exact passes.capped_iff.mpr fits.capped

end

/-- The next game starts, unless there is no pool for one of the first two seats. -/
theorem restartBetweenGames_cases (next : MatchState Data → MatchState Data)
    (state : MatchState Data) :
    ((state.pool? 0 = none ∨ state.pool? 1 = none) ∧
      ∃ message, (restartBetweenGames next).run state = .error message state) ∨
    (restartBetweenGames next).run state = .ok (next state).waitingFor (next state) := by
  cases zero : state.pool? 0 with
  | none =>
    refine .inl ⟨.inl rfl, "Missing player 0 deck pool", ?_⟩
    unfold restartBetweenGames
    simp only [run_bind, run_get, zero]
    rfl
  | some _ =>
    cases one : state.pool? 1 with
    | none =>
      refine .inl ⟨.inr rfl, "Missing player 1 deck pool", ?_⟩
      unfold restartBetweenGames
      simp only [run_bind, run_get, zero, one]
      rfl
    | some _ =>
      right
      unfold restartBetweenGames
      simp only [run_bind, run_get, zero, one]
      rfl

/-- The pool of the player after an accepted submission, beside the one before it. -/
structure Stored (state : MatchState Data) (player : PlayerId) (main sideboard : List DeckCardCount)
    (stored : MatchState Data) (pool kept : PlayerDeckPool Data) : Prop where
  run : (storeSubmission player main sideboard).run state = .ok () stored
  before : state.pool? player = some pool
  after : stored.pool? player = some kept
  registered : kept.registeredMain = pool.registeredMain ∧
    kept.registeredSideboard = pool.registeredSideboard
  exact : KeepsPool state kept ↔ CountsFit state pool main sideboard

/-- What a call does to the decks. An accepted submission is stored, and keeps the registered pool
if and only if its counts fit; the last one of an archenemy match is what the next game is loaded
from. A refused one changes neither decks nor submissions, unless an archenemy match has no deck
pool for one of the first two seats. -/
theorem submission_keeps_pool (next : MatchState Data → MatchState Data) (state : MatchState Data)
    (player : PlayerId) (main sideboard : List DeckCardCount) :
    (∀ waitingFor after,
      (handleSubmitSideboard player main sideboard next).run state = .ok waitingFor after →
      ∃ stored pool kept, Stored state player main sideboard stored pool kept ∧
        (after.deckPools = stored.deckPools ∨ state.archenemy.isSome ∧ after = next stored)) ∧
    ∀ message after,
      (handleSubmitSideboard player main sideboard next).run state = .error message after →
      (after.deckPools = state.deckPools ∧
        after.sideboardSubmitted = state.sideboardSubmitted) ∨
      (state.archenemy.isSome ∧ (state.pool? 0 = none ∨ state.pool? 1 = none)) := by
  obtain ⟨refusal, refused⟩ | ⟨pool, entries, entries', passes, read, read', run⟩ :=
    @storeSubmission_cases _ state player main sideboard
  · have whole : (handleSubmitSideboard player main sideboard next).run state =
        .error refusal state := by
      unfold handleSubmitSideboard
      simp only [run_bind, refused]
    rw [whole]
    constructor
    · intro waitingFor after accepted
      cases accepted
    · intro message after rejected
      cases rejected
      exact .inl ⟨rfl, rfl⟩
  · obtain ⟨stored, same⟩ : ∃ stored, withSubmission player entries entries' state = stored :=
      ⟨_, rfl⟩
    rw [same] at run
    have archenemy : stored.archenemy = state.archenemy := by
      rw [← same, withSubmission_archenemy]
    have here : Stored state player main sideboard stored pool
        { pool with currentMain := entries, currentSideboard := entries' } := by
      obtain ⟨e, e', r, r', each, each', all, all'⟩ := passes.entries
      cases read.symm.trans r
      cases read'.symm.trans r'
      refine ⟨run, passes.found, ?_, ⟨rfl, rfl⟩, passes.keeps_iff rfl rfl each each' all all'⟩
      rw [← same]
      exact withSubmission_pool? passes.found entries entries'
    unfold handleSubmitSideboard
    simp only [run_bind, run, run_get]
    cases stored.nextUnsubmittedSideboardPlayer with
    | some unsubmitted =>
      constructor
      · intro waitingFor after accepted
        cases accepted
        exact ⟨stored, pool, _, here, .inl rfl⟩
      · intro message after rejected
        cases rejected
    | none =>
      cases versus : stored.archenemy with
      | none =>
        constructor
        · intro waitingFor after accepted
          cases accepted
          exact ⟨stored, pool, _, here, .inl rfl⟩
        · intro message after rejected
          cases rejected
      | some enemy =>
        have some : state.archenemy.isSome := by rw [← archenemy, versus]; rfl
        have missing (other : PlayerId) : stored.pool? other = none ↔ state.pool? other = none := by
          rw [← same]
          exact withSubmission_missing entries entries' other
        simp only [Option.isSome_some, if_true]
        obtain ⟨lost, message, stopped⟩ | started := restartBetweenGames_cases next stored
        · rw [stopped]
          constructor
          · intro waitingFor after accepted
            cases accepted
          · intro message after rejected
            cases rejected
            exact .inr ⟨some, lost.imp (missing 0).mp (missing 1).mp⟩
        · rw [started]
          constructor
          · intro waitingFor after accepted
            cases accepted
            exact ⟨stored, pool, _, here, .inr ⟨some, rfl⟩⟩
          · intro message after rejected
            cases rejected

/-- Sixty Forests for each of two players. -/
def forestPool (player : PlayerId) : PlayerDeckPool Unit :=
  ⟨player, [⟨⟨"Forest", ()⟩, 60⟩], [], [], [], [⟨⟨"Forest", ()⟩, 60⟩], []⟩

def forestMatch : MatchState Unit where
  matchPhase := .betweenGames
  minCards := 60
  sideboardPolicy := .limited 15
  archenemy := none
  deckPools := [forestPool 0, forestPool 1]
  sideboardSubmitted := []
  nextGameChooser := some 1
  gameNumber := 2
  matchScore := ⟨1, 0, 0⟩
  waitingFor := .betweenGamesSideboard 0 2 ⟨1, 0, 0⟩ 60 (some 15)

theorem submission_keeps_forests : ∃ pool kept, forestMatch.pool? 0 = some pool ∧
    KeepsPool forestMatch kept ∧ kept.registeredMain = pool.registeredMain := by
  have accepted : (handleSubmitSideboard 0 [⟨"Forest", 60⟩] [] id).run forestMatch =
      .ok (.betweenGamesSideboard 1 2 ⟨1, 0, 0⟩ 60 (some 15)) _ := rfl
  obtain ⟨stored, pool, kept, here, -⟩ :=
    (submission_keeps_pool id forestMatch 0 [⟨"Forest", 60⟩] []).1 _ _ accepted
  have same : pool = forestPool 0 := Option.some_inj.mp (here.before.symm.trans rfl)
  refine ⟨pool, kept, here.before, here.exact.mpr ?_, here.registered.1⟩
  rw [same]
  constructor
  · intro name
    simp [copiesSubmitted, copiesIn, forestPool, copies_cons]
  · exact .inl (by decide)
  · exact fun _ => by decide

/-- Three entries of one name whose sum wraps to sixty. -/
theorem submission_wraps :
    let main := [⟨"Forest", 2 ^ 31⟩, ⟨"Forest", 2 ^ 31⟩, ⟨"Forest", 60⟩]
    guardSubmitSideboard main [] = .ok () ∧
    ∃ after pool, (handleSubmitSideboard 0 main [] id).run forestMatch =
        .ok (.betweenGamesSideboard 1 2 ⟨1, 0, 0⟩ 60 (some 15)) after ∧
      after.pool? 0 = some pool ∧
      copiesIn pool.currentMain "Forest" + copiesIn pool.currentSideboard "Forest" =
        2 ^ 32 + 60 ∧
      copiesIn pool.registeredMain "Forest" + copiesIn pool.registeredSideboard "Forest" = 60 := by
  exact ⟨rfl, _, _, rfl, rfl, rfl, rfl⟩

end Phase.Sideboarding
