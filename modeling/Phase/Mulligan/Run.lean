import Phase.Lib.Indexed
import Phase.Mulligan.Decisions

/-! Runs of the procedure, from the first deal until every player has kept. -/
namespace Phase.Mulligan
open GameState List Fallible Function

variable {Rng : Type} {state state' : GameState Rng} {pile : ObjectId → Option PlayerId}
  {counts counts' : PlayerId → Nat}

/-- The players of the pending and of the declared list. -/
def waiting (pending : List MulliganDecisionEntry) (declared : List MulliganDeclaration) :
    List PlayerId :=
  pending.map (·.player) ++ declared.map (·.player)

/-- The procedure while some decide and some have declared; `counts` are the mulligans taken. -/
structure Deciding (pile : ObjectId → Option PlayerId) (counts : PlayerId → Nat)
    (state : GameState Rng) (pending : List MulliganDecisionEntry)
    (declared : List MulliganDeclaration) : Prop where
  sound : Sound pile state
  distinct : (waiting pending declared).Nodup
  atTable : ∀ player ∈ waiting pending declared, player ∈ state.seatOrder
  counted : ∀ entry ∈ pending, entry.mulliganCount = counts entry.player
  fits : ∀ entry ∈ pending, entry.Fits state.freeFirstMulligan (state.bottomed entry.player)
  declaring : ∀ d ∈ declared, (openEntry d).mulliganCount = counts d.player
  kept : ∀ player ∈ state.seatOrder, player ∉ waiting pending declared →
    bottomCountFor (counts player) state.freeFirstMulligan ≤ state.bottomed player
  cap : ∀ player, counts player ≤ maxMulligansFor state.freeFirstMulligan

theorem waiting_middle (before after : List MulliganDecisionEntry) (entry : MulliganDecisionEntry)
    (declared : List MulliganDeclaration) :
    (waiting (before ++ entry :: after) declared).Perm
      (entry.player :: waiting (before ++ after) declared) := by
  simp only [waiting, map_append, map_cons, append_assoc, cons_append]
  exact perm_middle

variable {kept : Option MulliganDecisionEntry} {freeFirst : Bool}

/-- Whom the procedure waits for after an answer: the player still, or no longer. -/
theorem Stands.waiting {player : PlayerId} {count bottomed : Nat}
    {declared declared' : List MulliganDeclaration}
    (stands : Stands freeFirst player count bottomed declared kept declared')
    (before after : List MulliganDecisionEntry) :
    (waiting (before ++ kept.toList ++ after) declared').Perm
        (player :: waiting (before ++ after) declared) ∨
      bottomCountFor count freeFirst ≤ bottomed ∧
        waiting (before ++ kept.toList ++ after) declared' = waiting (before ++ after) declared := by
  cases stands with
  | @waits entry own =>
    subst own
    have middle := waiting_middle before after entry declared
    exact .inl (by simpa using middle)
  | @declares d own =>
    subst own
    refine .inl ?_
    simp only [Mulligan.waiting, Option.toList_none, append_nil, map_append, map_cons, map_nil]
    rw [← append_assoc]
    exact perm_append_singleton d.player _
  | keeps paid => exact .inr ⟨paid, by simp⟩

variable {declared : List MulliganDeclaration} {pending : List MulliganDecisionEntry}

theorem Deciding.answer {powder : Prop} {before after : List MulliganDecisionEntry}
    {entry : MulliganDecisionEntry} {declared declared' : List MulliganDeclaration} {count : Nat}
    (deciding : Deciding pile counts state (before ++ entry :: after) declared)
    (answered : Answered pile powder entry.player count state declared kept declared' state') :
    Deciding pile (update counts entry.player count) state'
      (before ++ kept.toList ++ after) declared' := by
  have middle := waiting_middle before after entry declared
  obtain ⟨gone, distinct⟩ := nodup_cons.mp (middle.nodup_iff.mp deciding.distinct)
  have after_ := answered.stands.waiting before after
  have freeFirst := freeFirstMulligan_congr answered.next.table
  have seats := seatOrder_congr answered.next.table
  have apart : ∀ player ∈ waiting (before ++ after) declared, player ≠ entry.player :=
    fun player there same => gone (same ▸ there)
  have still : ∀ other ∈ before ++ after, other ∈ before ++ entry :: after ∧
      other.player ≠ entry.player := by
    intro other there
    refine ⟨?_, apart _ (mem_append_left _ (mem_map_of_mem there))⟩
    rcases mem_append.mp there with early | late
    · exact mem_append_left _ early
    · exact mem_append_right _ (mem_cons_of_mem entry late)
  have entries : ∀ other ∈ before ++ kept.toList ++ after, other ∈ before ++ after ∨
      kept = some other := by
    intro other there
    simp only [mem_append, Option.mem_toList] at there ⊢
    tauto
  have own : ∀ other, kept = some other → other.player = entry.player ∧
      other.mulliganCount = count ∧
      other.Fits state.freeFirstMulligan (state'.bottomed entry.player) := by
    rintro other rfl
    cases answered.stands with
    | waits own counted fits => exact ⟨own, counted, fits⟩
  have players : ∀ player, player ∈ waiting (before ++ kept.toList ++ after) declared' →
      player = entry.player ∨ player ∈ waiting (before ++ after) declared := by
    intro player there
    rcases after_ with perm | ⟨-, same⟩
    · exact mem_cons.mp (perm.mem_iff.mp there)
    · exact .inr (same ▸ there)
  have declarations : ∀ d ∈ declared', d ∈ declared ∨
      d.player = entry.player ∧ (openEntry d).mulliganCount = count := by
    intro d there
    cases answered.stands with
    | waits => exact .inl there
    | keeps => exact .inl there
    | declares theirs counted =>
      refine (mem_append.mp there).imp id fun new => ?_
      rw [mem_singleton.mp new]
      exact ⟨theirs, counted⟩
  refine ⟨answered.next.sound, ?_, fun player there => ?_, fun other there => ?_,
    fun other there => ?_, fun d there => ?_, fun player seat out => ?_, fun player => ?_⟩
  · rcases after_ with perm | ⟨-, same⟩
    · exact perm.nodup_iff.mpr (nodup_cons.mpr ⟨gone, distinct⟩)
    · exact same ▸ distinct
  · rw [seats]
    exact deciding.atTable player (middle.mem_iff.mpr (mem_cons.mpr (players player there)))
  · rcases entries other there with rest | mine
    · obtain ⟨known, other_⟩ := still other rest
      rw [update_of_ne other_]
      exact deciding.counted other known
    · obtain ⟨same, counted, -⟩ := own other mine
      rw [same, update_self, counted]
  · rw [freeFirst]
    rcases entries other there with rest | mine
    · obtain ⟨known, other_⟩ := still other rest
      rw [answered.others _ other_]
      exact deciding.fits other known
    · obtain ⟨same, -, fits⟩ := own other mine
      exact same.symm ▸ fits
  · rcases declarations d there with early | ⟨same, counted⟩
    · have rest := mem_append_right ((before ++ after).map (·.player))
        (mem_map_of_mem (f := (·.player)) early)
      rw [update_of_ne (apart _ rest)]
      exact deciding.declaring d early
    · rw [same, update_self, counted]
  · rw [freeFirst]
    by_cases mine : player = entry.player
    · subst mine
      rcases after_ with perm | ⟨paid, -⟩
      · exact absurd (perm.mem_iff.mpr mem_cons_self) out
      · rw [update_self]
        exact paid
    · rw [update_of_ne mine, answered.others player mine]
      refine deciding.kept player (seats ▸ seat) fun waits => out ?_
      have rest := mem_of_ne_of_mem mine (middle.mem_iff.mp waits)
      rcases after_ with perm | ⟨-, same⟩
      · exact perm.mem_iff.mpr (mem_cons_of_mem _ rest)
      · exact same ▸ rest
  · rw [freeFirst, update_apply]
    split
    · exact answered.cap
    · exact deciding.cap player

/-- Who is waited for, and that the state is sound there. -/
inductive Stage (pile : ObjectId → Option PlayerId) (counts : PlayerId → Nat)
    (state : GameState Rng) : WaitingFor → Prop where
  | opening {pending : List MulliganBottomEntry} (some_ : pending ≠ []) (sound : Sound pile state)
      (distinct : (pending.map (·.player)).Nodup)
      (owing : ∀ entry ∈ pending, entry.count = 1 ∧ entry.player ∈ state.seatOrder ∧
        counts entry.player = 0)
      (bottomed : counts = state.bottomed) (small : ∀ player, counts player ≤ 1) :
      Stage pile counts state (.openingHandBottomCards pending)
  | deciding {pending : List MulliganDecisionEntry} {declared : List MulliganDeclaration}
      (some_ : pending ≠ []) (deciding : Deciding pile counts state pending declared) :
      Stage pile counts state (.mulliganDecision pending state.freeFirstMulligan declared)
  | begun {last : GameState Rng} (cleared : state = last.clearPrepaid)
      (deciding : Deciding pile counts last [] []) : Stage pile counts state .begun

/-- A round that closes leaves every declarer with a new entry. -/
theorem Deciding.close (shuffler : Shuffler Rng) (deciding : Deciding pile counts state [] declared)
    (held : declared ≠ []) :
    Next pile False (state.closeDeclareRound shuffler declared state.freeFirstMulligan).2.bottomed
        state (state.closeDeclareRound shuffler declared state.freeFirstMulligan).2 ∧
      (state.closeDeclareRound shuffler declared state.freeFirstMulligan).1 ≠ [] ∧
      Deciding pile counts (state.closeDeclareRound shuffler declared state.freeFirstMulligan).2
        (state.closeDeclareRound shuffler declared state.freeFirstMulligan).1 [] := by
  have atTable : ∀ d ∈ declared, d.player ∈ state.seatOrder := fun d there =>
    deciding.atTable d.player (mem_map_of_mem (f := (·.player)) there)
  obtain ⟨next, opened, perm, entries, -⟩ := deciding.sound.closeRound shuffler deciding.distinct
    atTable state.freeFirstMulligan
  generalize state.closeDeclareRound shuffler declared state.freeFirstMulligan = closed at *
  have freeFirst := freeFirstMulligan_congr next.table
  have seats := seatOrder_congr next.table
  have players : (closed.1.map (·.player)).Perm (declared.map (·.player)) := by
    rw [entries, map_map]
    have same : ((·.player) ∘ atCap state.freeFirstMulligan) = MulliganDecisionEntry.player :=
      funext fun entry => atCap_player _ entry
    rw [same]
    refine (perm.map _).trans (Perm.of_eq ?_)
    rw [map_map]
    rfl
  have whom : waiting closed.1 [] = closed.1.map (·.player) := append_nil _
  have entry_ : ∀ entry ∈ closed.1, ∃ d ∈ declared,
      entry = atCap state.freeFirstMulligan (openEntry d) := by
    intro entry there
    rw [entries] at there
    obtain ⟨one, inside, rfl⟩ := mem_map.mp there
    obtain ⟨d, known, rfl⟩ := mem_map.mp (perm.mem_iff.mp inside)
    exact ⟨d, known, rfl⟩
  refine ⟨⟨next.sound, next.table, rfl, next.exile⟩, ?_, next.sound, ?_, fun player there => ?_,
    fun entry there => ?_, fun entry there => ?_, fun _ there => ?_, fun player seat out => ?_,
    fun player => ?_⟩
  · rintro none_
    rw [none_] at players
    exact held (map_eq_nil_iff.mp players.symm.eq_nil)
  · rw [whom]
    exact players.nodup_iff.mpr deciding.distinct
  · rw [seats]
    rw [whom] at there
    exact deciding.atTable player (players.mem_iff.mp there)
  · obtain ⟨d, known, rfl⟩ := entry_ entry there
    rw [atCap_mulliganCount, atCap_player]
    exact deciding.declaring d known
  · obtain ⟨d, known, rfl⟩ := entry_ entry there
    have redrew : closed.2.bottomed d.player = 0 :=
      (congrFun next.bottomed d.player).trans (if_pos (mem_map_of_mem known))
    have own : (openEntry d).player = d.player := rfl
    rw [freeFirst, atCap_player, own, redrew]
    exact fits_atCap rfl
  · cases there
  · rw [whom, players.mem_iff] at out
    have kept := congrFun next.bottomed player
    rw [if_neg out] at kept
    rw [freeFirst, kept]
    exact deciding.kept player (seats ▸ seat) out
  · rw [freeFirst]
    exact deciding.cap player

theorem Deciding.advance (shuffler : Shuffler Rng) {pending : List MulliganDecisionEntry}
    {declared : List MulliganDeclaration} (deciding : Deciding pile counts state pending declared)
    {waitingFor : WaitingFor}
    (done : state.advanceAfterDecision shuffler pending declared state.freeFirstMulligan =
      (waitingFor, state')) :
    Stage pile counts state' waitingFor ∧ state'.exile = state.exile ∧
      (waitingFor = .begun → pending = [] ∧ declared = []) := by
  rw [advanceAfterDecision] at done
  split at done
  · next some_ =>
    cases done
    exact ⟨.deciding some_ deciding, rfl, fun begun => by cases begun⟩
  · next empty =>
    obtain rfl := not_not.mp empty
    split at done
    · next none_ =>
      subst none_
      cases done
      exact ⟨.begun rfl deciding, rfl, fun _ => ⟨rfl, rfl⟩⟩
    · next held =>
      obtain ⟨next, some_, again⟩ := deciding.close shuffler held
      simp only [settle, if_pos some_] at done
      cases done
      have stage := Stage.deciding some_ again
      rw [freeFirstMulligan_congr next.table] at stage
      exact ⟨stage, next.exile.resolve_right id, fun begun => by cases begun⟩

/-- The procedure with the mulligans each player has taken, a bottom forced on the opening hand
counting as one, and how often it was finished. -/
structure World (Rng : Type) where
  state : GameState Rng
  waitingFor : WaitingFor
  counts : PlayerId → Nat
  finishes : Nat

namespace World

def start (shuffler : Shuffler Rng) (state : GameState Rng) : World Rng :=
  let (waitingFor, state) := state.startMulligan shuffler
  { state, waitingFor, counts := fun _ => 0, finishes := 0 }

def countsAfter (w : World Rng) (player : PlayerId) : Answer → PlayerId → Nat
  | .decision choice => update w.counts player
      (if choice = .mulligan then w.counts player + 1 else w.counts player)
  | .cards selected => match w.waitingFor with
      | .openingHandBottomCards _ =>
        update w.counts player (w.counts player + selected.length)
      | _ => w.counts

def step (shuffler : Shuffler Rng) (w : World Rng) (player : PlayerId) (answer : Answer) :
    Except String (World Rng) := do
  let (waitingFor, state) ← w.state.apply shuffler w.waitingFor player answer
  return {
    state
    waitingFor
    counts := w.countsAfter player answer
    finishes := if waitingFor = .begun then w.finishes + 1 else w.finishes }

/-- Every order in which the players' answers may be accepted. -/
inductive Reachable (shuffler : Shuffler Rng) (first : World Rng) : World Rng → Prop where
  | start : Reachable shuffler first first
  | next {w w' : World Rng} {player : PlayerId} {answer : Answer} :
      Reachable shuffler first w → w.step shuffler player answer = .ok w' →
      Reachable shuffler first w'

/-- The world after all of the answers, when each is accepted. -/
def run (shuffler : Shuffler Rng) (w : World Rng) :
    List (PlayerId × Answer) → Except String (World Rng)
  | [] => .ok w
  | (player, answer) :: answers => do (← w.step shuffler player answer).run shuffler answers

theorem Reachable.run {shuffler : Shuffler Rng} {first w w' : World Rng}
    (reached : Reachable shuffler first w) {answers : List (PlayerId × Answer)}
    (done : w.run shuffler answers = .ok w') : Reachable shuffler first w' := by
  induction answers generalizing w with
  | nil =>
    cases done
    exact reached
  | cons answer answers ih =>
    obtain ⟨between, step, rest⟩ := bind_eq_ok.mp done
    exact ih (reached.next step) rest

/-- The answer is a Serum Powder, or pays the bottoms that one waits for. -/
def UsesPowder (w : World Rng) (player : PlayerId) (answer : Answer) (card : ObjectId) : Prop :=
  answer = .decision (.useSerumPowder card) ∨
    ∃ pending freeFirst declared, w.waitingFor = .mulliganDecision pending freeFirst declared ∧
      ∃ entry ∈ pending, entry.player = player ∧
        ∃ count, entry.phase = .bottomCards count (.useSerumPowder card)

end World

/-- What one accepted answer does to the procedure. -/
structure Advances (pile : ObjectId → Option PlayerId) (w : World Rng) (player : PlayerId)
    (answer : Answer) (waitingFor : WaitingFor) (state' : GameState Rng) : Prop where
  stage : Stage pile (w.countsAfter player answer) state' waitingFor
  exile : state'.exile = w.state.exile ∨ ∃ card, w.UsesPowder player answer card ∧
    card ∈ w.state.hand player ∧ w.state.IsSerumPowder card
  last : waitingFor = .begun → ∃ entry freeFirst,
    w.waitingFor = .mulliganDecision [entry] freeFirst [] ∧ entry.player = player

theorem replaceEntry_middle {α : Type} (before after : List α) (entry : α) (kept : Option α) :
    replaceEntry (before ++ entry :: after) before.length kept =
      before ++ kept.toList ++ after := by
  simp [replaceEntry, drop_append]

variable {player : PlayerId}

/-- The entry of a pending player, and the list around it. -/
theorem split_pending {α : Type} {who : α → PlayerId} {pending : List α} {idx : Nat}
    (found : pending.findIdx? (fun entry => who entry = player) = some idx) :
    ∃ before entry after, pending = before ++ entry :: after ∧ who entry = player ∧
      idx = before.length ∧ pending[idx]? = some entry := by
  have some_ : ∃ entry ∈ pending, decide (who entry = player) = true := by
    obtain ⟨bound, own, _⟩ := findIdx?_eq_some_iff_getElem.mp found
    exact ⟨pending[idx], getElem_mem _, own⟩
  obtain ⟨before, entry, after, split, own, found'⟩ := Indexed.findIdx?_split some_
  have idx_ : idx = before.length := Option.some.inj (found.symm.trans found')
  refine ⟨before, entry, after, split, of_decide_eq_true own, idx_, ?_⟩
  rw [split, idx_, Indexed.getElem?_middle]

variable {result : WaitingFor × GameState Rng}

/-- An accepted decision is made at a declare point. -/
theorem handleMulliganDecision_ok {shuffler : Shuffler Rng} {choice : MulliganChoice}
    (done : state.handleMulliganDecision shuffler (.mulliganDecision pending freeFirst declared)
      player choice = .ok result) :
    ∃ before entry after kept declared' between, pending = before ++ entry :: after ∧
      entry.player = player ∧ entry.phase = .declare ∧
      state.decideEntry shuffler entry declared state.freeFirstMulligan choice =
        .ok (kept, declared', between) ∧
      between.advanceAfterDecision shuffler (before ++ kept.toList ++ after) declared'
        state.freeFirstMulligan = result := by
  simp only [handleMulliganDecision] at done
  split at done
  · cases done
  · next idx found =>
    obtain ⟨before, entry, after, rfl, own, rfl, at_⟩ := split_pending found
    simp only [at_] at done
    obtain ⟨ready, done⟩ := ite_error_eq_ok.mp done
    obtain ⟨⟨kept, declared', between⟩, decided, ended⟩ := bind_eq_ok.mp done
    have final := pure_eq_ok.mp ended
    rw [replaceEntry_middle] at final
    exact ⟨before, entry, after, kept, declared', between, rfl, own, not_not.mp ready, decided,
      final⟩

/-- Accepted bottoms are those the player owes. -/
theorem handleMulliganBottom_ok {shuffler : Shuffler Rng} {cards : List ObjectId}
    (done : state.handleMulliganBottom shuffler (.mulliganDecision pending freeFirst declared)
      player cards = .ok result) :
    ∃ before entry after count next kept between, pending = before ++ entry :: after ∧
      entry.player = player ∧ entry.phase = .bottomCards count next ∧
      rejectCommitted cards next = .ok () ∧
      state.validateBottomSelection player cards count = .ok () ∧
      ((state.bottomSelected player cards).creditBottoms player count).payEntry entry next =
        .ok (kept, between) ∧
      between.advanceAfterDecision shuffler (before ++ kept.toList ++ after) declared freeFirst =
        result := by
  simp only [handleMulliganBottom] at done
  split at done
  · cases done
  · next idx found =>
    obtain ⟨before, entry, after, rfl, own, rfl, at_⟩ := split_pending found
    simp only [at_] at done
    split at done
    · cases done
    · next count next parked =>
      obtain ⟨_, committed, done⟩ := bind_eq_ok.mp done
      obtain ⟨_, valid, done⟩ := bind_eq_ok.mp done
      obtain ⟨⟨kept, between⟩, paid, ended⟩ := bind_eq_ok.mp done
      have final := pure_eq_ok.mp ended
      rw [replaceEntry_middle] at final
      exact ⟨before, entry, after, count, next, kept, between, rfl, own, parked, committed,
        valid, paid, final⟩

theorem handleOpeningHandBottom_ok {pending : List MulliganBottomEntry} {cards : List ObjectId}
    (done : state.handleOpeningHandBottom (.openingHandBottomCards pending) player cards =
      .ok result) :
    ∃ before entry after, pending = before ++ entry :: after ∧ entry.player = player ∧
      state.validateBottomSelection player cards entry.count = .ok () ∧
      result = (if before ++ after = [] then
          ((state.bottomSelected player cards).creditBottoms player entry.count
            ).normalMulliganDecision
        else .openingHandBottomCards (before ++ after),
        (state.bottomSelected player cards).creditBottoms player entry.count) := by
  simp only [handleOpeningHandBottom] at done
  split at done
  · cases done
  · next idx found =>
    obtain ⟨before, entry, after, rfl, own, rfl, at_⟩ := split_pending found
    simp only [at_] at done
    obtain ⟨_, valid, done⟩ := bind_eq_ok.mp done
    rw [replaceEntry_middle, Option.toList_none, append_nil] at done
    refine ⟨before, entry, after, rfl, own, valid, ?_⟩
    split at done
    · next none_ => rw [if_pos none_, pure_eq_ok.mp done]
    · next more => rw [if_neg more, pure_eq_ok.mp done]

section
variable {w : World Rng} {shuffler : Shuffler Rng} {player : PlayerId} {waitingFor : WaitingFor}

variable {answer : Answer}

/-- From where the player stands to what is waited for next. -/
theorem Deciding.advances {powder : Prop} {before after : List MulliganDecisionEntry}
    {entry : MulliganDecisionEntry} {declared declared' : List MulliganDeclaration}
    {kept : Option MulliganDecisionEntry} {count : Nat} {between : GameState Rng}
    (deciding : Deciding pile w.counts w.state (before ++ entry :: after) declared)
    (asked : w.waitingFor =
      .mulliganDecision (before ++ entry :: after) w.state.freeFirstMulligan declared)
    (answered : Answered pile powder entry.player count w.state declared kept declared' between)
    (used : powder → ∃ card, w.UsesPowder entry.player answer card ∧
      card ∈ w.state.hand entry.player ∧ w.state.IsSerumPowder card)
    (counted : w.countsAfter entry.player answer = update w.counts entry.player count)
    (done : between.advanceAfterDecision shuffler (before ++ kept.toList ++ after) declared'
      w.state.freeFirstMulligan = (waitingFor, state')) :
    Advances pile w entry.player answer waitingFor state' := by
  rw [← freeFirstMulligan_congr answered.next.table] at done
  obtain ⟨stage, exile, last⟩ := (deciding.answer answered).advance shuffler done
  refine ⟨counted ▸ stage, ?_, fun begun => ?_⟩
  · rw [exile]
    exact answered.next.exile.imp_right used
  · obtain ⟨none_, undeclared⟩ := last begun
    obtain ⟨rfl, gone, rfl⟩ : before = [] ∧ kept = none ∧ after = [] := by simpa using none_
    refine ⟨entry, w.state.freeFirstMulligan, asked.trans ?_, rfl⟩
    cases answered.stands with
    | waits => cases gone
    | declares => simp at undeclared
    | keeps =>
      rw [undeclared]
      rfl

theorem Stage.decision (stage : Stage pile w.counts w.state w.waitingFor) {choice : MulliganChoice}
    (done : w.state.handleMulliganDecision shuffler w.waitingFor player choice =
      .ok (waitingFor, state')) :
    Advances pile w player (.decision choice) waitingFor state' := by
  cases asked : w.waitingFor with
  | openingHandBottomCards => rw [asked] at done; cases done
  | begun => rw [asked] at done; cases done
  | mulliganDecision pending freeFirst declared =>
    rw [asked] at stage done
    cases stage with
    | deciding some_ deciding =>
      obtain ⟨before, entry, after, kept, declared', between, rfl, rfl, ready, decided, final⟩ :=
        handleMulliganDecision_ok done
      have inside : entry ∈ before ++ entry :: after := by simp
      have fits := deciding.fits entry inside
      rw [MulliganDecisionEntry.Fits, ready] at fits
      have seat := deciding.atTable entry.player (mem_append_left _ (mem_map_of_mem inside))
      have answered := deciding.sound.decide_answered shuffler seat ready fits decided
      refine deciding.advances asked answered ?_ ?_ final
      · rintro ⟨card, rfl, held⟩
        exact ⟨card, .inl rfl, held⟩
      · rw [World.countsAfter, deciding.counted entry inside]

theorem Stage.bottom (stage : Stage pile w.counts w.state w.waitingFor) {cards : List ObjectId}
    (done : w.state.handleMulliganBottom shuffler w.waitingFor player cards =
      .ok (waitingFor, state')) :
    Advances pile w player (.cards cards) waitingFor state' := by
  cases asked : w.waitingFor with
  | openingHandBottomCards => rw [asked] at done; cases done
  | begun => rw [asked] at done; cases done
  | mulliganDecision pending freeFirst declared =>
    rw [asked] at stage done
    cases stage with
    | deciding some_ deciding =>
      obtain ⟨before, entry, after, count, next, kept, between, rfl, rfl, parked, -, valid, paid,
        final⟩ := handleMulliganBottom_ok done
      have inside : entry ∈ before ++ entry :: after := by simp
      have counted := deciding.counted entry inside
      have seat := deciding.atTable entry.player (mem_append_left _ (mem_map_of_mem inside))
      have answered := deciding.sound.pay_answered declared seat parked
        (deciding.fits entry inside) (counted ▸ deciding.cap entry.player) valid paid
      refine deciding.advances asked answered ?_ ?_ final
      · rintro ⟨card, rfl, held⟩
        exact ⟨card, .inr ⟨_, _, _, asked, entry, inside, rfl, count, parked⟩, held⟩
      · rw [World.countsAfter, asked, counted]
        exact (update_eq_self ..).symm

theorem two_le_maxMulligansFor (freeFirst : Bool) : 2 ≤ maxMulligansFor freeFirst := by
  cases freeFirst <;> decide

theorem Sound.normalDecision (sound : Sound pile state) (someone : state.seatOrder ≠ [])
    (small : ∀ player, state.bottomed player ≤ 1) :
    Stage pile state.bottomed state state.normalMulliganDecision := by
  have all : state.seatOrder.filter state.isAlive = state.seatOrder :=
    filter_eq_self.mpr sound.seated.alive
  rw [normalMulliganDecision, all]
  have players : waiting (state.seatOrder.map fun player =>
      ({ player, mulliganCount := state.prepaid player, freeRevealsTaken := 0, phase := .declare } :
        MulliganDecisionEntry)) [] = state.seatOrder := by
    simp [waiting, comp_def]
  have below : ∀ player, state.bottomed player < maxMulligansFor state.freeFirstMulligan :=
    fun player => Nat.lt_of_le_of_lt (small player) (two_le_maxMulligansFor _)
  refine .deciding (by simpa using someone) ⟨sound, ?_, fun player there => ?_, fun entry there => ?_,
    fun entry there => ?_, (fun _ there => by cases there), fun player seat out => ?_,
    fun player => (below player).le⟩
  · exact players.symm ▸ sound.seated.once
  · exact players ▸ there
  · obtain ⟨player, -, rfl⟩ := mem_map.mp there
    exact sound.ledger player
  · obtain ⟨player, -, rfl⟩ := mem_map.mp there
    exact Nat.lt_of_le_of_lt (Nat.le_of_eq (sound.ledger player)) (below player)
  · exact absurd (players.symm ▸ seat) out

theorem Stage.openingBottom (stage : Stage pile w.counts w.state w.waitingFor)
    {cards : List ObjectId} (answer_ : answer = .cards cards)
    (done : w.state.handleOpeningHandBottom w.waitingFor player cards = .ok (waitingFor, state')) :
    Advances pile w player answer waitingFor state' := by
  subst answer_
  cases asked : w.waitingFor with
  | mulliganDecision => rw [asked] at done; cases done
  | begun => rw [asked] at done; cases done
  | openingHandBottomCards pending =>
    rw [asked] at stage done
    cases stage with
    | opening some_ sound distinct owing bottomed small =>
      obtain ⟨before, entry, after, rfl, rfl, valid, final⟩ := handleOpeningHandBottom_ok done
      obtain ⟨count, seat, none_⟩ := owing entry (by simp)
      obtain ⟨length, chosen, held⟩ := validateBottomSelection_ok valid
      have paid := sound.pay chosen held
      rw [length] at paid
      have counted : w.countsAfter entry.player (.cards cards) =
          ((w.state.bottomSelected entry.player cards).creditBottoms entry.player
            entry.count).bottomed := by
        rw [paid.bottomed, World.countsAfter, asked, ← bottomed, length]
      have seats := seatOrder_congr paid.table
      have small' : ∀ player, w.countsAfter entry.player (.cards cards) player ≤ 1 := by
        intro player
        rw [counted, paid.bottomed, ← bottomed, none_, count, update_apply]
        split
        · exact Nat.le_refl 1
        · exact small player
      have around : ((before ++ entry :: after).map (·.player)).Perm
          (entry.player :: (before ++ after).map (·.player)) :=
        perm_middle.map MulliganBottomEntry.player
      obtain ⟨gone, remain⟩ := nodup_cons.mp (around.nodup_iff.mp distinct)
      cases final
      by_cases last : before ++ after = []
      · rw [if_pos last]
        have someone := seats.symm ▸ ne_nil_of_mem seat
        exact ⟨counted.symm ▸ paid.sound.normalDecision someone (counted ▸ small'),
          .inl (paid.exile.resolve_right id), fun begun => by cases begun⟩
      · rw [if_neg last]
        refine ⟨.opening last paid.sound remain ?_ counted small',
          .inl (paid.exile.resolve_right id), fun begun => by cases begun⟩
        intro other there
        have known : other ∈ before ++ entry :: after :=
          ((sublist_cons_self entry after).append_left before).subset there
        obtain ⟨one, seated, zero⟩ := owing other known
        refine ⟨one, seats.symm ▸ seated, ?_⟩
        have apart : other.player ≠ entry.player := fun same =>
          gone (same ▸ mem_map_of_mem there)
        rw [counted, paid.bottomed, ← bottomed, update_of_ne apart, zero]

theorem apply_cards {selected : List ObjectId} {result : WaitingFor × GameState Rng}
    (applied : state.apply shuffler waitingFor player (.cards selected) = .ok result) :
    state.handleOpeningHandBottom waitingFor player selected = .ok result ∨
      state.handleMulliganBottom shuffler waitingFor player selected = .ok result := by
  cases waitingFor with
  | openingHandBottomCards => exact .inl applied
  | mulliganDecision => exact .inr applied
  | begun => exact .inr applied

/-- Each accepted answer takes the procedure from one sound stage to the next. -/
theorem Stage.step (stage : Stage pile w.counts w.state w.waitingFor) {answer : Answer}
    {w' : World Rng} (done : w.step shuffler player answer = .ok w') :
    Advances pile w player answer w'.waitingFor w'.state ∧
      w'.counts = w.countsAfter player answer ∧
      w'.finishes = if w'.waitingFor = .begun then w.finishes + 1 else w.finishes := by
  obtain ⟨⟨waitingFor, state'⟩, applied, result⟩ := bind_eq_ok.mp done
  cases pure_eq_ok.mp result
  refine ⟨?_, rfl, rfl⟩
  cases answer with
  | decision choice => exact stage.decision applied
  | cards selected =>
    rcases apply_cards applied with opening | bottom
    · exact stage.openingBottom rfl opening
    · exact stage.bottom bottom

theorem apply_begun (state : GameState Rng) (shuffler : Shuffler Rng) (player : PlayerId)
    (answer : Answer) : ∃ e, state.apply shuffler .begun player answer = .error e := by
  cases answer <;> exact ⟨_, rfl⟩

theorem forced_pending (once : state.seatOrder.Nodup) :
    (state.tinyLeadersForcedMulliganPending.map (·.player)).Nodup ∧
      ∀ entry ∈ state.tinyLeadersForcedMulliganPending,
        entry.count = 1 ∧ entry.player ∈ state.seatOrder := by
  rw [tinyLeadersForcedMulliganPending]
  split
  · exact ⟨nodup_nil, fun _ there => by cases there⟩
  · refine ⟨by simpa [comp_def] using once.filter _, fun entry there => ?_⟩
    obtain ⟨player, seat, rfl⟩ := mem_map.mp there
    exact ⟨rfl, mem_of_mem_filter seat⟩

theorem Ready.start (ready : Ready pile state) (shuffler : Shuffler Rng) :
    Stage pile (World.start shuffler state).counts (World.start shuffler state).state
        (World.start shuffler state).waitingFor ∧
      (World.start shuffler state).waitingFor ≠ .begun := by
  have dealt := ready.deal shuffler
  rw [World.start, startMulligan]
  generalize (state.clearPrepaid.shuffleAll shuffler).dealHands _ = dealt' at *
  have fresh : dealt'.bottomed = fun _ => 0 := dealt.bottomed
  have someone : dealt'.seatOrder ≠ [] := seatOrder_congr dealt.table ▸ ready.someone
  cases forced : dealt'.tinyLeadersForcedMulliganPending with
  | nil =>
    have stage := dealt.sound.normalDecision someone fun player => by simp [fresh]
    rw [fresh] at stage
    exact ⟨stage, fun begun => by cases begun⟩
  | cons first others =>
    obtain ⟨distinct, owing⟩ := forced_pending dealt.sound.seated.once
    rw [forced] at distinct owing
    exact ⟨.opening (by simp) dealt.sound distinct
      (fun entry there => ⟨(owing entry there).1, (owing entry there).2, rfl⟩) fresh.symm
      fun _ => Nat.zero_le 1, fun begun => by cases begun⟩

theorem World.step_not_begun {w' : World Rng} (done : w.step shuffler player answer = .ok w') :
    w.waitingFor ≠ .begun := by
  intro begun
  obtain ⟨result, applied, -⟩ := bind_eq_ok.mp done
  obtain ⟨e, refused⟩ := apply_begun w.state shuffler player answer
  rw [begun, refused] at applied
  cases applied

/-- What holds at every point of a run. -/
theorem World.Reachable.stage (ready : Ready pile state)
    (run : Reachable shuffler (World.start shuffler state) w) :
    Stage pile w.counts w.state w.waitingFor ∧
      w.finishes = if w.waitingFor = .begun then 1 else 0 := by
  induction run with
  | start =>
    obtain ⟨stage, going⟩ := ready.start shuffler
    exact ⟨stage, (if_neg going).symm⟩
  | @next w w' player answer _ done ih =>
    obtain ⟨stage, finishes⟩ := ih
    rw [if_neg (World.step_not_begun done)] at finishes
    obtain ⟨advances, counts, ends⟩ := stage.step done
    exact ⟨counts ▸ advances.stage, by rw [ends, finishes]⟩

end

end Phase.Mulligan
