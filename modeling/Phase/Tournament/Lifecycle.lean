import Phase.Tournament.Change
import Phase.Tournament.Seating

/-! The life of a tournament: what its history keeps, whatever is called. -/
namespace Phase.Tournament
open List TournamentMeta Nat

/-- A bye or a forfeit, which is never changed. -/
def Permanent : Option PairingOutcome → Prop
  | some .bye | some (.forfeit _) => True
  | some (.reported _) | none => False

/-- How a call has written the outcome of a pairing. -/
inductive Written (code : String) (event : TournamentMeta) (call : TournamentCall)
    (dropped : List String) (pairing : TournamentPairing) : Option PairingOutcome → Prop
  | report {authority : ReportAuthority} {outcome : PodOutcome}
      (isCall : call = .report authority code pairing.id outcome)
      (admitted : event.admitReport pairing authority = .ok ())
      (legal : validateMatchResult pairing event.players event.matchType outcome = .ok ())
      (advances : ¬(event.bracket = .singleElimination ∧ outcome = .draw)) :
      Written code event call dropped pairing (some (.reported outcome))
  | forfeit {playerKey survivor : String} (isCall : call = .dropPlayer code playerKey)
      (pending : pairing.outcome = none) (seated : pairing.seats playerKey = true)
      (last : (pairing.players.filter fun key => !dropped.contains key) = [survivor]) :
      Written code event call dropped pairing (some (.forfeit survivor))

section
variable {compareTiebreaks : CompareTiebreaks} {code : String} {event event' : TournamentMeta}
  {call : TournamentCall} {env : BrokerEnv}

theorem admitReport_open {pairing : TournamentPairing} {authority : ReportAuthority}
    (admitted : event.admitReport pairing authority = .ok ()) :
    event.status.isTerminal = false ∧ ¬Permanent pairing.outcome ∧
      (authority = .system ↔ (event.hosted.lookup pairing.id).isSome = true) := by
  unfold admitReport reportGate at admitted
  cases terminal : event.status.isTerminal with
  | true => simp [terminal] at admitted
  | false =>
    rw [terminal] at admitted
    cases outcome : pairing.outcome with
    | none =>
      refine ⟨rfl, id, ?_⟩
      cases isHosted : (event.hosted.lookup pairing.id).isSome <;>
        cases authority <;> simp [outcome, isHosted] at admitted ⊢
    | some settled =>
      cases settled with
      | bye => simp [outcome] at admitted
      | forfeit winner => simp [outcome] at admitted
      | reported result =>
        refine ⟨rfl, id, ?_⟩
        cases isHosted : (event.hosted.lookup pairing.id).isSome <;>
          cases authority <;> simp [outcome, isHosted] at admitted ⊢

theorem Written.not_permanent {dropped : List String} {pairing : TournamentPairing}
    {outcome : Option PairingOutcome}
    (written : Written code event call dropped pairing outcome) : ¬Permanent pairing.outcome := by
  cases written with
  | report isCall admitted legal advances => exact (admitReport_open admitted).2.1
  | forfeit isCall pending seated last =>
    rw [pending]
    exact id

/-- A pairing keeps its place, its number and its players; its outcome may be written. -/
theorem Change.pairing (change : Change compareTiebreaks code event call env event') {i : Nat}
    {p : TournamentPairing} (there : event.pairings[i]? = some p) :
    ∃ outcome, event'.pairings[i]? = some { p with outcome } ∧
      (outcome = p.outcome ∨ Written code event call event'.droppedKeys p outcome) := by
  have same : event'.pairings[i]? = some p → ∃ outcome, event'.pairings[i]? =
      some { p with outcome } ∧
        (outcome = p.outcome ∨ Written code event call event'.droppedKeys p outcome) :=
    fun there' => ⟨p.outcome, there', .inl rfl⟩
  cases change with
  | joined _ _ _ after | hosted _ _ _ _ _ after | completed _ _ _ after | abandoned _ _ after =>
    subst after
    exact same there
  | paired _ _ _ _ _ after =>
    subst after
    have inside := (List.getElem?_eq_some_iff.mp there).1
    exact same ((getElem?_append_left inside).trans there)
  | @reported authority pairingId index pairing outcome isCall found isId admitted legal advances
      after =>
      subst after
      change ∃ written, (event.pairings.modify index _)[i]? = _ ∧ _
      rw [getElem?_modify, there]
      by_cases here : index = i
      · subst here
        cases there.symm.trans found
        exact ⟨some (.reported outcome), by simp, .inr (.report (isId ▸ isCall) admitted legal
          advances)⟩
      · exact ⟨p.outcome, by simp [here], .inl rfl⟩
  | @dropped playerKey index player isCall running found isKey after =>
    subst after
    change ∃ written, (event.pairings.map _)[i]? = _ ∧ _
    rw [getElem?_map, there, Option.map_some]
    unfold forfeitFor
    split
    · exact ⟨p.outcome, rfl, .inl rfl⟩
    · next live =>
      simp only [Bool.or_eq_true, Bool.not_eq_true', not_or, Bool.not_eq_true,
        Option.isSome_eq_false_iff, Option.isNone_iff_eq_none, Bool.not_eq_false] at live
      split
      · next survivor last =>
        exact ⟨some (.forfeit survivor), rfl, .inr (.forfeit isCall live.1 live.2 last)⟩
      · exact ⟨p.outcome, rfl, .inl rfl⟩

/-- Only a new round adds pairings. -/
theorem Change.grows (change : Change compareTiebreaks code event call env event') :
    event'.pairings.length = event.pairings.length ∧ event'.currentRound = event.currentRound ∨
      ∃ generated, call = .generatePairings code ∧ event.currentRound < event.totalRounds ∧
        event.firstUnresolvedPairing = none ∧
        event.buildRound compareTiebreaks = .ok generated ∧
        event' = event.paired generated env := by
  cases change with
  | joined _ _ _ after | hosted _ _ _ _ _ after | completed _ _ _ after | abandoned _ _ after =>
    subst after
    exact .inl ⟨rfl, rfl⟩
  | @paired generated isCall running scheduled resolved built after =>
    exact .inr ⟨generated, isCall, scheduled, resolved, built, after⟩
  | reported _ _ _ _ _ _ after =>
    subst after
    exact .inl ⟨length_modify .., rfl⟩
  | dropped _ _ _ _ after =>
    subst after
    exact .inl ⟨length_map .., rfl⟩

end

section
variable {compareTiebreaks : CompareTiebreaks} {event : TournamentMeta}
  {generated : List TournamentPairing}

theorem standingsOrder_perm : (event.standingsOrder compareTiebreaks).Perm
    (event.activePlayers.map (·.playerKey)) := by
  refine (((perm_insertionSort _ _).filter _).map _).trans ?_
  rw [filter_map, map_map]
  exact .refl _

theorem id_lt_firstId {pairing : TournamentPairing} (mem : pairing ∈ event.pairings) :
    pairing.id < event.firstId := by
  unfold firstId
  cases most : (event.pairings.map (·.id)).max? with
  | none =>
    rw [max?_eq_none_iff, map_eq_nil_iff] at most
    rw [most] at mem
    cases mem
  | some highest =>
    have bound := (max?_eq_some_iff.mp most).2 _ (mem_map_of_mem mem)
    exact lt_succ_of_le bound

theorem buildRound_fresh (built : event.buildRound compareTiebreaks = .ok generated) :
    Fresh (event.currentRound + 1) event.firstId generated := by
  unfold buildRound at built
  split at built
  · cases built
    exact buildSwissRound_fresh ..
  · obtain ⟨pods, rfl, -, -⟩ := buildSingleEliminationRound_ok built
    refine ⟨?_, fun pairing mem => (mem_numbered mem).1, fun pairing mem => ?_⟩
    · rw [numbered_ids, length_numbered]
    · rw [(mem_numbered mem).2.2]
      split
      · next one => exact .inr ⟨rfl, length_eq_one_iff.mp one⟩
      · exact .inl rfl

/-- Every player who has not dropped is in one pairing of a Swiss round, and has one seat there. -/
theorem buildRound_swiss (swiss : event.bracket = .swiss)
    (built : event.buildRound compareTiebreaks = .ok generated) :
    (generated.flatMap (·.players)).Perm (event.activePlayers.map (·.playerKey)) := by
  unfold buildRound at built
  rw [swiss] at built
  cases built
  exact (buildSwissRound_seats ..).trans standingsOrder_perm

end

structure Sound (event : TournamentMeta) : Prop where
  keys : (event.players.map (·.playerKey)).Nodup
  ids : (event.pairings.map (·.id)).Pairwise (· < ·)
  rounds : ∀ pairing ∈ event.pairings, 1 ≤ pairing.round ∧ pairing.round ≤ event.currentRound
  started : event.status = .registration ↔ event.currentRound = 0
  latched : 0 < event.currentRound →
    (event.totalRoundsOverride.or event.resolvedTotalRounds).isSome = true
  ceiling : event.currentRound ≤ event.totalRounds
  hosted : ∀ id host, event.hosted.lookup id = some host →
    event.bracket = .swiss ∧ host.generation ≤ maxU32

theorem created_sound (code : String) (req : CreateTournamentRequest) (env : BrokerEnv) :
    Sound (.created code req env) where
  keys := .nil
  ids := .nil
  rounds := nofun
  started := ⟨fun _ => rfl, fun _ => rfl⟩
  latched := nofun
  ceiling := zero_le _
  hosted := nofun

theorem totalRounds_of_latched {event event' : TournamentMeta}
    (latched : (event.totalRoundsOverride.or event.resolvedTotalRounds).isSome = true)
    (override : event'.totalRoundsOverride = event.totalRoundsOverride)
    (resolved : event'.resolvedTotalRounds = event.resolvedTotalRounds) :
    event'.totalRounds = event.totalRounds := by
  obtain ⟨rounds, isRounds⟩ := Option.isSome_iff_exists.mp latched
  unfold totalRounds
  rw [override, resolved, isRounds]
  rfl

section
variable {compareTiebreaks : CompareTiebreaks} {code : String} {event event' : TournamentMeta}
  {call : TournamentCall} {env : BrokerEnv}

/-- The history before a change is the history after it, up to outcomes and the new round. -/
theorem Change.history (change : Change compareTiebreaks code event call env event') :
    ∃ generated, event'.pairings.map (fun p => (p.id, p.round, p.players)) =
        event.pairings.map (fun p => (p.id, p.round, p.players)) ++
          generated.map (fun p => (p.id, p.round, p.players)) ∧
      (generated = [] ∧ event'.currentRound = event.currentRound ∨
        Fresh (event.currentRound + 1) event.firstId generated ∧
          event'.currentRound = event.currentRound + 1) := by
  rcases change.grows with ⟨length, round⟩ | ⟨generated, -, -, -, built, rfl⟩
  · refine ⟨[], ?_, .inl ⟨rfl, round⟩⟩
    rw [map_nil, append_nil]
    refine ext_getElem? fun i => ?_
    rw [getElem?_map, getElem?_map]
    cases there : event.pairings[i]? with
    | none =>
      have outside := getElem?_eq_none_iff.mp there
      rw [getElem?_eq_none_iff.mpr (length ▸ outside)]
    | some p =>
      obtain ⟨outcome, there', -⟩ := change.pairing there
      rw [there']
      rfl
  · exact ⟨generated, map_append .., .inr ⟨buildRound_fresh built, rfl⟩⟩

/-- Pairing a round fixes the number of rounds at what it was. -/
theorem paired_latched (sound : Sound event) (generated : List TournamentPairing) :
    ((event.paired generated env).totalRoundsOverride.or
        (event.paired generated env).resolvedTotalRounds).isSome = true ∧
      (event.paired generated env).totalRounds = event.totalRounds := by
  cases isLatched : event.totalRoundsOverride.or event.resolvedTotalRounds with
  | some rounds =>
    have latched : (event.totalRoundsOverride.or event.resolvedTotalRounds).isSome = true := by
      rw [isLatched]
      rfl
    have kept : (event.paired generated env).resolvedTotalRounds = event.resolvedTotalRounds := by
      refine if_neg fun ⟨_, noOverride, unresolved⟩ => ?_
      rw [noOverride, unresolved] at isLatched
      cases isLatched
    refine ⟨?_, totalRounds_of_latched latched rfl kept⟩
    rw [kept]
    exact latched
  | none =>
    obtain ⟨noOverride, unresolved⟩ := Option.or_eq_none_iff.mp isLatched
    have first : event.currentRound = 0 := by
      by_contra later
      have latched := sound.latched (pos_of_ne_zero later)
      rw [isLatched] at latched
      cases latched
    have fixed : (event.paired generated env).resolvedTotalRounds = some event.totalRounds :=
      if_pos ⟨by rw [first], noOverride, unresolved⟩
    have override : (event.paired generated env).totalRoundsOverride = none := noOverride
    refine ⟨by rw [override, fixed]; rfl, ?_⟩
    rw [totalRounds, override, fixed]
    rfl

theorem markDropped_keys (index : Nat) :
    (event.markDropped index).players.map (·.playerKey) = event.players.map (·.playerKey) := by
  refine ext_getElem? fun i => ?_
  change ((event.players.modify index _).map _)[i]? = _
  rw [getElem?_map, getElem?_map, getElem?_modify]
  cases event.players[i]? with
  | none => rfl
  | some player =>
    by_cases here : index = i
    · simp [here]
    · simp [here]

theorem Change.keys (change : Change compareTiebreaks code event call env event')
    (distinct : (event.players.map (·.playerKey)).Nodup) :
    (event'.players.map (·.playerKey)).Nodup := by
  cases change with
  | hosted _ _ _ _ _ after | completed _ _ _ after | abandoned _ _ after | paired _ _ _ _ _ after
  | reported _ _ _ _ _ _ after =>
    subst after
    exact distinct
  | @joined playerKey displayName isCall registering unknown after =>
    subst after
    rw [map_append, nodup_append]
    refine ⟨distinct, nodup_singleton _, ?_⟩
    rintro key mem _ mem' rfl
    cases mem_singleton.mp mem'
    obtain ⟨player, there, same⟩ := mem_map.mp mem
    exact find?_eq_none.mp unknown player there (by simpa using same)
  | @dropped playerKey index player isCall running found isKey after =>
    subst after
    change ((event.markDropped index).players.map _).Nodup
    rw [markDropped_keys]
    exact distinct

/-- What the counters of a running tournament do. -/
theorem Change.counters (sound : Sound event)
    (change : Change compareTiebreaks code event call env event') :
    (event'.status = .registration ↔ event'.currentRound = 0) ∧
      (0 < event'.currentRound →
        (event'.totalRoundsOverride.or event'.resolvedTotalRounds).isSome = true) ∧
      (event'.currentRound ≤ event'.totalRounds) ∧
      (0 < event.currentRound → event'.totalRounds = event.totalRounds) := by
  have running {status : TournamentStatus} (live : event.status = .inProgress)
      (other : status ≠ .registration) : status = .registration ↔ event.currentRound = 0 := by
    have notFirst : event.currentRound ≠ 0 := fun first => by
      rw [sound.started.mpr first] at live
      cases live
    exact ⟨fun is => absurd is other, fun is => absurd is notFirst⟩
  cases change with
  | joined isCall registering unknown after =>
    subst after
    have first := sound.started.mp registering
    refine ⟨sound.started, sound.latched, ?_, fun later => absurd first (ne_of_gt later)⟩
    exact first ▸ zero_le _
  | paired isCall running scheduled resolved built after =>
    subst after
    obtain ⟨latched, rounds⟩ := paired_latched sound _
    refine ⟨⟨nofun, nofun⟩, fun _ => latched, ?_, fun _ => rounds⟩
    rw [rounds]
    exact scheduled
  | reported _ _ _ _ _ _ after | hosted _ _ _ _ _ after =>
    subst after
    exact ⟨sound.started, sound.latched, sound.ceiling, fun _ => rfl⟩
  | @dropped playerKey index player isCall running found isKey after =>
    subst after
    refine ⟨sound.started, sound.latched, ?_, fun later =>
      totalRounds_of_latched (sound.latched later) rfl rfl⟩
    by_cases later : 0 < event.currentRound
    · have rounds := @totalRounds_of_latched event
        ((event.markDropped index).settleForfeits playerKey env) (sound.latched later) rfl rfl
      exact rounds ▸ sound.ceiling
    · exact (Nat.eq_zero_of_not_pos later) ▸ Nat.zero_le _
  | completed _ live _ after =>
    subst after
    exact ⟨running live nofun, sound.latched, sound.ceiling, fun _ => rfl⟩
  | abandoned _ live after =>
    subst after
    exact ⟨running live nofun, sound.latched, sound.ceiling, fun _ => rfl⟩

theorem Change.bracket (change : Change compareTiebreaks code event call env event') :
    event'.bracket = event.bracket := by
  cases change with
  | joined _ _ _ after | hosted _ _ _ _ _ after | completed _ _ _ after | abandoned _ _ after
  | paired _ _ _ _ _ after | reported _ _ _ _ _ _ after | dropped _ _ _ _ after =>
    subst after
    rfl

/-- A hosting stays, and hosting a pairing again raises its generation. -/
theorem Change.hosting (sound : Sound event)
    (change : Change compareTiebreaks code event call env event') {id : Nat} :
    (∀ host', event'.hosted.lookup id = some host' → event'.bracket = .swiss ∧
      host'.generation ≤ maxU32) ∧
    ∀ host, event.hosted.lookup id = some host → ∃ host', event'.hosted.lookup id = some host' ∧
      host.generation ≤ host'.generation ∧
      (call = .beginHosting code id → host.generation < maxU32 →
        host.generation < host'.generation) := by
  have kept (same : event'.hosted = event.hosted)
      (other : ∀ pairingId, call ≠ .beginHosting code pairingId) :
      (∀ host', event'.hosted.lookup id = some host' → event'.bracket = .swiss ∧
        host'.generation ≤ maxU32) ∧
      ∀ host, event.hosted.lookup id = some host → ∃ host', event'.hosted.lookup id = some host' ∧
        host.generation ≤ host'.generation ∧
        (call = .beginHosting code id → host.generation < maxU32 →
          host.generation < host'.generation) := by
    rw [same, change.bracket]
    exact ⟨sound.hosted id, fun host there => ⟨host, there, le_refl _, fun isCall =>
      absurd isCall (other id)⟩⟩
  cases change with
  | @hosted pairingId pairing isCall found isId eligible running after =>
    have swiss : event.bracket = .swiss := by
      simp only [isHostedEligible, Bool.and_eq_true, decide_eq_true_eq] at eligible
      exact eligible.1.1.1
    subst after
    by_cases here : id = pairingId
    · subst here
      rw [AList.lookup_insert]
      refine ⟨?_, fun host there => ⟨_, rfl, ?_, fun _ below => ?_⟩⟩
      · rintro host' ⟨⟩
        refine ⟨swiss, ?_⟩
        cases event.hosted.lookup id with
        | none => exact (by decide : 1 ≤ maxU32)
        | some host => exact min_le_right _ _
      · rw [there]
        exact Nat.le_min.mpr ⟨Nat.le_succ _, (sound.hosted id host there).2⟩
      · rw [there]
        exact Nat.lt_min.mpr ⟨Nat.lt_succ_self _, below⟩
    · rw [AList.lookup_insert_ne here]
      refine ⟨sound.hosted id, fun host there => ⟨host, there, le_refl _, fun other => ?_⟩⟩
      rw [isCall] at other
      cases other
      exact absurd rfl here
  | joined isCall _ _ after | completed isCall _ _ after | abandoned isCall _ after
  | paired isCall _ _ _ _ after | dropped isCall _ _ _ after =>
    subst after isCall
    exact kept rfl nofun
  | @reported authority _ _ _ _ isCall _ _ _ _ _ after =>
    subst after isCall
    refine kept rfl fun pairingId => ?_
    cases authority <;> nofun

theorem Change.sound (sound : Sound event)
    (change : Change compareTiebreaks code event call env event') : Sound event' := by
  obtain ⟨started, latched, ceiling, -⟩ := change.counters sound
  obtain ⟨generated, same, isNew⟩ := change.history
  have ids : event'.pairings.map (·.id) = event.pairings.map (·.id) ++ generated.map (·.id) := by
    have first := congrArg (map Prod.fst) same
    simpa only [map_append, map_map, Function.comp_def] using first
  refine ⟨change.keys sound.keys, ?_, fun pairing mem => ?_, started, latched, ceiling,
    fun id host => (change.hosting sound).1 host⟩
  · rw [ids]
    rcases isNew with ⟨rfl, -⟩ | ⟨fresh, -⟩
    · rw [map_nil, append_nil]
      exact sound.ids
    · rw [fresh.ids, pairwise_append]
      refine ⟨sound.ids, pairwise_lt_range' .., fun a mem b mem' => ?_⟩
      obtain ⟨pairing, there, rfl⟩ := mem_map.mp mem
      exact lt_of_lt_of_le (id_lt_firstId there) (mem_range'_1.mp mem').1
  · have shape : (pairing.id, pairing.round, pairing.players) ∈
        event'.pairings.map fun p => (p.id, p.round, p.players) := mem_map_of_mem mem
    rw [same, mem_append] at shape
    rcases shape with old | new
    · obtain ⟨before, there, isShape⟩ := mem_map.mp old
      have bounds := sound.rounds before there
      simp only [Prod.mk.injEq] at isShape
      omega
    · obtain ⟨made, there, isShape⟩ := mem_map.mp new
      rcases isNew with ⟨rfl, -⟩ | ⟨fresh, round⟩
      · cases there
      · have isRound := fresh.rounds made there
        simp only [Prod.mk.injEq] at isShape
        omega

theorem Runs.sound {manager : TournamentManager} (reached : Reached compareTiebreaks manager)
    (found : manager.tournaments code = some event) : Sound event :=
  reached.invariant (fun code req env _ => created_sound code req env)
    (fun _ _ _ _ _ sound change => change.sound sound) found

theorem mem_droppedKeys {key : String} : key ∈ event.droppedKeys ↔
    ∃ player ∈ event.players, player.dropped = true ∧ player.playerKey = key := by
  unfold droppedKeys
  simp only [mem_map, mem_filter]
  exact ⟨fun ⟨player, ⟨mem, isDropped⟩, isKey⟩ => ⟨player, mem, isDropped, isKey⟩,
    fun ⟨player, mem, isDropped, isKey⟩ => ⟨player, ⟨mem, isDropped⟩, isKey⟩⟩

theorem Change.dropped_stays (change : Change compareTiebreaks code event call env event')
    {key : String} (isDropped : key ∈ event.droppedKeys) : key ∈ event'.droppedKeys := by
  cases change with
  | hosted _ _ _ _ _ after | completed _ _ _ after | abandoned _ _ after | paired _ _ _ _ _ after
  | reported _ _ _ _ _ _ after =>
    subst after
    exact isDropped
  | joined _ _ _ after =>
    subst after
    obtain ⟨player, mem, rest⟩ := mem_droppedKeys.mp isDropped
    exact mem_droppedKeys.mpr ⟨player, mem_append_left _ mem, rest⟩
  | @dropped playerKey index _ _ _ _ _ after =>
    subst after
    obtain ⟨player, mem, out, isKey⟩ := mem_droppedKeys.mp isDropped
    obtain ⟨i, there⟩ := mem_iff_getElem?.mp mem
    refine mem_droppedKeys.mpr ⟨if index = i then { player with dropped := true } else player,
      mem_iff_getElem?.mpr ⟨i, ?_⟩, ?_, ?_⟩
    · change (event.players.modify index _)[i]? = _
      rw [getElem?_modify, there]
      split <;> rfl
    · split
      · rfl
      · exact out
    · split <;> exact isKey

theorem Change.running (change : Change compareTiebreaks code event call env event') :
    event.status.isTerminal = false := by
  cases change with
  | joined _ registering _ _ =>
    rw [registering]
    rfl
  | paired _ running _ _ _ _ => exact running
  | reported _ _ _ admitted _ _ _ => exact (admitReport_open admitted).1
  | hosted _ _ _ _ running _ => exact running
  | dropped _ running _ _ _ => exact running
  | completed _ running _ _ =>
    rw [running]
    rfl
  | abandoned _ running _ =>
    rw [running]
    rfl

end

/-- What a later state of a tournament still has of an earlier one. -/
structure Keeps (event event' : TournamentMeta) : Prop where
  bracket : event'.bracket = event.bracket
  pairings : ∀ (i : Nat) p, event.pairings[i]? = some p → ∃ outcome,
    event'.pairings[i]? = some { p with outcome } ∧ (Permanent p.outcome → outcome = p.outcome)
  hosted : ∀ id host, event.hosted.lookup id = some host → ∃ host',
    event'.hosted.lookup id = some host' ∧ host.generation ≤ host'.generation
  current : event.currentRound ≤ event'.currentRound
  rounds : 0 < event.currentRound → event'.totalRounds = event.totalRounds
  terminal : event.status.isTerminal = true → event' = event
  dropped : ∀ key ∈ event.droppedKeys, key ∈ event'.droppedKeys

theorem Keeps.refl (event : TournamentMeta) : Keeps event event where
  bracket := rfl
  pairings _ p there := ⟨p.outcome, there, fun _ => rfl⟩
  hosted _ host there := ⟨host, there, le_refl _⟩
  current := le_refl _
  rounds _ := rfl
  terminal _ := rfl
  dropped _ mem := mem

theorem Keeps.trans {a b c : TournamentMeta} (first : Keeps a b) (second : Keeps b c) :
    Keeps a c where
  bracket := second.bracket.trans first.bracket
  pairings i p there := by
    obtain ⟨middle, there', stays⟩ := first.pairings i p there
    obtain ⟨last, there'', stays'⟩ := second.pairings i _ there'
    refine ⟨last, there'', fun permanent => ?_⟩
    have same := stays permanent
    exact (stays' (show Permanent middle by rw [same]; exact permanent)).trans same
  hosted id host there := by
    obtain ⟨host', there', grows⟩ := first.hosted id host there
    obtain ⟨host'', there'', grows'⟩ := second.hosted id host' there'
    exact ⟨host'', there'', grows.trans grows'⟩
  current := first.current.trans second.current
  rounds started :=
    (second.rounds (lt_of_lt_of_le started first.current)).trans (first.rounds started)
  terminal ended := by
    have same := first.terminal ended
    subst same
    exact second.terminal ended
  dropped key mem := second.dropped key (first.dropped key mem)

section
variable {compareTiebreaks : CompareTiebreaks} {code : String} {event event' : TournamentMeta}
  {call : TournamentCall} {env : BrokerEnv}

theorem Change.keeps (sound : Sound event)
    (change : Change compareTiebreaks code event call env event') : Keeps event event' where
  bracket := change.bracket
  pairings i p there := by
    obtain ⟨outcome, there', written⟩ := change.pairing there
    refine ⟨outcome, there', fun permanent => ?_⟩
    rcases written with same | written
    · exact same
    · exact absurd permanent written.not_permanent
  hosted id host there := by
    obtain ⟨host', there', grows, -⟩ := (change.hosting sound).2 host there
    exact ⟨host', there', grows⟩
  current := by
    obtain ⟨-, -, ⟨-, round⟩ | ⟨-, round⟩⟩ := change.history
    · exact le_of_eq round.symm
    · omega
  rounds := (change.counters sound).2.2.2
  terminal ended := by
    rw [change.running] at ended
    cases ended
  dropped key := change.dropped_stays

/-- Calls between which the tournament is still there. -/
abbrev Lives (compareTiebreaks : CompareTiebreaks) (code : String) :
    TournamentManager → TournamentManager → Prop :=
  Runs compareTiebreaks fun manager _ _ => (manager.tournaments code).isSome = true

theorem Lives.keeps {manager later : TournamentManager}
    (lives : Lives compareTiebreaks code manager later)
    (reached : Reached compareTiebreaks manager) (found : manager.tournaments code = some event)
    (found' : later.tournaments code = some event') : Keeps event event' := by
  induction lives generalizing event' with
  | start =>
    cases found.symm.trans found'
    exact .refl _
  | call run call env there ih =>
    obtain ⟨middle, isMiddle⟩ := Option.isSome_iff_exists.mp there
    have sound := (run.reached reached).sound isMiddle
    rcases apply_event isMiddle found' with rfl | ⟨-, change⟩
    · exact ih isMiddle
    · exact (ih isMiddle).trans (change.keeps sound)

theorem seated_once {pairings : List TournamentPairing} {key : String}
    (once : (pairings.flatMap (·.players)).count key = 1) :
    (pairings.filter (·.seats key)).length = 1 := by
  induction pairings with
  | nil => cases once
  | cons pairing pairings ih =>
    have seats : pairing.seats key = true ↔ 0 < pairing.players.count key := by
      simp [TournamentPairing.seats]
    rw [flatMap_cons, count_append] at once
    rw [filter_cons]
    split
    · next here =>
      have none_ : (pairings.flatMap (·.players)).count key = 0 := by
        have := seats.mp here
        omega
      have others : pairings.filter (·.seats key) = [] := by
        refine filter_eq_nil_iff.mpr fun other mem isSeated => ?_
        refine count_eq_zero.mp none_ (mem_flatMap.mpr ⟨other, mem, ?_⟩)
        simpa [TournamentPairing.seats] using isSeated
      rw [others]
      rfl
    · next elsewhere =>
      have none_ : pairing.players.count key = 0 := by
        have := mt seats.mpr elsewhere
        omega
      exact ih (by omega)

/-- What one call may do to a tournament. -/
structure LawfulCall (code : String) (event : TournamentMeta) (call : TournamentCall)
    (answer : Except String Unit) (event' : TournamentMeta) : Prop where
  /-- A round is added when everything before it is resolved, and a Swiss round seats each
  player who has not dropped in one pairing. -/
  round : event'.currentRound = event.currentRound ∧
      event'.pairings.length = event.pairings.length ∨
    event'.currentRound = event.currentRound + 1 ∧
      (∀ pairing ∈ event.pairings, pairing.outcome ≠ none) ∧
      ∃ generated, event'.pairings = event.pairings ++ generated ∧
        (∀ pairing ∈ generated, pairing.round = event'.currentRound) ∧
        (event.bracket = .swiss → ∀ player ∈ event.players, player.dropped = false →
          (generated.filter (·.seats player.playerKey)).length = 1)
  /-- The outcome of a hosted pairing is written by the server, or by the drop that ends it. -/
  hostedOutcome : ∀ (i : Nat) p p', event.pairings[i]? = some p → event'.pairings[i]? = some p' →
    (event.hosted.lookup p.id).isSome = true → p'.outcome ≠ p.outcome →
      (∃ outcome, call = .reportResultSystem code p.id outcome) ∨
      ∃ playerKey winner, call = .dropPlayer code playerKey ∧ p.outcome = none ∧
        p'.outcome = some (.forfeit winner)
  rehosted : ∀ id host, event.hosted.lookup id = some host → call = .beginHosting code id →
    answer = .ok () → host.generation < maxU32 → ∃ host', event'.hosted.lookup id = some host' ∧
      host.generation < host'.generation

theorem Change.lawful (sound : Sound event)
    (change : Change compareTiebreaks code event call env event') (answer : Except String Unit) :
    LawfulCall code event call answer event' where
  round := by
    rcases change.grows with ⟨length, round⟩ | ⟨generated, -, -, resolved, built, rfl⟩
    · exact .inl ⟨round, length⟩
    · refine .inr ⟨rfl, fun pairing mem pending => ?_, generated, rfl,
        (buildRound_fresh built).rounds, fun swiss player mem active => seated_once ?_⟩
      · have := find?_eq_none.mp resolved pairing mem
        simp [pending] at this
      · have distinct : (event.activePlayers.map (·.playerKey)).Nodup :=
          (filter_sublist.map _).nodup sound.keys
        rw [(buildRound_swiss swiss built).count_eq]
        refine count_eq_one_of_mem distinct (mem_map_of_mem (mem_filter.mpr ⟨mem, ?_⟩))
        simp [active]
  hostedOutcome i p p' there there' isHosted differs := by
    obtain ⟨outcome, isThere, written⟩ := change.pairing there
    cases there'.symm.trans isThere
    rcases written with same | written
    · exact absurd same differs
    · cases written with
      | @report authority result isCall admitted legal advances =>
        have system := (admitReport_open admitted).2.2.mpr isHosted
        subst system
        exact .inl ⟨result, isCall⟩
      | @forfeit playerKey survivor isCall pending seated last =>
        exact .inr ⟨playerKey, survivor, isCall, pending, rfl⟩
  rehosted id host there isCall _ below := by
    obtain ⟨host', there', -, grows⟩ := (change.hosting sound).2 host there
    exact ⟨host', there', grows isCall below⟩

/-- The history of a tournament over all calls: numbers grow, rounds are paired when the last one
is resolved and within the schedule, what is permanent stays, a refused call changes nothing. -/
theorem tournament_lifecycle {manager : TournamentManager}
    (reached : Reached compareTiebreaks manager) (found : manager.tournaments code = some event) :
    (event.pairings.map (·.id)).Pairwise (· < ·) ∧ event.currentRound ≤ event.totalRounds ∧
    (∀ call env reason, (manager.apply compareTiebreaks call env).1 = .error reason →
      (manager.apply compareTiebreaks call env).2 = manager) ∧
    (∀ call env event', (manager.apply compareTiebreaks call env).2.tournaments code = some event' →
        LawfulCall code event call (manager.apply compareTiebreaks call env).1 event') ∧
    ∀ later event', Lives compareTiebreaks code manager later →
      later.tournaments code = some event' → Keeps event event' := by
  have sound := reached.sound found
  refine ⟨sound.ids, sound.ceiling, fun call env reason failed => ?_, fun call env event' found' => ?_,
    fun later event' lives found' => Lives.keeps lives reached found found'⟩
  · have called := @apply_called compareTiebreaks manager env call
    generalize manager.apply compareTiebreaks call env = answer at called failed
    cases called with
    | refused => rfl
    | created | changed | swept => cases failed
  · rcases apply_event found found' with rfl | ⟨-, change⟩
    · refine ⟨.inl ⟨rfl, rfl⟩, fun i p p' there there' _ differs => ?_,
        fun id host there isCall accepted below => ?_⟩
      · cases there.symm.trans there'
        exact absurd rfl differs
      · subst isCall
        obtain ⟨_, _, isFound, isFound', change⟩ := apply_accepted rfl accepted
        cases found.symm.trans isFound
        cases found'.symm.trans isFound'
        exact (change.lawful sound (.ok ())).rehosted id host there rfl rfl below
    · exact change.lawful sound _

end

def noTiebreaks : CompareTiebreaks := fun _ _ _ => .eq

def anyTime : BrokerEnv := { nowMs := 0, newToken := "token" }

def afterCalls (calls : List TournamentCall) : TournamentManager :=
  calls.foldl (fun manager call => (manager.apply noTiebreaks call anyTime).2) .new

theorem afterCalls_reached (calls : List TournamentCall) :
    Reached noTiebreaks (afterCalls calls) := by
  unfold afterCalls
  generalize isStart : TournamentManager.new = start
  have reached : Reached noTiebreaks start := isStart ▸ .start
  clear isStart
  induction calls generalizing start with
  | nil => exact reached
  | cons call calls ih => exact ih _ (reached.call call anyTime trivial)

def headToHeadEvent (bracket : BracketShape) : CreateTournamentRequest where
  name := "Event"
  arity := .headToHead
  scoring := ⟨3, 1, 0, by decide⟩
  bracket
  totalRounds := none
  plusRounds := none
  matchType := none

/-- Two players whose match is played on the server. -/
def hostedPair : TournamentManager :=
  afterCalls [.createTournament "E" (headToHeadEvent .swiss), .joinTournament "E" "a" "A",
    .joinTournament "E" "b" "B", .generatePairings "E", .beginHosting "E" 0]

theorem hosted_pair_lives : ∃ event, hostedPair.tournaments "E" = some event ∧
    event.currentRound = 1 ∧ (event.hosted.lookup 0).isSome = true ∧
    event.currentRound ≤ event.totalRounds := by
  have there : (hostedPair.tournaments "E").map (fun event =>
      (event.currentRound, (event.hosted.lookup 0).isSome)) = some (1, true) := by decide +kernel
  obtain ⟨event, found, isEvent⟩ := Option.map_eq_some_iff.mp there
  obtain ⟨-, ceiling, -⟩ := tournament_lifecycle (afterCalls_reached _) found
  exact ⟨event, found, congrArg Prod.fst isEvent, congrArg Prod.snd isEvent, ceiling⟩

/-- The drop of a player writes the outcome of a hosted pairing. -/
theorem drop_settles_hosted_pairing : Reached noTiebreaks hostedPair ∧
    (hostedPair.tournaments "E").map (fun event =>
      ((event.hosted.lookup 0).isSome, event.pairings.map fun p => (p.id, p.outcome))) =
        some (true, [(0, none)]) ∧
    ((hostedPair.apply noTiebreaks (.dropPlayer "E" "a") anyTime).2.tournaments "E").map (fun event =>
      event.pairings.map fun p => (p.id, p.outcome)) = some [(0, some (.forfeit "b"))] :=
  ⟨afterCalls_reached _, by decide +kernel, by decide +kernel⟩

end Phase.Tournament
