import Phase.Combat.Damage

/-! The totals of a batch: one lifelink gain for each source and one event for each player, of the
sums of what was dealt. -/
namespace Phase.Combat
open List

def totalsOf (hits : List Hit) : BatchTotals := hits.foldl BatchTotals.count {}

theorem totalsOf_concat (hits : List Hit) (hit : Hit) :
    totalsOf (hits ++ [hit]) = (totalsOf hits).count hit := by
  unfold totalsOf
  rw [foldl_append]
  rfl

/-- The damage of the hits that `counts` holds of, as the machine adds it up. -/
def damageBy (hits : List Hit) (counts : Hit → Bool) : UInt32 :=
  ((hits.filter counts).map (·.amount)).sum

section
variable {hits : List Hit} {hit : Hit} {counts : Hit → Bool}

theorem damageBy_concat : damageBy (hits ++ [hit]) counts =
    if counts hit then damageBy hits counts + hit.amount else damageBy hits counts := by
  unfold damageBy
  rw [filter_append, map_append, sum_append]
  cases isCounted : counts hit with
  | false =>
    rw [filter_cons_of_neg (by simp [isCounted])]
    exact add_zero _
  | true =>
    rw [filter_cons_of_pos isCounted]
    exact congrArg (damageBy hits counts + ·) (add_zero hit.amount)

theorem damageBy_none (none_ : ∀ hit ∈ hits, counts hit = false) : damageBy hits counts = 0 := by
  unfold damageBy
  rw [filter_eq_nil_iff.mpr fun hit inside => by simp [none_ hit inside]]
  rfl

end

def Hit.gainsFor (hit : Hit) (sourceId : ObjectId) : Bool :=
  hit.gainer.isSome && hit.sourceId = sourceId

def Hit.strikes (hit : Hit) (player : PlayerId) : Bool := hit.target = .player player

def Hit.strikesFrom (hit : Hit) (player : PlayerId) (sourceId : ObjectId) : Bool :=
  hit.strikes player && hit.sourceId = sourceId

/-- One total for each source that dealt damage with lifelink. -/
structure LifelinkTotals (hits : List Hit) (entries : List LifelinkTotal) : Prop where
  once : (entries.map (·.sourceId)).Nodup
  sources : ∀ id, id ∈ entries.map (·.sourceId) ↔ ∃ hit ∈ hits, hit.gainsFor id
  total : ∀ entry ∈ entries, entry.total = damageBy hits (·.gainsFor entry.sourceId) ∧
    ∃ hit ∈ hits, hit.sourceId = entry.sourceId ∧ hit.gainer = some entry.controller

/-- One total for each source of the damage to a player. -/
structure SourceTotals (hits : List Hit) (player : PlayerId) (sources : List (ObjectId × UInt32)) :
    Prop where
  once : (sources.map (·.1)).Nodup
  keys : ∀ id, id ∈ sources.map (·.1) ↔ ∃ hit ∈ hits, hit.strikesFrom player id
  amount : ∀ source ∈ sources, source.2 = damageBy hits (·.strikesFrom player source.1)

/-- One total for each player that was dealt damage to. -/
structure PlayerTotals (hits : List Hit) (entries : List PlayerTotal) : Prop where
  once : (entries.map (·.player)).Nodup
  players : ∀ player, player ∈ entries.map (·.player) ↔ ∃ hit ∈ hits, hit.strikes player
  total : ∀ entry ∈ entries, entry.total = damageBy hits (·.strikes entry.player) ∧
    SourceTotals hits entry.player entry.sources

section
variable {hits : List Hit} {hit : Hit} {player : PlayerId}

theorem exists_concat {p : Hit → Bool} :
    (∃ h ∈ hits ++ [hit], p h) ↔ (∃ h ∈ hits, p h) ∨ p hit := by
  simp only [mem_append, mem_singleton, or_and_right, exists_or, exists_eq_left]

theorem LifelinkTotals.count {totals : BatchTotals}
    (sound : LifelinkTotals hits totals.lifelinkBySource) :
    LifelinkTotals (hits ++ [hit]) (totals.addLifelink hit) := by
  obtain ⟨once, sources, total⟩ := sound
  unfold BatchTotals.addLifelink
  cases gains : hit.gainer with
  | none =>
    have never : ∀ id, hit.gainsFor id = false := fun id => by simp [Hit.gainsFor, gains]
    refine ⟨once, fun id => ?_, fun entry inside => ?_⟩
    · rw [exists_concat, never, sources]
      simp
    · obtain ⟨isTotal, other, isHit, isController⟩ := total entry inside
      refine ⟨?_, other, mem_append_left _ isHit, isController⟩
      rw [damageBy_concat, never, isTotal]
      rfl
  | some controller =>
    have only : ∀ id, hit.gainsFor id ↔ hit.sourceId = id := fun id => by
      simp [Hit.gainsFor, gains]
    refine ⟨Tally.nodup_add (fun _ => rfl) once, fun id => ?_, Tally.forall_add once
      (fun entry inside differs => ?_) (fun entry inside same => ?_) fun fresh => ?_⟩
    · rw [Tally.mem_keys_add, exists_concat, sources, only]
      · exact or_congr_right eq_comm
      · exact fun _ => rfl
    · obtain ⟨isTotal, other, isHit, isController⟩ := total entry inside
      refine ⟨?_, other, mem_append_left _ isHit, isController⟩
      rw [damageBy_concat, if_neg fun isOne => differs ((only _).mp isOne).symm, isTotal]
    · obtain ⟨isTotal, other, isHit, isController⟩ := total entry inside
      refine ⟨?_, other, mem_append_left _ isHit, isController⟩
      rw [damageBy_concat, if_pos ((only _).mpr same.symm), isTotal]
    · refine ⟨?_, hit, mem_append_right _ (mem_singleton_self _), rfl, gains⟩
      rw [damageBy_concat, if_pos ((only _).mpr rfl), damageBy_none, zero_add]
      intro other isHit
      by_contra gainsToo
      exact fresh ((sources _).mpr ⟨other, isHit, by simpa using gainsToo⟩)

variable {sources : List (ObjectId × UInt32)}

theorem SourceTotals.other (differs : hit.strikes player = false)
    (sound : SourceTotals hits player sources) : SourceTotals (hits ++ [hit]) player sources := by
  have never : ∀ id, hit.strikesFrom player id = false := fun id => by
    simp [Hit.strikesFrom, differs]
  refine ⟨sound.once, fun id => ?_, fun source inside => ?_⟩
  · rw [exists_concat, never, sound.keys]
    simp
  · rw [damageBy_concat, never, sound.amount source inside]
    rfl

theorem SourceTotals.add (strikes : hit.strikes player = true)
    (sound : SourceTotals hits player sources) :
    SourceTotals (hits ++ [hit]) player (Tally.add (·.1)
      (fun source => (source.1, source.2 + hit.amount)) (hit.sourceId, hit.amount) sources) := by
  obtain ⟨once, keys, amount⟩ := sound
  have only : ∀ id, hit.strikesFrom player id ↔ hit.sourceId = id := fun id => by
    simp [Hit.strikesFrom, strikes]
  refine ⟨Tally.nodup_add (fun _ => rfl) once, fun id => ?_, Tally.forall_add once
    (fun source inside differs => ?_) (fun source inside same => ?_) fun fresh => ?_⟩
  · rw [Tally.mem_keys_add, exists_concat, keys, only]
    · exact or_congr_right eq_comm
    · exact fun _ => rfl
  · rw [damageBy_concat, if_neg fun isOne => differs ((only _).mp isOne).symm, amount source inside]
  · rw [damageBy_concat, if_pos ((only _).mpr same.symm), amount source inside]
  · rw [damageBy_concat, if_pos ((only _).mpr rfl), damageBy_none, zero_add]
    intro other isHit
    by_contra strikesToo
    exact fresh ((keys _).mpr ⟨other, isHit, by simpa using strikesToo⟩)

theorem sourceTotals_nil (none_ : ∀ hit ∈ hits, hit.strikes player = false) :
    SourceTotals hits player [] := by
  refine ⟨nodup_nil, fun id => ⟨nofun, ?_⟩, nofun⟩
  rintro ⟨hit, isHit, strikes⟩
  simp [Hit.strikesFrom, none_ hit isHit] at strikes

theorem PlayerTotals.count {totals : BatchTotals}
    (sound : PlayerTotals hits totals.combatDamageToPlayers) :
    PlayerTotals (hits ++ [hit]) (totals.count hit).combatDamageToPlayers := by
  obtain ⟨once, players, total⟩ := sound
  unfold BatchTotals.count
  cases isTarget : hit.target with
  | object id =>
    have never : ∀ player, hit.strikes player = false := fun player => by
      simp [Hit.strikes, isTarget]
    refine ⟨once, fun player => ?_, fun entry inside => ?_⟩
    · rw [exists_concat, never, players]
      simp
    · rw [damageBy_concat, never]
      exact ⟨(total entry inside).1, (total entry inside).2.other (never _)⟩
  | player player =>
    have only : ∀ other, hit.strikes other ↔ player = other := fun other => by
      simp [Hit.strikes, isTarget]
    refine ⟨Tally.nodup_add (fun _ => rfl) once, fun other => ?_, Tally.forall_add once
      (fun entry inside differs => ?_) (fun entry inside same => ?_) fun fresh => ?_⟩
    · rw [Tally.mem_keys_add, exists_concat, players, only]
      · exact or_congr_right eq_comm
      · exact fun _ => rfl
    · have never : hit.strikes entry.player = false := by
        simpa using fun isOne => differs ((only _).mp isOne).symm
      rw [damageBy_concat, never]
      exact ⟨(total entry inside).1, (total entry inside).2.other never⟩
    · have strikes : hit.strikes entry.player = true := (only _).mpr same.symm
      refine ⟨?_, (total entry inside).2.add strikes⟩
      unfold PlayerTotal.add
      rw [damageBy_concat, if_pos strikes, (total entry inside).1]
    · have none_ : ∀ other ∈ hits, other.strikes player = false := by
        intro other isHit
        by_contra strikesToo
        exact fresh ((players _).mpr ⟨other, isHit, by simpa using strikesToo⟩)
      refine ⟨?_, (sourceTotals_nil none_).add ((only _).mpr rfl)⟩
      rw [damageBy_concat, if_pos ((only _).mpr rfl), damageBy_none none_, zero_add]

end

theorem totalsOf_lifelink (hits : List Hit) :
    LifelinkTotals hits (totalsOf hits).lifelinkBySource := by
  induction hits using reverseRecOn with
  | nil => exact ⟨nodup_nil, fun id => by simp [totalsOf], nofun⟩
  | append_singleton hits hit ih =>
    rw [totalsOf_concat]
    exact ih.count

theorem totalsOf_players (hits : List Hit) :
    PlayerTotals hits (totalsOf hits).combatDamageToPlayers := by
  induction hits using reverseRecOn with
  | nil => exact ⟨nodup_nil, fun player => by simp [totalsOf], nofun⟩
  | append_singleton hits hit ih =>
    rw [totalsOf_concat]
    exact ih.count

end Phase.Combat
