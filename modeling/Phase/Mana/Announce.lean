import Phase.Mana.SolverSound

/-! The choices announced for the Phyrexian symbols of a cost, and the payment that follows
them whatever a player may pay with life by then. -/
namespace Phase.Mana
open List

/-- How one symbol is to be paid: the index of the symbol, and the symbol itself. -/
structure ActivationShardChoice where
  shardIndex : Nat
  shard : ManaCostShard
  choice : ShardChoice
  deriving DecidableEq

/-- Read off the printed symbol, never off what a permission makes of it. -/
def isNativePhyrexianShard (shard : ManaCostShard) : Bool :=
  match shard.toRequirement with
  | .phyrexian _ | .hybridPhyrexian _ _ => true
  | _ => false

def nativePhyrexianShards : ManaCost → List (ManaCostShard × Nat)
  | .cost shards _ => shards.zipIdx.filter fun entry => isNativePhyrexianShard entry.1
  | .noCost | .selfManaCost | .selfManaValue | .selfManaCostReduced _ => []

def phyrexianManaEquivalent : ManaCostShard → Option ManaCostShard
  | .phyrexianWhite => some .white
  | .phyrexianBlue => some .blue
  | .phyrexianBlack => some .black
  | .phyrexianRed => some .red
  | .phyrexianGreen => some .green
  | .phyrexianWhiteBlue => some .whiteBlue
  | .phyrexianWhiteBlack => some .whiteBlack
  | .phyrexianBlueBlack => some .blueBlack
  | .phyrexianBlueRed => some .blueRed
  | .phyrexianBlackRed => some .blackRed
  | .phyrexianBlackGreen => some .blackGreen
  | .phyrexianRedWhite => some .redWhite
  | .phyrexianRedGreen => some .redGreen
  | .phyrexianGreenWhite => some .greenWhite
  | .phyrexianGreenBlue => some .greenBlue
  | _ => none

def nativeAnnouncementMatches (cost : ManaCost) (records : List ActivationShardChoice) : Bool :=
  let domain := nativePhyrexianShards cost
  domain.length = records.length && domain.all fun entry =>
    match records.filter (·.shardIndex = entry.2) with
    | [record] => record.shard = entry.1
    | _ => false

/-- A symbol announced as mana is the mana it stands for; one announced as life stays. -/
def viewShard (native : List ActivationShardChoice) (shard : ManaCostShard) (index : Nat) :
    ManaCostShard :=
  match native.find? fun record => record.shardIndex = index && record.shard = shard with
  | some record =>
    match record.choice with
    | .payMana => (phyrexianManaEquivalent shard).getD shard
    | .payLife => shard
  | none => shard

def nativePhyrexianPaymentView (cost : ManaCost) (native : List ActivationShardChoice) :
    ManaCost :=
  match cost with
  | .cost shards generic =>
    .cost (shards.zipIdx.map fun entry => viewShard native entry.1 entry.2) generic
  | cost => cost

/-- The choice that the first record for an index carries. -/
def choiceFor (records : List ActivationShardChoice) (index : Nat) : Option ShardChoice :=
  (records.find? (·.shardIndex = index)).map (·.choice)

def vectorEntry (native selected : List ActivationShardChoice) (index : Nat) : ShardChoice :=
  if choiceFor native index = some .payLife then .payLife
  else (choiceFor selected index).getD .payMana

/-- The symbols of the view and of the raw cost are as many, so a record that names a symbol of
the one names an index of the other. -/
def phyrexianChoiceVector (raw view : ManaCost) (lifeColors : LifePaymentColors)
    (native selected : List ActivationShardChoice) : Option (List ShardChoice) :=
  match raw, view with
  | .cost rawShards _, .cost shards _ =>
    let namesLockedSymbol := fun record : ActivationShardChoice =>
      rawShards[record.shardIndex]? = some record.shard
    let phyrexianShaped := fun index : Nat =>
      (shards[index]?).any (·.isPhyrexianUnder lifeColors)
    if !native.all namesLockedSymbol || !selected.all namesLockedSymbol then none
    else if selected.any fun record =>
        record.choice = .payLife && !phyrexianShaped record.shardIndex then none
    else some (((range shards.length).filter phyrexianShaped).map (vectorEntry native selected))
  | _, _ => some []

section
variable {terms : PaymentTerms} {shards : List ManaCostShard} {generic : Nat} {s after : Solver}
variable {entries others : List (ManaCostShard × Nat)} {payments : List SymbolPayment}

/-- The Phyrexian symbols use up the choices one by one. -/
theorem payShards_followed {choices : List ShardChoice} {choose : Nat → ShardChoice}
    (given : terms.phyrexianChoices = some choices)
    (phyrexian : ∀ entry ∈ entries, entry.1.isPhyrexianUnder terms.lifeColors)
    (aligned : choices.drop s.choiceCursor = entries.map fun entry => choose entry.2)
    (paid : payShards terms shards generic entries s = .ok (payments, after)) :
    ∀ payment ∈ payments, payment.life = [] ↔ choose payment.index = .payMana := by
  induction entries generalizing s payments with
  | nil => cases paid; exact nofun
  | cons entry entries ih =>
    obtain ⟨here, later⟩ := forall_mem_cons.mp phyrexian
    rw [payShards, Fallible.bind_eq_ok] at paid
    obtain ⟨⟨payment, next⟩, isPaid, paid⟩ := paid
    obtain ⟨⟨rest, last⟩, isRest, paid⟩ := Fallible.bind_eq_ok.mp paid
    cases paid
    have spec := payShard_spec isPaid
    have isNext : choices[s.choiceCursor]? = some (choose entry.2) := by
      rw [← head?_drop, aligned]
      rfl
    obtain ⟨cursor, followed⟩ := spec.followed here (choose entry.2) (by rw [given]; exact isNext)
    refine forall_mem_cons.mpr ⟨by rw [spec.index]; exact followed, ih later ?_ isRest⟩
    rw [cursor, ← drop_drop, aligned]
    rfl

end

/-- Announced as life, or selected as life by the first record for the symbol. -/
def ChosenLife (native selected : List ActivationShardChoice) (index : Nat) : Prop :=
  (∃ record ∈ native, record.shardIndex = index ∧ record.choice = .payLife) ∨
    choiceFor selected index = some .payLife

section
variable {shards : List ManaCostShard} {generic index : Nat} {shard : ManaCostShard}
variable {native selected : List ActivationShardChoice} {record : ActivationShardChoice}

theorem choiceFor_some {choice : ShardChoice} (isChoice : choiceFor native index = some choice) :
    ∃ record ∈ native, record.shardIndex = index ∧ record.choice = choice := by
  obtain ⟨record, found, rfl⟩ := Option.map_eq_some_iff.mp isChoice
  have isIndex := find?_some found
  exact ⟨record, mem_of_find?_eq_some found, of_decide_eq_true isIndex, rfl⟩

theorem mem_native : (shard, index) ∈ nativePhyrexianShards (.cost shards generic) ↔
    shards[index]? = some shard ∧ isNativePhyrexianShard shard := by
  rw [nativePhyrexianShards, mem_filter, mem_zipIdx_iff_getElem?]

/-- One record for each printed Phyrexian symbol, and no other record. -/
theorem announced_once (announced : nativeAnnouncementMatches (.cost shards generic) native) :
    (native.map (·.shardIndex)).Nodup ∧ ∀ record ∈ native,
      shards[record.shardIndex]? = some record.shard ∧ isNativePhyrexianShard record.shard := by
  unfold nativeAnnouncementMatches at announced
  rw [Bool.and_eq_true, decide_eq_true_eq, all_eq_true] at announced
  obtain ⟨size, each⟩ := announced
  have keyed : ∀ entry ∈ nativePhyrexianShards (.cost shards generic),
      ∃ record ∈ native, record.shardIndex = entry.2 ∧ record.shard = entry.1 := by
    intro entry isEntry
    have one := each entry isEntry
    split at one
    · next record isOne =>
      have isRecord : record ∈ native.filter (·.shardIndex = entry.2) := by rw [isOne]; simp
      obtain ⟨held, isIndex⟩ := mem_filter.mp isRecord
      exact ⟨record, held, of_decide_eq_true isIndex, of_decide_eq_true one⟩
    · cases one
  have distinct : ((nativePhyrexianShards (.cost shards generic)).map Prod.snd).Nodup := by
    refine Nodup.sublist (filter_sublist.map Prod.snd) ?_
    rw [zipIdx_map_snd]
    exact nodup_range'
  have within : (nativePhyrexianShards (.cost shards generic)).map Prod.snd ⊆
      native.map (·.shardIndex) := by
    intro index isIndex
    obtain ⟨entry, isEntry, rfl⟩ := mem_map.mp isIndex
    obtain ⟨record, held, isIndex, -⟩ := keyed entry isEntry
    exact isIndex ▸ mem_map_of_mem held
  have same := (subperm_of_subset distinct within).perm_of_length_le
    (by rw [length_map, length_map]; omega)
  have once := same.nodup_iff.mp distinct
  refine ⟨once, fun record held => ?_⟩
  obtain ⟨entry, isEntry, isIndex⟩ :=
    mem_map.mp (same.mem_iff.mpr (mem_map_of_mem held))
  obtain ⟨other, held', isOther, isShard⟩ := keyed entry isEntry
  have isSame : other = record :=
    inj_on_of_nodup_map once held' held (isOther.trans isIndex)
  rw [isSame] at isShard
  rw [isShard, ← isIndex]
  exact mem_native.mp isEntry

/-- The record for an index is the one that is found. -/
theorem choiceFor_iff (once : (native.map (·.shardIndex)).Nodup) {choice : ShardChoice} :
    choiceFor native index = some choice ↔
      ∃ record ∈ native, record.shardIndex = index ∧ record.choice = choice := by
  refine ⟨choiceFor_some, ?_⟩
  rintro ⟨record, held, rfl, rfl⟩
  cases found : native.find? (·.shardIndex = record.shardIndex) with
  | none => exact absurd (decide_eq_true rfl) (find?_eq_none.mp found record held)
  | some other =>
    have isIndex := find?_some found
    have isSame : other = record := inj_on_of_nodup_map once
      (mem_of_find?_eq_some found) held (of_decide_eq_true isIndex)
    rw [choiceFor, found, isSame]
    rfl

theorem vectorEntry_life (once : (native.map (·.shardIndex)).Nodup) :
    vectorEntry native selected index = .payMana ↔ ¬ChosenLife native selected index := by
  unfold vectorEntry ChosenLife
  rw [← choiceFor_iff once]
  split
  · next announced => simp [announced]
  · next other =>
    cases isChoice : choiceFor selected index with
    | none => simp [other]
    | some choice => cases choice <;> simp [other]

theorem native_isPhyrexianUnder (native : isNativePhyrexianShard shard)
    (lifeColors : LifePaymentColors) : shard.isPhyrexianUnder lifeColors := by
  unfold isNativePhyrexianShard at native
  unfold ManaCostShard.isPhyrexianUnder effectiveShardRequirement
  split at native
  · next isRequirement => rw [isRequirement]; split <;> rfl
  · next isRequirement => rw [isRequirement]; split <;> rfl
  · cases native

/-- A symbol announced as life keeps its shape. -/
theorem viewShard_life (once : (native.map (·.shardIndex)).Nodup) (held : record ∈ native)
    (life : record.choice = .payLife) :
    viewShard native record.shard record.shardIndex = record.shard := by
  unfold viewShard
  split
  · next other found =>
    have isOther := find?_some found
    rw [Bool.and_eq_true, decide_eq_true_eq] at isOther
    have isSame : other = record :=
      inj_on_of_nodup_map once (mem_of_find?_eq_some found) held isOther.1
    rw [isSame, life]
  · rfl

end

section
variable {raw : ManaCost} {native selected : List ActivationShardChoice}
variable {shards : List ManaCostShard} {generic : Nat} {choices : List ShardChoice}
variable {lifeColors : LifePaymentColors} {terms : PaymentTerms}

theorem phyrexian_entries (entry : Nat → ShardChoice) :
    ((range shards.length).filter fun index =>
        (shards[index]?).any (·.isPhyrexianUnder lifeColors)).map entry =
      (shards.zipIdx.filter fun entry => entry.1.isPhyrexianUnder lifeColors).map
        fun shard => entry shard.2 := by
  have indices : range shards.length = shards.zipIdx.map Prod.snd := by
    rw [zipIdx_map_snd, range_eq_range']
  rw [indices, filter_map, map_map]
  refine congrArg _ (filter_congr fun shard isShard => ?_)
  rw [Function.comp_apply, mem_zipIdx_iff_getElem?.mp isShard]
  rfl

theorem announced_records (isView : nativePhyrexianPaymentView raw native = .cost shards generic)
    (announced : nativeAnnouncementMatches raw native) :
    (native.map (·.shardIndex)).Nodup ∧ ∃ rawShards, raw = .cost rawShards generic := by
  cases raw with
  | cost rawShards generic' =>
    cases isView
    exact ⟨(announced_once announced).1, rawShards, rfl⟩
  | _ => cases isView

/-- One choice for each Phyrexian symbol in printed order; no other symbol was chosen for life. -/
theorem choiceVector_aligned (announced : nativeAnnouncementMatches raw native)
    (isView : nativePhyrexianPaymentView raw native = .cost shards generic)
    (vector : phyrexianChoiceVector raw (nativePhyrexianPaymentView raw native) lifeColors native
      selected = some choices) :
    choices = ((shards.zipIdx.filter fun entry => entry.1.isPhyrexianUnder lifeColors).map
        fun entry => vectorEntry native selected entry.2) ∧
      ∀ entry ∈ shards.zipIdx, ¬entry.1.isPhyrexianUnder lifeColors →
        ¬ChosenLife native selected entry.2 := by
  cases raw with
  | cost rawShards generic' =>
    rw [isView] at vector
    cases isView
    obtain ⟨once, native_⟩ := announced_once announced
    unfold phyrexianChoiceVector at vector
    dsimp only at vector
    split at vector
    · cases vector
    · split at vector
      · cases vector
      · next honorable =>
        cases vector
        refine ⟨phyrexian_entries _, fun entry isEntry notShaped chosen => notShaped ?_⟩
        have isShard := mem_zipIdx_iff_getElem?.mp isEntry
        rcases chosen with ⟨record, held, isIndex, life⟩ | chosen
        · obtain ⟨isRaw, isNative⟩ := native_ record held
          rw [getElem?_map, getElem?_zipIdx, ← isIndex, isRaw] at isShard
          have kept : record.shard = entry.1 := by
            rw [← viewShard_life once held life]
            simpa using isShard
          exact kept ▸ native_isPhyrexianUnder isNative lifeColors
        · obtain ⟨record, held, isIndex, life⟩ := choiceFor_some chosen
          by_contra lost
          refine honorable (any_eq_true.mpr ⟨record, held, ?_⟩)
          rw [isIndex, isShard, life]
          simpa using lost
  | _ => cases isView

/-- Each symbol is paid once; with life exactly when that was chosen, and with mana otherwise. -/
structure Follows (terms : PaymentTerms) (native selected : List ActivationShardChoice)
    (shards : List ManaCostShard) (symbols : List SymbolPayment) : Prop where
  once : (symbols.map (·.index)).Perm (range shards.length)
  legal : ∀ part ∈ symbols, ∃ shard, shards[part.index]? = some shard ∧ part.Legal terms shard
  chosen : ∀ part ∈ symbols, part.life ≠ [] ↔ ChosenLife native selected part.index

theorem payShards_follows {s after : Solver} {payments : List SymbolPayment}
    (announced : nativeAnnouncementMatches raw native)
    (isView : nativePhyrexianPaymentView raw native = .cost shards generic)
    (vector : phyrexianChoiceVector raw (nativePhyrexianPaymentView raw native) terms.lifeColors
      native selected = some choices)
    (given : terms.phyrexianChoices = some choices) (start : s.choiceCursor = 0)
    (paid : payShards terms shards generic (phyrexianDeferredOrder shards terms.lifeColors) s =
      .ok (payments, after)) : Follows terms native selected shards payments := by
  obtain ⟨isVector, unchosen⟩ := choiceVector_aligned announced isView vector
  obtain ⟨records, -⟩ := announced_records isView announced
  obtain ⟨legal, -, -⟩ := payShards_spec paid
  obtain ⟨parts, same, both⟩ := deferred_parts legal
  have indices : shards.zipIdx.map Prod.snd = parts.map (·.index) := by
    rw [← forall₂_eq_eq_eq, forall₂_map_left_iff, forall₂_map_right_iff]
    exact both.imp fun entry part isPart => isPart.1.symm
  rw [zipIdx_map_snd, ← range_eq_range'] at indices
  obtain ⟨first, between, rest, isStrict, isRest, rfl⟩ := payShards_append paid
  obtain ⟨free, cursor⟩ := payShards_strict (fun entry isEntry => by
    simpa using (mem_filter.mp isEntry).2) isStrict
  have followed := payShards_followed given (fun entry isEntry => (mem_filter.mp isEntry).2)
    (by rw [cursor, start, drop_zero, isVector]) isRest
  refine ⟨indices ▸ same.symm.map _, fun part isPart => ?_, fun part isPart => ?_⟩
  · obtain ⟨entry, isEntry, isIndex, isLegal⟩ := payShards_entry paid part isPart
    refine ⟨entry.1, ?_, isLegal⟩
    rw [isIndex]
    refine mem_zipIdx_iff_getElem?.mp ?_
    exact (mem_append.mp isEntry).elim mem_of_mem_filter mem_of_mem_filter
  · rcases mem_append.mp isPart with isFirst | isLast
    · obtain ⟨entry, isEntry, isIndex, -⟩ := payShards_entry isStrict part isFirst
      obtain ⟨isEntry, strict⟩ := mem_filter.mp isEntry
      rw [free part isFirst, isIndex]
      exact iff_of_false (not_not.mpr rfl) (unchosen entry isEntry (by simpa using strict))
    · rw [Ne, followed part isLast, vectorEntry_life records, not_not]

end

/-- The payment of a cost whose Phyrexian symbols were announced: paid with life exactly where
that was announced or selected, whatever may be paid with life by then. -/
theorem payment_follows_announcement (raw : ManaCost)
    (native selected : List ActivationShardChoice) (terms : PaymentTerms)
    (choices : List ShardChoice) (pool : ReferencePool) (payment : ManaPayment)
    (announced : nativeAnnouncementMatches raw native)
    (vector : phyrexianChoiceVector raw (nativePhyrexianPaymentView raw native) terms.lifeColors
      native selected = some choices)
    (paid : selectManaPayment pool (nativePhyrexianPaymentView raw native)
      { terms with phyrexianChoices := some choices } = .ok payment) :
    (∀ shards generic, nativePhyrexianPaymentView raw native = .cost shards generic →
      Follows terms native selected shards payment.symbols) ∧
    ((∀ shards generic, nativePhyrexianPaymentView raw native ≠ .cost shards generic) →
      payment = {}) := by
  obtain ⟨demand, left, once⟩ := select_once paid
  refine ⟨fun shards generic isView => ?_, (payOnce_covers once).free⟩
  rw [isView] at once
  unfold payCostWithDemandAndChoicesOnce at once
  dsimp only at once
  obtain ⟨⟨symbols, s⟩, isSymbols, once⟩ := Fallible.bind_eq_ok.mp once
  obtain ⟨⟨units, last⟩, -, once⟩ := Fallible.bind_eq_ok.mp once
  cases once
  have follows := @payShards_follows raw native selected shards generic choices
    { terms with phyrexianChoices := some choices, handDemand := demand } { pool } s symbols
    announced isView vector rfl rfl isSymbols
  obtain ⟨each, legal, chosen⟩ := follows
  exact ⟨each, legal, chosen⟩

/-- `{W/P}{W}{U/P}` with white announced for the first symbol and life for the last; by the time
of the payment white may be paid with life, and life is selected for the second. -/
theorem gained_permission_follows : Follows { lifeColors := ⟨1⟩ }
      [⟨0, .phyrexianWhite, .payMana⟩, ⟨2, .phyrexianBlue, .payLife⟩] [⟨1, .white, .payLife⟩]
      [.white, .white, .phyrexianBlue]
      [.withMana 0 [whiteUnit], .withLife 1, .withLife 2] :=
  (payment_follows_announcement (.cost [.phyrexianWhite, .white, .phyrexianBlue] 0)
    [⟨0, .phyrexianWhite, .payMana⟩, ⟨2, .phyrexianBlue, .payLife⟩] [⟨1, .white, .payLife⟩]
    { lifeColors := ⟨1⟩ } [.payMana, .payLife, .payLife] [whiteUnit]
    ⟨[.withMana 0 [whiteUnit], .withLife 1, .withLife 2], []⟩ (by decide) (by decide)
    rfl).1 _ _ rfl

end Phase.Mana
