import Phase.Phasing.Phasing

/-! What phases out with a permanent, what phases in with it, and when the one undoes the other. -/
namespace Phase.Phasing
open Relation Worklist List Assoc GameObject

def statusOf (objects : Objects) (id : ObjectId) : Option PhaseStatus :=
  (objects.lookup id).map (·.phaseStatus)

/-- `att` is attached to `host`. -/
def Hangs (objects : Objects) (host att : ObjectId) : Prop :=
  ∃ obj, objects.lookup host = some obj ∧ att ∈ obj.attachments

/-- `id` is an Aura, an Equipment or a Fortification, as far as phasing tells. -/
def Cascades (objects : Objects) (id : ObjectId) : Prop :=
  (objects.lookup id).any (fun obj => isAttachmentCascadedByPhasing obj.coreTypes) = true

def isInStatus (objects : Objects) (id : ObjectId) : Prop := statusOf objects id = some .phasedIn

/-- What phasing leaves alone. -/
structure SameShape (objects objects' : Objects) : Prop where
  hangs : ∀ host att, Hangs objects' host att ↔ Hangs objects host att
  cascades : ∀ id, Cascades objects' id ↔ Cascades objects id
  there : ∀ id, (objects'.lookup id).isSome = (objects.lookup id).isSome

namespace SameShape
variable {objects objects' objects'' : Objects}

theorem refl (objects : Objects) : SameShape objects objects :=
  ⟨fun _ _ => .rfl, fun _ => .rfl, fun _ => rfl⟩

theorem trans (first : SameShape objects objects') (second : SameShape objects' objects'') :
    SameShape objects objects'' where
  hangs host att := (second.hangs host att).trans (first.hangs host att)
  cascades id := (second.cascades id).trans (first.cascades id)
  there id := (second.there id).trans (first.there id)

/-- A change to one object that keeps what is attached to it, and whether it cascades. -/
theorem modify (objects : Objects) (key : ObjectId) {f : GameObject → GameObject}
    (attachments : ∀ obj, (f obj).attachments = obj.attachments)
    (types : ∀ obj, isAttachmentCascadedByPhasing (f obj).coreTypes =
      isAttachmentCascadedByPhasing obj.coreTypes) :
    SameShape objects (modify key f objects) := by
  have at_ (k : ObjectId) : (Assoc.modify key f objects).lookup k =
      (objects.lookup k).map fun obj => if k = key then f obj else obj := by
    by_cases same : k = key
    · subst same
      simp only [lookup_modify, if_pos]
    · simp only [Assoc.lookup_modify_ne same, if_neg same, Option.map_id']
  refine ⟨fun host att => ?_, fun k => ?_, fun k => ?_⟩
  · unfold Hangs
    rw [at_]
    cases objects.lookup host with
    | none => simp
    | some obj => by_cases same : host = key <;> simp [same, attachments]
  · unfold Cascades
    rw [at_]
    cases objects.lookup k with
    | none => simp
    | some obj => by_cases same : k = key <;> simp [same, types]
  · rw [at_, Option.isSome_map]

end SameShape

variable {objects : Objects}

theorem statusOf_modify_self {id : ObjectId} {obj : GameObject}
    (found : objects.lookup id = some obj) (status : PhaseStatus) :
    statusOf (modify id (setStatus status) objects) id = some status := by
  rw [statusOf, lookup_modify, found]
  rfl

theorem statusOf_modify_ne {objects : Objects} {id k : ObjectId} (other : k ≠ id)
    (status : PhaseStatus) :
    statusOf (modify id (setStatus status) objects) k = statusOf objects k := by
  rw [statusOf, lookup_modify_ne other, statusOf]

theorem sameShape_setStatus (objects : Objects) (id : ObjectId) (status : PhaseStatus) :
    SameShape objects (modify id (setStatus status) objects) :=
  .modify objects id (fun _ => rfl) fun _ => rfl

/-- `att` phases out with its host, if it is phased in. -/
def OutLink (objects : Objects) (host att : ObjectId) : Prop :=
  Hangs objects host att ∧ Cascades objects att

theorem SameShape.outLink {objects' : Objects} (same : SameShape objects objects')
    (host att : ObjectId) : OutLink objects' host att ↔ OutLink objects host att :=
  and_congr (same.hangs host att) (same.cascades att)

theorem hangs_iff {host att : ObjectId} {obj : GameObject}
    (found : objects.lookup host = some obj) : Hangs objects host att ↔ att ∈ obj.attachments := by
  simp [Hangs, found]

theorem mem_cascaded {objects' : Objects} (same : SameShape objects objects') {att : ObjectId}
    {obj : GameObject} :
    att ∈ cascaded objects' obj ↔ att ∈ obj.attachments ∧ Cascades objects att := by
  rw [← same.cascades, cascaded, mem_filter]
  rfl

/-- The loop of `phase_out_object` once the permanent itself has phased out. -/
structure Leaving (objects : Objects) (root : ObjectId) (state : Changing) (seen : List ObjectId)
    (queue : List (ObjectId × PhaseOutCause)) : Prop where
  shape : SameShape objects state.1
  follows : Follows (OutLink objects) (isInStatus objects) root state.2 seen
    fun y => ∃ item ∈ queue, item.1 = y
  items : ∀ item ∈ queue, item.2 = .indirectly ∧ ∃ x ∈ state.2, OutLink objects x item.1
  hung : ∀ y ∈ seen, y = root ∨ ∃ x ∈ state.2, OutLink objects x y
  own : statusOf state.1 root = some (.phasedOut .directly)
  others : ∀ y ∈ state.2, y ≠ root → statusOf state.1 y = some (.phasedOut .indirectly)
  relabelled : ∀ y ∈ seen, statusOf objects y = some (.phasedOut .directly) →
    statusOf state.1 y = some (.phasedOut .indirectly)
  kept : ∀ y, y ∉ state.2 → (y ∈ seen → statusOf objects y ≠ some (.phasedOut .directly)) →
    statusOf state.1 y = statusOf objects y

theorem isPhasedOut_iff {obj : GameObject} : obj.isPhasedOut = true ↔
    obj.phaseStatus = .phasedOut .directly ∨ obj.phaseStatus = .phasedOut .indirectly := by
  cases status : obj.phaseStatus with
  | phasedIn => simp [isPhasedOut, isPhasedIn, status]
  | phasedOut cause => cases cause <;> simp [isPhasedOut, isPhasedIn, status]

variable {root : ObjectId}

theorem Leaving.start {objects : Objects} {root : ObjectId} {obj : GameObject}
    (found : objects.lookup root = some obj) (isIn : obj.isPhasedIn = true) :
    Leaving objects root (phaseOutVisit (objects, []) (root, .directly)).1 [root]
      (push (phaseOutVisit (objects, []) (root, .directly)).2 []) := by
  have notOut : obj.isPhasedOut = false := by simp [isPhasedOut, isIn]
  have visited : phaseOutVisit (objects, []) (root, .directly) =
      ((modify root (setStatus (.phasedOut .directly)) objects, [root]),
        (cascaded (modify root (setStatus (.phasedOut .directly)) objects) obj).map
          fun att => (att, .indirectly)) := by
    simp [phaseOutVisit, found, notOut]
  have shape := sameShape_setStatus objects root (.phasedOut .directly)
  have pushed (y : ObjectId) : y ∈ cascaded
      (modify root (setStatus (.phasedOut .directly)) objects) obj ↔
        OutLink objects root y := by
    rw [mem_cascaded shape, OutLink, hangs_iff found]
  rw [visited]
  refine ⟨shape, .start fun y linked => ?_, ?_, ?_, statusOf_modify_self found _, ?_, ?_, ?_⟩
  · exact ⟨(y, .indirectly), mem_push.mpr (.inl (mem_map_of_mem ((pushed y).mpr linked))), rfl⟩
  · intro item mem
    rcases mem_push.mp mem with new | old
    · obtain ⟨y, inside, rfl⟩ := mem_map.mp new
      exact ⟨rfl, root, mem_singleton_self root, (pushed y).mp inside⟩
    · cases old
  · intro y mem
    exact .inl (mem_singleton.mp mem)
  · intro y mem other
    exact absurd (mem_singleton.mp mem) other
  · intro y mem direct
    obtain rfl := mem_singleton.mp mem
    have status : obj.phaseStatus = .phasedIn := by simpa [isPhasedIn] using isIn
    simp [statusOf, found, status] at direct
  · intro y other _
    exact statusOf_modify_ne (fun same => other (mem_singleton.mpr same)) _

variable {seen : List ObjectId} {state : Changing}

theorem Leaving.skip {item : ObjectId × PhaseOutCause} {rest : List (ObjectId × PhaseOutCause)}
    (old : item.1 ∈ seen) (h : Leaving objects root state seen (item :: rest)) :
    Leaving objects root state seen rest :=
  { h with
    follows := h.follows.skip old (by
      rintro y ⟨other, mem, rfl⟩
      rcases mem_cons.mp mem with rfl | later
      · exact .inl rfl
      · exact .inr ⟨other, later, rfl⟩)
    items := fun other mem => h.items other (mem_cons_of_mem item mem) }

section
variable {objects : Objects} {root : ObjectId} {state : Changing} {seen : List ObjectId}
  {item : ObjectId × PhaseOutCause} {rest : List (ObjectId × PhaseOutCause)}

theorem Leaving.items_later (h : Leaving objects root state seen (item :: rest)) :
    ∀ other ∈ rest, other.2 = .indirectly ∧ ∃ x ∈ state.2, OutLink objects x other.1 :=
  fun other mem => h.items other (mem_cons_of_mem item mem)

theorem Leaving.hung_now (h : Leaving objects root state seen (item :: rest)) :
    ∀ y ∈ item.1 :: seen, y = root ∨ ∃ x ∈ state.2, OutLink objects x y := by
  intro y mem
  rcases mem_cons.mp mem with rfl | old
  · exact .inr (h.items item mem_cons_self).2
  · exact h.hung y old

theorem pending_later {y : ObjectId} (waits : ∃ other ∈ item :: rest, other.1 = y) :
    y = item.1 ∨ ∃ other ∈ rest, other.1 = y := by
  obtain ⟨other, mem, rfl⟩ := waits
  rcases mem_cons.mp mem with rfl | later
  · exact .inl rfl
  · exact .inr ⟨other, later, rfl⟩

section
variable (new : item.1 ∉ seen) (h : Leaving objects root state seen (item :: rest))
include new h

theorem Leaving.not_root :
    item.1 ≠ root := fun same => new (same ▸ h.follows.known root h.follows.rooted)

theorem Leaving.not_phased : item.1 ∉ state.2 :=
  fun mem => new (h.follows.known item.1 mem)

theorem Leaving.untouched : statusOf state.1 item.1 = statusOf objects item.1 :=
  h.kept item.1 (h.not_phased new) fun mem => absurd mem new

/-- The visit of an object that is phased out, or is not there. -/
theorem Leaving.pass {after : Objects} (shape : SameShape state.1 after)
    (notIn : ¬isInStatus objects item.1)
    (direct : statusOf objects item.1 = some (.phasedOut .directly) →
      statusOf after item.1 = some (.phasedOut .indirectly))
    (other : statusOf objects item.1 ≠ some (.phasedOut .directly) →
      statusOf after item.1 = statusOf objects item.1)
    (same : ∀ y ≠ item.1, statusOf after y = statusOf state.1 y) :
    Leaving objects root (after, state.2) (item.1 :: seen) rest := by
  refine ⟨h.shape.trans shape, h.follows.pass notIn fun _ => pending_later, h.items_later,
    h.hung_now, ?_, ?_, ?_, ?_⟩
  · rw [same root (h.not_root new).symm]
    exact h.own
  · intro y mem notRoot
    rw [same y fun here => h.not_phased new (here ▸ mem)]
    exact h.others y mem notRoot
  · intro y mem wasDirect
    rcases mem_cons.mp mem with rfl | old
    · exact direct wasDirect
    · rw [same y fun here => new (here ▸ old)]
      exact h.relabelled y old wasDirect
  · intro y notPhased notDirect
    by_cases here : y = item.1
    · subst here
      exact other (notDirect mem_cons_self)
    · rw [same y here]
      exact h.kept y notPhased fun mem => notDirect (mem_cons_of_mem item.1 mem)

/-- The visit of an object that is phased in. -/
theorem Leaving.take {obj : GameObject} (found : state.1.lookup item.1 = some obj)
    (isIn : isInStatus objects item.1) {added : List ObjectId}
    (pushed : ∀ y, y ∈ added ↔ OutLink objects item.1 y) :
    Leaving objects root
      (modify item.1 (setStatus (.phasedOut .indirectly)) state.1, state.2 ++ [item.1])
      (item.1 :: seen) (push (added.map fun att => (att, .indirectly)) rest) := by
  have same {y : ObjectId} (other : y ≠ item.1) :=
    @statusOf_modify_ne state.1 item.1 y other (.phasedOut .indirectly)
  refine ⟨h.shape.trans (sameShape_setStatus _ _ _),
    h.follows.take new isIn (h.items item mem_cons_self).2 ?_ ?_, ?_, ?_, ?_, ?_, ?_, ?_⟩
  · intro y waits
    refine (pending_later waits).imp id ?_
    rintro ⟨other, mem, rfl⟩
    exact ⟨other, mem_push.mpr (.inr mem), rfl⟩
  · intro y linked
    exact .inr ⟨(y, .indirectly), mem_push.mpr (.inl (mem_map_of_mem ((pushed y).mpr linked))), rfl⟩
  · intro other mem
    rcases mem_push.mp mem with new | later
    · obtain ⟨y, inside, rfl⟩ := mem_map.mp new
      exact ⟨rfl, item.1, mem_append_right _ (mem_singleton_self _), (pushed y).mp inside⟩
    · obtain ⟨indirect, x, mem, linked⟩ := h.items_later other later
      exact ⟨indirect, x, mem_append_left _ mem, linked⟩
  · intro y mem
    refine (h.hung_now y mem).imp id ?_
    rintro ⟨x, mem, linked⟩
    exact ⟨x, mem_append_left _ mem, linked⟩
  · rw [same (h.not_root new).symm]
    exact h.own
  · intro y mem notRoot
    rcases mem_append.mp mem with old | last
    · rw [same fun here => h.not_phased new (here ▸ old)]
      exact h.others y old notRoot
    · obtain rfl := mem_singleton.mp last
      exact statusOf_modify_self found _
  · intro y mem wasDirect
    rcases mem_cons.mp mem with rfl | old
    · rw [isIn] at wasDirect
      cases wasDirect
    · rw [same fun here => new (here ▸ old)]
      exact h.relabelled y old wasDirect
  · intro y notPhased notDirect
    rw [same fun here => notPhased (mem_append_right _ (mem_singleton.mpr here))]
    exact h.kept y (fun mem => notPhased (mem_append_left _ mem)) fun mem =>
      notDirect (mem_cons_of_mem item.1 mem)

theorem Leaving.visit :
    Leaving objects root (phaseOutVisit state item).1 (item.1 :: seen)
      (push (phaseOutVisit state item).2 rest) := by
  have indirect := (h.items item mem_cons_self).1
  have untouched := h.untouched new
  cases found : state.1.lookup item.1 with
  | none =>
    have visited : phaseOutVisit state item = (state, []) := by simp [phaseOutVisit, found]
    have missing : statusOf objects item.1 = none := by
      rw [← untouched, statusOf, found]
      rfl
    rw [visited]
    exact h.pass new (.refl _) (by simp [isInStatus, missing]) (by simp [missing])
      (fun _ => untouched) fun _ _ => rfl
  | some obj =>
    have status : statusOf objects item.1 = some obj.phaseStatus := by
      rw [← untouched, statusOf, found]
      rfl
    by_cases isOut : obj.isPhasedOut = true
    · rcases isPhasedOut_iff.mp isOut with direct | already
      · rw [direct] at status
        have visited : phaseOutVisit state item =
            ((modify item.1 (setStatus (.phasedOut .indirectly)) state.1, state.2), []) := by
          simp [phaseOutVisit, found, isOut, direct, indirect]
        rw [visited]
        exact h.pass new (sameShape_setStatus _ _ _) (by simp [isInStatus, status])
          (fun _ => statusOf_modify_self found _) (fun notDirect => absurd status notDirect)
          fun y other => statusOf_modify_ne other _
      · rw [already] at status
        have visited : phaseOutVisit state item = (state, []) := by
          simp [phaseOutVisit, found, isOut, already]
        rw [visited]
        exact h.pass new (.refl _) (by simp [isInStatus, status]) (by simp [status])
          (fun _ => untouched) fun _ _ => rfl
    · have isIn : obj.phaseStatus = .phasedIn := by
        simpa [isPhasedOut, isPhasedIn] using isOut
      have visited : phaseOutVisit state item =
          ((modify item.1 (setStatus (.phasedOut .indirectly)) state.1, state.2 ++ [item.1]),
            (cascaded (modify item.1 (setStatus (.phasedOut .indirectly)) state.1) obj).map
              fun att => (att, .indirectly)) := by
        simp [phaseOutVisit, found, isOut, indirect]
      rw [visited]
      refine h.take new found (by rw [isInStatus, status, isIn]) fun y => ?_
      rw [mem_cascaded (h.shape.trans (sameShape_setStatus _ _ _)), OutLink, ← h.shape.hangs,
        hangs_iff found]

end

end

/-- What `phase_out_object` does to a permanent that is phased in, and with it. -/
structure PhasedOut (objects : Objects) (root : ObjectId) (after : Objects)
    (phased : List ObjectId) : Prop where
  shape : SameShape objects after
  once : phased.Nodup
  reaches : ∀ id, id ∈ phased ↔
    ReflTransGen (Edge (OutLink objects) (isInStatus objects)) root id
  own : statusOf after root = some (.phasedOut .directly)
  others : ∀ id ∈ phased, id ≠ root → statusOf after id = some (.phasedOut .indirectly)
  relabelled : ∀ id, statusOf objects id = some (.phasedOut .directly) →
    (∃ x ∈ phased, OutLink objects x id) → statusOf after id = some (.phasedOut .indirectly)
  kept : ∀ id, id ∉ phased → (statusOf objects id = some (.phasedOut .directly) →
    ¬∃ x ∈ phased, OutLink objects x id) → statusOf after id = statusOf objects id

theorem phaseOut_spec (isIn : isInStatus objects root) :
    PhasedOut objects root (phaseOut objects root .directly).1
      (phaseOut objects root .directly).2 := by
  obtain ⟨obj, found, status⟩ := Option.map_eq_some_iff.mp isIn
  have start := Leaving.start found (by simp [isPhasedIn, status])
  have steps : phaseOut objects root .directly = run phaseOutTraversal
      (phaseOutVisit (objects, []) (root, .directly)).1 [root]
      (push (phaseOutVisit (objects, []) (root, .directly)).2 []) := by
    rw [phaseOut, run]
    rfl
  obtain ⟨seen, h⟩ := run_invariant (t := phaseOutTraversal) (P := Leaving objects root)
    Leaving.skip Leaving.visit start
  rw [← steps] at h
  have nothing (y : ObjectId) : ¬∃ item ∈ ([] : List (ObjectId × PhaseOutCause)), item.1 = y := by
    simp
  refine ⟨h.shape, h.follows.once, fun id => h.follows.finish nothing, h.own, h.others, ?_, ?_⟩
  · rintro id direct ⟨x, mem, linked⟩
    exact h.relabelled id ((h.follows.closed x mem id linked).resolve_right (nothing id)) direct
  · intro id notPhased alone
    refine h.kept id notPhased fun known direct => alone direct ?_
    rcases h.hung id known with rfl | hangs
    · exact absurd h.follows.rooted notPhased
    · exact hangs

/-- A permanent that is not phased in phases nothing out. -/
theorem phaseOut_of_out (notIn : ¬isInStatus objects root) :
    phaseOut objects root .directly = (objects, []) := by
  have visited : phaseOutVisit (objects, []) (root, .directly) = ((objects, []), []) := by
    unfold phaseOutVisit
    cases found : objects.lookup root with
    | none => rfl
    | some obj =>
      have isOut : obj.isPhasedOut = true := by
        simpa [isInStatus, statusOf, found, isPhasedOut, isPhasedIn]
          using notIn
      simp [isOut]
  rw [phaseOut, run, if_neg not_mem_nil, show phaseOutTraversal.visit = phaseOutVisit from rfl,
    visited, push, reverse_nil, nil_append, run]

/-- `att` phases in with its host, if it is phased out indirectly. -/
def InLink (objects : Objects) (host att : ObjectId) : Prop :=
  Hangs objects host att ∧ statusOf objects att = some (.phasedOut .indirectly)

def isOutStatus (objects : Objects) (id : ObjectId) : Prop :=
  ∃ cause, statusOf objects id = some (.phasedOut cause)

/-- The loop of `phase_in_object` once the permanent itself has phased in. -/
structure Entering (objects : Objects) (root : ObjectId) (state : Changing) (seen : List ObjectId)
    (queue : List ObjectId) : Prop where
  shape : SameShape objects state.1
  follows : Follows (InLink objects) (isOutStatus objects) root state.2 seen (· ∈ queue)
  items : ∀ y ∈ queue, ∃ x ∈ state.2, InLink objects x y
  status : ∀ y, statusOf state.1 y =
    if y ∈ state.2 then some .phasedIn else statusOf objects y

theorem isIndirect_iff {id : ObjectId} :
    isIndirect objects id = true ↔ statusOf objects id = some (.phasedOut .indirectly) := by
  cases found : objects.lookup id <;> simp [isIndirect, statusOf, found]

theorem Entering.skip {id : ObjectId} {rest : List ObjectId} (old : id ∈ seen)
    (h : Entering objects root state seen (id :: rest)) : Entering objects root state seen rest :=
  { h with
    follows := h.follows.skip old fun _ => mem_cons.mp
    items := fun y mem => h.items y (mem_cons_of_mem id mem) }

/-- The status of every object after one of them has phased in. -/
theorem status_entered {objects after : Objects} {phased : List ObjectId} {id : ObjectId}
    {obj : GameObject} (found : after.lookup id = some obj)
    (status : ∀ y, statusOf after y = if y ∈ phased then some .phasedIn else statusOf objects y)
    (y : ObjectId) : statusOf (modify id (setStatus .phasedIn) after) y =
      if y ∈ phased ++ [id] then some .phasedIn else statusOf objects y := by
  by_cases here : y = id
  · subst here
    rw [statusOf_modify_self found, if_pos (mem_append_right _ (mem_singleton_self y))]
  · rw [statusOf_modify_ne here, status]
    simp [here]

theorem Entering.visit {id : ObjectId} {rest : List ObjectId} (new : id ∉ seen)
    (h : Entering objects root state seen (id :: rest)) :
    Entering objects root (phaseInVisit state id).1 (id :: seen)
      (push (phaseInVisit state id).2 rest) := by
  obtain ⟨parent, mem, hangs, indirect⟩ := h.items id mem_cons_self
  have fresh : id ∉ state.2 := fun mem => new (h.follows.known id mem)
  have now : statusOf state.1 id = some (.phasedOut .indirectly) := by
    rw [h.status, if_neg fresh, indirect]
  obtain ⟨obj, found, status⟩ := Option.map_eq_some_iff.mp now
  have notIn : obj.isPhasedIn = false := by simp [isPhasedIn, status]
  have shape := h.shape.trans (sameShape_setStatus state.1 id .phasedIn)
  have entered := status_entered found h.status
  have visited : phaseInVisit state id =
      ((modify id (setStatus .phasedIn) state.1, state.2 ++ [id]),
        obj.attachments.filter (isIndirect (modify id (setStatus .phasedIn) state.1))) := by
    simp [phaseInVisit, found, notIn]
  have linked (y : ObjectId) : InLink objects id y ↔
      y ∈ obj.attachments ∧ statusOf objects y = some (.phasedOut .indirectly) := by
    rw [InLink, ← h.shape.hangs, hangs_iff found]
  rw [visited]
  refine ⟨shape, h.follows.take new ⟨_, indirect⟩ ⟨parent, mem, hangs, indirect⟩ ?_ ?_, ?_, entered⟩
  · intro y waits
    exact (mem_cons.mp waits).imp_right fun later => mem_push.mpr (.inr later)
  · intro y link
    by_cases done : y ∈ state.2 ++ [id]
    · rcases mem_append.mp done with old | last
      · exact .inl (mem_cons_of_mem id (h.follows.known y old))
      · exact .inl (mem_singleton.mp last ▸ mem_cons_self)
    · refine .inr (mem_push.mpr (.inl (mem_filter.mpr ⟨((linked y).mp link).1, ?_⟩)))
      rw [isIndirect_iff, entered, if_neg done]
      exact link.2
  · intro y waits
    rcases mem_push.mp waits with added | later
    · obtain ⟨inside, isNow⟩ := mem_filter.mp added
      rw [isIndirect_iff, entered] at isNow
      split at isNow
      · cases isNow
      · exact ⟨id, mem_append_right _ (mem_singleton_self id), (linked y).mpr ⟨inside, isNow⟩⟩
    · obtain ⟨x, mem, link⟩ := h.items y (mem_cons_of_mem id later)
      exact ⟨x, mem_append_left _ mem, link⟩

theorem Entering.start {objects : Objects} {root : ObjectId} {obj : GameObject}
    (found : objects.lookup root = some obj) (isOut : obj.isPhasedIn = false) :
    Entering objects root (phaseInVisit (objects, []) root).1 [root]
      (push (phaseInVisit (objects, []) root).2 []) := by
  have visited : phaseInVisit (objects, []) root =
      ((modify root (setStatus .phasedIn) objects, [root]),
        obj.attachments.filter (isIndirect (modify root (setStatus .phasedIn) objects))) := by
    simp [phaseInVisit, found, isOut]
  have entered := @status_entered objects objects [] root obj found fun y => by simp
  have isRoot {y : ObjectId} : statusOf (modify root (setStatus .phasedIn) objects) y =
      some (.phasedOut .indirectly) ↔
        y ≠ root ∧ statusOf objects y = some (.phasedOut .indirectly) := by
    rw [entered]
    by_cases here : y = root <;> simp [here]
  have follows : Follows (InLink objects) (isOutStatus objects) root [root] [root]
      (· ∈ push (obj.attachments.filter
        (isIndirect (modify root (setStatus .phasedIn) objects))) []) := by
    refine ⟨mem_cons_self, by simp [ReflTransGen.refl], nodup_singleton root,
      fun _ mem => mem, fun _ mem _ => mem, ?_⟩
    intro x mem y link
    obtain rfl := mem_singleton.mp mem
    by_cases here : y = x
    · exact .inl (mem_singleton.mpr here)
    · refine .inr (mem_push.mpr (.inl (mem_filter.mpr ⟨(hangs_iff found).mp link.1, ?_⟩)))
      exact isIndirect_iff.mpr (isRoot.mpr ⟨here, link.2⟩)
  rw [visited]
  refine ⟨sameShape_setStatus _ _ _, follows, ?_, entered⟩
  intro y waits
  rcases mem_push.mp waits with added | old
  · obtain ⟨inside, isNow⟩ := mem_filter.mp added
    exact ⟨root, mem_singleton_self root, (hangs_iff found).mpr inside,
      (isRoot.mp (isIndirect_iff.mp isNow)).2⟩
  · cases old

/-- What `phase_in_object` does to a permanent that is phased out, and with it. -/
structure PhasedBackIn (objects : Objects) (root : ObjectId) (after : Objects)
    (phased : List ObjectId) : Prop where
  shape : SameShape objects after
  once : phased.Nodup
  reaches : ∀ id, id ∈ phased ↔ ReflTransGen (InLink objects) root id
  status : ∀ id, statusOf after id = if id ∈ phased then some .phasedIn else statusOf objects id

theorem phaseIn_spec (isOut : isOutStatus objects root) :
    PhasedBackIn objects root (phaseIn objects root).1 (phaseIn objects root).2 := by
  obtain ⟨cause, status⟩ := isOut
  obtain ⟨obj, found, status⟩ := Option.map_eq_some_iff.mp status
  have start := Entering.start found (by simp [isPhasedIn, status])
  have steps : phaseIn objects root = run phaseInTraversal (phaseInVisit (objects, []) root).1 [root]
      (push (phaseInVisit (objects, []) root).2 []) := by
    rw [phaseIn, run]
    rfl
  obtain ⟨seen, h⟩ := run_invariant (t := phaseInTraversal) (P := Entering objects root)
    Entering.skip Entering.visit start
  rw [← steps] at h
  have edge : Edge (InLink objects) (isOutStatus objects) = InLink objects := by
    funext host att
    exact propext ⟨And.left, fun link => ⟨link, _, link.2⟩⟩
  refine ⟨h.shape, h.follows.once, fun id => ?_, h.status⟩
  rw [← edge]
  exact h.follows.finish fun _ => not_mem_nil

/-- A permanent that is not phased out phases nothing in. -/
theorem phaseIn_of_in (notOut : ¬isOutStatus objects root) :
    phaseIn objects root = (objects, []) := by
  have visited : phaseInVisit (objects, []) root = ((objects, []), []) := by
    unfold phaseInVisit
    cases found : objects.lookup root with
    | none => rfl
    | some obj =>
      have isIn : obj.isPhasedIn = true := by
        cases status : obj.phaseStatus with
        | phasedIn => simp [isPhasedIn, status]
        | phasedOut cause => exact absurd ⟨cause, by simp [statusOf, found, status]⟩ notOut
      simp [isIn]
  rw [phaseIn, run, if_neg not_mem_nil, show phaseInTraversal.visit = phaseInVisit from rfl,
    visited, push, reverse_nil, nil_append, run]

theorem revertBestowForm_cascades (obj : GameObject) :
    isAttachmentCascadedByPhasing (revertBestowForm obj).coreTypes =
      isAttachmentCascadedByPhasing obj.coreTypes := by
  unfold revertBestowForm
  split
  · split
    · rfl
    · simp [isAttachmentCascadedByPhasing]
  · rfl

/-- Reverting a bestowed form changes neither the phasing of an object nor what hangs on it. -/
theorem revertUnattached_spec (state : GameState) (id : ObjectId) :
    SameShape state.objects (revertUnattached state id).objects ∧
      ∀ y, statusOf (revertUnattached state id).objects y = statusOf state.objects y := by
  unfold revertUnattached
  split
  · refine ⟨.modify _ _ (fun obj => ?_) revertBestowForm_cascades, fun y => ?_⟩
    · unfold revertBestowForm
      split <;> rfl
    · by_cases here : y = id
      · subst here
        simp only [statusOf, lookup_modify, Option.map_map]
        refine congrArg (Option.map · _) (funext fun obj => ?_)
        simp only [Function.comp_apply, revertBestowForm]
        split <;> rfl
      · simp only [statusOf, lookup_modify_ne here]
  · exact ⟨.refl _, fun _ => rfl⟩

theorem foldl_revertUnattached_spec (ids : List ObjectId) (state : GameState) :
    SameShape state.objects (ids.foldl revertUnattached state).objects ∧
      ∀ y, statusOf (ids.foldl revertUnattached state).objects y = statusOf state.objects y := by
  induction ids generalizing state with
  | nil => exact ⟨.refl _, fun _ => rfl⟩
  | cons id ids ih =>
    obtain ⟨shape, status⟩ := revertUnattached_spec state id
    obtain ⟨shape', status'⟩ := ih (revertUnattached state id)
    exact ⟨shape.trans shape', fun y => (status' y).trans (status y)⟩

/-- `id` phases out with `root`. -/
def LeavesWith (objects : Objects) (root id : ObjectId) : Prop :=
  ReflTransGen (Edge (OutLink objects) (isInStatus objects)) root id

/-- Nothing that hangs on what phases out with `root` is phased out already, other than directly
and without being an Aura, an Equipment or a Fortification. -/
def Undisturbed (objects : Objects) (root : ObjectId) : Prop :=
  ∀ host att, LeavesWith objects root host → Hangs objects host att →
    statusOf objects att ≠ some (.phasedOut .indirectly) ∧
      (Cascades objects att → statusOf objects att ≠ some (.phasedOut .directly))

section
variable {objects after : Objects} {root : ObjectId} {phased : List ObjectId}

theorem PhasedOut.status_in (out : PhasedOut objects root after phased) {id : ObjectId}
    (mem : id ∈ phased) : id = root ∨ statusOf after id = some (.phasedOut .indirectly) := by
  by_cases own : id = root
  · exact .inl own
  · exact .inr (out.others id mem own)

theorem leavesWith_isIn (isIn : isInStatus objects root) {id : ObjectId}
    (leaves : LeavesWith objects root id) : isInStatus objects id := by
  cases leaves with
  | refl => exact isIn
  | tail _ step => exact step.2

/-- Whatever phased out with the permanent comes back with it. -/
theorem PhasedOut.comes_back (out : PhasedOut objects root after phased) {id : ObjectId}
    (leaves : LeavesWith objects root id) : ReflTransGen (InLink after) root id := by
  induction leaves with
  | refl => exact .refl
  | @tail host att before step ih =>
    rcases out.status_in ((out.reaches att).mpr (before.tail step)) with own | indirect
    · rw [own]
    · exact ih.tail ⟨(out.shape.hangs host att).mpr step.1.1, indirect⟩

theorem PhasedOut.only_leavers
    (out : PhasedOut objects root after phased) (undisturbed : Undisturbed objects root)
    {id : ObjectId} (back : ReflTransGen (InLink after) root id) : LeavesWith objects root id := by
  induction back with
  | refl => exact .refl
  | @tail host att _ link ih =>
    by_contra stays
    have hangs := (out.shape.hangs host att).mp link.1
    obtain ⟨notIndirect, notDirect⟩ := undisturbed host att ih hangs
    have kept := out.kept att (fun mem => stays ((out.reaches att).mp mem)) fun direct => by
      rintro ⟨x, _, linked⟩
      exact notDirect linked.2 direct
    exact notIndirect (kept ▸ link.2)

end

/-- Phasing in right after phasing out brings back what the phase-out returned, and leaves alone
what had phased out before, if and only if nothing already phased out hangs on what leaves. -/
theorem phase_in_undoes_phase_out_iff {state : GameState} {x : ObjectId} {events : List GameEvent}
    (isIn : statusOf state.objects x = some .phasedIn) :
    (let out := phaseOutObject state x .directly events
      let back := phaseInObject out.1 x out.2.1
      (∀ id, statusOf back.1.objects id = statusOf state.objects id) ∧
        (∀ id, id ∈ back.2.2 ↔ id ∈ out.2.2) ∧
        ∀ id, statusOf state.objects id = some (.phasedOut .directly) →
          statusOf out.1.objects id = some (.phasedOut .directly) ∧ id ∉ back.2.2) ↔
      Undisturbed state.objects x := by
  have out := phaseOut_spec isIn
  have back := phaseIn_spec ⟨.directly, out.own⟩
  obtain ⟨⟨after, phased⟩, isAfter⟩ : ∃ p, phaseOut state.objects x .directly = p := ⟨_, rfl⟩
  obtain ⟨⟨final, entered⟩, isFinal⟩ : ∃ p, phaseIn after x = p := ⟨_, rfl⟩
  rw [isAfter] at out back
  dsimp only at out back
  rw [isFinal] at back
  have reverted := (foldl_revertUnattached_spec entered { state with objects := final }).2
  simp only [phaseOutObject, phaseInObject, isAfter, isFinal, reverted]
  constructor
  · rintro ⟨same, -, -⟩ host att leaves hangs
    have returns := out.comes_back leaves
    have link : OutLink state.objects host att ↔ Cascades state.objects att := by
      rw [OutLink, and_iff_right hangs]
    have stuck (indirect : statusOf after att = some (.phasedOut .indirectly))
        {cause : PhaseOutCause} (was : statusOf state.objects att = some (.phasedOut cause)) :
        False := by
      have mem := (back.reaches att).mpr (returns.tail ⟨(out.shape.hangs host att).mpr hangs,
        indirect⟩)
      have now := back.status att
      rw [if_pos mem, same, was] at now
      cases now
    have stays {cause : PhaseOutCause}
        (was : statusOf state.objects att = some (.phasedOut cause)) : att ∉ phased := by
      intro mem
      have isIn' := leavesWith_isIn isIn ((out.reaches att).mp mem)
      rw [isInStatus, was] at isIn'
      cases isIn'
    constructor
    · intro indirect
      have kept := out.kept att (stays indirect) fun direct => by
        rw [direct] at indirect
        cases indirect
      exact stuck (kept.trans indirect) indirect
    · intro cascades direct
      exact stuck (out.relabelled att direct ⟨host, (out.reaches host).mpr leaves,
        link.mpr cascades⟩) direct
  · intro undisturbed
    have members (id : ObjectId) : id ∈ entered ↔ id ∈ phased := by
      rw [back.reaches, out.reaches]
      exact ⟨out.only_leavers undisturbed, out.comes_back⟩
    have alone {id : ObjectId} (direct : statusOf state.objects id = some (.phasedOut .directly)) :
        ¬∃ host ∈ phased, OutLink state.objects host id := by
      rintro ⟨host, mem, linked⟩
      exact (undisturbed host id ((out.reaches host).mp mem) linked.1).2 linked.2 direct
    refine ⟨fun id => ?_, members, fun id direct => ?_⟩
    · rw [back.status]
      by_cases mem : id ∈ entered
      · rw [if_pos mem]
        exact (leavesWith_isIn isIn ((out.reaches id).mp ((members id).mp mem))).symm
      · rw [if_neg mem]
        exact out.kept id (fun inside => mem ((members id).mpr inside)) alone
    · have stays : id ∉ phased := fun mem => by
        have isIn' := leavesWith_isIn isIn ((out.reaches id).mp mem)
        rw [isInStatus, direct] at isIn'
        cases isIn'
      exact ⟨(out.kept id stays alone).trans direct, fun mem => stays ((members id).mp mem)⟩

/-- A creature, and an Aura attached to it. -/
def enchantedCreature (aura : PhaseStatus) : GameState where
  objects := AList.insert 1 {
      controller := 0, coreTypes := [.creature], hasPhasing := false, attachments := [2]
      attachedTo := none, bestowForm := false, onBattlefield := true, phaseStatus := .phasedIn }
    (AList.insert 2 {
        controller := 0, coreTypes := [.enchantment], hasPhasing := false, attachments := []
        attachedTo := some (.object 1), bestowForm := false, onBattlefield := true
        phaseStatus := aura } ∅)
  battlefield := [1, 2]
  activePlayer := 0
  players := [false, false]

theorem enchantedCreature_returns :
    let out := phaseOutObject (enchantedCreature .phasedIn) 1 .directly []
    let back := phaseInObject out.1 1 out.2.1
    out.2.2 = [1, 2] ∧ (∀ id, id ∈ back.2.2 ↔ id ∈ out.2.2) := by
  have undisturbed : Undisturbed (enchantedCreature .phasedIn).objects 1 := by
    have all : ∀ id, statusOf (enchantedCreature .phasedIn).objects id = none ∨
        statusOf (enchantedCreature .phasedIn).objects id = some .phasedIn := by
      intro id
      by_cases first : id = 1
      · subst first
        exact .inr rfl
      by_cases second : id = 2
      · subst second
        exact .inr rfl
      rw [statusOf, enchantedCreature, AList.lookup_insert_ne first, AList.lookup_insert_ne second]
      exact .inl rfl
    intro host att _ _
    rcases all att with none_ | isIn <;> simp_all
  exact ⟨by decide +kernel,
    ((@phase_in_undoes_phase_out_iff _ _ [] (by decide +kernel)).mpr undisturbed).2.1⟩

/-- The Aura had phased out on its own. It is relabelled, and comes back with the creature. -/
theorem aura_comes_back_with_creature :
    let state := enchantedCreature (.phasedOut .directly)
    let out := phaseOutObject state 1 .directly []
    let back := phaseInObject out.1 1 out.2.1
    statusOf state.objects 1 = some .phasedIn ∧ out.2.2 = [1] ∧ back.2.2 = [1, 2] ∧
      statusOf out.1.objects 2 = some (.phasedOut .indirectly) ∧
      statusOf back.1.objects 2 = some .phasedIn ∧
      statusOf state.objects 2 = some (.phasedOut .directly) := by
  decide +kernel

end Phase.Phasing
