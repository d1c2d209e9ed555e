import Phase.Phasing.Cascade

/-! The untap step phases permanents in and then others out; when that is as good as both at
once. -/
namespace Phase.Phasing
open Relation Worklist List

/-- The permanent that an event is about. -/
def GameEvent.objectId : GameEvent → ObjectId
  | .permanentPhasedOut id _ => id
  | .permanentPhasedIn id => id

/-- `id` phases in with `root`, which is phased out. -/
def EntersWith (objects : Objects) (root id : ObjectId) : Prop :=
  isOutStatus objects root ∧ ReflTransGen (InLink objects) root id

structure Entered (objects : Objects) (ids : List ObjectId) (after : Objects)
    (entered : List ObjectId) : Prop where
  shape : SameShape objects after
  once : entered.Nodup
  members : ∀ id, id ∈ entered ↔ ∃ root ∈ ids, EntersWith objects root id
  status : ∀ id, statusOf after id = if id ∈ entered then some .phasedIn else statusOf objects id

variable {objects : Objects} {id : ObjectId}

theorem EntersWith.isOut {root : ObjectId} (enters : EntersWith objects root id) :
    isOutStatus objects id := by
  obtain ⟨rootOut, path⟩ := enters
  cases path with
  | refl => exact rootOut
  | tail _ link => exact ⟨_, link.2⟩

theorem Entered.isOut {after : Objects} {ids entered : List ObjectId}
    (h : Entered objects ids after entered) (mem : id ∈ entered) : isOutStatus objects id := by
  obtain ⟨root, -, enters⟩ := (h.members id).mp mem
  exact enters.isOut

section
variable {objects mid after : Objects} {ids ids' entered later : List ObjectId}

variable {id : ObjectId}

section
variable (h : Entered objects ids after entered)
include h

theorem Entered.not_out (mem : id ∈ entered) : ¬isOutStatus after id := by
  rintro ⟨cause, status⟩
  rw [h.status, if_pos mem] at status
  cases status

theorem Entered.status_of_not_mem (other : id ∉ entered) :
    statusOf after id = statusOf objects id := by
  rw [h.status, if_neg other]

theorem Entered.isOut_before (isOut : isOutStatus after id) :
    id ∉ entered ∧ isOutStatus objects id := by
  have other : id ∉ entered := fun mem => h.not_out mem isOut
  obtain ⟨cause, status⟩ := isOut
  exact ⟨other, cause, h.status_of_not_mem other ▸ status⟩

theorem Entered.inLink_before {host att : ObjectId} (link : InLink after host att) :
    InLink objects host att := by
  have other := (h.isOut_before ⟨_, link.2⟩).1
  exact ⟨(h.shape.hangs host att).mp link.1, h.status_of_not_mem other ▸ link.2⟩

/-- What the first calls left phased out is found in the same way by the later ones. -/
theorem Entered.enters_later {root : ObjectId} (enters : EntersWith objects root id) :
    id ∈ entered ∨ EntersWith after root id := by
  obtain ⟨rootOut, path⟩ := enters
  induction path with
  | refl =>
    by_cases mem : root ∈ entered
    · exact .inl mem
    · obtain ⟨cause, status⟩ := rootOut
      exact .inr ⟨⟨cause, (h.status_of_not_mem mem).trans status⟩, .refl⟩
  | @tail host att _ link ih =>
    by_cases mem : att ∈ entered
    · exact .inl mem
    rcases ih with done | ⟨isOut, path⟩
    · obtain ⟨first, inside, isOut, path⟩ := (h.members host).mp done
      exact .inl ((h.members att).mpr ⟨first, inside, isOut, path.tail link⟩)
    · exact .inr ⟨isOut, path.tail ⟨(h.shape.hangs host att).mpr link.1,
        (h.status_of_not_mem mem).trans link.2⟩⟩

end

theorem Entered.append (first : Entered objects ids mid entered)
    (second : Entered mid ids' after later) :
    Entered objects (ids ++ ids') after (entered ++ later) := by
  refine ⟨first.shape.trans second.shape, ?_, fun id => ?_, fun id => ?_⟩
  · refine nodup_append.mpr ⟨first.once, second.once, ?_⟩
    rintro id mem _ mem' rfl
    exact first.not_out mem (second.isOut mem')
  · rw [mem_append]
    constructor
    · rintro (mem | mem)
      · obtain ⟨root, inside, enters⟩ := (first.members id).mp mem
        exact ⟨root, mem_append_left _ inside, enters⟩
      · obtain ⟨root, inside, isOut, path⟩ := (second.members id).mp mem
        exact ⟨root, mem_append_right _ inside, (first.isOut_before isOut).2,
          ReflTransGen.mono (fun _ _ => first.inLink_before) _ _ path⟩
    · rintro ⟨root, inside, enters⟩
      rcases mem_append.mp inside with early | late
      · exact .inl ((first.members id).mpr ⟨root, early, enters⟩)
      · exact (first.enters_later enters).imp_right fun enters =>
          (second.members id).mpr ⟨root, late, enters⟩
  · rw [second.status]
    by_cases late : id ∈ later
    · rw [if_pos late, if_pos (mem_append_right _ late)]
    · rw [first.status]
      simp [late]

end

/-- The objects after one call, and what it did to them. -/
theorem phaseInObject_spec (state : GameState) (root : ObjectId) (events : List GameEvent) :
    ∃ entered, Entered state.objects [root] (phaseInObject state root events).1.objects entered ∧
      (phaseInObject state root events).2.1 = events ++ entered.map .permanentPhasedIn := by
  obtain ⟨⟨after, entered⟩, isAfter⟩ : ∃ p, phaseIn state.objects root = p := ⟨_, rfl⟩
  obtain ⟨shape, reverted⟩ := foldl_revertUnattached_spec entered { state with objects := after }
  refine ⟨entered, ?_, by simp only [phaseInObject, isAfter]⟩
  simp only [phaseInObject, isAfter]
  by_cases isOut : isOutStatus state.objects root
  · have back := phaseIn_spec isOut
    rw [isAfter] at back
    exact ⟨back.shape.trans shape, back.once,
      fun id => (back.reaches id).trans (by simp [EntersWith, isOut]),
      fun id => (reverted id).trans (back.status id)⟩
  · rw [phaseIn_of_in isOut] at isAfter
    obtain ⟨rfl, rfl⟩ := Prod.mk.inj isAfter
    exact ⟨shape, nodup_nil, fun id => by simp [EntersWith, isOut],
      fun id => (reverted id).trans (by simp)⟩

theorem phaseInEach_spec (ids : List ObjectId) (state : GameState) (events : List GameEvent) :
    ∃ entered, Entered state.objects ids (phaseInEach ids (state, events)).1.objects entered ∧
      (phaseInEach ids (state, events)).2 = events ++ entered.map .permanentPhasedIn := by
  induction ids generalizing state events with
  | nil =>
    exact ⟨[], ⟨.refl _, nodup_nil, by simp, fun id => by simp [phaseInEach]⟩,
      by simp [phaseInEach]⟩
  | cons root ids ih =>
    obtain ⟨first, called, isFirst⟩ := phaseInObject_spec state root events
    obtain ⟨later, rest, isLater⟩ := ih (phaseInObject state root events).1
      (phaseInObject state root events).2.1
    refine ⟨first ++ later, ?_, ?_⟩
    · exact called.append rest
    · have steps : phaseInEach (root :: ids) (state, events) = phaseInEach ids
          ((phaseInObject state root events).1, (phaseInObject state root events).2.1) := rfl
      rw [steps, isLater, isFirst, map_append, append_assoc]

/-- `id` phases out with `root`, which is phased in. -/
def ExitsWith (objects : Objects) (root id : ObjectId) : Prop :=
  isInStatus objects root ∧ LeavesWith objects root id

structure Exited (objects : Objects) (ids : List ObjectId) (after : Objects)
    (exited : List ObjectId) : Prop where
  shape : SameShape objects after
  once : exited.Nodup
  members : ∀ id, id ∈ exited ↔ ∃ root ∈ ids, ExitsWith objects root id
  isOut : ∀ id ∈ exited, isOutStatus after id
  indirect : ∀ id ∈ exited, id ∉ ids → statusOf after id = some (.phasedOut .indirectly)
  relabelled : ∀ id, statusOf objects id = some (.phasedOut .directly) →
    (∃ host ∈ exited, OutLink objects host id) → statusOf after id = some (.phasedOut .indirectly)
  kept : ∀ id, id ∉ exited → (statusOf objects id = some (.phasedOut .directly) →
    ¬∃ host ∈ exited, OutLink objects host id) → statusOf after id = statusOf objects id

theorem isIn_not_out (isIn : isInStatus objects id) : ¬isOutStatus objects id := by
  rintro ⟨cause, status⟩
  rw [isIn] at status
  cases status

theorem ExitsWith.isIn {root : ObjectId} (exits : ExitsWith objects root id) :
    isInStatus objects id := leavesWith_isIn exits.1 exits.2

section
variable {objects mid after : Objects} {ids ids' exited later : List ObjectId}

variable {id : ObjectId}

section
variable (h : Exited objects ids after exited)
include h

theorem Exited.isIn (mem : id ∈ exited) : isInStatus objects id := by
  obtain ⟨root, -, exits⟩ := (h.members id).mp mem
  exact exits.isIn

theorem Exited.out_stays (isOut : isOutStatus objects id) : id ∉ exited ∧ isOutStatus after id := by
  have other : id ∉ exited := fun mem => isIn_not_out (h.isIn mem) isOut
  refine ⟨other, ?_⟩
  by_cases hung : statusOf objects id = some (.phasedOut .directly) ∧
      ∃ host ∈ exited, OutLink objects host id
  · exact ⟨_, h.relabelled id hung.1 hung.2⟩
  · obtain ⟨cause, status⟩ := isOut
    exact ⟨cause, (h.kept id other fun direct hangs => hung ⟨direct, hangs⟩).trans status⟩

theorem Exited.indirect_stays (indirect : statusOf objects id = some (.phasedOut .indirectly)) :
    statusOf after id = some (.phasedOut .indirectly) := by
  refine (h.kept id (h.out_stays ⟨_, indirect⟩).1 fun direct => ?_).trans indirect
  rw [indirect] at direct
  cases direct

theorem Exited.isIn_before (isIn : isInStatus after id) : id ∉ exited ∧ isInStatus objects id := by
  have other : id ∉ exited := fun mem => isIn_not_out isIn (h.isOut id mem)
  refine ⟨other, ?_⟩
  by_cases hung : statusOf objects id = some (.phasedOut .directly) ∧
      ∃ host ∈ exited, OutLink objects host id
  · exact absurd ⟨_, h.relabelled id hung.1 hung.2⟩ (isIn_not_out isIn)
  · exact (h.kept id other fun direct hangs => hung ⟨direct, hangs⟩).symm.trans isIn

theorem Exited.isIn_after (isIn : isInStatus objects id) (other : id ∉ exited) :
    isInStatus after id := by
  refine (h.kept id other fun direct => ?_).trans isIn
  rw [isIn] at direct
  cases direct

theorem Exited.exits_before {root : ObjectId} (exits : ExitsWith after root id) :
    ExitsWith objects root id :=
  ⟨(h.isIn_before exits.1).2, ReflTransGen.mono (fun host att step =>
    ⟨(h.shape.outLink host att).mp step.1, (h.isIn_before step.2).2⟩) _ _ exits.2⟩

/-- What the first calls left phased in is found in the same way by the later ones. -/
theorem Exited.exits_later {root : ObjectId} (exits : ExitsWith objects root id) :
    id ∈ exited ∨ ExitsWith after root id := by
  obtain ⟨rootIn, path⟩ := exits
  induction path with
  | refl =>
    by_cases mem : root ∈ exited
    · exact .inl mem
    · exact .inr ⟨h.isIn_after rootIn mem, .refl⟩
  | @tail host att _ step ih =>
    by_cases mem : att ∈ exited
    · exact .inl mem
    rcases ih with done | ⟨isIn, path⟩
    · obtain ⟨first, inside, isIn, path⟩ := (h.members host).mp done
      exact .inl ((h.members att).mpr ⟨first, inside, isIn, path.tail step⟩)
    · exact .inr ⟨isIn, path.tail ⟨(h.shape.outLink host att).mpr step.1, h.isIn_after step.2 mem⟩⟩

end

theorem Exited.append (first : Exited objects ids mid exited)
    (second : Exited mid ids' after later) :
    Exited objects (ids ++ ids') after (exited ++ later) := by
  have hung {id : ObjectId} {hosts : List ObjectId} :
      (∃ host ∈ hosts, OutLink mid host id) ↔ ∃ host ∈ hosts, OutLink objects host id := by
    simp only [first.shape.outLink]
  refine ⟨first.shape.trans second.shape, ?_, fun id => ?_, fun id mem => ?_, fun id mem absent => ?_,
    fun id direct hangs => ?_, fun id other alone => ?_⟩
  · refine nodup_append.mpr ⟨first.once, second.once, ?_⟩
    rintro id mem _ mem' rfl
    exact isIn_not_out (second.isIn mem') (first.isOut id mem)
  · rw [mem_append]
    constructor
    · rintro (mem | mem)
      · obtain ⟨root, inside, exits⟩ := (first.members id).mp mem
        exact ⟨root, mem_append_left _ inside, exits⟩
      · obtain ⟨root, inside, exits⟩ := (second.members id).mp mem
        exact ⟨root, mem_append_right _ inside, first.exits_before exits⟩
    · rintro ⟨root, inside, exits⟩
      rcases mem_append.mp inside with early | late
      · exact .inl ((first.members id).mpr ⟨root, early, exits⟩)
      · exact (first.exits_later exits).imp_right fun exits =>
          (second.members id).mpr ⟨root, late, exits⟩
  · rcases mem_append.mp mem with early | late
    · exact (second.out_stays (first.isOut id early)).2
    · exact second.isOut id late
  · rcases mem_append.mp mem with early | late
    · exact second.indirect_stays (first.indirect id early fun inside =>
        absent (mem_append_left _ inside))
    · exact second.indirect id late fun inside => absent (mem_append_right _ inside)
  · by_cases early : ∃ host ∈ exited, OutLink objects host id
    · exact second.indirect_stays (first.relabelled id direct early)
    · have still := first.kept id (first.out_stays ⟨_, direct⟩).1 fun _ => early
      refine second.relabelled id (still.trans direct) (hung.mpr ?_)
      obtain ⟨host, mem, linked⟩ := hangs
      rcases mem_append.mp mem with inside | late
      · exact absurd ⟨host, inside, linked⟩ early
      · exact ⟨host, late, linked⟩
  · have still := first.kept id (fun mem => other (mem_append_left _ mem))
      fun direct ⟨host, mem, linked⟩ =>
        alone direct ⟨host, mem_append_left _ mem, linked⟩
    refine (second.kept id (fun mem => other (mem_append_right _ mem)) fun direct hangs => ?_).trans
      still
    obtain ⟨host, mem, linked⟩ := hung.mp hangs
    exact alone (still ▸ direct) ⟨host, mem_append_right _ mem, linked⟩

end

theorem phaseOutObject_spec (state : GameState) (root : ObjectId) (events : List GameEvent) :
    ∃ exited, Exited state.objects [root] (phaseOutObject state root .directly events).1.objects
        exited ∧
      ∃ news, (phaseOutObject state root .directly events).2.1 = events ++ news ∧
        news.map (·.objectId) = exited := by
  obtain ⟨⟨after, exited⟩, isAfter⟩ : ∃ p, phaseOut state.objects root .directly = p := ⟨_, rfl⟩
  simp only [phaseOutObject, isAfter]
  refine ⟨exited, ?_, _, rfl, by simp [GameEvent.objectId, Function.comp_def]⟩
  by_cases isIn : isInStatus state.objects root
  · have out := phaseOut_spec isIn
    rw [isAfter] at out
    refine ⟨out.shape, out.once, fun id => (out.reaches id).trans (by simp [ExitsWith, isIn, LeavesWith]),
      fun id mem => ?_, fun id mem absent => ?_, out.relabelled, out.kept⟩
    · rcases out.status_in mem with rfl | indirect
      · exact ⟨_, out.own⟩
      · exact ⟨_, indirect⟩
    · exact out.others id mem fun same => absent (mem_singleton.mpr same)
  · rw [phaseOut_of_out isIn] at isAfter
    obtain ⟨rfl, rfl⟩ := Prod.mk.inj isAfter
    exact ⟨.refl _, nodup_nil, fun id => by simp [ExitsWith, isIn], by simp, by simp, by simp,
      fun _ _ _ => rfl⟩

theorem phaseOutEach_spec (ids : List ObjectId) (state : GameState) (events : List GameEvent) :
    ∃ exited, Exited state.objects ids (phaseOutEach ids (state, events)).1.objects exited ∧
      ∃ news, (phaseOutEach ids (state, events)).2 = events ++ news ∧
        news.map (·.objectId) = exited := by
  induction ids generalizing state events with
  | nil =>
    exact ⟨[], ⟨.refl _, nodup_nil, by simp, by simp, by simp, by simp, fun _ _ _ => rfl⟩,
      [], by simp [phaseOutEach], rfl⟩
  | cons root ids ih =>
    obtain ⟨first, called, news, isFirst, about⟩ := phaseOutObject_spec state root events
    obtain ⟨later, rest, more, isLater, about'⟩ :=
      ih (phaseOutObject state root .directly events).1
        (phaseOutObject state root .directly events).2.1
    have steps : phaseOutEach (root :: ids) (state, events) = phaseOutEach ids
        ((phaseOutObject state root .directly events).1,
          (phaseOutObject state root .directly events).2.1) := rfl
    refine ⟨first ++ later, called.append rest, news ++ more, ?_, ?_⟩
    · rw [steps, isLater, isFirst, append_assoc]
    · rw [map_append, about, about']

/-- The label of a permanent that is to phase out directly. It reads indirect when an earlier one
took it along, or when one of its hosts leaves after it. -/
theorem phaseOutEach_label {pre post : List ObjectId} {x : ObjectId} {state : GameState}
    (events : List GameEvent) (first : x ∉ pre) (isIn : isInStatus state.objects x) :
    ∃ cause, statusOf (phaseOutEach (pre ++ x :: post) (state, events)).1.objects x =
        some (.phasedOut cause) ∧
      (cause = .indirectly ↔ (∃ s ∈ pre, ExitsWith state.objects s x) ∨
        ∃ y, (∃ s ∈ pre ++ x :: post, ExitsWith state.objects s y) ∧
          OutLink state.objects y x ∧ ¬LeavesWith state.objects x y) := by
  obtain ⟨early, out, -, -, -⟩ := phaseOutEach_spec pre state events
  obtain ⟨stateA, eventsA, isFirst⟩ :
      ∃ s e, phaseOutEach pre (state, events) = (s, e) := ⟨_, _, rfl⟩
  obtain ⟨own, out', -⟩ := phaseOutObject_spec stateA x eventsA
  obtain ⟨stateB, eventsB, phased, isSecond⟩ :
      ∃ s e p, phaseOutObject stateA x .directly eventsA = (s, e, p) := ⟨_, _, _, rfl⟩
  obtain ⟨late, out'', -, -, -⟩ := phaseOutEach_spec post stateB eventsB
  have steps : phaseOutEach (pre ++ x :: post) (state, events) =
      phaseOutEach post (stateB, eventsB) := by
    unfold phaseOutEach at isFirst ⊢
    rw [foldl_append, isFirst, foldl_cons]
    simp only [isSecond]
  rw [isFirst] at out
  rw [isSecond] at out'
  rw [steps]
  by_cases taken : x ∈ early
  · refine ⟨.indirectly, out''.indirect_stays (out'.indirect_stays (out.indirect x taken first)),
      iff_of_true rfl (.inl ((out.members x).mp taken))⟩
  have untaken : ¬∃ s ∈ pre, ExitsWith state.objects s x := fun exits =>
    taken ((out.members x).mpr exits)
  have still := out.isIn_after isIn taken
  have direct : statusOf stateB.objects x = some (.phasedOut .directly) := by
    have own := (phaseOut_spec still).own
    have objects : stateB.objects = (phaseOut stateA.objects x .directly).1 := by
      rw [show stateB = (phaseOutObject stateA x .directly eventsA).1 by rw [isSecond]]
      rfl
    rwa [objects]
  have all : Exited state.objects (pre ++ ([x] ++ post))
      (phaseOutEach post (stateB, eventsB)).1.objects (early ++ (own ++ late)) :=
    out.append (out'.append out'')
  have link (y : ObjectId) : OutLink stateB.objects y x ↔ OutLink state.objects y x :=
    (out'.shape.outLink y x).trans (out.shape.outLink y x)
  by_cases hung : ∃ y ∈ late, OutLink stateB.objects y x
  · refine ⟨.indirectly, out''.relabelled x direct hung, iff_of_true rfl (.inr ?_)⟩
    obtain ⟨y, mem, linked⟩ := hung
    refine ⟨y, (all.members y).mp (by simp [mem]), (link y).mp linked, fun leaves => ?_⟩
    -- what leaves with `x` is gone by then
    have gone : y ∈ early ∨ ExitsWith stateA.objects x y := out.exits_later ⟨isIn, leaves⟩
    have isInB := out'.isIn_before (out''.isIn mem)
    rcases gone with before | exits
    · exact (out.isIn_before isInB.2).1 before
    · exact isInB.1 ((out'.members y).mpr ⟨x, mem_singleton_self x, exits⟩)
  · refine ⟨.directly, ?_, iff_of_false (by simp) ?_⟩
    · exact (out''.kept x (out''.out_stays ⟨_, direct⟩).1 fun _ => hung).trans direct
    · rintro (exits | ⟨y, exits, linked, stays⟩)
      · exact untaken exits
      · have mem := (all.members y).mpr exits
        rcases mem_append.mp mem with before | mem
        · obtain ⟨s, inside, sIn, path⟩ := (out.members y).mp before
          exact untaken ⟨s, inside, sIn, path.tail ⟨linked, isIn⟩⟩
        rcases mem_append.mp mem with with_x | after
        · obtain ⟨s, inside, together⟩ := (out'.members y).mp with_x
          obtain rfl := mem_singleton.mp inside
          exact stays (out.exits_before together).2
        · exact hung ⟨y, after, (link y).mpr linked⟩

/-- Each permanent changes at most once, with one event; those that are to come back do; and the
order of the battlefield does not matter. -/
structure Simultaneous (cantPhaseIn : ObjectId → Bool) (state : GameState) : Prop where
  once : ∀ id, ((executeUntapStepPhasing cantPhaseIn state []).2.filter (·.objectId = id)).length =
    if statusOf (executeUntapStepPhasing cantPhaseIn state []).1.objects id =
      statusOf state.objects id then 0 else 1
  returned : ∀ id ∈ phaseInIds cantPhaseIn state,
    isInStatus (executeUntapStepPhasing cantPhaseIn state []).1.objects id
  orderFree : ∀ battlefield, battlefield.Perm state.battlefield → ∀ id,
    statusOf (executeUntapStepPhasing cantPhaseIn { state with battlefield } []).1.objects id =
      statusOf (executeUntapStepPhasing cantPhaseIn state []).1.objects id

section
variable (cantPhaseIn : ObjectId → Bool) (state : GameState)

def Enters (id : ObjectId) : Prop :=
  ∃ root ∈ phaseInIds cantPhaseIn state, EntersWith state.objects root id

def Exits (id : ObjectId) : Prop := ∃ root ∈ phaseOutIds state, ExitsWith state.objects root id

/-- What hangs on a permanent that leaves did not phase out on its own and is not about to enter. -/
def Apart : Prop :=
  ∀ host att, Exits state host → OutLink state.objects host att →
    statusOf state.objects att ≠ some (.phasedOut .directly) ∧ ¬Enters cantPhaseIn state att

/-- Besides, a permanent that is to leave both by itself and with another hangs on one that does
not leave with it. -/
structure Unentangled : Prop where
  apart : Apart cantPhaseIn state
  settled : ∀ x ∈ phaseOutIds state, ∀ root ∈ phaseOutIds state, root ≠ x →
    LeavesWith state.objects root x →
      ∃ y, Exits state y ∧ OutLink state.objects y x ∧ ¬LeavesWith state.objects x y

/-- How the step went: first some entered, then others left. -/
structure Went (mid after : GameState) (events : List GameEvent)
    (entered exited : List ObjectId) : Prop where
  came : Entered state.objects (phaseInIds cantPhaseIn state) mid.objects entered
  left : Exited mid.objects (phaseOutIds state) after.objects exited
  reported : ∃ news, events = entered.map .permanentPhasedIn ++ news ∧
    news.map (·.objectId) = exited
  stages : ∃ between, after = (phaseOutEach (phaseOutIds state) (mid, between)).1

variable {cantPhaseIn state}

theorem executeUntapStepPhasing_went : ∃ mid entered exited,
    Went cantPhaseIn state mid (executeUntapStepPhasing cantPhaseIn state []).1
      (executeUntapStepPhasing cantPhaseIn state []).2 entered exited := by
  obtain ⟨entered, came, isEvents⟩ := phaseInEach_spec (phaseInIds cantPhaseIn state) state []
  obtain ⟨exited, left, news, isNews, about⟩ := phaseOutEach_spec (phaseOutIds state)
    (phaseInEach (phaseInIds cantPhaseIn state) (state, [])).1
    (phaseInEach (phaseInIds cantPhaseIn state) (state, [])).2
  refine ⟨_, entered, exited, came, left, ⟨news, ?_, about⟩, _, rfl⟩
  rw [executeUntapStepPhasing, isNews, isEvents, nil_append]

variable {id : ObjectId}

theorem phaseOutIds_isIn (mem : id ∈ phaseOutIds state) : isInStatus state.objects id := by
  obtain ⟨obj, found, holds⟩ := (Option.any_eq_true _ _).mp (mem_filter.mp mem).2
  have isIn : obj.isPhasedIn = true := by
    simp only [Bool.and_eq_true] at holds
    exact holds.1.1
  simpa [isInStatus, statusOf, found, GameObject.isPhasedIn] using isIn

theorem phaseInIds_direct (mem : id ∈ phaseInIds cantPhaseIn state) :
    statusOf state.objects id = some (.phasedOut .directly) := by
  have held := (mem_filter.mp mem).2
  simp only [Bool.and_eq_true] at held
  obtain ⟨obj, found, holds⟩ := (Option.any_eq_true _ _).mp held.1
  simp only [Bool.and_eq_true, decide_eq_true_eq] at holds
  simp [statusOf, found, holds.1]

theorem Entered.isIn_after {objects after : Objects} {ids entered : List ObjectId}
    (h : Entered objects ids after entered) (isIn : isInStatus objects id) :
    isInStatus after id := by
  rw [isInStatus, h.status]
  split
  · rfl
  · exact isIn

namespace Went
variable {mid after : GameState} {events : List GameEvent} {entered exited : List ObjectId}

variable {id root : ObjectId}

section
variable (h : Went cantPhaseIn state mid after events entered exited)
include h

theorem exits_after (exits : ExitsWith state.objects root id) : ExitsWith mid.objects root id :=
  ⟨h.came.isIn_after exits.1, ReflTransGen.mono (fun host att step =>
    ⟨(h.came.shape.outLink host att).mpr step.1, h.came.isIn_after step.2⟩) _ _ exits.2⟩

theorem mem_exited (exits : Exits state id) : id ∈ exited := by
  obtain ⟨root, inside, exits⟩ := exits
  exact (h.left.members id).mpr ⟨root, inside, h.exits_after exits⟩

theorem filter_length (id : ObjectId) :
    (events.filter (·.objectId = id)).length = entered.count id + exited.count id := by
  obtain ⟨news, rfl, about⟩ := h.reported
  rw [← about, filter_append, length_append, count_eq_countP, count_eq_countP,
    ← countP_eq_length_filter, ← countP_eq_length_filter, countP_map, countP_map]
  congr 1

end

section
variable (h : Went cantPhaseIn state mid after events entered exited)
  (apart : Apart cantPhaseIn state)
include h apart

/-- What phased in plays no part in what phases out. -/
theorem exitsWith_iff (mem : root ∈ phaseOutIds state) :
    ExitsWith mid.objects root id ↔ ExitsWith state.objects root id := by
  refine ⟨fun exits => ⟨phaseOutIds_isIn mem, ?_⟩, h.exits_after⟩
  obtain ⟨-, path⟩ := exits
  induction path with
  | refl => exact .refl
  | @tail host att _ step ih =>
    have link := (h.came.shape.outLink host att).mp step.1
    have stays := (apart host att ⟨root, mem, phaseOutIds_isIn mem, ih⟩ link).2
    refine ih.tail ⟨link, ?_⟩
    have isIn := h.came.status att
    rw [if_neg fun inside => stays ((h.came.members att).mp inside)] at isIn
    exact isIn.symm.trans step.2

theorem leavesWith_iff (mem : root ∈ phaseOutIds state) :
    LeavesWith mid.objects root id ↔ LeavesWith state.objects root id := by
  have isIn := phaseOutIds_isIn mem
  simpa [ExitsWith, isIn, h.came.isIn_after isIn] using h.exitsWith_iff apart mem

theorem mem_exited_iff : id ∈ exited ↔ Exits state id := by
  refine ⟨fun mem => ?_, h.mem_exited⟩
  obtain ⟨root, inside, exits⟩ := (h.left.members id).mp mem
  exact ⟨root, inside, (h.exitsWith_iff apart inside).mp exits⟩

theorem status_stayed (stays : id ∉ exited) :
    statusOf after.objects id = statusOf mid.objects id := by
  refine h.left.kept id stays fun direct => ?_
  rintro ⟨host, mem, linked⟩
  have host := (h.mem_exited_iff apart).mp mem
  have notDirect := (apart _ id host ((h.came.shape.outLink _ id).mp linked)).1
  by_cases came : id ∈ entered
  · exact h.came.not_out came ⟨_, direct⟩
  · exact notDirect ((h.came.status_of_not_mem came).symm.trans direct)

theorem not_both (came : id ∈ entered) : id ∉ exited := by
  intro left
  obtain ⟨root, -, exits⟩ := (h.mem_exited_iff apart).mp left
  exact isIn_not_out exits.isIn (h.came.isOut came)

/-- Each permanent changes at most once, with one event. -/
theorem once (id : ObjectId) :
    (events.filter (·.objectId = id)).length =
      if statusOf after.objects id = statusOf state.objects id then 0 else 1 := by
  rw [h.filter_length]
  by_cases came : id ∈ entered
  · have stays := h.not_both apart came
    obtain ⟨cause, was⟩ := h.came.isOut came
    rw [h.status_stayed apart stays, h.came.status, if_pos came, was,
      count_eq_one_of_mem h.came.once came, count_eq_zero_of_not_mem stays]
    rfl
  rw [count_eq_zero_of_not_mem came]
  by_cases left : id ∈ exited
  · have now := h.left.isOut id left
    have was := h.left.isIn left
    rw [isInStatus, h.came.status_of_not_mem came] at was
    rw [count_eq_one_of_mem h.left.once left, if_neg]
    intro same
    obtain ⟨cause, now⟩ := now
    exact isIn_not_out was ⟨cause, same.symm.trans now⟩
  · rw [h.status_stayed apart left, h.came.status_of_not_mem came,
      count_eq_zero_of_not_mem left, if_pos rfl]

theorem exits_iff : (∃ root ∈ phaseOutIds state, ExitsWith mid.objects root id) ↔ Exits state id :=
  (h.left.members id).symm.trans (h.mem_exited_iff apart)

/-- The label of a permanent that is to leave by itself, in terms of the state before the step. -/
theorem label (before : List ObjectId) {later : List ObjectId} {x : ObjectId}
    (order : phaseOutIds state = before ++ x :: later) (first : x ∉ before) :
    ∃ cause, statusOf after.objects x = some (.phasedOut cause) ∧
      (cause = .indirectly ↔ (∃ root ∈ before, LeavesWith state.objects root x) ∨
        ∃ y, Exits state y ∧ OutLink state.objects y x ∧ ¬LeavesWith state.objects x y) := by
  have inside {id : ObjectId} (mem : id ∈ before ∨ id = x) : id ∈ phaseOutIds state := by
    rw [order]
    rcases mem with mem | rfl
    · exact mem_append_left _ mem
    · exact mem_append_right _ mem_cons_self
  have isIn := phaseOutIds_isIn (inside (.inr rfl))
  obtain ⟨between, isAfter⟩ := h.stages
  obtain ⟨cause, status, reason⟩ :=
    @phaseOutEach_label before later x mid between first (h.came.isIn_after isIn)
  rw [← order, ← isAfter] at status
  refine ⟨cause, status, reason.trans (or_congr ?_ ?_)⟩
  · refine exists_congr fun root => and_congr_right fun mem => ?_
    rw [h.exitsWith_iff apart (inside (.inl mem)), ExitsWith,
      and_iff_right (phaseOutIds_isIn (inside (.inl mem)))]
  · refine exists_congr fun y => ?_
    rw [← order, h.exits_iff apart, h.came.shape.outLink, h.leavesWith_iff apart (inside (.inr rfl))]

end

/-- Without entanglement the place in the battlefield plays no part in the label. -/
theorem label_settled (h : Went cantPhaseIn state mid after events entered exited)
    (free : Unentangled cantPhaseIn state) {x : ObjectId} (mem : x ∈ phaseOutIds state) :
    ∃ cause, statusOf after.objects x = some (.phasedOut cause) ∧
      (cause = .indirectly ↔
        ∃ root ∈ phaseOutIds state, root ≠ x ∧ LeavesWith state.objects root x) := by
  obtain ⟨before, later, order, first⟩ := eq_append_cons_of_mem mem
  obtain ⟨cause, status, reason⟩ := h.label free.apart before order first
  refine ⟨cause, status, reason.trans ⟨?_, ?_⟩⟩
  · rintro (⟨root, inside, leaves⟩ | ⟨y, ⟨root, inside, -, path⟩, linked, stays⟩)
    · exact ⟨root, order ▸ mem_append_left _ inside, fun same => first (same ▸ inside), leaves⟩
    · refine ⟨root, inside, fun same => stays (same ▸ path), path.tail ⟨linked, ?_⟩⟩
      exact phaseOutIds_isIn mem
  · rintro ⟨root, inside, other, leaves⟩
    exact .inr (free.settled x mem root inside other leaves)

end Went

section
variable {battlefield : List ObjectId}

variable {id : ObjectId}

section
variable (perm : battlefield.Perm state.battlefield)
include perm

theorem mem_phaseOutIds_perm :
    id ∈ phaseOutIds { state with battlefield } ↔ id ∈ phaseOutIds state :=
  (perm.filter _).mem_iff

theorem mem_phaseInIds_perm :
    id ∈ phaseInIds cantPhaseIn { state with battlefield } ↔ id ∈ phaseInIds cantPhaseIn state :=
  (perm.filter _).mem_iff

theorem enters_perm :
    Enters cantPhaseIn { state with battlefield } id ↔ Enters cantPhaseIn state id :=
  exists_congr fun _ => and_congr_left fun _ => mem_phaseInIds_perm perm

theorem exits_perm : Exits { state with battlefield } id ↔ Exits state id :=
  exists_congr fun _ => and_congr_left fun _ => mem_phaseOutIds_perm perm

end

theorem Apart.perm (apart : Apart cantPhaseIn state) (perm : battlefield.Perm state.battlefield) :
    Apart cantPhaseIn { state with battlefield } := by
  intro host att exits link
  rw [enters_perm perm]
  exact apart host att ((exits_perm perm).mp exits) link

theorem Unentangled.perm (free : Unentangled cantPhaseIn state)
    (perm : battlefield.Perm state.battlefield) :
    Unentangled cantPhaseIn { state with battlefield } where
  apart := free.apart.perm perm
  settled := by
    intro x mem root inside other leaves
    obtain ⟨y, exits, link⟩ := free.settled x ((mem_phaseOutIds_perm perm).mp mem) root
      ((mem_phaseOutIds_perm perm).mp inside) other leaves
    exact ⟨y, (exits_perm perm).mpr exits, link⟩

/-- The order of the battlefield does not matter. -/
theorem Unentangled.orderFree (free : Unentangled cantPhaseIn state)
    (perm : battlefield.Perm state.battlefield) (id : ObjectId) :
    statusOf (executeUntapStepPhasing cantPhaseIn { state with battlefield } []).1.objects id =
      statusOf (executeUntapStepPhasing cantPhaseIn state []).1.objects id := by
  obtain ⟨mid, entered, exited, h⟩ := @executeUntapStepPhasing_went cantPhaseIn state
  obtain ⟨mid', entered', exited', h'⟩ :=
    @executeUntapStepPhasing_went cantPhaseIn { state with battlefield }
  have free' := free.perm perm
  have left : id ∈ exited' ↔ id ∈ exited :=
    (h'.mem_exited_iff free'.apart).trans ((exits_perm perm).trans (h.mem_exited_iff free.apart).symm)
  by_cases mem : id ∈ exited
  · by_cases own : id ∈ phaseOutIds state
    · obtain ⟨cause, status, reason⟩ := h.label_settled free own
      obtain ⟨cause', status', reason'⟩ :=
        h'.label_settled free' ((mem_phaseOutIds_perm perm).mpr own)
      have same : cause' = .indirectly ↔ cause = .indirectly := by
        rw [reason', reason]
        exact exists_congr fun _ => and_congr_left fun _ => mem_phaseOutIds_perm perm
      cases cause <;> cases cause' <;> simp_all
    · rw [h.left.indirect id mem own, h'.left.indirect id (left.mpr mem) fun mem =>
        own ((mem_phaseOutIds_perm perm).mp mem)]
  · have came : id ∈ entered' ↔ id ∈ entered :=
      (h'.came.members id).trans ((enters_perm perm).trans (h.came.members id).symm)
    rw [h.status_stayed free.apart mem, h'.status_stayed free'.apart (mt left.mp mem),
      h.came.status, h'.came.status]
    simp only [came]

end

/-- A permanent that hangs on one that leaves would phase in and out again, or be relabelled. -/
theorem Simultaneous.apart (simultaneous : Simultaneous cantPhaseIn state) :
    Apart cantPhaseIn state := by
  obtain ⟨mid, entered, exited, h⟩ := @executeUntapStepPhasing_went cantPhaseIn state
  intro host att exits link
  have once := simultaneous.once att
  rw [h.filter_length] at once
  have link' := (h.came.shape.outLink host att).mpr link
  have notBoth : ¬Enters cantPhaseIn state att := by
    intro enters
    have came := (h.came.members att).mpr enters
    have isIn : isInStatus mid.objects att := (h.came.status att).trans (if_pos came)
    obtain ⟨root, inside, rootIn, path⟩ := (h.left.members host).mp (h.mem_exited exits)
    have left := (h.left.members att).mpr ⟨root, inside, rootIn, path.tail ⟨link', isIn⟩⟩
    rw [count_eq_one_of_mem h.came.once came, count_eq_one_of_mem h.left.once left] at once
    split at once <;> omega
  refine ⟨fun direct => ?_, notBoth⟩
  have stays : att ∉ entered := fun came => notBoth ((h.came.members att).mp came)
  have still := (h.came.status_of_not_mem stays).trans direct
  have now := h.left.relabelled att still ⟨host, h.mem_exited exits, link'⟩
  rw [count_eq_zero_of_not_mem stays,
    count_eq_zero_of_not_mem (h.left.out_stays ⟨_, still⟩).1, now, direct] at once
  simp at once

/-- The label of a permanent that is first in the battlefield, and of one that is not. -/
theorem Simultaneous.settled (simultaneous : Simultaneous cantPhaseIn state) {x root : ObjectId}
    (mem : x ∈ phaseOutIds state) (inside : root ∈ phaseOutIds state) (other : root ≠ x)
    (leaves : LeavesWith state.objects root x) :
    ∃ y, Exits state y ∧ OutLink state.objects y x ∧ ¬LeavesWith state.objects x y := by
  by_contra alone
  have front (id : ObjectId) (mem : id ∈ phaseOutIds state) :
      ∃ battlefield, battlefield.Perm state.battlefield ∧
        ∃ rest, phaseOutIds { state with battlefield } = id :: rest := by
    obtain ⟨onBattlefield, holds⟩ := mem_filter.mp mem
    exact ⟨id :: state.battlefield.erase id, (perm_cons_erase onBattlefield).symm, _,
      filter_cons_of_pos holds⟩
  obtain ⟨battlefield, perm, rest, order⟩ := front x mem
  obtain ⟨mid, entered, exited, h⟩ :=
    @executeUntapStepPhasing_went cantPhaseIn { state with battlefield }
  obtain ⟨cause, status, reason⟩ :=
    h.label (simultaneous.apart.perm perm) [] order not_mem_nil
  have direct : cause ≠ .indirectly := by
    intro indirect
    rcases reason.mp indirect with ⟨s, none, -⟩ | ⟨y, exits, linked, stays⟩
    · cases none
    · exact alone ⟨y, (exits_perm perm).mp exits, linked, stays⟩
  obtain ⟨battlefield', perm', rest', order'⟩ := front root inside
  have mem' : x ∈ rest' := by
    have mem := (mem_phaseOutIds_perm perm').mpr mem
    rw [order'] at mem
    exact (mem_cons.mp mem).resolve_left other.symm
  obtain ⟨before, later, isRest, first⟩ := eq_append_cons_of_mem mem'
  obtain ⟨mid', entered', exited', h'⟩ :=
    @executeUntapStepPhasing_went cantPhaseIn { state with battlefield := battlefield' }
  obtain ⟨cause', status', reason'⟩ := h'.label (simultaneous.apart.perm perm')
    (root :: before) (by rw [order', isRest, cons_append]) (by simp [first, other.symm])
  have indirect := reason'.mpr (.inl ⟨root, mem_cons_self, leaves⟩)
  have same := (simultaneous.orderFree battlefield perm x).trans
    (simultaneous.orderFree battlefield' perm' x).symm
  rw [status, status', indirect] at same
  cases same
  exact direct rfl

end

/-- The step is simultaneous if and only if nothing that hangs on a leaving permanent has phased
out on its own or enters, and no label hangs on the order. -/
theorem executeUntapStepPhasing_simultaneous_iff (cantPhaseIn : ObjectId → Bool)
    (state : GameState) :
    Simultaneous cantPhaseIn state ↔ Unentangled cantPhaseIn state := by
  constructor
  · intro simultaneous
    exact ⟨simultaneous.apart, fun x mem root inside other leaves =>
      simultaneous.settled mem inside other leaves⟩
  · intro free
    obtain ⟨mid, entered, exited, h⟩ := @executeUntapStepPhasing_went cantPhaseIn state
    refine ⟨h.once free.apart, fun id mem => ?_, fun battlefield perm => free.orderFree perm⟩
    have came := (h.came.members id).mpr ⟨id, mem, ⟨_, phaseInIds_direct mem⟩, ReflTransGen.refl⟩
    rw [isInStatus, h.status_stayed free.apart (h.not_both free.apart came), h.came.status,
      if_pos came]

/-- The creature has phasing, and the Aura had phased out on its own. -/
def enchantedPhaser : GameState :=
  let state := enchantedCreature (.phasedOut .directly)
  { state with
    objects := Assoc.modify 1 (fun obj => { obj with hasPhasing := true }) state.objects }

/-- The Aura phases in, and out again with the creature. -/
theorem aura_phases_in_and_out : ¬Simultaneous (fun _ => false) enchantedPhaser := by
  intro simultaneous
  have events : (executeUntapStepPhasing (fun _ => false) enchantedPhaser []).2 =
      [.permanentPhasedIn 2, .permanentPhasedOut 1 false, .permanentPhasedOut 2 true] := by
    decide +kernel
  have once := simultaneous.once 2
  rw [events] at once
  split at once <;> simp [GameEvent.objectId] at once

end Phase.Phasing
