import Phase.Retarget.Dependencies

/-! The positions of a "choose new targets" walk: what each may be given, which object that
names, and which pairs of picks the rules admit. -/
namespace Phase.Retarget

abbrev ObjectId := Nat
abbrev PlayerId := Nat

inductive TargetRef where
  | object (id : ObjectId)
  | player (id : PlayerId)
  deriving DecidableEq

structure ObjectIncarnationRef where
  objectId : ObjectId
  incarnation : Nat
  deriving DecidableEq

inductive CoinFlipResult where
  | won
  | lost
  deriving DecidableEq

inductive ChainStep where
  | subAbility
  | elseAbility
  | coinFlipBranch (result : CoinFlipResult)
  deriving DecidableEq

structure RetargetSlotAddress where
  path : List ChainStep
  slot : Nat
  deriving DecidableEq

inductive SlotEnforcement where
  | filtered (filter : TargetFilter)
  | legacy

/-- The object that a target position names in a final target set. -/
structure OccurrenceIdentity where
  target : TargetRef
  pin : Option ObjectIncarnationRef
  deriving DecidableEq

/-- Two pinned objects are the same only when their incarnations are. Without a pin the id
decides, so this is not transitive. -/
def OccurrenceIdentity.sameObject (identity other : OccurrenceIdentity) : Bool :=
  if identity.target ≠ other.target then false
  else
    match identity.target, identity.pin, other.pin with
    | .object _, some a, some b => a = b
    | _, _, _ => true

/-- `none` keeps the target of a position, `some t` chooses `t`. -/
abbrev RetargetPick := Option TargetRef

/-- A declared slot of the chain with what there is at its address: the target with its pin, and
the pool that was derived for it. Those of one `run` are one instance of "target". -/
structure RetargetSlotBinding where
  address : RetargetSlotAddress
  enforcement : SlotEnforcement
  current : TargetRef
  targetPin : Option ObjectIncarnationRef
  run : Option Nat
  slotPool : List TargetRef

namespace RetargetSlotBinding

variable (objects : ObjectId → Option Nat) (binding : RetargetSlotBinding)

def targetPinAt : Option ObjectIncarnationRef :=
  match binding.current with
  | .object id => binding.targetPin.filter fun pin => pin.objectId = id
  | .player _ => none

def targetOccurrenceIsCurrent : Bool :=
  match binding.targetPinAt with
  | some pin => objects pin.objectId = some pin.incarnation
  | none => true

def deps : RetargetDeps :=
  match binding.enforcement with
  | .filtered filter => retargetDependencies filter
  | .legacy => .independent

end RetargetSlotBinding

def liveTargetPin (objects : ObjectId → Option Nat) : TargetRef → Option ObjectIncarnationRef
  | .object id => (objects id).map fun incarnation => ⟨id, incarnation⟩
  | .player _ => none

def TargetRef.isObject : TargetRef → Bool
  | .object _ => true
  | .player _ => false

/-- A stack entry as the search reads it: the addressed slots of its ability, the addresses in
the numbering of the declared targets, and the objects of the game with their incarnations. The
validator is the reducer's own. A pool consists of players, of objects of the game, and of
abilities on the stack, which are announced without a pin. -/
structure StackEntry where
  bindings : List RetargetSlotBinding
  declared : List (Option RetargetSlotAddress)
  objects : ObjectId → Option Nat
  validate : List RetargetPick → Bool
  alive : ∀ announced ∈ bindings, ∀ binding ∈ bindings, announced.targetPinAt.isSome →
    announced.current ∈ binding.slotPool → (liveTargetPin objects announced.current).isSome

namespace StackEntry

variable (s : StackEntry)

def size : Nat := s.bindings.length

def run (position : Nat) : Option Nat := s.bindings[position]?.bind (·.run)

/-- Choosing the id of an announced object that is gone elects the new one. -/
def changed (position : Nat) (pick : RetargetPick) : Bool :=
  match pick, s.bindings[position]? with
  | some new, some binding =>
    binding.current ≠ new || new.isObject && !binding.targetOccurrenceIsCurrent s.objects
  | _, _ => false

def keepIsDistinct (position : Nat) : Bool :=
  match s.bindings[position]? with
  | some binding => binding.current.isObject && !binding.targetOccurrenceIsCurrent s.objects
  | none => false

/-- The announced occurrence of a position that does not change, the elected object as it is now
of one that does. -/
def identity (position : Nat) (pick : RetargetPick) : OccurrenceIdentity :=
  match s.changed position pick, pick with
  | true, some target => ⟨target, liveTargetPin s.objects target⟩
  | _, _ =>
    let announced := s.bindings[position]?.map (·.current)
    ⟨(pick.or announced).getD (.player 0), s.bindings[position]?.bind (·.targetPinAt)⟩

/-- Keep, then each member of the pool but for a re-choice of the announced object. -/
def candidates (position : Nat) : List RetargetPick :=
  match s.bindings[position]? with
  | some binding =>
    none :: (binding.slotPool.filter fun target =>
      binding.current ≠ target || s.keepIsDistinct position).map some
  | none => [none]

/-- Two positions of different runs, two that stay as they are, or different objects. -/
def pairAdmissible (a : Nat) (pickA : RetargetPick) (b : Nat) (pickB : RetargetPick) : Bool :=
  (s.run a).isNone || s.run a ≠ s.run b ||
    !s.changed a pickA && !s.changed b pickB ||
      !(s.identity a pickA).sameObject (s.identity b pickB)

def positionOfDeclared (slot : Nat) : Option Nat := do
  let address ← ← s.declared[slot]?
  s.bindings.findIdx? fun binding => binding.address = address

end StackEntry

namespace OccurrenceIdentity

variable {x y z : OccurrenceIdentity}

theorem sameObject_iff : x.sameObject y ↔ x.target = y.target ∧
    (x.target.isObject → ∀ a ∈ x.pin, ∀ b ∈ y.pin, a = b) := by
  obtain ⟨target, pin⟩ := x
  obtain ⟨target', pin'⟩ := y
  unfold sameObject
  cases target <;> cases pin <;> cases pin' <;> simp [TargetRef.isObject]

@[simp] theorem sameObject_refl (x : OccurrenceIdentity) : x.sameObject x := by
  refine sameObject_iff.mpr ⟨rfl, ?_⟩
  intro _ a isA b isB
  rw [isA] at isB
  exact Option.some.inj isB

theorem sameObject_comm (x y : OccurrenceIdentity) : x.sameObject y = y.sameObject x := by
  rw [Bool.eq_iff_iff, sameObject_iff, sameObject_iff]
  constructor
  · rintro ⟨target, pins⟩
    exact ⟨target.symm, fun object a isA b isB => (pins (target ▸ object) b isB a isA).symm⟩
  · rintro ⟨target, pins⟩
    exact ⟨target.symm, fun object a isA b isB => (pins (target ▸ object) b isB a isA).symm⟩

/-- Through an identity with a pin it is transitive. -/
theorem sameObject_trans (pinned : y.pin.isSome ∨ y.target.isObject = false)
    (left : x.sameObject y) (right : y.sameObject z) : x.sameObject z := by
  obtain ⟨target, pins⟩ := sameObject_iff.mp left
  obtain ⟨target', pins'⟩ := sameObject_iff.mp right
  refine sameObject_iff.mpr ⟨target.trans target', ?_⟩
  intro object a isA b isB
  rw [target] at object
  rcases pinned with pinned | player
  · obtain ⟨middle, isMiddle⟩ := Option.isSome_iff_exists.mp pinned
    rw [target] at pins
    exact (pins object a isA middle isMiddle).trans (pins' object middle isMiddle b isB)
  · rw [player] at object
    cases object

end OccurrenceIdentity

namespace StackEntry

variable {s : StackEntry} {a b : Nat} {pickA pickB : RetargetPick}

theorem pairAdmissible_comm (s : StackEntry) (a : Nat) (pickA : RetargetPick) (b : Nat)
    (pickB : RetargetPick) : s.pairAdmissible a pickA b pickB = s.pairAdmissible b pickB a pickA := by
  unfold pairAdmissible
  rw [OccurrenceIdentity.sameObject_comm (s.identity a pickA), Bool.and_comm (!s.changed a pickA)]
  by_cases same : s.run a = s.run b
  · simp [same]
  · have apart : ¬ s.run b = s.run a := fun h => same h.symm
    simp [same, apart]

theorem pairAdmissible_of_run (apart : s.run a = none ∨ s.run a ≠ s.run b) :
    s.pairAdmissible a pickA b pickB := by
  unfold pairAdmissible
  rcases apart with single | apart
  · simp [single]
  · simp [apart]

theorem none_mem_candidates (s : StackEntry) (position : Nat) : none ∈ s.candidates position := by
  unfold candidates
  split
  · exact List.mem_cons_self
  · exact List.mem_singleton_self _

theorem exists_binding {position : Nat} (low : position < s.size) :
    ∃ binding, s.bindings[position]? = some binding :=
  ⟨_, List.getElem?_eq_getElem low⟩

/-- A pick that changes nothing names the announced object. -/
theorem identity_of_unchanged {position : Nat} (low : position < s.size) {pick : RetargetPick}
    (same : s.changed position pick = false) :
    s.identity position pick = s.identity position none := by
  obtain ⟨binding, isBinding⟩ := exists_binding low
  unfold identity
  rw [same, isBinding]
  cases pick with
  | none => rfl
  | some new =>
    unfold changed at same
    rw [isBinding] at same
    simp only [ne_eq, Bool.or_eq_false_iff, decide_eq_false_iff_not, not_not] at same
    show OccurrenceIdentity.mk new _ = OccurrenceIdentity.mk binding.current _
    rw [same.1]

end StackEntry

end Phase.Retarget
