import Phase.Lib.Keyed
import Phase.Lib.Worklist

/-! Permanents phase out and in, with what is attached to them, and the untap step makes both
happen. -/
namespace Phase.Phasing

abbrev ObjectId := Nat

abbrev PlayerId := Nat

inductive PhaseOutCause where
  | directly
  | indirectly
  deriving DecidableEq

inductive PhaseStatus where
  | phasedIn
  | phasedOut (cause : PhaseOutCause)
  deriving DecidableEq

inductive CoreType where
  | artifact | creature | enchantment | instant | land | planeswalker | sorcery | tribal | battle
  | kindred | dungeon | plane | phenomenon | scheme | conspiracy
  deriving DecidableEq

inductive AttachTarget where
  | object (id : ObjectId)
  | player (id : PlayerId)
  deriving DecidableEq

structure GameObject where
  controller : PlayerId
  coreTypes : List CoreType
  /-- `has_keyword(&Keyword::Phasing)`. -/
  hasPhasing : Bool
  attachments : List ObjectId
  attachedTo : Option AttachTarget
  bestowForm : Bool
  onBattlefield : Bool
  phaseStatus : PhaseStatus
  deriving DecidableEq

namespace GameObject

def isPhasedIn (obj : GameObject) : Bool := obj.phaseStatus = .phasedIn

def isPhasedOut (obj : GameObject) : Bool := !obj.isPhasedIn

end GameObject

abbrev Objects := AList fun _ : ObjectId => GameObject

inductive GameEvent where
  | permanentPhasedOut (objectId : ObjectId) (indirect : Bool)
  | permanentPhasedIn (objectId : ObjectId)
  deriving DecidableEq

structure GameState where
  objects : Objects
  battlefield : List ObjectId
  activePlayer : PlayerId
  /-- `is_eliminated` of each player. -/
  players : List Bool
  deriving DecidableEq

/-- Auras are enchantments; Equipment and Fortifications are artifacts. -/
def isAttachmentCascadedByPhasing (coreTypes : List CoreType) : Bool :=
  coreTypes.any fun coreType => coreType = .enchantment || coreType = .artifact

def setStatus (status : PhaseStatus) (obj : GameObject) : GameObject :=
  { obj with phaseStatus := status }

/-- The objects, and those of them that have changed so far. -/
abbrev Changing := Objects × List ObjectId

/-- The attachments of `obj` that phase out with it. -/
def cascaded (objects : Objects) (obj : GameObject) : List ObjectId :=
  obj.attachments.filter fun att =>
    (objects.lookup att).any fun att => isAttachmentCascadedByPhasing att.coreTypes

def phaseOutVisit (state : Changing) (item : ObjectId × PhaseOutCause) :
    Changing × List (ObjectId × PhaseOutCause) :=
  match state.1.lookup item.1 with
  | none => (state, [])
  | some obj =>
    if obj.isPhasedOut then
      -- never promoted from indirect to direct
      if item.2 = .indirectly ∧ obj.phaseStatus = .phasedOut .directly then
        ((Assoc.modify item.1 (setStatus (.phasedOut .indirectly)) state.1, state.2), [])
      else (state, [])
    else
      let objects := Assoc.modify item.1 (setStatus (.phasedOut item.2)) state.1
      ((objects, state.2 ++ [item.1]), (cascaded objects obj).map fun att => (att, .indirectly))

/-- The attachments that phasing out may still push. -/
def attachedIn (obj : GameObject) : Nat := if obj.isPhasedIn then obj.attachments.length else 0

theorem attachedIn_of_in {obj : GameObject} (isIn : obj.isPhasedIn = true) :
    attachedIn obj = obj.attachments.length := if_pos isIn

theorem attachedIn_of_out {obj : GameObject} (isOut : obj.isPhasedIn = false) :
    attachedIn obj = 0 := if_neg (by simp [isOut])

theorem isPhasedIn_setStatus_out (cause : PhaseOutCause) (obj : GameObject) :
    (setStatus (.phasedOut cause) obj).isPhasedIn = false := rfl

def phaseOutTraversal : Worklist.Traversal Changing (ObjectId × PhaseOutCause) ObjectId where
  key := Prod.fst
  visit := phaseOutVisit
  weight state := Assoc.total attachedIn state.1
  pays := by
    intro state item
    unfold phaseOutVisit
    cases found : state.1.lookup item.1 with
    | none => simp
    | some obj =>
      have out (cause : PhaseOutCause) := Assoc.total_modify found attachedIn
        (setStatus (.phasedOut cause))
      simp only [attachedIn_of_out (isPhasedIn_setStatus_out _ obj)] at out
      dsimp only
      split
      · split
        · have := out .indirectly
          simp only [List.length_nil]
          omega
        · simp
      · next isIn =>
        have isIn : obj.isPhasedIn = true := by simpa [GameObject.isPhasedOut] using isIn
        have := out item.2
        rw [attachedIn_of_in isIn] at this
        have fewer := List.length_filter_le (fun att =>
          ((Assoc.modify item.1 (setStatus (.phasedOut item.2)) state.1).lookup att).any
            fun att => isAttachmentCascadedByPhasing att.coreTypes) obj.attachments
        simp only [List.length_map, cascaded]
        omega

def isIndirect (objects : Objects) (id : ObjectId) : Bool :=
  (objects.lookup id).any fun obj => obj.phaseStatus = .phasedOut .indirectly

/-- The objects after `phase_out_object`, and those that it phased out. -/
def phaseOut (objects : Objects) (objectId : ObjectId) (cause : PhaseOutCause) : Changing :=
  Worklist.run phaseOutTraversal (objects, []) [] [(objectId, cause)]

def phaseOutObject (state : GameState) (objectId : ObjectId) (cause : PhaseOutCause)
    (events : List GameEvent) : GameState × List GameEvent × List ObjectId :=
  let (objects, phased) := phaseOut state.objects objectId cause
  ({ state with objects },
    events ++ phased.map fun id => .permanentPhasedOut id (isIndirect objects id), phased)

def phaseInVisit (state : Changing) (id : ObjectId) : Changing × List ObjectId :=
  match state.1.lookup id with
  | none => (state, [])
  | some obj =>
    if obj.isPhasedIn then (state, [])
    else
      let objects := Assoc.modify id (setStatus .phasedIn) state.1
      ((objects, state.2 ++ [id]), obj.attachments.filter (isIndirect objects))

/-- The attachments that phasing in may still push. -/
def attachedOut (obj : GameObject) : Nat := if obj.isPhasedIn then 0 else obj.attachments.length

def phaseInTraversal : Worklist.Traversal Changing ObjectId ObjectId where
  key := id
  visit := phaseInVisit
  weight state := Assoc.total attachedOut state.1
  pays := by
    intro state id
    unfold phaseInVisit
    cases found : state.1.lookup id with
    | none => simp
    | some obj =>
      have back := Assoc.total_modify found attachedOut (setStatus .phasedIn)
      have after : attachedOut (setStatus .phasedIn obj) = 0 := rfl
      dsimp only
      split
      · simp
      · next isOut =>
        rw [after, show attachedOut obj = obj.attachments.length from if_neg isOut] at back
        have fewer := List.length_filter_le
          (isIndirect (Assoc.modify id (setStatus .phasedIn) state.1)) obj.attachments
        dsimp only
        omega

/-- The objects after the loop of `phase_in_object`, and those that it phased in. -/
def phaseIn (objects : Objects) (objectId : ObjectId) : Changing :=
  Worklist.run phaseInTraversal (objects, []) [] [objectId]

/-- A bestowed Aura whose host is gone. -/
def isBestowUnattached (state : GameState) (id : ObjectId) : Bool :=
  (state.objects.lookup id).any fun obj => obj.bestowForm &&
    match obj.attachedTo with
    | some (.object host) => !(state.objects.lookup host).any (·.onBattlefield)
    | some (.player player) => !(state.players[player]?).any (!·)
    | none => true

/-- `revert_bestow_form`: the object is a creature again. -/
def revertBestowForm (obj : GameObject) : GameObject :=
  if obj.bestowForm then
    { obj with
      bestowForm := false
      coreTypes := if .creature ∈ obj.coreTypes then obj.coreTypes else obj.coreTypes ++ [.creature] }
  else obj

def revertUnattached (state : GameState) (id : ObjectId) : GameState :=
  if isBestowUnattached state id then
    { state with objects := Assoc.modify id revertBestowForm state.objects }
  else state

def phaseInObject (state : GameState) (objectId : ObjectId) (events : List GameEvent) :
    GameState × List GameEvent × List ObjectId :=
  let (objects, phased) := phaseIn state.objects objectId
  (phased.foldl revertUnattached { state with objects },
    events ++ phased.map .permanentPhasedIn, phased)

def phaseInEach (ids : List ObjectId) (start : GameState × List GameEvent) :
    GameState × List GameEvent :=
  ids.foldl (fun (state, events) id =>
    let (state, events, _) := phaseInObject state id events
    (state, events)) start

def phaseOutEach (ids : List ObjectId) (start : GameState × List GameEvent) :
    GameState × List GameEvent :=
  ids.foldl (fun (state, events) id =>
    let (state, events, _) := phaseOutObject state id .directly events
    (state, events)) start

section
-- the permanents held by a restriction when the step begins
variable (cantPhaseIn : ObjectId → Bool)

def phaseOutIds (state : GameState) : List ObjectId :=
  state.battlefield.filter fun id => (state.objects.lookup id).any fun obj =>
    obj.isPhasedIn && obj.controller = state.activePlayer && obj.hasPhasing

def phaseInIds (state : GameState) : List ObjectId :=
  state.battlefield.filter fun id => (state.objects.lookup id).any (fun obj =>
    obj.phaseStatus = .phasedOut .directly && obj.controller = state.activePlayer) &&
      !cantPhaseIn id

def executeUntapStepPhasing (state : GameState) (events : List GameEvent) :
    GameState × List GameEvent :=
  phaseOutEach (phaseOutIds state) (phaseInEach (phaseInIds cantPhaseIn state) (state, events))

end

end Phase.Phasing
