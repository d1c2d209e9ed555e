import Phase.Mulligan.State

/-! The mulligan procedure: each handler answers with what is waited for next. -/
namespace Phase.Mulligan

def startingHandSize : Nat := 7

def maxMulligans : Nat := 7

def maxMulligansFor (freeFirst : Bool) : Nat :=
  if freeFirst then maxMulligans + 1 else maxMulligans

def serumPowderName : String := "serum powder"

/-- Cards owed after keeping with `mulliganCount` mulligans taken. -/
def bottomCountFor (mulliganCount : Nat) (freeFirst : Bool) : Nat :=
  if freeFirst then mulliganCount - 1 else mulliganCount

inductive PendingMulliganAction where
  | keep
  | useSerumPowder (objectId : ObjectId)
  deriving DecidableEq

inductive MulliganDecisionPhase where
  | declare
  | bottomCards (count : Nat) (next : PendingMulliganAction)
  deriving DecidableEq

structure MulliganDecisionEntry where
  player : PlayerId
  mulliganCount : Nat
  freeRevealsTaken : Nat
  phase : MulliganDecisionPhase
  deriving DecidableEq

inductive MulliganDeclarationKind where
  | regular
  | freeReveal
  deriving DecidableEq

structure MulliganDeclaration where
  player : PlayerId
  mulliganCount : Nat
  freeRevealsTaken : Nat
  kind : MulliganDeclarationKind
  deriving DecidableEq

structure MulliganBottomEntry where
  player : PlayerId
  count : Nat
  deriving DecidableEq

/-- What the procedure waits for; `begun` is where `finish_mulligans` has handed the game on. -/
inductive WaitingFor where
  | openingHandBottomCards (pending : List MulliganBottomEntry)
  | mulliganDecision (pending : List MulliganDecisionEntry) (freeFirstMulligan : Bool)
      (declared : List MulliganDeclaration)
  | begun
  deriving DecidableEq

inductive MulliganChoice where
  | keep
  | mulligan
  | freeReveal
  | useSerumPowder (objectId : ObjectId)
  deriving DecidableEq

inductive MulliganTiming where
  | immediate
  | simultaneous
  deriving DecidableEq

variable {Rng : Type}

namespace GameState
variable (state : GameState Rng)

def freeFirstMulligan : Bool :=
  decide (state.seatOrder.length > 2) || state.format.grantsFreeFirstMulligan

def prepaid (player : PlayerId) : Nat := (state.prepaidMulliganBottoms player).getD 0

def setPrepaid (player : PlayerId) (count : Nat) : GameState Rng :=
  { state with
    prepaidMulliganBottoms := Function.update state.prepaidMulliganBottoms player (some count) }

def clearPrepaid : GameState Rng := { state with prepaidMulliganBottoms := fun _ => none }

def mulliganTiming : MulliganTiming :=
  match state.format.sharedLibrary with
  | .shared => .simultaneous
  | .perPlayer => .immediate

/-- Lands and nonland cards in a hand. -/
def handLandSplit (player : PlayerId) : Nat × Nat :=
  let lands := ((state.hand player).filter fun card =>
    (state.objects card).any (·.isLand)).length
  (lands, (state.hand player).length - lands)

def freeRevealOffered (entry : MulliganDecisionEntry) : Bool :=
  match state.format.freeRevealMulligan with
  | .unavailable => false
  | .whenHandLacks minLands minNonlands =>
    let (lands, nonlands) := state.handLandSplit entry.player
    decide (entry.phase = .declare) && decide (entry.mulliganCount = 0) &&
      (decide (lands < minLands) || decide (nonlands < minNonlands))

def normalMulliganDecision : WaitingFor :=
  .mulliganDecision
    ((state.seatOrder.filter state.isAlive).map fun player =>
      { player
        mulliganCount := state.prepaid player
        freeRevealsTaken := 0
        phase := .declare })
    state.freeFirstMulligan []

def tinyLeadersForcedMulliganPending : List MulliganBottomEntry :=
  if state.format ≠ .tinyLeaders then []
  else
    (state.seatOrder.filter fun player => decide (state.commanderCount player > 1)).map
      fun player => { player, count := 1 }

def shuffleAll (shuffler : Shuffler Rng) : GameState Rng :=
  state.players.foldl (fun state player => state.shuffleLibrary shuffler player) state

def startMulligan (shuffler : Shuffler Rng) : WaitingFor × GameState Rng :=
  let state := state.clearPrepaid.shuffleAll shuffler
  let state := state.dealHands (state.seatOrder.map fun player => (player, startingHandSize))
  match state.tinyLeadersForcedMulliganPending with
  | [] => (state.normalMulliganDecision, state)
  | forced => (.openingHandBottomCards forced, state)

def validateSerumPowderReference (player : PlayerId) (objectId : ObjectId) : Except String Unit :=
  if objectId ∉ state.hand player then
    .error s!"Serum Powder object ObjectId({objectId}) is not in player PlayerId({player})'s hand"
  else
    match state.objects objectId with
    | none => .error s!"Object ObjectId({objectId}) not found"
    | some referenced =>
      if referenced.name.toLower ≠ serumPowderName then
        .error (s!"Object ObjectId({objectId}) is named \"{referenced.name}\", not Serum " ++
          "Powder — only Serum Powder cards may use this action")
      else .ok ()

def handleSerumPowder (player : PlayerId) (objectId : ObjectId) :
    Except String (GameState Rng) := do
  state.validateSerumPowderReference player objectId
  let hand := state.hand player
  let exiled := hand.foldl (fun state card => state.moveObject card .exile none) state
  return exiled.drawN player hand.length

/-- Completes the action at once, or parks the entry until the bottoms still owed are paid. `none`
takes the entry off the pending list. -/
def resolveDeclarePoint (entry : MulliganDecisionEntry) (freeFirst : Bool)
    (next : PendingMulliganAction) :
    Except String (Option MulliganDecisionEntry × GameState Rng) := do
  let owed := bottomCountFor entry.mulliganCount freeFirst - state.prepaid entry.player
  if owed = 0 then
    match next with
    | .keep => return (none, state)
    | .useSerumPowder objectId => return (some entry, ← state.handleSerumPowder entry.player objectId)
  else return (some { entry with phase := .bottomCards owed next }, state)

/-- All players have kept; what follows belongs to the game itself. -/
def finishMulligans : WaitingFor × GameState Rng := (.begun, state)

def openEntry (d : MulliganDeclaration) : MulliganDecisionEntry :=
  { player := d.player
    mulliganCount := match d.kind with
      | .regular => d.mulliganCount + 1
      | .freeReveal => d.mulliganCount
    freeRevealsTaken := match d.kind with
      | .regular => d.freeRevealsTaken
      | .freeReveal => min (d.freeRevealsTaken + 1) 255
    phase := .declare }

/-- The last legal mulligan is an implicit keep. -/
def keepAtCap (freeFirst : Bool) : List MulliganDecisionEntry → List MulliganDecisionEntry
  | [] => []
  | entry :: entries =>
    if entry.mulliganCount < maxMulligansFor freeFirst then entry :: keepAtCap freeFirst entries
    else
      match state.resolveDeclarePoint entry freeFirst .keep with
      | .ok (kept, _) => kept.toList ++ keepAtCap freeFirst entries
      | .error _ => entry :: keepAtCap freeFirst entries

def closeDeclareRound (shuffler : Shuffler Rng) (declared : List MulliganDeclaration)
    (freeFirst : Bool) : List MulliganDecisionEntry × GameState Rng :=
  let redrawers := state.seatWalkFromActive.filterMap fun player =>
    declared.find? (·.player = player)
  let state := redrawers.foldl (fun state d => state.returnHandToLibrary d.player) state
  let holders := (redrawers.map fun d => state.librarySeat d.player).eraseDups
  let state := holders.foldl (fun state holder => state.shuffleLibraryOf shuffler holder) state
  let state := redrawers.foldl (fun state d => state.setPrepaid d.player 0) state
  let state := state.dealHands (redrawers.map fun d => (d.player, startingHandSize))
  let entries := state.seatOrder.filterMap fun player =>
    (redrawers.find? (·.player = player)).map openEntry
  (state.keepAtCap freeFirst entries, state)

/-- Waits for those still pending; with none pending and none declared the procedure is over. -/
def settle (pending : List MulliganDecisionEntry) (freeFirst : Bool) : WaitingFor × GameState Rng :=
  if pending ≠ [] then (.mulliganDecision pending freeFirst [], state)
  else state.clearPrepaid.finishMulligans

def advanceAfterDecision (shuffler : Shuffler Rng) (pending : List MulliganDecisionEntry)
    (declared : List MulliganDeclaration) (freeFirst : Bool) : WaitingFor × GameState Rng :=
  if pending ≠ [] then (.mulliganDecision pending freeFirst declared, state)
  else if declared = [] then state.settle [] freeFirst
  else
    let (pending, state) := state.closeDeclareRound shuffler declared freeFirst
    state.settle pending freeFirst

/-- The pending list with the entry at `idx` replaced, or removed. -/
def replaceEntry {α : Type} (pending : List α) (idx : Nat) (entry : Option α) : List α :=
  pending.take idx ++ entry.toList ++ pending.drop (idx + 1)

/-- What one decision does to the player's own entry, `none` if it leaves the pending list, to the
declarations and to the cards. -/
def decideEntry (shuffler : Shuffler Rng) (entry : MulliganDecisionEntry)
    (declared : List MulliganDeclaration) (freeFirst : Bool) :
    MulliganChoice →
      Except String (Option MulliganDecisionEntry × List MulliganDeclaration × GameState Rng)
  | .keep => do
      let (kept, state) ← state.resolveDeclarePoint entry freeFirst .keep
      return (kept, declared, state)
  | .mulligan =>
    match state.mulliganTiming with
    | .immediate => do
        let newCount := entry.mulliganCount + 1
        let state := (state.shuffleHandIntoLibrary shuffler entry.player).drawN entry.player
          startingHandSize
        let state := state.setPrepaid entry.player 0
        let entry := { entry with mulliganCount := newCount }
        if newCount ≥ maxMulligansFor freeFirst then
          let (kept, state) ← state.resolveDeclarePoint entry freeFirst .keep
          return (kept, declared, state)
        else return (some entry, declared, state)
    | .simultaneous =>
      return (none, declared ++ [⟨entry.player, entry.mulliganCount, entry.freeRevealsTaken,
        .regular⟩], state)
  | .freeReveal =>
    if !state.freeRevealOffered entry then
      .error s!"Player PlayerId({entry.player}) may not take a free reveal mulligan"
    else
      match state.mulliganTiming with
      | .immediate =>
        return (some { entry with freeRevealsTaken := min (entry.freeRevealsTaken + 1) 255 },
          declared,
          (state.shuffleHandIntoLibrary shuffler entry.player).drawN entry.player startingHandSize)
      | .simultaneous =>
        return (none, declared ++ [⟨entry.player, entry.mulliganCount,
          entry.freeRevealsTaken, .freeReveal⟩], state)
  | .useSerumPowder objectId => do
      state.validateSerumPowderReference entry.player objectId
      let (kept, state) ← state.resolveDeclarePoint entry freeFirst (.useSerumPowder objectId)
      return (kept, declared, state)

def handleMulliganDecision (shuffler : Shuffler Rng) (waitingFor : WaitingFor)
    (player : PlayerId) (choice : MulliganChoice) : Except String (WaitingFor × GameState Rng) :=
  match waitingFor with
  | .mulliganDecision pending _ declared =>
    let freeFirst := state.freeFirstMulligan
    match pending.findIdx? (·.player = player) with
    | none => .error s!"Player PlayerId({player}) is not in the mulligan pending set"
    | some idx =>
      match pending[idx]? with
      | none => .error "index out of bounds"
      | some entry =>
        if entry.phase ≠ .declare then
          .error (s!"Player PlayerId({player}) owes bottom cards before making another " ++
            "mulligan decision")
        else do
          let (entry, declared, state) ← state.decideEntry shuffler entry declared freeFirst
            choice
          return state.advanceAfterDecision shuffler (replaceEntry pending idx entry) declared
            freeFirst
  | _ => .error "handle_mulligan_decision called outside MulliganDecision"

def validateBottomSelection (player : PlayerId) (cards : List ObjectId) (expectedCount : Nat) :
    Except String Unit :=
  if cards.length ≠ expectedCount then
    .error s!"Expected {expectedCount} cards to bottom, got {cards.length}"
  else validateSelected [] cards
where
  validateSelected (seen : List ObjectId) : List ObjectId → Except String Unit
    | [] => .ok ()
    | card :: cards =>
      if card ∈ seen then .error s!"Duplicate card ObjectId({card}) in bottom selection"
      else if card ∉ state.hand player then
        .error s!"Card ObjectId({card}) is not in player's hand"
      else validateSelected (card :: seen) cards

def creditBottoms (player : PlayerId) (count : Nat) : GameState Rng :=
  state.setPrepaid player (state.prepaid player + count)

def handleOpeningHandBottom (waitingFor : WaitingFor) (player : PlayerId)
    (cards : List ObjectId) : Except String (WaitingFor × GameState Rng) :=
  match waitingFor with
  | .openingHandBottomCards pending =>
    match pending.findIdx? (·.player = player) with
    | none => .error s!"Player PlayerId({player}) is not in the opening-bottom pending set"
    | some idx =>
      match pending[idx]? with
      | none => .error "index out of bounds"
      | some entry => do
          state.validateBottomSelection player cards entry.count
          let state := (state.bottomSelected player cards).creditBottoms player entry.count
          let pending := replaceEntry pending idx none
          if pending = [] then return (state.normalMulliganDecision, state)
          else return (.openingHandBottomCards pending, state)
  | _ => .error "handle_opening_hand_bottom called outside OpeningHandBottomCards"

/-- The entry once its bottoms are paid, and what was waiting for them done. -/
def payEntry (entry : MulliganDecisionEntry) :
    PendingMulliganAction → Except String (Option MulliganDecisionEntry × GameState Rng)
  | .keep => return (none, state)
  | .useSerumPowder objectId => do
      let state ← state.handleSerumPowder entry.player objectId
      return (some { entry with phase := .declare }, state)

/-- The Serum Powder that waits for the bottoms may not be one of them. -/
def rejectCommitted (cards : List ObjectId) : PendingMulliganAction → Except String Unit
  | .keep => .ok ()
  | .useSerumPowder objectId =>
    if objectId ∈ cards then
      .error (s!"Cannot bottom Serum Powder object ObjectId({objectId}) — it is committed to " ++
        "its own activation")
    else .ok ()

def handleMulliganBottom (shuffler : Shuffler Rng) (waitingFor : WaitingFor) (player : PlayerId)
    (cards : List ObjectId) : Except String (WaitingFor × GameState Rng) :=
  match waitingFor with
  | .mulliganDecision pending freeFirst declared =>
    match pending.findIdx? (·.player = player) with
    | none => .error s!"Player PlayerId({player}) is not in the mulligan pending set"
    | some idx =>
      match pending[idx]? with
      | none => .error "index out of bounds"
      | some entry =>
        match entry.phase with
        | .declare => .error s!"Player PlayerId({player}) has no owed bottom-cards obligation"
        | .bottomCards expectedCount next =>
          do
          rejectCommitted cards next
          state.validateBottomSelection player cards expectedCount
          let state := (state.bottomSelected player cards).creditBottoms player
            expectedCount
          let (entry, state) ← state.payEntry entry next
          return state.advanceAfterDecision shuffler (replaceEntry pending idx entry)
            declared freeFirst
  | _ => .error "handle_mulligan_bottom called outside MulliganDecision"

end GameState

inductive Answer where
  | decision (choice : MulliganChoice)
  | cards (selected : List ObjectId)
  deriving DecidableEq

/-- What the game dispatches an answer to. -/
def GameState.apply (state : GameState Rng) (shuffler : Shuffler Rng) (waitingFor : WaitingFor)
    (player : PlayerId) : Answer → Except String (WaitingFor × GameState Rng)
  | .decision choice => state.handleMulliganDecision shuffler waitingFor player choice
  | .cards selected =>
    match waitingFor with
    | .openingHandBottomCards _ => state.handleOpeningHandBottom waitingFor player selected
    | _ => state.handleMulliganBottom shuffler waitingFor player selected

end Phase.Mulligan
