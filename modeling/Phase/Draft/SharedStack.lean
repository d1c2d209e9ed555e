import Phase.Draft.Barrier

/-! Shared-stack drafting: every pack is shuffled into one face-down stack, dealt through
piles that the seats take or put back in turn. -/
namespace Phase.Draft

def sharedStackHistoryCapacity : Nat := 128

structure SharedStackDecisionRecord where
  seat : Nat
  pile : Nat
  decision : SharedStackPileDecision
  pileSize : Nat
  deriving DecidableEq

/-- The last card of the main stack is its top. -/
structure SharedStackState where
  mainStack : List DraftCardInstance
  piles : List (List DraftCardInstance)
  startingSeat : Nat
  activeSeat : Nat
  cursor : Nat
  inspected : List Nat
  decisions : Nat
  history : List SharedStackDecisionRecord
  forcedDraws : List (Option DraftCardInstance)
  deriving DecidableEq

structure StackSession extends DraftSession where
  sharedStack : Option SharedStackState
  deriving DecidableEq

def SharedStackPileDecision.all : List SharedStackPileDecision := [.take, .decline]

def pilesNeeded (pileCount : Nat) : Except DraftError Nat :=
  if pileCount = 0 then
    .error (.invalidSharedStackConfiguration
      "a shared-stack distribution must deal at least one pile")
  else .ok pileCount

/-- `seats.len() as u8`. -/
def StackSession.seatCount (session : StackSession) : Nat := session.seats.length % 256

def laterPileAvailable (state : SharedStackState) (index : Nat) : Bool :=
  (state.piles.drop (index + 1)).any fun pile => !pile.isEmpty

/-- The single authority for a decision's legality; `none` is legal. -/
def refusalFor (state : SharedStackState) (seat pile : Nat) (decision : SharedStackPileDecision) :
    Option SharedStackRefusal :=
  if seat ≠ state.activeSeat ∨ pile ≠ state.cursor then some .pileNotActive
  else
    match state.piles[pile]? with
    | none => some .pileNotActive
    | some cursorPile =>
      match decision with
      | .take => if cursorPile.isEmpty then some .pileEmpty else none
      | .decline =>
        if laterPileAvailable state pile ∨
            (pile + 1 = state.piles.length ∧ 2 ≤ state.mainStack.length) then none
        else some .noGuaranteedCard

def forcedDecision (state : SharedStackState) (seat : Nat) : Option SharedStackPileDecision :=
  SharedStackPileDecision.all.find? fun decision =>
    (refusalFor state seat state.cursor decision).isNone

namespace SharedStackState

/-- The top card of the stack, if there is one, goes onto the pile. -/
def refill (state : SharedStackState) (pile : Nat) : SharedStackState :=
  match state.mainStack.getLast? with
  | none => state
  | some card =>
    { state with
      mainStack := state.mainStack.dropLast
      piles := state.piles.modify pile (· ++ [card]) }

def openNotice (state : SharedStackState) (seat seatCount : Nat) : SharedStackState :=
  { state with forcedDraws := (resize state.forcedDraws seatCount none).set seat none }

def record (state : SharedStackState) (entry : SharedStackDecisionRecord) : SharedStackState :=
  let history := state.history ++ [entry]
  { state with
    decisions := state.decisions + 1
    history := history.drop (history.length - sharedStackHistoryCapacity) }

/-- The piles are face down again and the next seat looks at the first one. -/
def endTurn (state : SharedStackState) (seatCount : Nat) : SharedStackState :=
  { state with
    activeSeat := (state.activeSeat + 1) % seatCount
    cursor := 0
    inspected := (state.inspected.map fun _ => 0).set 0 (state.piles.getD 0 []).length }

/-- Back to the next pile. -/
def advance (state : SharedStackState) : SharedStackState :=
  { state with
    cursor := state.cursor + 1
    inspected := state.inspected.set (state.cursor + 1)
      (state.piles.getD (state.cursor + 1) []).length }

/-- The declining seat takes the top card, unseen. -/
def forcedDraw (state : SharedStackState) (seat : Nat) :
    SharedStackState × List DraftCardInstance :=
  match state.mainStack.getLast? with
  | none => (state, [])
  | some card =>
    ({ state with
        mainStack := state.mainStack.dropLast
        forcedDraws := state.forcedDraws.set seat (some card) }, [card])

/-- The state after the decision, the cards drafted, and whether the turn is over. -/
def decide (state : SharedStackState) (seat pile : Nat) :
    SharedStackPileDecision → SharedStackState × List DraftCardInstance × Bool
  | .take =>
    let emptied := { state with piles := state.piles.set pile [] }
    (emptied.refill pile, state.piles.getD pile [], true)
  | .decline =>
    let refilled := state.refill pile
    if pile + 1 < refilled.piles.length then (refilled.advance, [], false)
    else
      let (drawn, cards) := refilled.forcedDraw seat
      (drawn, cards, true)

def exhausted (state : SharedStackState) : Bool :=
  state.mainStack.isEmpty && state.piles.all (·.isEmpty)

end SharedStackState

/-- What an accepted decision makes of the session. -/
def settleDecision (session : StackSession) (state : SharedStackState) (seat pile : Nat)
    (decision : SharedStackPileDecision) : StackSession × List DraftDelta :=
  let pileSize := (state.piles.getD pile []).length
  let (decided, drafted, turnEnds) :=
    (state.openNotice seat session.seatCount).decide seat pile decision
  let recorded := decided.record { seat, pile, decision, pileSize }
  let next := if turnEnds then recorded.endTurn session.seatCount else recorded
  let moved := { session with
    pools := session.pools.modify seat (· ++ drafted)
    sharedStack := some next }
  let applied := DraftDelta.sharedStackDecisionApplied seat pile decision
  if next.exhausted then
    ({ moved with status := .deckbuilding }, [applied, .transitionedTo .deckbuilding])
  else (moved, [applied])

def applySharedStackDecision (session : StackSession) (seat pile : Nat)
    (decision : SharedStackPileDecision) : StackSession × Except DraftError (List DraftDelta) :=
  if session.status ≠ .drafting then
    (session, .error (.invalidTransition session.status "SharedStackDecision"))
  else if session.seatCount ≤ seat then
    (session, .error (.seatOutOfRange seat session.seatCount))
  else
    match session.sharedStack with
    | none =>
      (session, .error (.invalidSharedStackConfiguration
        "shared-stack state missing on a shared-stack session"))
    | some state =>
      match refusalFor state seat pile decision with
      | some reason => (session, .error (.sharedStackDecisionRefused seat pile reason))
      | none =>
        let (next, deltas) := settleDecision session state seat pile decision
        (next, .ok deltas)

/-- Each pile in turn gets the top card of the stack. -/
def dealPiles : Nat → List DraftCardInstance → List (List DraftCardInstance) × List DraftCardInstance
  | 0, stack => ([], stack)
  | n + 1, stack =>
    match stack.getLast? with
    | none => ([], stack)
    | some card =>
      let (piles, rest) := dealPiles n stack.dropLast
      ([card] :: piles, rest)

def chaosLayoutRefusal : String :=
  "a shared-stack draft shuffles every booster into one stack, so it takes a named pack " ++
    "sequence rather than a Chaos assignment"

def validateSource (source : DraftSource) : Except DraftError Unit :=
  match source with
  | .set (.chaos ..) => .error (.invalidSharedStackConfiguration chaosLayoutRefusal)
  | .set (.uniformByRound _) | .cube .. => .ok ()

def openStack (session : StackSession) (piles : List (List DraftCardInstance))
    (mainStack : List DraftCardInstance) (startingSeat : Nat) : StackSession :=
  { session with
    status := .drafting
    sharedStackLive := true
    sharedStack := some {
      mainStack, piles, startingSeat
      activeSeat := startingSeat
      cursor := 0
      inspected := (List.replicate piles.length 0).set 0 (piles.getD 0 []).length
      decisions := 0
      history := []
      forcedDraws := List.replicate session.seatCount none } }

/-- The shared-stack arm of `apply_start_draft`. `shuffle` and `startingSeat` are what the
seeded generator makes of the stack. -/
def dealSharedStack (session : StackSession) (packsPerSeat pileCount : Nat)
    (allPacks : List (List DraftPack)) (shuffle : List DraftCardInstance → List DraftCardInstance)
    (startingSeat : Nat) : Except DraftError (StackSession × List DraftDelta) := do
  if allPacks.length ≠ session.seats.length ∨
      allPacks.any (fun packs => packs.length ≠ packsPerSeat) then
    throw (.invalidSharedStackConfiguration
      s!"pack source did not generate {packsPerSeat} packs per seat")
  let cards := allPacks.flatten.flatten
  let piles ← pilesNeeded pileCount
  if cards.length < piles then throw (.insufficientCards cards.length piles)
  let (dealt, rest) := dealPiles piles (shuffle cards)
  return (openStack session dealt rest startingSeat, [.draftStarted])

end Phase.Draft
