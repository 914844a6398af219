import KiClash.EngineSimulation
import KiClash.GameStore
import KiClash.GoStore

/-!
# The Go game session

Store.watchAndUpdate, Session and the game socket handler, from
go-server/store.go, session.go, messages.go and handler.go. As in the Python
session a mutator talks to its caller through captured variables, which an
aborted attempt leaves as it set them.
-/

namespace KiClash.GoSession

open GoTypes GoEngine ServerMessages AsyncTasks WatchedKey GoStore

/-- A goroutine of the session code. -/
abbrev Goroutine (α : Type) := Prog language.sig α

/-- A command on the game's Redis key. -/
def redis (o : StoreOp PvPSession Call) : Goroutine o.Res :=
  Prog.perform (S := language.sig) (.store o)

/-- Any other operation. -/
def act (o : LocalOp) : Goroutine o.Res := Prog.perform (S := language.sig) (.act o)

/-- The result of a call that may return an error. -/
def returned {α : Type} (p : Goroutine α) : Goroutine (Except Failure α) :=
  p.andThen fun r => pure r

/-- TurnTimeLimitSeconds in tenths of a second. -/
abbrev turnTimeLimitTenths : ℕ := 50

/-- DisconnectTimeoutSec in tenths of a second. -/
abbrev disconnectTimeoutTenths : ℕ := 300

section Messages

/-- flipOutcomeFor. -/
def flipOutcomeFor (outcome perspective : String) : String :=
  if perspective="p1" then
    if outcome=outcomeP1WinsRound then "you_win"
    else if outcome=outcomeP2WinsRound then "you_lose"
    else outcome
  else if outcome=outcomeP2WinsRound then "you_win"
  else if outcome=outcomeP1WinsRound then "you_lose"
  else outcome

/-- winnerLabelFor. -/
def winnerLabelFor (winner : RoundWinner) (pid p1id : String) : String :=
  if winner=winnerDraw then "draw"
  else
    let isP1 : Bool := pid=p1id
    let winnerIsP1 : Bool := winner=winnerP1
    if isP1=winnerIsP1 then "you" else "opponent"

end Messages

section Store

variable {L : Type}

/-- A mutator: it reads and assigns captured variables, mutates the session
behind its pointer, and may return an error. -/
abbrev Mutator (L : Type) := L → PvPSession → Except String (L×PvPSession)

/-- loadSession. -/
def loadSession : Goroutine PvPSession := do
  match ← redis .load with
  | none => .raise .gameNotFound
  | some sess => pure sess

/-- watchAndUpdate, with the number of attempts that are left. -/
def watchAndUpdate (call : L → Call) (mutator : Mutator L) : ℕ → L → Goroutine (L×PvPSession)
  | 0,_ => .raise .tooManyWatchRetries
  | attempts+1,captured => do
    let token ← redis .watch
    match ← redis .get with
    | none => .raise .gameNotFound
    | some sess =>
      match mutator captured sess with
      | .error e => .raise (.mutator e)
      | .ok (captured',sess) =>
        let committed ← redis (.exec token attempts (call captured) sess)
        if committed then do
          -- the closure does not return the session, so it is read again
          let sess ← loadSession
          pure (captured',sess)
        else watchAndUpdate call mutator attempts captured'

end Store

/-- sendToPlayer. -/
def send (instance' : Instance) (player : String) (message : ServerMessage) : Goroutine Unit :=
  act (.send instance' player message)

/-- startTurnTimeout: two critical sections. -/
def startTurnTimeout (instance' : Instance) : Goroutine Unit := do
  act (.cancelTurnTimeout instance')
  act (.setTurnTimeout instance')

/-- sendWaitingForAction. -/
def sendWaitingForAction (instance' : Instance) (sess : PvPSession) : Goroutine Unit :=
  match sess.gameState.currentRound with
  | none => pure ()
  | some cr => do
    send instance' sess.player1Id (.waitingForAction (cr.turnNumber+1) turnTimeLimitSeconds
      cr.roundNumber cr.p1Ki cr.p2Ki)
    send instance' sess.player2Id (.waitingForAction (cr.turnNumber+1) turnTimeLimitSeconds
      cr.roundNumber cr.p2Ki cr.p1Ki)
    startTurnTimeout instance'

/-- The other player, as handleConnect and handleDisconnect pick him. -/
def opponentOf (playerId : String) (sess : PvPSession) : String :=
  if playerId=sess.player1Id then sess.player2Id else sess.player1Id

/-- The variables of handleConnect that its mutator assigns. -/
structure ConnectCaptured where
  /-- opponent. -/
  opponent : String
  /-- isReconnect. -/
  isReconnect : Bool

/-- The mutator of handleConnect. -/
def markConnected (playerId : String) : Mutator ConnectCaptured := fun _ sess =>
  if !sess.isPlayer playerId then .error "not a player in this game"
  else
    let wasLive := sess.hasConnected playerId
    let isReconnect := sess.started && !wasLive
    let sess := if !wasLive then sess.markConnected playerId else sess
    .ok (⟨opponentOf playerId sess,isReconnect⟩,sess)

/-- handleConnect. -/
def handleConnect (instance' : Instance) (playerId : String) : Goroutine Unit := do
  let result ← returned
    (watchAndUpdate (fun _ => .connect playerId) (markConnected playerId) defaultMaxWatchRetries
      ⟨"",false⟩)
  match result with
  | .error .gameNotFound => send instance' playerId (.errorMsg "Game not found")
  | .error _ => pure ()
  | .ok (captured,sess) =>
    if captured.isReconnect then do
      act (.cancelDisconnectTimer instance' playerId)
      send instance' captured.opponent .opponentReconnected
      if sess.gameState.status=matchInProgress then sendWaitingForAction instance' sess
      else pure ()
    else pure ()

/-- The variables of start that its mutator assigns. -/
structure StartCaptured where
  /-- shouldStart. -/
  shouldStart : Bool
  /-- waitingFor. -/
  waitingFor : ℤ

/-- The mutator of start. -/
def markStarted : Mutator StartCaptured := fun captured sess =>
  if sess.started then .ok (captured,sess)
  else if sess.connectedPlayers.length<2 then
    .ok ({captured with waitingFor := 2-sess.connectedPlayers.length},sess)
  else .ok ({captured with shouldStart := true},{sess with started := true})

/-- start. -/
def start (instance' : Instance) : Goroutine Unit := do
  let result ← returned
    (watchAndUpdate (fun _ => .start) markStarted defaultMaxWatchRetries ⟨false,0⟩)
  match result with
  | .error _ => pure ()
  | .ok (captured,sess) =>
    if !captured.shouldStart then pure () else sendWaitingForAction instance' sess

/-- The text that submitAction reports for an action that costs too much. -/
def cannotAfford (action : Action) (ki : ℤ) : String :=
  "Cannot afford "++action++" (ki="++toString ki++")"

/-- The end of the mutator of submitAction: take out a complete pair. -/
def takePair (captured : SubmitCaptured) (sess : PvPSession) : SubmitCaptured×PvPSession :=
  match sess.p1Action,sess.p2Action with
  | some p1,some p2 =>
    ({captured with
      shouldResolve := true
      p1ToResolve := p1
      p2ToResolve := p2},
    {sess with
      p1Action := none
      p2Action := none})
  | _,_ => (captured,sess)

/-- The mutator of submitAction. -/
def storeAction (playerId : String) (action : Action) : Mutator SubmitCaptured :=
  fun captured sess =>
  if sess.gameState.status≠matchInProgress then
    .ok ({captured with validationErr := "Game is not in progress"},sess)
  else match sess.gameState.currentRound with
  | none => .ok ({captured with validationErr := "Round not active"},sess)
  | some cr =>
    let ki := if playerId=sess.player2Id then cr.p2Ki else cr.p1Ki
    if ¬validateAction action ki then
      .ok ({captured with validationErr := cannotAfford action ki},sess)
    else
      let confirmed := {captured with confirmedTurn := cr.turnNumber+1}
      if playerId=sess.player1Id then
        .ok (takePair confirmed {sess with p1Action := some action})
      else if playerId=sess.player2Id then
        .ok (takePair confirmed {sess with p2Action := some action})
      else .ok ({captured with validationErr := "Not a player in this game"},sess)

/-- The variables of resolveTurn that its mutator assigns. -/
structure ResolveCaptured where
  /-- turnResult. -/
  turnResult : TurnResult
  /-- roundResult. -/
  roundResult : Option RoundResult
  /-- matchResult. -/
  matchResult : Option MatchResult

/-- The zero value of a TurnResult. -/
def zeroTurnResult : TurnResult := ⟨0,"","","",0,0,0,0⟩

/-- The mutator of resolveTurn. -/
def applyTurn (p1 p2 : Action) : Mutator ResolveCaptured := fun _ sess =>
  match submitTurn sess.gameState p1 p2 with
  | (_,.error e) => .error e
  | (gameState,.ok report) =>
    .ok (⟨report.turnResult,report.roundResult,report.matchResult⟩,
      {sess with gameState := gameState})

/-- The turn_result message for player 1. -/
def turnResultForP1 (tr : TurnResult) : ServerMessage :=
  .turnResult tr.turnNumber tr.p1Action tr.p2Action (flipOutcomeFor tr.outcome "p1") tr.p1KiAfter
    tr.p2KiAfter

/-- The turn_result message for player 2. -/
def turnResultForP2 (tr : TurnResult) : ServerMessage :=
  .turnResult tr.turnNumber tr.p2Action tr.p1Action (flipOutcomeFor tr.outcome "p2") tr.p2KiAfter
    tr.p1KiAfter

/-- The round_result message for a player. -/
def roundResultFor (rr : RoundResult) (pid p1id : String) : ServerMessage :=
  .roundResult rr.roundNumber (winnerLabelFor rr.winner pid p1id) rr.totalTurns

/-- The match_result message for a player. -/
def matchResultFor (mr : MatchResult) (pid p1id : String) : ServerMessage :=
  .matchResult (winnerLabelFor mr.winner pid p1id) mr.roundsWonP1 mr.roundsWonP2 mr.totalTurns

/-- The round results at the end of a round. -/
def sendRoundResult (instance' : Instance) (p1id p2id : String) :
    Option RoundResult → Goroutine Unit
  | none => pure ()
  | some rr => do
    send instance' p1id (roundResultFor rr p1id p1id)
    send instance' p2id (roundResultFor rr p2id p1id)

/-- The pause and the next prompt at the end of resolveTurn. -/
def promptNextTurn (instance' : Instance) (roundEnded : Bool) : Goroutine Unit := do
  act (.sleep (if roundEnded then 20 else 15))
  match ← returned loadSession with
  | .error _ => pure ()
  | .ok fresh =>
    if fresh.gameState.status=matchInProgress then sendWaitingForAction instance' fresh
    else pure ()

/-- resolveTurn after its transaction has committed. -/
def concludeResolve (instance' : Instance) (captured : ResolveCaptured) (sess : PvPSession) :
    Goroutine Unit := do
  act (.cancelTurnTimeout instance')
  send instance' sess.player1Id (turnResultForP1 captured.turnResult)
  send instance' sess.player2Id (turnResultForP2 captured.turnResult)
  sendRoundResult instance' sess.player1Id sess.player2Id captured.roundResult
  match captured.matchResult with
  | some mr =>
    send instance' sess.player1Id (matchResultFor mr sess.player1Id sess.player1Id)
    send instance' sess.player2Id (matchResultFor mr sess.player2Id sess.player1Id)
  | none => promptNextTurn instance' captured.roundResult.isSome

/-- resolveTurn. -/
def resolveTurn (instance' : Instance) (p1 p2 : Action) : Goroutine Unit := do
  let result ← returned
    (watchAndUpdate (fun _ => .resolve p1 p2) (applyTurn p1 p2) defaultMaxWatchRetries
      ⟨zeroTurnResult,none,none⟩)
  match result with
  | .error _ => pure ()
  | .ok (captured,sess) => concludeResolve instance' captured sess

/-- submitAction after its transaction has committed. -/
def concludeSubmit (instance' : Instance) (playerId : String) (action : Action)
    (captured : SubmitCaptured) : Goroutine Unit :=
  if captured.validationErr≠"" then send instance' playerId (.errorMsg captured.validationErr)
  else do
    send instance' playerId (.actionConfirmed captured.confirmedTurn action)
    if captured.shouldResolve then
      resolveTurn instance' captured.p1ToResolve captured.p2ToResolve
    else pure ()

/-- submitAction. -/
def submitAction (instance' : Instance) (playerId : String) (action : Action) :
    Goroutine Unit := do
  let result ← returned
    (watchAndUpdate (.submit playerId action) (storeAction playerId action)
      defaultMaxWatchRetries .zero)
  match result with
  | .error .gameNotFound => send instance' playerId (.errorMsg "Game not found")
  | .error _ => send instance' playerId (.errorMsg "Internal error")
  | .ok (captured,_) => concludeSubmit instance' playerId action captured

/-- The mutator of handleDisconnect; filtering nil leaves nil. -/
def markDisconnected (playerId : String) : Mutator String := fun _ sess =>
  let filtered := sess.connectedPlayers.map fun players => players.filter fun c => c≠playerId
  .ok (opponentOf playerId sess,{sess with connectedPlayers := filtered})

/-- handleDisconnect. -/
def handleDisconnect (instance' : Instance) (playerId : String) : Goroutine Unit := do
  let result ← returned
    (watchAndUpdate (fun _ => .disconnect playerId) (markDisconnected playerId)
      defaultMaxWatchRetries "")
  match result with
  | .error _ => pure ()
  | .ok (opponent,_) =>
    act (.cancelTurnTimeout instance')
    send instance' opponent (.opponentDisconnected disconnectTimeoutSec)
    act (.startDisconnect instance' playerId opponent)

/-- turnTimeoutLoop for one player, if he needs it. -/
def submitDefault (instance' : Instance) (needs : Bool) (playerId : String) : Goroutine Unit :=
  if needs then submitAction instance' playerId defaultTimeoutAction else pure ()

/-- turnTimeoutLoop. -/
def turnTimeoutLoop (instance' : Instance) : Goroutine Unit := do
  if !(← act (.selectTimer turnTimeLimitTenths)) then pure ()
  else match ← returned loadSession with
  | .error _ => pure ()
  | .ok sess =>
    if sess.gameState.status≠matchInProgress then pure ()
    else
      -- the source returns early when nobody needs it
      submitDefault instance' sess.p1Action.isNone sess.player1Id
      submitDefault instance' sess.p2Action.isNone sess.player2Id

/-- forfeitWinner. -/
def forfeitWinner (disconnected : String) (sess : PvPSession) : RoundWinner :=
  if disconnected=sess.player2Id then winnerP1 else winnerP2

/-- The mutator of forfeitAfterTimeout, which does not look at the session. -/
def markAbandoned : Mutator Unit := fun _ sess =>
  .ok ((),{sess with gameState := {sess.gameState with status := matchAbandoned}})

/-- The turns that forfeitAfterTimeout reports, those of the open round included. -/
def forfeitTurns (gs : GameState) : ℤ :=
  sumTurns gs.roundResults.elements+(gs.currentRound.map fun cr => cr.turnNumber).getD 0

/-- The match_result that forfeitAfterTimeout sends. -/
def forfeitResult (disconnected opponent : String) (sess : PvPSession) : ServerMessage :=
  .matchResult (winnerLabelFor (forfeitWinner disconnected sess) opponent sess.player1Id)
    sess.gameState.roundsWonP1 sess.gameState.roundsWonP2 (forfeitTurns sess.gameState)

/-- forfeitAfterTimeout once the session has been checked. -/
def writeForfeit (instance' : Instance) (disconnected opponent : String) (sess : PvPSession) :
    Goroutine Unit := do
  -- the result of the write is ignored, and the message is made from what was read before
  let _ ← returned
    (watchAndUpdate (fun _ => .forfeit disconnected) markAbandoned defaultMaxWatchRetries ())
  send instance' opponent (forfeitResult disconnected opponent sess)

/-- forfeitAfterTimeout. -/
def forfeitAfterTimeout (instance' : Instance) (disconnected opponent : String) :
    Goroutine Unit := do
  if !(← act (.selectTimer disconnectTimeoutTenths)) then pure ()
  else match ← returned loadSession with
  | .error _ => pure ()
  | .ok sess =>
    if sess.gameState.status≠matchInProgress then pure ()
    else if sess.hasConnected disconnected then pure ()
    else writeForfeit instance' disconnected opponent sess

/-- What gameWebsocket does with a message. -/
def handleMessage (instance' : Instance) (playerId : String) : Frame → Goroutine Unit
  | .malformed => pure ()
  | .ping => act (.writeJSON .pong)
  | .submitAction action =>
    if action="" then act (.writeJSON (.errorMsg "missing action"))
    else submitAction instance' playerId action
  | .other => pure ()

/-- The read loop of gameWebsocket over the frames that the client sends; after
the last one reading fails. -/
def readLoop (instance' : Instance) (playerId : String) : List Frame → Goroutine Unit
  | [] => do
    act (.readMessage none)
    handleDisconnect instance' playerId
  | frame::frames => do
    act (.readMessage (some frame))
    handleMessage instance' playerId frame
    readLoop instance' playerId frames

/-- gameWebsocket, once the token has been verified. -/
def gameWebsocket (instance' : Instance) (playerId : String) (frames : List Frame) :
    Goroutine Unit := do
  match ← returned loadSession with
  | .error _ => pure ()
  | .ok sess =>
    if !sess.isPlayer playerId then pure ()
    else if !(← act (.upgrade instance' playerId)) then pure ()
    else
      handleConnect instance' playerId
      start instance'
      readLoop instance' playerId frames

/-- The program of each goroutine. -/
def body : Entry → Goroutine Unit
  | .gameWebsocket instance' player frames => gameWebsocket instance' player frames
  | .turnTimeoutLoop instance' => turnTimeoutLoop instance'
  | .forfeitAfterTimeout instance' disconnected opponent =>
    forfeitAfterTimeout instance' disconnected opponent

/-- The server processes. -/
abbrev runtime : Runtime language where
  Note := Note
  Memory := Memory
  Entry := Entry
  act pick task fresh o memory := o.effect pick task fresh memory
  interrupt := interrupt
  unavoidable _ _ _ := false
  deliver _ _ memory := memory
  raised := .failed
  started := .started
  body := body
  arrives := arrives

/-- The world of the instances. -/
abbrev World := WatchedKey.World runtime

/-- Any number of instances serving one game. -/
abbrev instances : System language.sig := runtime.system

/-- The Go struct with the values of a session that the Python side has saved. -/
def goSession (session : GameStore.PvPSessionState) : PvPSession where
  gameState := EngineSimulation.goGameState session.gameState
  player1Id := session.player1Id.text
  player2Id := session.player2Id.text
  connectedPlayers := some (session.connectedPlayers.map EngineTypes.UUID.text)
  started := session.started
  p1Action := session.p1Action.map EngineTypes.Action.value
  p2Action := session.p2Action.map EngineTypes.Action.value

/-- The instances when a pairing has just been saved and nobody has connected. -/
def initial (pairing : GameStore.Pairing) : instances.Config :=
  ⟨⟨some (goSession pairing.session),0,[],.empty⟩,[]⟩

/-- A goroutine performs so many operations without a failure. -/
def proceeds (task operations : ℕ) : List instances.Move :=
  List.replicate operations (.run task (.proceed true))

/-- A player of the small pairing opens a socket on the first instance and is
going to submit these actions. -/
def opens (player : Fin 16) (actions : List String) : instances.Move :=
  .open (.gameWebsocket 0 (EngineTypes.UUID.small player).text (actions.map .submitAction))

end KiClash.GoSession
