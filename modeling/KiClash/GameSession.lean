import KiClash.GameStore

/-!
# The Python game session

GameStore.watch_and_update, PvPGameSession and the game socket handler, from
app/core/game_store.py, app/modules/ki_clash/game_session.py and
app/api/v1/endpoints/ws.py. A mutator talks to its caller through captured
variables; they are threaded through the attempts of the retry loop, so an
aborted attempt leaves them as it set them.
-/

namespace KiClash.GameSession

open EngineTypes OutcomeMatrix Engine ServerMessages AsyncTasks WatchedKey GameStore

/-- A coroutine of the game session code. -/
abbrev Coroutine (α : Type) := Prog language.sig α

/-- await a command on the game's Redis key. -/
def redis (o : StoreOp PvPSessionState Call) : Coroutine o.Res :=
  Prog.perform (S := language.sig) (.store o)

/-- Any other operation. -/
def act (o : LocalOp) : Coroutine o.Res := Prog.perform (S := language.sig) (.act o)

/-- TURN_TIME_LIMIT_SECONDS in tenths of a second. -/
abbrev turnTimeLimitTenths : ℕ := 50

/-- DISCONNECT_TIMEOUT_S. -/
abbrev disconnectTimeoutSeconds : ℤ := 30

/-- DISCONNECT_TIMEOUT_S in tenths of a second. -/
abbrev disconnectTimeoutTenths : ℕ := 300

section Store

variable {L : Type}

/-- A mutator: it reads and assigns captured variables, mutates the session it
is given, and may raise. -/
abbrev Mutator (L : Type) := L → PvPSessionState → Except Exc (L×PvPSessionState)

/-- watch_and_update, with the number of attempts that are left. -/
def watchAndUpdate (call : L → Call) (mutator : Mutator L) :
    ℕ → L → Coroutine (L×PvPSessionState)
  | 0,_ => .raise .tooManyConflicts
  | attempts+1,captured => do
    let token ← redis .watch
    let raw ← redis .get
    match raw with
    | none =>
      redis .unwatch
      .raise .gameNotFound
    | some session =>
      match mutator captured session with
      | .error e => .raise e
      | .ok (captured',session) =>
        let committed ← redis (.exec token attempts (call captured) session)
        -- a WatchError aborts this attempt; the captured variables stay assigned
        if committed then pure (captured',session)
        else watchAndUpdate call mutator attempts captured'

/-- try: ... except: none, for the exceptions that are caught. -/
def except {α : Type} (catches : Exc → Bool) (p : Coroutine α) : Coroutine (Option α) :=
  (some <$> p).handle fun e => if catches e then pure none else .raise e

/-- except GameNotFoundError. -/
def exceptNotFound {α : Type} : Coroutine α → Coroutine (Option α) :=
  except fun e => e=.gameNotFound

/-- except Exception; a cancellation is not an Exception. -/
def exceptException {α : Type} : Coroutine α → Coroutine (Option α) :=
  except fun e => e≠.cancelled

end Store

/-- send_to_player. -/
def send (worker : Worker) (player : UUID) (message : ServerMessage) : Coroutine Unit :=
  act (.send worker player message)

/-- store.load. -/
def load : Coroutine (Option PvPSessionState) := redis .load

/-- _send_waiting_for_action. -/
def sendWaitingForAction (worker : Worker) (session : PvPSessionState) : Coroutine Unit :=
  match session.gameState.currentRound with
  | none => pure ()
  | some round => do
    send worker session.player1Id (.waitingForAction (round.turnNumber+1) turnTimeLimitSeconds
      round.roundNumber round.p1Ki round.p2Ki)
    send worker session.player2Id (.waitingForAction (round.turnNumber+1) turnTimeLimitSeconds
      round.roundNumber round.p2Ki round.p1Ki)
    act (.restartTimeout worker)

/-- The variables of handle_connect that its mutator assigns. -/
structure ConnectCaptured where
  /-- opponent_to_notify. -/
  opponentToNotify : Option UUID
  /-- is_reconnect. -/
  isReconnect : Bool
  /-- new_state. -/
  newState : Option PvPSessionState

/-- _mark_connected. -/
def markConnected (playerId : UUID) : Mutator ConnectCaptured := fun captured session =>
  if session.hasConnected playerId then
    .ok (⟨some (if playerId=session.player1Id then session.player2Id else session.player1Id),
      true,some session⟩,session)
  else
    let session := session.markConnected playerId
    .ok ({captured with newState := some session},session)

/-- handle_connect. -/
def handleConnect (worker : Worker) (playerId : UUID) : Coroutine Unit := do
  let outcome ← exceptNotFound
    (watchAndUpdate (fun _ => .connect playerId) (markConnected playerId) defaultMaxRetries
      ⟨none,false,none⟩)
  match outcome with
  | none => send worker playerId (.errorMsg "Game not found")
  | some (captured,_) =>
    match captured.isReconnect,captured.opponentToNotify with
    | true,some opponent =>
      act (.cancelDisconnect worker playerId)
      send worker opponent .opponentReconnected
      match captured.newState with
      | none => pure ()
      | some session =>
        if session.gameState.status=.inProgress then sendWaitingForAction worker session
        else pure ()
    | _,_ => pure ()

/-- The variables of start that its mutator assigns. -/
structure StartCaptured where
  /-- new_state. -/
  newState : Option PvPSessionState
  /-- already_started. -/
  alreadyStarted : Bool

/-- _start. -/
def markStarted : Mutator StartCaptured := fun captured session =>
  if session.started then .ok (⟨some session,true⟩,session)
  else
    let session := {session with started := true}
    .ok ({captured with newState := some session},session)

/-- start. -/
def start (worker : Worker) : Coroutine Unit := do
  let outcome ← exceptNotFound
    (watchAndUpdate (fun _ => .start) markStarted defaultMaxRetries ⟨none,false⟩)
  match outcome with
  | none => pure ()
  | some (captured,_) =>
    if captured.alreadyStarted then pure ()
    else match captured.newState with
    | none => pure ()
    | some session => sendWaitingForAction worker session

/-- The text that _store_action reports for an action that costs too much. -/
def cannotAfford (action : Action) (ki : ℤ) : String :=
  "Cannot afford "++action.value++" (ki="++toString ki++")"

/-- The slot that _store_action assigns; an outsider's action goes nowhere. -/
def storeInSlot (playerId : UUID) (action : Action) (session : PvPSessionState) :
    PvPSessionState :=
  if playerId=session.player1Id then {session with p1Action := some action}
  else if playerId=session.player2Id then {session with p2Action := some action}
  else session

/-- _store_action. -/
def storeAction (playerId : UUID) (action : Action) : Mutator SubmitCaptured :=
  fun captured session =>
  if session.gameState.status≠.inProgress then
    .ok ({captured with validationError := some "Game is not in progress"},session)
  else match session.gameState.currentRound with
  | none => .ok ({captured with validationError := some "Round not active"},session)
  | some round =>
    let ki := if playerId=session.player1Id then round.p1Ki else round.p2Ki
    if ¬validateAction action ki then
      .ok ({captured with validationError := some (cannotAfford action ki)},session)
    else
      let session := storeInSlot playerId action session
      let captured := {captured with confirmedTurnNumber := round.turnNumber+1}
      match session.p1Action,session.p2Action with
      | some p1Action,some p2Action =>
        .ok ({captured with
          shouldResolve := true
          p1ActionToResolve := some p1Action
          p2ActionToResolve := some p2Action},
          {session with p1Action := none,p2Action := none})
      | _,_ => .ok (captured,session)

/-- The variables of _resolve_turn that its mutator assigns. -/
structure ResolveCaptured where
  /-- turn_result_p1. -/
  turnResult : Option TurnResult
  /-- round_result. -/
  roundResult : Option RoundResult
  /-- match_result. -/
  matchResult : Option MatchResult

/-- _apply. -/
def applyTurn (p1Action p2Action : Action) : Mutator ResolveCaptured := fun _ session =>
  match submitTurn session.gameState p1Action p2Action with
  | (_,.error e) => .error (.engine e)
  | (gameState,.ok report) =>
    .ok (⟨some report.turnResult,report.roundResult,report.matchResult⟩,
      {session with gameState := gameState})

/-- The turn_result message for player 1. -/
def turnResultForP1 (result : TurnResult) : ServerMessage :=
  .turnResult result.turnNumber result.p1Action.value result.p2Action.value
    (flipOutcomeFor result.outcome .p1) result.p1KiAfter result.p2KiAfter

/-- The turn_result message for player 2. -/
def turnResultForP2 (result : TurnResult) : ServerMessage :=
  .turnResult result.turnNumber result.p2Action.value result.p1Action.value
    (flipOutcomeFor result.outcome .p2) result.p2KiAfter result.p1KiAfter

/-- The round_result message for a player. -/
def roundResultFor (result : RoundResult) (playerId p1Id : UUID) : ServerMessage :=
  .roundResult result.roundNumber (winnerForPlayer result.winner playerId p1Id) result.totalTurns

/-- The match_result message for a player. -/
def matchResultMessage (result : MatchResult) (playerId p1Id : UUID) : ServerMessage :=
  .matchResult (winnerForPlayer result.winner playerId p1Id) result.roundsWonP1
    result.roundsWonP2 result.totalTurns

/-- _send_round_result. -/
def sendRoundResult (worker : Worker) (result : RoundResult) (p1Id p2Id : UUID) :
    Coroutine Unit := do
  send worker p1Id (roundResultFor result p1Id p1Id)
  send worker p2Id (roundResultFor result p2Id p1Id)

/-- _send_match_result. -/
def sendMatchResult (worker : Worker) (result : MatchResult) (p1Id p2Id : UUID) :
    Coroutine Unit := do
  send worker p1Id (matchResultMessage result p1Id p1Id)
  send worker p2Id (matchResultMessage result p2Id p1Id)

/-- The pause and the next prompt at the end of _resolve_turn. -/
def promptNextTurn (worker : Worker) (roundEnded : Bool) : Coroutine Unit := do
  act (.sleep (if roundEnded then 20 else 15))
  match ← load with
  | none => pure ()
  | some session =>
    if session.gameState.status=.inProgress then sendWaitingForAction worker session
    else pure ()

/-- _resolve_turn when the turn may have ended the round. -/
def announceRound (worker : Worker) (p1Id p2Id : UUID) : Option RoundResult → Coroutine Unit
  | none => pure ()
  | some result => sendRoundResult worker result p1Id p2Id

/-- _resolve_turn once the players' ids are known. -/
def announceTurn (worker : Worker) (turnResult : TurnResult) (captured : ResolveCaptured)
    (p1Id p2Id : UUID) : Coroutine Unit := do
  send worker p1Id (turnResultForP1 turnResult)
  send worker p2Id (turnResultForP2 turnResult)
  announceRound worker p1Id p2Id captured.roundResult
  match captured.matchResult with
  | some result => sendMatchResult worker result p1Id p2Id
  | none => promptNextTurn worker captured.roundResult.isSome

/-- _resolve_turn after its transaction has committed. -/
def concludeResolve (worker : Worker) (captured : ResolveCaptured) : Coroutine Unit := do
  act (.cancelTimeout worker)
  match captured.turnResult with
  | none => pure ()
  | some turnResult =>
    match ← load with
    | none => pure ()
    | some session => announceTurn worker turnResult captured session.player1Id session.player2Id

/-- _resolve_turn. -/
def resolveTurn (worker : Worker) (p1Action p2Action : Action) : Coroutine Unit := do
  let outcome ← exceptNotFound
    (watchAndUpdate (fun _ => .resolve p1Action p2Action) (applyTurn p1Action p2Action)
      defaultMaxRetries ⟨none,none,none⟩)
  match outcome with
  | none => pure ()
  | some (captured,_) => concludeResolve worker captured

/-- submit_action after its transaction has committed. -/
def concludeSubmit (worker : Worker) (playerId : UUID) (action : Action)
    (captured : SubmitCaptured) : Coroutine Unit :=
  match captured.validationError with
  | some message => send worker playerId (.errorMsg message)
  | none => do
    send worker playerId (.actionConfirmed captured.confirmedTurnNumber action.value)
    match captured.shouldResolve,captured.p1ActionToResolve,captured.p2ActionToResolve with
    | true,some p1Action,some p2Action => resolveTurn worker p1Action p2Action
    | _,_,_ => pure ()

/-- submit_action. -/
def submitAction (worker : Worker) (playerId : UUID) (action : Action) : Coroutine Unit := do
  let outcome ← exceptNotFound
    (watchAndUpdate (.submit playerId action) (storeAction playerId action) defaultMaxRetries
      .fresh)
  match outcome with
  | none => send worker playerId (.errorMsg "Game not found")
  | some (captured,_) => concludeSubmit worker playerId action captured

/-- _turn_timeout for one player, if he needs it. -/
def submitDefault (worker : Worker) (needs : Bool) (playerId : UUID) : Coroutine Unit :=
  if needs then submitAction worker playerId defaultTimeoutAction else pure ()

/-- _turn_timeout. -/
def turnTimeout (worker : Worker) : Coroutine Unit := do
  act (.sleep turnTimeLimitTenths)
  match ← exceptException load with
  | none => pure ()
  | some none => pure ()
  | some (some session) =>
    if session.gameState.status≠.inProgress then pure ()
    else
      -- the source returns early when nobody needs it
      submitDefault worker session.p1Action.isNone session.player1Id
      submitDefault worker session.p2Action.isNone session.player2Id

/-- The side that _forfeit_after_timeout forfeits. -/
def forfeitingSide (disconnected : UUID) (session : PvPSessionState) : RoundWinner :=
  if disconnected=session.player1Id then .p1 else .p2

/-- _forfeit. -/
def forfeitMatch (forfeiting : RoundWinner) : Mutator Unit := fun _ session =>
  .ok ((),{session with gameState := (forfeit session.gameState forfeiting).1})

/-- The label that _forfeit_after_timeout puts into the opponent's match result. -/
def opponentLabel (opponent : UUID) (forfeiting : RoundWinner) (session : PvPSessionState) :
    String :=
  if opponent=session.player2Id ∧ forfeiting=.p1 then "you"
  else if opponent=session.player1Id ∧ forfeiting=.p2 then "you"
  else "opponent"

/-- The match_result that _forfeit_after_timeout sends. -/
def forfeitResult (opponent : UUID) (forfeiting : RoundWinner) (session : PvPSessionState) :
    ServerMessage :=
  .matchResult (opponentLabel opponent forfeiting session) session.gameState.roundsWonP1
    session.gameState.roundsWonP2 (finishedTurns session.gameState)

/-- _forfeit_after_timeout once the side is known. -/
def writeForfeit (worker : Worker) (opponent : UUID) (forfeiting : RoundWinner) :
    Coroutine Unit := do
  let outcome ← exceptNotFound
    (watchAndUpdate (fun _ => .forfeit forfeiting) (forfeitMatch forfeiting) defaultMaxRetries ())
  match outcome with
  | none => pure ()
  | some _ =>
    match ← load with
    | none => pure ()
    | some session => send worker opponent (forfeitResult opponent forfeiting session)

/-- _forfeit_after_timeout. -/
def forfeitAfterTimeout (worker : Worker) (disconnected opponent : UUID) : Coroutine Unit := do
  act (.sleep disconnectTimeoutTenths)
  if ← act (.isConnected worker disconnected) then pure ()
  else
    match ← exceptException load with
    | none => pure ()
    | some none => pure ()
    | some (some session) => writeForfeit worker opponent (forfeitingSide disconnected session)

/-- handle_disconnect. -/
def handleDisconnect (worker : Worker) (playerId : UUID) : Coroutine Unit := do
  match ← exceptException load with
  | none => pure ()
  | some none => pure ()
  | some (some session) =>
    let opponent := if playerId=session.player1Id then session.player2Id else session.player1Id
    send worker opponent (.opponentDisconnected disconnectTimeoutSeconds)
    act (.startDisconnect worker playerId opponent)

/-- What game_ws does with a frame. -/
def handleFrame (worker : Worker) (playerId : UUID) : Frame → Coroutine Unit
  | .submitAction text =>
    match Action.ofValue? text with
    | none => act (.sendJson (.errorMsg ("Invalid action: "++text)))
    | some action => submitAction worker playerId action
  | .ping => act (.sendJson .pong)
  | .other => pure ()
  | .malformed => .raise .malformedFrame

/-- The receive loop of game_ws over the frames that the client sends; after
the last one the peer closes the socket. -/
def receiveLoop (worker : Worker) (playerId : UUID) : List Frame → Coroutine Unit
  | [] => act (.receive none)
  | frame::frames => do
    act (.receive (some frame))
    handleFrame worker playerId frame
    receiveLoop worker playerId frames

/-- The finally block of game_ws. -/
def closeSocket (worker : Worker) (playerId : UUID) : Coroutine Unit := do
  act (.unregister worker playerId)
  match ← load with
  | none => pure ()
  | some session =>
    if session.gameState.status≠.inProgress then
      act (.cleanup worker)
      redis .delete
    else pure ()

/-- game_ws after a refusal: the error, then the socket is closed. -/
def refuse (worker : Worker) (playerId : UUID) (message : String) : Coroutine Unit := do
  act (.sendJson (.errorMsg message))
  act (.unregister worker playerId)

/-- game_ws when both players may have connected. -/
def startWhenFull (worker : Worker) : Coroutine Unit := do
  if (← act (.roomSize worker))≥2 then start worker else pure ()

/-- game_ws once the player may play. -/
def playGame (worker : Worker) (playerId : UUID) (frames : List Frame) : Coroutine Unit := do
  handleConnect worker playerId
  startWhenFull worker
  Prog.cleanupWith
    ((receiveLoop worker playerId frames).handle fun e =>
      if e=.webSocketDisconnect then handleDisconnect worker playerId else .raise e)
    (closeSocket worker playerId)

/-- game_ws, once the token has been verified. -/
def gameWs (worker : Worker) (playerId : UUID) (frames : List Frame) : Coroutine Unit := do
  act .accept
  act (.safeClose worker playerId)
  act (.register worker playerId)
  match ← load with
  | none => refuse worker playerId "Game not found"
  | some session =>
    if !session.isPlayer playerId then refuse worker playerId "Not a player in this game"
    else playGame worker playerId frames

/-- The program of each task. -/
def body : Entry → Coroutine Unit
  | .gameWs worker player frames => gameWs worker player frames
  | .turnTimeout worker => turnTimeout worker
  | .forfeitAfterTimeout worker disconnected opponent =>
    forfeitAfterTimeout worker disconnected opponent

/-- The worker processes. -/
abbrev runtime : Runtime language where
  Note := Note
  Memory := Memory
  Entry := Entry
  act _ task fresh o memory := o.effect task fresh memory
  interrupt := interrupt
  unavoidable := unavoidable
  deliver := Memory.deliver
  raised := .raised
  started := .started
  body := body
  arrives := arrives

/-- The world of the workers. -/
abbrev World := WatchedKey.World runtime

/-- The world when a session has just been saved. -/
def World.initial (session : PvPSessionState) : World := ⟨some session,0,[],.empty⟩

/-- Any number of workers serving one game. -/
abbrev workers : System language.sig := runtime.system

/-- The workers when a pairing has just been saved and nobody has connected. -/
def initial (pairing : Pairing) : workers.Config := ⟨World.initial pairing.session,[]⟩

/-- A task performs so many operations without an interruption. -/
def proceeds (task operations : ℕ) : List workers.Move :=
  List.replicate operations (.run task (.proceed true))

/-- A player of the small pairing opens a socket on the first worker and is
going to submit these actions. -/
def opens (player : Fin 16) (actions : List String) : workers.Move :=
  .open (.gameWs 0 (.small player) (actions.map .submitAction))

end KiClash.GameSession
