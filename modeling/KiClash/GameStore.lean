import KiClash.Engine
import KiClash.ServerMessages
import KiClash.WatchedKey

/-!
# The Python workers and the stored session

The shared world of all Python workers that serve one game: the session under
its Redis key (app/core/game_store.py), what each worker keeps in memory, and
the record of what has happened. The operations are the awaits and the
synchronous accesses of the source; the commands of one connection are
separate operations, so that anything can happen between WATCH, GET and EXEC.
-/

namespace KiClash.GameStore

open EngineTypes Engine ServerMessages WatchedKey

/-- PvPSessionState: the match and the PvP fields of a game. -/
structure PvPSessionState where
  /-- The match. -/
  gameState : GameState
  /-- Identifier of player 1. -/
  player1Id : UUID
  /-- Identifier of player 2. -/
  player2Id : UUID
  /-- Players that have connected. -/
  connectedPlayers : List UUID
  /-- The first prompt has been claimed. -/
  started : Bool
  /-- Player 1's pending action. -/
  p1Action : Option Action
  /-- Player 2's pending action. -/
  p2Action : Option Action
  deriving DecidableEq, Repr

/-- has_connected. -/
def PvPSessionState.hasConnected (session : PvPSessionState) (playerId : UUID) : Bool :=
  playerId∈session.connectedPlayers

/-- mark_connected. -/
def PvPSessionState.markConnected (session : PvPSessionState) (playerId : UUID) :
    PvPSessionState :=
  if playerId∈session.connectedPlayers then session
  else {session with connectedPlayers := session.connectedPlayers++[playerId]}

/-- is_player. -/
def PvPSessionState.isPlayer (session : PvPSessionState) (playerId : UUID) : Bool :=
  playerId=session.player1Id || playerId=session.player2Id

/-- Two players that matchmaking or a room has paired; they are never the same. -/
structure Pairing where
  /-- Identifier of the game. -/
  gameId : UUID
  /-- Identifier of player 1. -/
  player1Id : UUID
  /-- Identifier of player 2. -/
  player2Id : UUID
  /-- Nobody is paired with himself. -/
  distinct : player1Id≠player2Id

/-- A pairing of two players with short identifiers. -/
def Pairing.small : Pairing := ⟨.small 0,.small 1,.small 2,by decide⟩

/-- The session that is saved when two players are paired. -/
def Pairing.session (pairing : Pairing) : PvPSessionState :=
  { gameState := (startMatch pairing.gameId .pvp).1
    player1Id := pairing.player1Id
    player2Id := pairing.player2Id
    connectedPlayers := []
    started := false
    p1Action := none
    p2Action := none }

/-- DEFAULT_MAX_RETRIES. -/
abbrev defaultMaxRetries : ℕ := 3

/-- A worker process. -/
abbrev Worker := ℕ

/-- The number of a task; a socket is known by the task that handles it. -/
abbrev TaskId := ℕ

/-- Exceptions that reach the game session code. -/
inductive Exc
  | gameNotFound
  | tooManyConflicts
  | engine (error : EngineError)
  | redisError
  | cancelled
  | webSocketDisconnect
  | malformedFrame
  deriving DecidableEq, Repr

/-- The variables of submit_action that its mutator assigns. -/
structure SubmitCaptured where
  /-- validation_error. -/
  validationError : Option String
  /-- should_resolve. -/
  shouldResolve : Bool
  /-- p1_action_to_resolve. -/
  p1ActionToResolve : Option Action
  /-- p2_action_to_resolve. -/
  p2ActionToResolve : Option Action
  /-- confirmed_turn_number. -/
  confirmedTurnNumber : ℤ
  deriving DecidableEq, Repr

/-- The values with which submit_action starts. -/
def SubmitCaptured.fresh : SubmitCaptured := ⟨none,false,none,none,0⟩

/-- Which call a transaction belongs to. A submit_action transaction also
names the captured variables as aborted attempts of the same call left them. -/
inductive Call
  | connect (player : UUID)
  | start
  | submit (player : UUID) (action : Action) (stale : SubmitCaptured)
  | resolve (p1Action p2Action : Action)
  | forfeit (forfeiting : RoundWinner)
  deriving DecidableEq, Repr

/-- What a client sends on its game socket. -/
inductive Frame
  | submitAction (action : String)
  | ping
  | other
  | malformed
  deriving DecidableEq, Repr

/-- The tasks of a worker: the handler of a game socket, with the frames that
its client is going to send, and the two kinds of timers. -/
inductive Entry
  | gameWs (worker : Worker) (player : UUID) (frames : List Frame)
  | turnTimeout (worker : Worker)
  | forfeitAfterTimeout (worker : Worker) (disconnected opponent : UUID)
  deriving DecidableEq, Repr

/-- What is recorded besides the transactions. -/
inductive Note
  | started (task : TaskId) (entry : Entry)
  | received (task : TaskId) (frame : Option Frame)
  | sent (task : TaskId) (player : UUID) (message : ServerMessage)
  | raised (task : TaskId) (exc : Exc)
  deriving DecidableEq, Repr

/-- A recorded event. -/
abbrev Event := WatchedKey.Event PvPSessionState Call Note

/-- The operations that do not touch the key. -/
inductive LocalOp
  /-- await ws.send_to_player(player, message) -/
  | send (worker : Worker) (player : UUID) (message : ServerMessage)
  /-- await websocket.send_json(message) -/
  | sendJson (message : ServerMessage)
  /-- await websocket.accept() -/
  | accept
  /-- await self._safe_close(old_ws), if the player has a connection here -/
  | safeClose (worker : Worker) (player : UUID)
  /-- await websocket.receive_json(); none when the peer has closed -/
  | receive (frame : Option Frame)
  /-- await asyncio.sleep, in tenths of a second -/
  | sleep (tenths : ℕ)
  /-- the registration part of WSManager.connect -/
  | register (worker : Worker) (player : UUID)
  /-- WSManager.disconnect -/
  | unregister (worker : Worker) (player : UUID)
  /-- WSManager.is_connected -/
  | isConnected (worker : Worker) (player : UUID)
  /-- WSManager.room_size of the game's room -/
  | roomSize (worker : Worker)
  /-- pop and cancel the entry of _timeout_tasks -/
  | cancelTimeout (worker : Worker)
  /-- pop and cancel the entry of _timeout_tasks, then create a new timer -/
  | restartTimeout (worker : Worker)
  /-- pop and cancel an entry of _disconnect_tasks -/
  | cancelDisconnect (worker : Worker) (player : UUID)
  /-- create a forfeit timer and put it into _disconnect_tasks -/
  | startDisconnect (worker : Worker) (player opponent : UUID)
  /-- cleanup(game_id) -/
  | cleanup (worker : Worker)
  deriving DecidableEq, Repr

/-- Results of these operations. -/
abbrev LocalOp.Res : LocalOp → Type
  | .isConnected .. => Bool
  | .roomSize _ => ℕ
  | _ => Unit

/-- The language of the game session code. -/
abbrev language : Language := ⟨PvPSessionState,Call,LocalOp,LocalOp.Res,Exc⟩

/-- How an operation can be interrupted. -/
inductive Kind
  /-- A wait: always suspends. -/
  | wait
  /-- A push to a player: may complete at once, and swallows failures. -/
  | push
  /-- Own socket: may complete at once, and fails when the socket is gone. -/
  | socket
  /-- No await at all. -/
  | «local»
  deriving DecidableEq, Repr

/-- The kind of each operation. -/
def LocalOp.kind : LocalOp → Kind
  | .receive _ | .sleep _ => .wait
  | .send .. | .safeClose .. => .push
  | .sendJson _ | .accept => .socket
  | _ => .local

/-- What the workers keep in memory. -/
structure Memory where
  /-- Tasks with a cancellation that has not been delivered. -/
  cancelled : List TaskId
  /-- _timeout_tasks[game_id] of each worker. -/
  timeoutTask : Worker → Option TaskId
  /-- _disconnect_tasks of all workers. -/
  disconnectTasks : List (Worker×UUID×TaskId)
  /-- _connections of all workers. -/
  connections : List (Worker×UUID×TaskId)
  /-- Members of the game's room on all workers. -/
  rooms : List (Worker×UUID)
  /-- Sockets whose client is known to be gone. -/
  closed : List TaskId

namespace Memory

/-- Nobody has connected yet. -/
def empty : Memory := ⟨[],fun _ => none,[],[],[],[]⟩

/-- pop and cancel the turn timer of a worker. -/
def cancelTimeout (memory : Memory) (worker : Worker) : Memory :=
  match memory.timeoutTask worker with
  | none => memory
  | some timer =>
    {memory with
      timeoutTask := fun k => if k=worker then none else memory.timeoutTask k
      cancelled := timer::memory.cancelled}

/-- Put a new turn timer into _timeout_tasks. -/
def setTimeout (memory : Memory) (worker : Worker) (timer : TaskId) : Memory :=
  {memory with timeoutTask := fun k => if k=worker then some timer else memory.timeoutTask k}

/-- The forfeit timers that a test selects, by worker and player. -/
def selectedTimers (memory : Memory) (select : Worker → UUID → Bool) : List TaskId :=
  (memory.disconnectTasks.filter fun entry => select entry.1 entry.2.1).map fun entry => entry.2.2

/-- pop and cancel these forfeit timers. -/
def cancelDisconnect (memory : Memory) (select : Worker → UUID → Bool) : Memory :=
  {memory with
    disconnectTasks := memory.disconnectTasks.filter fun entry => !select entry.1 entry.2.1
    cancelled := memory.selectedTimers select++memory.cancelled}

/-- Put a new forfeit timer into _disconnect_tasks. -/
def setDisconnect (memory : Memory) (worker : Worker) (player : UUID) (timer : TaskId) :
    Memory :=
  {memory with
    disconnectTasks := (worker,player,timer)::memory.disconnectTasks.filter fun entry =>
      ¬(entry.1=worker ∧ entry.2.1=player)}

/-- A player's socket takes the place of the one he had on this worker. -/
def register (memory : Memory) (worker : Worker) (player : UUID) (task : TaskId) : Memory :=
  {memory with
    connections := (worker,player,task)::memory.connections.filter fun entry =>
      ¬(entry.1=worker ∧ entry.2.1=player)
    rooms := if (worker,player)∈memory.rooms then memory.rooms
      else (worker,player)::memory.rooms}

/-- Forget a player's connection to this worker. -/
def unregister (memory : Memory) (worker : Worker) (player : UUID) : Memory :=
  {memory with
    connections := memory.connections.filter fun entry =>
      ¬(entry.1=worker ∧ entry.2.1=player)
    rooms := memory.rooms.filter fun entry => ¬(entry.1=worker ∧ entry.2=player)}

/-- An exception reaches the task; a delivered cancellation is used up. -/
def deliver (task : TaskId) (exc : Exc) (memory : Memory) : Memory :=
  if exc=.cancelled then
    {memory with cancelled := memory.cancelled.filter fun t => t≠task}
  else memory

end Memory

/-- What an operation of a task does when nothing interrupts it: the memory, the
notes, the result and the task it starts, which gets the given number. -/
def LocalOp.effect (task fresh : TaskId) : (o : LocalOp) → Memory →
    Memory × List Note × Except Exc (LocalOp.Res o) × Option Entry
  | .send _ player message,memory => (memory,[.sent task player message],.ok (),none)
  | .sendJson _,memory => (memory,[],.ok (),none)
  | .accept,memory => (memory,[],.ok (),none)
  | .safeClose _ _,memory => (memory,[],.ok (),none)
  | .receive (some frame),memory => (memory,[.received task (some frame)],.ok (),none)
  | .receive none,memory =>
    ({memory with closed := task::memory.closed},[.received task none],
      .error .webSocketDisconnect,none)
  | .sleep _,memory => (memory,[],.ok (),none)
  | .register worker player,memory => (memory.register worker player task,[],.ok (),none)
  | .unregister worker player,memory => (memory.unregister worker player,[],.ok (),none)
  | .isConnected worker player,memory =>
    (memory,[],.ok (memory.connections.any fun entry =>
      entry.1=worker ∧ entry.2.1=player ∧ entry.2.2∉memory.closed),none)
  | .roomSize worker,memory =>
    (memory,[],.ok (memory.rooms.countP fun entry => entry.1=worker),none)
  | .cancelTimeout worker,memory => (memory.cancelTimeout worker,[],.ok (),none)
  | .restartTimeout worker,memory =>
    ((memory.cancelTimeout worker).setTimeout worker fresh,[],.ok (),some (.turnTimeout worker))
  | .cancelDisconnect worker player,memory =>
    (memory.cancelDisconnect fun k p => k=worker ∧ p=player,[],.ok (),none)
  | .startDisconnect worker player opponent,memory =>
    (memory.setDisconnect worker player fresh,[],.ok (),
      some (.forfeitAfterTimeout worker player opponent))
  | .cleanup worker,memory =>
    ((memory.cancelTimeout worker).cancelDisconnect fun k _ => k=worker,[],.ok (),none)

/-- The exception that an operation of a task can raise: a pending cancellation
before anything else. -/
def interrupt (memory : Memory) (task : TaskId) : Op language → Option Exc
  | .store _ => some (if task∈memory.cancelled then .cancelled else .redisError)
  | .act o =>
    match o.kind,decide (task∈memory.cancelled) with
    | .local,_ => none
    | _,true => some .cancelled
    | .socket,false => some .webSocketDisconnect
    | _,false => none

/-- A suspending operation of a cancelled task always raises. -/
def unavoidable (memory : Memory) (task : TaskId) : Op language → Bool
  | .store _ => task∈memory.cancelled
  | .act o => o.kind=.wait ∧ task∈memory.cancelled

/-- The environment opens game sockets; timers are only started by the code. -/
def arrives : Entry → Bool
  | .gameWs .. => true
  | _ => false

end KiClash.GameStore
