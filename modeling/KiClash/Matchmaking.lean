import KiClash.AsyncTasks
import KiClash.GameStore
import Mathlib.Data.List.Lex
import Mathlib.Data.List.Sort
import Mathlib.Data.Rat.Init
import Mathlib.Algebra.Order.Ring.Unbundled.Rat

/-!
# The matchmaking queue

app/services/matchmaking_service.py: the queue, which is a sorted set in Redis, and the
coroutines of the service on any number of workers. Each command is one step, and so is
an access to the names that a worker remembers. The times that time.time() returns and the
identifier that start_match draws are arguments. What happens to the entries of the queue is
recorded.
-/

namespace KiClash.Matchmaking

open EngineTypes Engine AsyncTasks
open GameStore (PvPSessionState TaskId Worker)

/-- _QUEUE_KEY holds one entry for each player; every new entry gets a number of its own. -/
structure Ticket where
  /-- The number of the entry. -/
  number : ℕ
  /-- The member. -/
  player : UUID
  deriving DecidableEq, Repr

/-- An entry with its score. -/
structure Queued where
  /-- The entry. -/
  ticket : Ticket
  /-- When the player has joined. -/
  score : ℚ
  deriving DecidableEq, Repr

/-- The messages of the service. -/
inductive Message
  /-- match_found. -/
  | matchFound (gameId : UUID) (opponentName : String)
  /-- matchmaking_timeout. -/
  | matchmakingTimeout
  deriving DecidableEq, Repr

/-- What has happened to the entries, with the task that has done it. -/
inductive Event
  /-- ZADD has added a member. -/
  | added (task : TaskId) (ticket : Ticket)
  /-- ZRANGE has returned these. -/
  | read (task : TaskId) (tickets : List Ticket)
  /-- ZREM has removed these. -/
  | removed (task : TaskId) (tickets : List Ticket)
  /-- The session has been stored. -/
  | saved (task : TaskId) (session : PvPSessionState)
  /-- A call has raised. -/
  | failed (task : TaskId)
  deriving DecidableEq, Repr

/-- The task of an event. -/
def Event.task : Event → TaskId
  | .added task _ | .read task _ | .removed task _ | .saved task _ | .failed task => task

/-- Redis and the memory of the workers. -/
structure World where
  /-- The sorted set. -/
  queue : List Queued
  /-- The number of the next entry. -/
  next : ℕ
  /-- The stored sessions. -/
  games : UUID → Option PvPSessionState
  /-- _player_names of each worker. -/
  playerNames : Worker → UUID → Option String
  /-- What has been sent. -/
  sent : List (UUID×Message)
  /-- What has happened to the entries. -/
  log : List Event

/-- Nobody is queued. -/
def World.initial : World := ⟨[],0,fun _ => none,fun _ _ => none,[],[]⟩

/-- The commands and the accesses to the names. -/
inductive Op
  | zadd (player : UUID) (score : ℚ)
  | zrank (player : UUID)
  | zrem (players : List UUID)
  | zrange (start stop : ℕ)
  | zrangebyscore (max : ℚ)
  | save (session : PvPSessionState)
  | setName (worker : Worker) (player : UUID) (name : String)
  | popName (worker : Worker) (player : UUID)
  | sendToPlayer (player : UUID) (message : Message)

/-- What they return, as far as it is used. -/
def Op.Res : Op → Type
  | .zrank _ => Option ℕ
  | .zrange _ _ | .zrangebyscore _ => List UUID
  | .popName _ _ => Option String
  | .zadd _ _ | .zrem _ | .save _ | .setName _ _ _ | .sendToPlayer _ _ => Unit

/-- What a call raises. -/
inductive Failure
  | redisError | cancelled
  deriving DecidableEq, Repr

/-- The language of the service. -/
abbrev language : Signature := ⟨Op,Op.Res,Failure⟩

/-- A coroutine of the service. -/
abbrev Coroutine := Prog language

section Service

/-- MATCHMAKING_TIMEOUT_S. -/
def matchmakingTimeoutS : ℚ := 30

/-- join_queue. -/
def joinQueue (worker : Worker) (playerId : UUID) (displayName : String) (now : ℚ) :
    Coroutine ℕ := do
  Prog.perform (S := language) (.zadd playerId now)
  Prog.perform (S := language) (.setName worker playerId displayName)
  let position ← Prog.perform (S := language) (.zrank playerId)
  return position.getD 0+1

/-- leave_queue. -/
def leaveQueue (worker : Worker) (playerId : UUID) : Coroutine Unit := do
  Prog.perform (S := language) (.zrem [playerId])
  let _ ← Prog.perform (S := language) (.popName worker playerId)

/-- The session of a pair. -/
def newSession (gameId p1Id p2Id : UUID) : PvPSessionState :=
  { gameState := (startMatch gameId .pvp).1
    player1Id := p1Id
    player2Id := p2Id
    connectedPlayers := []
    started := false
    p1Action := none
    p2Action := none }

/-- The part of match_players that has found two members. -/
def matchPair (worker : Worker) (gameId p1Id p2Id : UUID) : Coroutine Unit := do
  Prog.perform (S := language) (.zrem [p1Id,p2Id])
  Prog.perform (S := language) (.save (newSession gameId p1Id p2Id))
  let p1Name ← Prog.perform (S := language) (.popName worker p1Id)
  let p2Name ← Prog.perform (S := language) (.popName worker p2Id)
  Prog.perform (S := language) (.sendToPlayer p1Id (.matchFound gameId (p2Name.getD "Player 2")))
  Prog.perform (S := language) (.sendToPlayer p2Id (.matchFound gameId (p1Name.getD "Player 1")))

/-- match_players. -/
def matchPlayers (worker : Worker) (gameId : UUID) : Coroutine Unit := do
  let members ← Prog.perform (S := language) (.zrange 0 1)
  match members with
  | p1Id::p2Id::_ => matchPair worker gameId p1Id p2Id
  | _ => return

/-- The loop of check_timeouts. -/
def timeOut (worker : Worker) : List UUID → Coroutine Unit
  | [] => return
  | playerId::timedOut => do
    Prog.perform (S := language) (.zrem [playerId])
    let _ ← Prog.perform (S := language) (.popName worker playerId)
    Prog.perform (S := language) (.sendToPlayer playerId .matchmakingTimeout)
    timeOut worker timedOut

/-- check_timeouts. -/
def checkTimeouts (worker : Worker) (now : ℚ) : Coroutine Unit := do
  let timedOut ← Prog.perform (S := language) (.zrangebyscore (now-matchmakingTimeoutS))
  timeOut worker timedOut

end Service

section Redis

/-- The order of a sorted set: by score, and by the text of the member. -/
def Queued.before (entry other : Queued) : Bool :=
  entry.score<other.score ∨
    entry.score=other.score ∧ entry.ticket.player.digits≤other.ticket.player.digits

/-- The entries in order. -/
def World.sorted (world : World) : List Queued := world.queue.insertionSort fun entry other =>
  entry.before other

/-- The entries without their scores. -/
def World.tickets (world : World) : List Ticket := world.queue.map Queued.ticket

/-- Something has happened. -/
def World.logs (world : World) (event : Event) : World := {world with log := world.log++[event]}

/-- What an operation of a task does, and what it returns. -/
def Op.effect (task : TaskId) : (o : Op) → World → World×o.Res
  | .zadd player score,world =>
    if player∈world.tickets.map Ticket.player then
      ({world with
        queue := world.queue.map fun entry =>
          if entry.ticket.player=player then {entry with score := score} else entry},())
    else
      let ticket : Ticket := ⟨world.next,player⟩
      (({world with
          queue := world.queue++[⟨ticket,score⟩]
          next := world.next+1} : World).logs (.added task ticket),())
  | .zrank player,world =>
    (world,world.sorted.findIdx? fun entry => entry.ticket.player=player)
  | .zrem players,world =>
    (({world with
        queue := world.queue.filter fun entry => entry.ticket.player∉players} : World).logs
      (.removed task (world.tickets.filter fun ticket => ticket.player∈players)),())
  | .zrange start stop,world =>
    let found := ((world.sorted.drop start).take (stop+1-start)).map Queued.ticket
    (world.logs (.read task found),found.map Ticket.player)
  | .zrangebyscore max,world =>
    (world,(world.sorted.filter fun entry => entry.score≤ max).map fun entry => entry.ticket.player)
  | .save session,world =>
    (({world with
        games := Function.update world.games session.gameState.gameId (some session)} : World).logs
      (.saved task session),())
  | .setName worker player name,world =>
    ({world with
      playerNames := Function.update world.playerNames worker
        (Function.update (world.playerNames worker) player (some name))},())
  | .popName worker player,world =>
    ({world with
      playerNames := Function.update world.playerNames worker
        (Function.update (world.playerNames worker) player none)},world.playerNames worker player)
  | .sendToPlayer player message,world =>
    ({world with sent := world.sent++[(player,message)]},())

/-- The operation is a call that can raise. -/
def Op.interruptible : Op → Bool
  | .setName _ _ _ | .popName _ _ => false
  | _ => true

/-- How a call turns out. -/
inductive Choice
  | proceed
  | raiseBefore (failure : Failure)
  | raiseAfter (failure : Failure)
  deriving DecidableEq, Repr

/-- What can be started on a worker. -/
inductive Entry
  | joinQueue (worker : Worker) (playerId : UUID) (displayName : String) (now : ℚ)
  | leaveQueue (worker : Worker) (playerId : UUID)
  | matchPlayers (worker : Worker) (gameId : UUID)
  | checkTimeouts (worker : Worker) (now : ℚ)
  deriving DecidableEq, Repr

/-- One operation. -/
def perform (choice : Choice) (task _fresh : ℕ) (o : Op) (world : World) :
    Option (World×Except Failure o.Res×Option Entry) :=
  match choice with
  | .proceed => some ((o.effect task world).1,.ok (o.effect task world).2,none)
  | .raiseBefore failure =>
    if o.interruptible then some (world.logs (.failed task),.error failure,none) else none
  | .raiseAfter failure =>
    if o.interruptible then some ((o.effect task world).1.logs (.failed task),.error failure,none)
    else none

end Redis

/-- What is started. -/
def body : Entry → Coroutine Unit
  | .joinQueue worker playerId displayName now => do
    let _ ← joinQueue worker playerId displayName now
  | .leaveQueue worker playerId => leaveQueue worker playerId
  | .matchPlayers worker gameId => matchPlayers worker gameId
  | .checkTimeouts worker now => checkTimeouts worker now

/-- The service on all workers; anything can be started at any time. -/
abbrev service : System language where
  World := World
  Choice := Choice
  Entry := Entry
  body := body
  perform := perform
  arrive _ _ world := some world

/-- Nothing has been started. -/
def initial : service.Config := ⟨.initial,[]⟩

end KiClash.Matchmaking
