import KiClash.GoTypes
import KiClash.ServerMessages
import KiClash.WatchedKey

/-!
# The Go instances and the stored session

The shared world of all Go instances that serve one game: the session under
its Redis key (go-server/store.go), the timers of each instance and the record
of what has happened. Goroutines are preemptive, so every command on the key
and every critical section on the timer maps is an operation of its own. What
Go returns as an error is an exception here, and the caller decides about it.
-/

namespace KiClash.GoStore

open GoTypes ServerMessages WatchedKey

/-- A server process. -/
abbrev Instance := ℕ

/-- The number of a goroutine. -/
abbrev GoroutineId := ℕ

/-- Errors that reach the session code. -/
inductive Failure
  /-- errGameNotFound -/
  | gameNotFound
  /-- errTooManyWatchRetries -/
  | tooManyWatchRetries
  /-- what a mutator has returned -/
  | mutator (text : String)
  /-- any other error of a command, an expired context included -/
  | store
  deriving DecidableEq, Repr

/-- The variables of submitAction that its mutator assigns. -/
structure SubmitCaptured where
  /-- validationErr. -/
  validationErr : String
  /-- shouldResolve. -/
  shouldResolve : Bool
  /-- p1ToResolve. -/
  p1ToResolve : Action
  /-- p2ToResolve. -/
  p2ToResolve : Action
  /-- confirmedTurn. -/
  confirmedTurn : ℤ
  deriving DecidableEq, Repr

/-- Their zero values. -/
def SubmitCaptured.zero : SubmitCaptured := ⟨"",false,"","",0⟩

/-- Which call a transaction belongs to. A submitAction transaction also names
the captured variables as aborted attempts of the same call left them. -/
inductive Call
  | connect (player : String)
  | start
  | submit (player : String) (action : Action) (stale : SubmitCaptured)
  | disconnect (player : String)
  | resolve (p1 p2 : Action)
  | forfeit (disconnected : String)
  deriving DecidableEq, Repr

/-- What a client sends on its game socket. -/
inductive Frame
  | submitAction (action : String)
  | ping
  | other
  | malformed
  deriving DecidableEq, Repr

/-- The goroutines of an instance: the handler of a game socket, with the
frames that its client is going to send, and the two kinds of timers. -/
inductive Entry
  | gameWebsocket (instance' : Instance) (player : String) (frames : List Frame)
  | turnTimeoutLoop (instance' : Instance)
  | forfeitAfterTimeout (instance' : Instance) (disconnected opponent : String)
  deriving DecidableEq, Repr

/-- What is recorded besides the transactions. -/
inductive Note
  | started (task : GoroutineId) (entry : Entry)
  | received (task : GoroutineId) (frame : Option Frame)
  | sent (task : GoroutineId) (player : String) (message : ServerMessage)
  | failed (task : GoroutineId) (failure : Failure)
  deriving DecidableEq, Repr

/-- A recorded event. -/
abbrev Event := WatchedKey.Event PvPSession Call Note

/-- The operations that do not touch the key. -/
inductive LocalOp
  /-- s.pubsub.sendToPlayer(ctx, player, message), whose error is ignored -/
  | send (instance' : Instance) (player : String) (message : ServerMessage)
  /-- sc.WriteJSON(message), whose error is ignored -/
  | writeJSON (message : ServerMessage)
  /-- upgrader.Upgrade and pubsub.register; false when the upgrade fails -/
  | upgrade (instance' : Instance) (player : String)
  /-- conn.ReadMessage; none when it fails -/
  | readMessage (frame : Option Frame)
  /-- select over ctx.Done() and time.After, in tenths of a second; true when
  the time has passed -/
  | selectTimer (tenths : ℕ)
  /-- time.Sleep, in tenths of a second -/
  | sleep (tenths : ℕ)
  /-- cancelTurnTimeout -/
  | cancelTurnTimeout (instance' : Instance)
  /-- the rest of startTurnTimeout -/
  | setTurnTimeout (instance' : Instance)
  /-- cancelDisconnectTimer -/
  | cancelDisconnectTimer (instance' : Instance) (player : String)
  /-- the end of handleDisconnect: replace the forfeit timer and start it -/
  | startDisconnect (instance' : Instance) (player opponent : String)
  deriving DecidableEq, Repr

/-- Results of these operations. -/
abbrev LocalOp.Res : LocalOp → Type
  | .upgrade .. => Bool
  | .selectTimer _ => Bool
  | _ => Unit

/-- The language of the session code. -/
abbrev language : Language := ⟨PvPSession,Call,LocalOp,LocalOp.Res,Failure⟩

/-- What the instances keep in memory. -/
structure Memory where
  /-- Timers whose context has been cancelled. -/
  cancelled : List GoroutineId
  /-- timeoutTasks[gameID] of each instance. -/
  timeoutTasks : Instance → Option GoroutineId
  /-- disconnectTasks of all instances. -/
  disconnectTasks : List (Instance×String×GoroutineId)

namespace Memory

/-- Nobody has connected yet. -/
def empty : Memory := ⟨[],fun _ => none,[]⟩

/-- cancelTurnTimeout. -/
def cancelTurnTimeout (memory : Memory) (instance' : Instance) : Memory :=
  match memory.timeoutTasks instance' with
  | none => memory
  | some timer =>
    {memory with
      timeoutTasks := fun k => if k=instance' then none else memory.timeoutTasks k
      cancelled := timer::memory.cancelled}

/-- Put a new turn timer into timeoutTasks. -/
def setTurnTimeout (memory : Memory) (instance' : Instance) (timer : GoroutineId) : Memory :=
  {memory with
    timeoutTasks := fun k => if k=instance' then some timer else memory.timeoutTasks k}

/-- The forfeit timers of a player on an instance. -/
def timersOf (memory : Memory) (instance' : Instance) (player : String) : List GoroutineId :=
  (memory.disconnectTasks.filter fun entry => entry.1=instance' ∧ entry.2.1=player).map
    fun entry => entry.2.2

/-- cancelDisconnectTimer. -/
def cancelDisconnectTimer (memory : Memory) (instance' : Instance) (player : String) : Memory :=
  {memory with
    disconnectTasks := memory.disconnectTasks.filter fun entry =>
      ¬(entry.1=instance' ∧ entry.2.1=player)
    cancelled := memory.timersOf instance' player++memory.cancelled}

/-- Replace the forfeit timer of a player, cancelling the old one. -/
def startDisconnect (memory : Memory) (instance' : Instance) (player : String)
    (timer : GoroutineId) : Memory :=
  let memory := memory.cancelDisconnectTimer instance' player
  {memory with disconnectTasks := (instance',player,timer)::memory.disconnectTasks}

end Memory

/-- What an operation of a goroutine does: the memory, the notes, the result
and the goroutine it starts, which gets the given number. A cancelled timer
whose time has passed as well may take either branch of its select. -/
def LocalOp.effect (pick : Bool) (task fresh : GoroutineId) : (o : LocalOp) → Memory →
    Memory × List Note × Except Failure (LocalOp.Res o) × Option Entry
  | .send _ player message,memory => (memory,[.sent task player message],.ok (),none)
  | .writeJSON _,memory => (memory,[],.ok (),none)
  | .upgrade _ _,memory => (memory,[],.ok pick,none)
  | .readMessage frame,memory => (memory,[.received task frame],.ok (),none)
  | .selectTimer _,memory => (memory,[],.ok (pick || task∉memory.cancelled),none)
  | .sleep _,memory => (memory,[],.ok (),none)
  | .cancelTurnTimeout instance',memory => (memory.cancelTurnTimeout instance',[],.ok (),none)
  | .setTurnTimeout instance',memory =>
    (memory.setTurnTimeout instance' fresh,[],.ok (),some (.turnTimeoutLoop instance'))
  | .cancelDisconnectTimer instance' player,memory =>
    (memory.cancelDisconnectTimer instance' player,[],.ok (),none)
  | .startDisconnect instance' player opponent,memory =>
    (memory.startDisconnect instance' player fresh,[],.ok (),
      some (.forfeitAfterTimeout instance' player opponent))

/-- Every command on the key can fail; the other operations cannot. -/
def interrupt (_ : Memory) (_ : GoroutineId) : Op language → Option Failure
  | .store _ => some .store
  | .act _ => none

/-- The environment opens game sockets; timers are only started by the code. -/
def arrives : Entry → Bool
  | .gameWebsocket .. => true
  | _ => false

end KiClash.GoStore
