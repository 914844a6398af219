import KiClash.Connections
import KiClash.Histories

/-!
# The connection manager and its tasks

The WSManager of app/core/ws_manager/manager.py as the handlers of app/api/v1/endpoints/ws.py
use it: connect awaits the handshake and the closing of an older socket before it updates
its maps, a disconnect updates them in one go, and the subscriber tasks poll their channels
beside them. Between two awaits nothing else runs.
-/

namespace KiClash.ConnectionTasks

open EngineTypes Connections

/-- client_state of a socket. -/
inductive ClientState
  | connecting | connected | disconnected
  deriving DecidableEq, Repr

/-- What the handler of a socket awaits. -/
inductive Stage
  /-- websocket.accept() in connect. -/
  | accepting
  /-- _safe_close(old_ws) in connect. -/
  | closing
  /-- connect has returned. -/
  | serving
  /-- The handler has ended. -/
  | ended
  deriving DecidableEq, Repr

/-- The handler of a socket; its number is the socket. -/
structure Handler where
  /-- The player. -/
  player : UUID
  /-- The room that he joins. -/
  room : String
  /-- client_state of the socket. -/
  client : ClientState
  /-- How far it has got. -/
  stage : Stage
  deriving DecidableEq, Repr

/-- What a subscriber task awaits. -/
inductive Listening
  /-- Its first turn on the event loop. -/
  | starting
  /-- pubsub.subscribe(channel). -/
  | subscribing
  /-- pubsub.get_message(). -/
  | polling
  /-- ws.send_json(payload). -/
  | forwarding (socket : Socket) (message : String)
  /-- pubsub.unsubscribe(channel) and pubsub.aclose(). -/
  | unsubscribing
  /-- It has ended. -/
  | ended
  deriving DecidableEq, Repr

/-- A subscriber task: _listen_for_player. -/
structure Listener where
  /-- The player. -/
  player : UUID
  /-- How far it has got. -/
  stage : Listening
  /-- cancel() has been called, and the task has not run since. -/
  cancelled : Bool
  deriving DecidableEq, Repr

/-- The manager of a worker with its tasks. -/
structure Manager where
  /-- _connections, _rooms and _player_rooms. -/
  registry : Registry
  /-- _subscribers. -/
  subscribers : UUID → Option ℕ
  /-- The handlers. -/
  handlers : List Handler
  /-- The subscriber tasks. -/
  listeners : List Listener

/-- What a call to Redis comes to in a subscriber task. -/
inductive Poll
  /-- It raises. -/
  | raises
  /-- It returns, but no message that can be read. -/
  | nothing
  /-- It returns a message. -/
  | message (message : String)
  deriving DecidableEq, Repr

/-- What can happen next. -/
inductive Move
  /-- A handler calls connect. -/
  | opens (player : UUID) (room : String)
  /-- accept() returns, or it raises. -/
  | accepted (socket : Socket) (ok : Bool)
  /-- _safe_close returns. -/
  | closed (socket : Socket)
  /-- The peer of a socket is gone. -/
  | drops (socket : Socket)
  /-- A handler comes to its disconnect. -/
  | leaves (socket : Socket)
  /-- A handler raises before it gets to its try. -/
  | crashes (socket : Socket)
  /-- A send has failed, and send_to_player calls disconnect. -/
  | gives (player : UUID)
  /-- A subscriber task goes on. -/
  | listens (task : ℕ) (poll : Poll)
  deriving DecidableEq, Repr

namespace Manager

/-- Nobody is connected. -/
def initial : Manager := ⟨.empty,fun _ => none,[],[]⟩

/-- client_state of a socket is CONNECTED. -/
def connected (manager : Manager) (socket : Socket) : Bool :=
  (manager.handlers[socket]?).any fun handler => handler.client=.connected

/-- The socket to which a message for the player is sent directly. -/
def route (manager : Manager) (player : UUID) : Option Socket :=
  (manager.registry.connections player).filter manager.connected

/-- A handler has got further. -/
def moves (manager : Manager) (socket : Socket) (handler : Handler) : Manager :=
  {manager with handlers := manager.handlers.set socket handler}

/-- The part of connect after its awaits. -/
def register (redis : Bool) (manager : Manager) (socket : Socket) (handler : Handler) :
    Manager :=
  let registered : Manager :=
    {manager with
      registry := manager.registry.connect socket handler.room handler.player
      handlers := manager.handlers.set socket {handler with stage := .serving}}
  if redis ∧ manager.subscribers handler.player=none then
    {registered with
      subscribers := Function.update manager.subscribers handler.player
        (some manager.listeners.length)
      listeners := manager.listeners++[⟨handler.player,.starting,false⟩]}
  else registered

/-- disconnect. -/
def disconnect (manager : Manager) (player : UUID) : Manager :=
  {manager with
    registry := (manager.registry.disconnect player).1
    subscribers := Function.update manager.subscribers player none
    listeners := match manager.subscribers player with
      | none => manager.listeners
      | some task => manager.listeners.modify task fun listener =>
        if listener.stage=.ended then listener else {listener with cancelled := true}}

/-- The head of the loop of _listen_for_player. -/
def loop (manager : Manager) (player : UUID) : Listening :=
  match manager.route player with
  | some _ => .polling
  | none => .unsubscribing

end Manager

/-- How far a subscriber task gets until its next await. -/
def Listening.next (manager : Manager) (player : UUID) (poll : Poll) : Listening → Listening
  | .starting => .subscribing
  | .subscribing => if poll=.raises then .unsubscribing else manager.loop player
  | .polling =>
    match poll with
    | .raises => .unsubscribing
    | .nothing => manager.loop player
    | .message message =>
      match manager.route player with
      | some socket => .forwarding socket message
      | none => manager.loop player
  | .forwarding _ _ => manager.loop player
  | .unsubscribing => .ended
  | .ended => .ended

/-- The same after a cancellation. -/
def Listening.cancel : Listening → Listening
  | .starting | .unsubscribing | .ended => .ended
  | .subscribing | .polling | .forwarding _ _ => .unsubscribing

namespace Manager

/-- A handler that is at the given await goes on. -/
def resumes (manager : Manager) (socket : Socket) (stage : Stage)
    (resume : Handler → Option Manager) : Option Manager :=
  (manager.handlers[socket]?).bind fun handler =>
    if handler.stage=stage then resume handler else none

/-- One move. -/
def step (redis : Bool) (manager : Manager) : Move → Option Manager
  | .opens player room =>
    some {manager with handlers := manager.handlers++[⟨player,room,.connecting,.accepting⟩]}
  | .accepted socket ok => manager.resumes socket .accepting fun handler =>
    if ok then
      -- an older socket is closed first
      if (manager.route handler.player).isSome then
        some (manager.moves socket {handler with client := .connected, stage := .closing})
      else some (manager.register redis socket {handler with client := .connected})
    else some (manager.moves socket {handler with stage := .ended})
  | .closed socket => manager.resumes socket .closing fun handler =>
    some (manager.register redis socket handler)
  | .drops socket => (manager.handlers[socket]?).bind fun handler =>
    if handler.client=.connected then some (manager.moves socket {handler with client := .disconnected})
    else none
  | .leaves socket => manager.resumes socket .serving fun handler =>
    some ((manager.moves socket {handler with stage := .ended}).disconnect handler.player)
  | .crashes socket => manager.resumes socket .serving fun handler =>
    some (manager.moves socket {handler with stage := .ended})
  | .gives player => some (manager.disconnect player)
  | .listens task poll => (manager.listeners[task]?).bind fun listener =>
    if listener.stage=.ended then none else
      let stage := if listener.cancelled then listener.stage.cancel
        else listener.stage.next manager listener.player poll
      some {manager with
        listeners := manager.listeners.set task {listener with stage := stage, cancelled := false}}

/-- One move after another. -/
def run (redis : Bool) : Manager → List Move → Option Manager
  | manager,[] => some manager
  | manager,move::moves => (manager.step redis move).bind fun manager => manager.run redis moves

/-- The moves of a run, each with what it finds. -/
def moments (redis : Bool) : Manager → List Move → List (Manager×Move)
  | _,[] => []
  | manager,move::moves =>
    (manager,move)::match manager.step redis move with
      | some manager => manager.moments redis moves
      | none => []

end Manager

/-- What a move does. -/
inductive Moved (redis : Bool) (manager : Manager) : Move → Manager → Prop
  | opened (player : UUID) (room : String) : Moved redis manager (.opens player room)
      {manager with handlers := manager.handlers++[⟨player,room,.connecting,.accepting⟩]}
  | refused (socket : Socket) (handler : Handler) (hsocket : manager.handlers[socket]?=some handler)
      (hstage : handler.stage=.accepting) :
      Moved redis manager (.accepted socket false) (manager.moves socket {handler with stage := .ended})
  | superseding (socket : Socket) (handler : Handler)
      (hsocket : manager.handlers[socket]?=some handler) (hstage : handler.stage=.accepting)
      (hroute : (manager.route handler.player).isSome=true) :
      Moved redis manager (.accepted socket true)
        (manager.moves socket {handler with client := .connected, stage := .closing})
  | registered (move : Move) (socket : Socket) (handler handler' : Handler)
      (hsocket : manager.handlers[socket]?=some handler)
      (hplayer : handler'.player=handler.player) (hroom : handler'.room=handler.room)
      (hmove : move=.accepted socket true ∧ handler.stage=.accepting ∧
          (manager.route handler.player).isSome=false ∨
        move=.closed socket ∧ handler.stage=.closing) :
      Moved redis manager move (manager.register redis socket handler')
  | dropped (socket : Socket) (handler : Handler) (hsocket : manager.handlers[socket]?=some handler) :
      Moved redis manager (.drops socket) (manager.moves socket {handler with client := .disconnected})
  | left (socket : Socket) (handler : Handler) (hsocket : manager.handlers[socket]?=some handler)
      (hstage : handler.stage=.serving) :
      Moved redis manager (.leaves socket)
        ((manager.moves socket {handler with stage := .ended}).disconnect handler.player)
  | crashed (socket : Socket) (handler : Handler) (hsocket : manager.handlers[socket]?=some handler)
      (hstage : handler.stage=.serving) :
      Moved redis manager (.crashes socket) (manager.moves socket {handler with stage := .ended})
  | given (player : UUID) : Moved redis manager (.gives player) (manager.disconnect player)
  | listened (task : ℕ) (poll : Poll) (listener : Listener)
      (htask : manager.listeners[task]?=some listener) (hstage : listener.stage≠.ended) :
      Moved redis manager (.listens task poll)
        {manager with
          listeners := manager.listeners.set task
            {listener with
              stage := if listener.cancelled then listener.stage.cancel
                else listener.stage.next manager listener.player poll
              cancelled := false}}

variable {redis : Bool} {manager manager' : Manager} {move : Move}

/-- A handler goes on if it is at that await. -/
theorem resumes_cases {socket : Socket} {stage : Stage} {resume : Handler → Option Manager}
    (h : manager.resumes socket stage resume=some manager') : ∃ handler,
      manager.handlers[socket]?=some handler ∧ handler.stage=stage ∧ resume handler=some manager' := by
  obtain ⟨handler,hsocket,hresume⟩ := Option.bind_eq_some_iff.mp h
  split at hresume
  · next hstage => exact ⟨handler,hsocket,hstage,hresume⟩
  · cases hresume

/-- Every move does one of these. -/
theorem moved (h : manager.step redis move=some manager') : Moved redis manager move manager' := by
  cases move with
  | opens player room =>
    cases h
    exact .opened player room
  | accepted socket ok =>
    obtain ⟨handler,hsocket,hstage,hresume⟩ := resumes_cases h
    cases ok with
    | false =>
      cases hresume
      exact .refused socket handler hsocket hstage
    | true =>
      simp only [if_true] at hresume
      split at hresume
      · next hroute =>
        cases hresume
        exact .superseding socket handler hsocket hstage hroute
      · next hroute =>
        cases hresume
        exact .registered _ socket handler _ hsocket rfl rfl
          (.inl ⟨rfl,hstage,Bool.eq_false_iff.mpr hroute⟩)
  | closed socket =>
    obtain ⟨handler,hsocket,hstage,hresume⟩ := resumes_cases h
    cases hresume
    exact .registered _ socket handler _ hsocket rfl rfl (.inr ⟨rfl,hstage⟩)
  | drops socket =>
    obtain ⟨handler,hsocket,hresume⟩ := Option.bind_eq_some_iff.mp h
    split at hresume
    · cases hresume
      exact .dropped socket handler hsocket
    · cases hresume
  | leaves socket =>
    obtain ⟨handler,hsocket,hstage,hresume⟩ := resumes_cases h
    cases hresume
    exact .left socket handler hsocket hstage
  | crashes socket =>
    obtain ⟨handler,hsocket,hstage,hresume⟩ := resumes_cases h
    cases hresume
    exact .crashed socket handler hsocket hstage
  | gives player =>
    cases h
    exact .given player
  | listens task poll =>
    obtain ⟨listener,htask,hresume⟩ := Option.bind_eq_some_iff.mp h
    split at hresume
    · cases hresume
    · next hstage =>
      cases hresume
      exact .listened task poll listener htask hstage

end KiClash.ConnectionTasks
