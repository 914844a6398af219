import KiClash.GameStore
import KiClash.TaskPhases

/-!
# The PvP rooms

app/core/room_store.py and app/api/v1/endpoints/rooms.py: the record of a room, what each
request makes of it, and the handlers of the requests as tasks over the key of one room.
Any command can fail, and so can the save of a session, before or after it takes effect.
The times of a room are left out, and what uuid4 and the code generator draw are
arguments of the requests that draw.
-/

namespace KiClash.Rooms

open EngineTypes Engine AsyncTasks WatchedKey
open GameStore (PvPSessionState)

section Records

/-- A player who is logged in. -/
structure Player where
  /-- Identifier. -/
  id : UUID
  /-- The name that is shown. -/
  displayName : String
  deriving DecidableEq, Repr

/-- RoomPlayer. -/
structure RoomPlayer where
  /-- Identifier of the player. -/
  id : UUID
  /-- The name that is shown. -/
  name : String
  /-- The character, once it has been picked. -/
  characterId : Option String
  /-- The player is ready. -/
  ready : Bool
  deriving DecidableEq, Repr

/-- RoomStatus. -/
inductive RoomStatus
  | waiting | bothPresent | inGame | finished
  deriving DecidableEq, Repr

/-- RoomState. -/
structure RoomState where
  /-- The code that is shared. -/
  code : String
  /-- Who has created the room. -/
  host : RoomPlayer
  /-- Who has joined it. -/
  guest : Option RoomPlayer
  /-- Where the room stands. -/
  status : RoomStatus
  /-- The game that has been started last. -/
  gameId : Option UUID
  deriving DecidableEq, Repr

/-- The requests that write a room. -/
inductive Call
  | create (host : RoomPlayer)
  | join (player : Player)
  | character (playerId : UUID) (characterId : String)
  | ready (playerId : UUID) (ready : Bool)
  | start (playerId : UUID)
  | leave (playerId : UUID)
  deriving DecidableEq, Repr

/-- The exceptions of the handlers. -/
inductive Exc
  | roomNotFound
  | roomFull
  | notInRoom
  | roomCollision
  | tooManyConflicts
  | assertionError
  | redisError
  | httpException (statusCode : ℕ) (detail : String)
  deriving DecidableEq, Repr

namespace RoomState

/-- is_member. -/
def isMember (room : RoomState) (playerId : UUID) : Bool :=
  playerId=room.host.id || room.guest.any fun guest => playerId=guest.id

/-- What player_slot returns. -/
inductive Slot
  | host | guest
  deriving DecidableEq, Repr

/-- player_slot. -/
def playerSlot (room : RoomState) (playerId : UUID) : Except Exc Slot :=
  if playerId=room.host.id then .ok .host
  else if room.guest.any fun guest => playerId=guest.id then .ok .guest
  else .error .notInRoom

/-- both_ready. -/
def bothReady (room : RoomState) : Bool :=
  room.guest.any fun guest =>
    room.host.ready && guest.ready && room.host.characterId.isSome && guest.characterId.isSome

end RoomState

/-- _to_player. -/
def toPlayer (player : Player) : RoomPlayer := ⟨player.id,player.displayName,none,false⟩

/-- A room when it is created. -/
def newRoom (code : String) (host : RoomPlayer) : RoomState := ⟨code,host,none,.waiting,none⟩

end Records

section Mutators

/-- A mutator: it reads and assigns captured variables, mutates the room it is given, and
may raise. -/
abbrev Mutator (L : Type) := L → RoomState → Except Exc (L×RoomState)

/-- The mutator of join_room. -/
def mutateJoin (player : Player) : Mutator Unit := fun _ room =>
  if room.host.id=player.id then .ok ((),room)
  else if room.guest.any fun guest => guest.id≠player.id then .error .roomFull
  else .ok ((),{room with guest := some (toPlayer player),status := .bothPresent})

/-- The mutator of set_character. -/
def mutateCharacter (playerId : UUID) (characterId : String) : Mutator Unit := fun _ room =>
  match room.playerSlot playerId with
  | .error exc => .error exc
  | .ok .host =>
    .ok ((),{room with host := {room.host with characterId := some characterId,ready := false}})
  | .ok .guest =>
    match room.guest with
    | none => .error .assertionError
    | some guest =>
      .ok ((),{room with guest := some {guest with characterId := some characterId,ready := false}})

/-- The mutator of set_ready. -/
def mutateReady (playerId : UUID) (ready : Bool) : Mutator Unit := fun _ room =>
  match room.playerSlot playerId with
  | .error exc => .error exc
  | .ok .host =>
    if ready && room.host.characterId.isNone then
      .error (.httpException 400 "pick a character first")
    else .ok ((),{room with host := {room.host with ready := ready}})
  | .ok .guest =>
    match room.guest with
    | none => .error .assertionError
    | some guest =>
      if ready && guest.characterId.isNone then
        .error (.httpException 400 "pick a character first")
      else .ok ((),{room with guest := some {guest with ready := ready}})

/-- The variables of start_game: the state that its mutator stashes, and what uuid4 has
still to draw. -/
structure StartCaptured where
  /-- nonlocal_state. -/
  state : Option GameState
  /-- The identifiers that are drawn, one after another. -/
  uuid4 : ℕ → UUID

/-- The mutator of start_game. -/
def mutateStart (playerId : UUID) : Mutator StartCaptured := fun captured room =>
  if !room.isMember playerId then .error .notInRoom
  else if room.status=.inGame then .ok (captured,room)
  else if !room.bothReady then .error (.httpException 400 "both players must be ready")
  else
    let state := (startMatch (captured.uuid4 0) .pvp).1
    match room.guest with
    | none => .error .assertionError
    | some _ =>
      .ok (⟨some state,fun n => captured.uuid4 (n+1)⟩,
        {room with gameId := some state.gameId,status := .inGame})

/-- The mutator of leave_room for the guest. -/
def mutateLeave : Mutator Unit := fun _ room =>
  .ok ((),{room with guest := none,status := .waiting})

end Mutators

section Handlers

/-- What a handler does besides the room: it saves a session. -/
inductive LocalOp
  | save (session : PvPSessionState)

/-- Nothing is returned. -/
abbrev LocalOp.Res : LocalOp → Type
  | .save _ => Unit

/-- The language of the handlers. -/
abbrev language : Language := ⟨RoomState,Call,LocalOp,LocalOp.Res,Exc⟩

/-- A coroutine. -/
abbrev Coroutine (α : Type) := Prog language.sig α

/-- A command on the room's Redis key. -/
def redis (o : StoreOp RoomState Call) : Coroutine o.Res :=
  Prog.perform (S := language.sig) (.store o)

/-- GameStore.save. -/
def save (session : PvPSessionState) : Coroutine Unit :=
  Prog.perform (S := language.sig) (.act (.save session))

/-- DEFAULT_MAX_RETRIES. -/
abbrev defaultMaxRetries : ℕ := 3

/-- MAX_CODE_GENERATION_ATTEMPTS. -/
abbrev maxCodeGenerationAttempts : ℕ := 20

/-- What _generate_code draws, seen from one room: its code, or another one, which is
taken or free. -/
inductive Draw
  | own
  | other (taken : Bool)

/-- RoomStore.create, with the number of attempts that are left. -/
def create (code : String) (host : RoomPlayer) (draws : ℕ → Draw) : ℕ → Coroutine Unit
  | 0 => .raise .roomCollision
  | attempts+1 =>
    match draws attempts with
    | .other taken => if taken then create code host draws attempts else pure ()
    | .own => do
      if ← redis (.set true (.create host) (newRoom code host)) then pure ()
      else create code host draws attempts

/-- RoomStore.watch_and_update, with the number of attempts that are left. -/
def watchAndUpdate {L : Type} (call : Call) (mutator : Mutator L) :
    ℕ → L → Coroutine (L×RoomState)
  | 0,_ => .raise .tooManyConflicts
  | attempts+1,captured => do
    let token ← redis .watch
    let raw ← redis .get
    match raw with
    | none =>
      redis .unwatch
      .raise .roomNotFound
    | some room =>
      match mutator captured room with
      | .error exc => .raise exc
      | .ok (captured,room) =>
        let committed ← redis (.exec token attempts call room)
        -- a WatchError aborts this attempt; the captured variables stay assigned
        if committed then pure (captured,room)
        else watchAndUpdate call mutator attempts captured

/-- except ...: raise HTTPException(...). -/
def rethrown {α : Type} (f : Exc → Exc) (p : Coroutine α) : Coroutine α :=
  p.handle fun exc => .raise (f exc)

/-- What join_room makes of the exceptions of the store. -/
def joinExc : Exc → Exc
  | .roomNotFound => .httpException 404 "room not found"
  | .roomFull => .httpException 409 "room is full"
  | exc => exc

/-- What the other handlers make of them. -/
def memberExc : Exc → Exc
  | .roomNotFound => .httpException 404 "room not found"
  | .notInRoom => .httpException 403 "not a member of this room"
  | exc => exc

/-- join_room. -/
def joinRoom (player : Player) : Coroutine RoomState :=
  rethrown joinExc do
    let (_,room) ← watchAndUpdate (.join player) (mutateJoin player) defaultMaxRetries ()
    pure room

/-- set_character. -/
def setCharacter (player : Player) (characterId : String) : Coroutine RoomState :=
  rethrown memberExc do
    let (_,room) ← watchAndUpdate (.character player.id characterId)
      (mutateCharacter player.id characterId) defaultMaxRetries ()
    pure room

/-- set_ready. -/
def setReady (player : Player) (ready : Bool) : Coroutine RoomState :=
  rethrown memberExc do
    let (_,room) ← watchAndUpdate (.ready player.id ready) (mutateReady player.id ready)
      defaultMaxRetries ()
    pure room

/-- The session that start_game saves. -/
def sessionOf (state : GameState) (host guest : RoomPlayer) : PvPSessionState :=
  { gameState := state
    player1Id := host.id
    player2Id := guest.id
    connectedPlayers := []
    started := false
    p1Action := none
    p2Action := none }

/-- start_game once the room has been written. -/
def saveStarted (captured : StartCaptured) (room : RoomState) : Coroutine Unit :=
  match captured.state with
  | none => pure ()
  | some state =>
    match room.guest with
    | none => .raise .assertionError
    | some guest => save (sessionOf state room.host guest)

/-- start_game. -/
def startGame (player : Player) (uuid4 : ℕ → UUID) : Coroutine (UUID×RoomState) := do
  let (captured,room) ← rethrown memberExc
    (watchAndUpdate (.start player.id) (mutateStart player.id) defaultMaxRetries ⟨none,uuid4⟩)
  saveStarted captured room
  match room.gameId with
  | none => .raise .assertionError
  | some gameId => pure (gameId,room)

/-- leave_room. -/
def leaveRoom (player : Player) : Coroutine Unit := do
  match ← redis .load with
  | none => pure ()
  | some room =>
    if !room.isMember player.id then
      .raise (.httpException 403 "not a member of this room")
    else if room.host.id=player.id then redis .delete
    else
      (watchAndUpdate (.leave player.id) mutateLeave defaultMaxRetries ()).andThen fun
        | .ok _ | .error .roomNotFound => pure ()
        | .error exc => .raise exc

end Handlers

section Processes

/-- A request. -/
inductive Entry
  | createRoom (player : Player) (code : String) (draws : ℕ → Draw)
  | joinRoom (player : Player)
  | setCharacter (player : Player) (characterId : String)
  | setReady (player : Player) (ready : Bool)
  | startGame (player : Player) (uuid4 : ℕ → UUID)
  | leaveRoom (player : Player)

/-- The handler of a request. -/
def handler : Entry → Coroutine Unit
  | .createRoom player code draws =>
    create code (toPlayer player) draws maxCodeGenerationAttempts
  | .joinRoom player => do
    let _ ← joinRoom player
  | .setCharacter player characterId => do
    let _ ← setCharacter player characterId
  | .setReady player ready => do
    let _ ← setReady player ready
  | .startGame player uuid4 => do
    let _ ← startGame player uuid4
  | .leaveRoom player => leaveRoom player

/-- What else is recorded. -/
inductive Note
  | saved (task : ℕ) (session : PvPSessionState)
  | raised (task : ℕ)
  | started (task : ℕ)
  deriving DecidableEq, Repr

/-- The sessions that have been saved, oldest first. -/
abbrev Memory := List PvPSessionState

/-- The handlers of all workers. -/
abbrev runtime : Runtime language where
  Note := Note
  Memory := Memory
  Entry := Entry
  act _ task _
    | .save session,memory => (memory++[session],[.saved task session],.ok (),none)
  interrupt _ _ _ := some .redisError
  unavoidable _ _ _ := false
  deliver _ _ memory := memory
  raised task _ := .raised task
  started task _ := .started task
  body := handler
  arrives _ := true

/-- The processes. -/
abbrev rooms : System language.sig := runtime.system

/-- Before the room is created. -/
def initial : rooms.Config := ⟨⟨none,0,[],[]⟩,[]⟩

/-- A request performs so many operations without a failure. -/
def proceeds (task operations : ℕ) : List rooms.Move :=
  List.replicate operations (.run task (.proceed true))

/-- Requests one after another, each with the number of its operations; the first one
gets the given number. -/
def requests (first : ℕ) : List (Entry×ℕ) → List rooms.Move
  | [] => []
  | (entry,operations)::entries =>
    .open entry::proceeds first operations++requests (first+1) entries

/-- A player with a short identifier. -/
def Player.small (digit : Fin 16) : Player := ⟨.small digit,"player"⟩

/-- Player 1 creates a room, and player 2 joins it. -/
def lobby : List (Entry×ℕ) :=
  [(.createRoom (.small 1) "ABCD" fun _ => .own,1),(.joinRoom (.small 2),3)]

/-- Both pick a character and are ready. -/
def readies : List (Entry×ℕ) :=
  [(.setCharacter (.small 1) "kai",3),(.setCharacter (.small 2) "mira",3),
    (.setReady (.small 1) true,3),(.setReady (.small 2) true,3)]

/-- The host starts the game. -/
def starts : List (Entry×ℕ) := [(.startGame (.small 1) fun _ => .small 9,4)]

end Processes

end KiClash.Rooms
