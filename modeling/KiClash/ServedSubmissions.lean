import KiClash.PendingPairs
import KiClash.EngineRuns
import KiClash.UndisturbedTasks

/-!
# A submission that is served alone

What a handler of game_ws does when nothing overtakes it: which session it leaves, and
which messages it sends to the two players. The handlers are the first two tasks; all
others are timers, and these do not come to move.
-/

namespace KiClash.ServedSubmissions

open EngineTypes Engine EngineRuns OutcomeMatrix GameStore GameSession ServerMessages
  PendingPairs AsyncTasks WatchedKey UndisturbedTasks

section Setting

/-- A wait for the client. -/
def receives : Op language → Bool
  | .act (.receive _) => true
  | _ => false

/-- Only timers are or will be cancelled. -/
structure Calm (memory : Memory) : Prop where
  /-- Cancelled tasks are timers. -/
  cancelled : ∀ timer : ℕ,timer∈memory.cancelled → 2≤timer
  /-- Turn timers are. -/
  turnTimers : ∀ (worker : Worker) (timer : ℕ),
    memory.timeoutTask worker=some timer → 2≤timer

/-- What the handlers find: the stored session, and the members of the rooms. -/
structure Server where
  /-- The session. -/
  session : Option PvPSessionState
  /-- The members of the game's room on the workers. -/
  rooms : List (Worker×UUID)

/-- The world of the server. -/
structure Server.Holds (server : Server) (fresh : ℕ) (world : WatchedKey.World runtime) :
    Prop where
  /-- The session is stored. -/
  session : world.value=server.session
  /-- The rooms have these members. -/
  rooms : world.memory.rooms=server.rooms
  /-- Two handlers have been started before anything else. -/
  fresh : 2≤fresh
  /-- Nothing but timers is cancelled. -/
  calm : Calm world.memory

/-- A handler runs until it waits for its client. -/
def alone : Setting runtime Server (UUID×ServerMessage) where
  pauses := receives
  holds := Server.Holds
  reports
    | .sent _ player message => some (player,message)
    | _ => none

/-- A cancelled task that waits raises the cancellation. -/
theorem runtime_raises : Raises runtime := by
  intro world task o h
  cases o with
  | store o => rfl
  | act o =>
    simp only [unavoidable,decide_eq_true_eq] at h
    simp [interrupt,h.1,h.2]

/-- An operation of a handler takes effect. -/
theorem leftAlone_handler {task fresh : ℕ} (ht : task<2) {memory : Memory} (hm : Calm memory)
    (o : Op language) {world : WatchedKey.World runtime} (hw : world.memory=memory) :
    leftAlone task fresh o world=o.effect true task fresh world := by
  have hn : task∉memory.cancelled := fun h => by
    have h2 := hm.cancelled task h
    omega
  refine leftAlone_eq ?_
  rw [hw]
  cases o <;> simp [unavoidable,hn]

end Setting

section Operations

variable {task : ℕ} {server : Server}

/-- An operation that does not touch the key. -/
theorem returns_local (ht : task<2) {o : LocalOp} {x : o.Res} {server' : Server}
    {messages : List (UUID×ServerMessage)} (hp : receives (.act o)=false)
    (h : ∀ fresh (world : WatchedKey.World runtime),server.Holds fresh world →
      ∃ memory notes started,o.effect task fresh world.memory=(memory,notes,.ok x,started) ∧
        (notes++(started.map (Note.started fresh)).toList).filterMap alone.reports=messages ∧
        server'.Holds (fresh+started.toList.length) (world.acted fresh memory notes started)) :
    alone.Returns task (act o) server x server' messages := by
  refine returns_perform hp ?_
  intro fresh world hs
  obtain ⟨memory,notes,started,heffect,hrep,hs'⟩ := h fresh world hs
  refine ⟨world.acted fresh memory notes started,_,started,?_,rfl,?_,hs'⟩
  · rw [leftAlone_handler ht hs.calm _ rfl]
    simp [Op.effect,heffect]
  · rw [Setting.reported_notes]
    exact hrep

/-- An operation that changes nothing but the record. -/
theorem returns_noted (ht : task<2) {o : LocalOp} {x : o.Res} (notes : List Note)
    (hp : receives (.act o)=false)
    (h : ∀ fresh memory,o.effect task fresh memory=(memory,notes,.ok x,none)) :
    alone.Returns task (act o) server x server (notes.filterMap alone.reports) :=
  returns_local ht hp fun fresh world hs =>
    ⟨world.memory,notes,none,h fresh world.memory,by simp,
      ⟨hs.session,hs.rooms,hs.fresh,hs.calm⟩⟩

/-- A message is sent. -/
theorem returns_send (ht : task<2) (worker : Worker) (player : UUID) (message : ServerMessage) :
    alone.Returns task (send worker player message) server () server [(player,message)] :=
  returns_noted ht [.sent task player message] rfl fun _ _ => rfl

/-- A pause passes. -/
theorem returns_sleep (ht : task<2) (tenths : ℕ) :
    alone.Returns task (act (.sleep tenths)) server () server [] :=
  returns_noted ht [] rfl fun _ _ => rfl

/-- Without its turn timer the memory is still calm. -/
theorem Calm.cancelTimeout {memory : Memory} (h : Calm memory) (worker : Worker) :
    Calm (memory.cancelTimeout worker) := by
  unfold Memory.cancelTimeout
  cases ht : memory.timeoutTask worker with
  | none => exact h
  | some timer =>
    have htimer := h.turnTimers worker timer ht
    refine ⟨?_,?_⟩
    · intro t hmem
      rcases List.mem_cons.mp hmem with rfl | hmem
      · exact htimer
      · exact h.cancelled t hmem
    · intro w t hw
      dsimp only at hw
      split_ifs at hw
      exact h.turnTimers w t hw

/-- So it is with a new one. -/
theorem Calm.setTimeout {memory : Memory} (h : Calm memory) (worker : Worker) {timer : ℕ}
    (ht : 2≤timer) : Calm (memory.setTimeout worker timer) := by
  refine ⟨h.cancelled,?_⟩
  intro w t hw
  simp only [Memory.setTimeout] at hw
  split_ifs at hw
  · cases hw
    exact ht
  · exact h.turnTimers w t hw

@[simp] theorem cancelTimeout_rooms (memory : Memory) (worker : Worker) :
    (memory.cancelTimeout worker).rooms=memory.rooms := by
  unfold Memory.cancelTimeout
  cases memory.timeoutTask worker <;> rfl

/-- The turn timer is cancelled. -/
theorem returns_cancelTimeout (ht : task<2) (worker : Worker) :
    alone.Returns task (act (.cancelTimeout worker)) server () server [] :=
  returns_local ht rfl fun _ world hs =>
    ⟨world.memory.cancelTimeout worker,[],none,rfl,rfl,hs.session,
      (cancelTimeout_rooms _ _).trans hs.rooms,hs.fresh,hs.calm.cancelTimeout worker⟩

/-- A turn timer is started. -/
theorem returns_restartTimeout (ht : task<2) (worker : Worker) :
    alone.Returns task (act (.restartTimeout worker)) server () server [] :=
  returns_local ht rfl fun fresh world hs =>
    ⟨(world.memory.cancelTimeout worker).setTimeout worker fresh,[],
      some (.turnTimeout worker),rfl,rfl,hs.session,
      (cancelTimeout_rooms _ _).trans hs.rooms,
      Nat.le_succ_of_le hs.fresh,(hs.calm.cancelTimeout worker).setTimeout worker hs.fresh⟩

/-- The session is loaded. -/
theorem returns_load (ht : task<2) :
    alone.Returns task load server server.session server [] := by
  refine returns_perform rfl ?_
  intro fresh world hs
  refine ⟨world.log (.loaded task world.value),[.loaded task world.value],none,?_,rfl,rfl,
    hs.session,hs.rooms,hs.fresh,hs.calm⟩
  rw [leftAlone_handler ht hs.calm _ rfl]
  simp [Op.effect,StoreOp.effect,hs.session]

/-- The first attempt commits. -/
theorem returns_watchAndUpdate {C : Type} (ht : task<2) {call : C → GameStore.Call}
    {mutator : Mutator C} {captured captured' : C} {session session' : PvPSessionState}
    {rooms : List (Worker×UUID)} (h : mutator captured session=.ok (captured',session'))
    (attempts : ℕ) :
    alone.Returns task (exceptNotFound (watchAndUpdate call mutator (attempts+1) captured))
      ⟨some session,rooms⟩ (some (captured',session')) ⟨some session',rooms⟩ [] := by
  refine Setting.Returns.handle (Setting.Returns.map some ?_)
  intro world fresh hs
  have ha := fun o => @leftAlone_handler task fresh ht _ hs.calm o world rfl
  refine ⟨world.commit task (call captured) session',[],
    [.commit task (call captured) (world.value.getD session') session'],?_,rfl,rfl,
    rfl,hs.rooms,hs.fresh,hs.calm⟩
  have hwatch : leftAlone task fresh (.store .watch) world=(world,.ok world.version,none) := by
    rw [ha]
    rfl
  have hget : leftAlone task fresh (.store .get) world=(world,.ok (some session),none) := by
    rw [ha]
    simp [Op.effect,StoreOp.effect,hs.session]
  have hexec : leftAlone task fresh
      (.store (.exec world.version attempts (call captured) session')) world=
      (world.commit task (call captured) session',.ok true,none) := by
    rw [ha]
    simp [Op.effect,StoreOp.effect]
  rw [watchAndUpdate,redis,advance_perform rfl hwatch,redis,advance_perform rfl hget]
  simp only [h]
  rw [redis,advance_perform rfl hexec]
  rfl

end Operations

section Programs

variable {task : ℕ} {server : Server} (worker : Worker)

/-- The prompts for the open round of a session. -/
def prompts (session : PvPSessionState) : List (UUID×ServerMessage) :=
  match session.gameState.currentRound with
  | none => []
  | some round =>
    [(session.player1Id,.waitingForAction (round.turnNumber+1) turnTimeLimitSeconds
        round.roundNumber round.p1Ki round.p2Ki),
      (session.player2Id,.waitingForAction (round.turnNumber+1) turnTimeLimitSeconds
        round.roundNumber round.p2Ki round.p1Ki)]

/-- The players are prompted. -/
theorem returns_sendWaitingForAction (ht : task<2) (session : PvPSessionState) :
    alone.Returns task (sendWaitingForAction worker session) server () server
      (prompts session) := by
  unfold sendWaitingForAction prompts
  cases session.gameState.currentRound with
  | none => exact returns_pure
  | some round =>
    exact (returns_send ht worker _ _).bind
      ((returns_send ht worker _ _).bind (returns_restartTimeout ht worker))

/-- The results of a finished round. -/
def roundResults (session : PvPSessionState) : Option RoundResult → List (UUID×ServerMessage)
  | none => []
  | some result =>
    [(session.player1Id,roundResultFor result session.player1Id session.player1Id),
      (session.player2Id,roundResultFor result session.player2Id session.player1Id)]

/-- They are sent. -/
theorem returns_announceRound (ht : task<2) (session : PvPSessionState)
    (result : Option RoundResult) :
    alone.Returns task (announceRound worker session.player1Id session.player2Id result) server
      () server (roundResults session result) := by
  cases result with
  | none => exact returns_pure
  | some result => exact (returns_send ht worker _ _).bind (returns_send ht worker _ _)

/-- What follows the turn and its round: the result of the match, or the next prompts. -/
def conclusions (session : PvPSessionState) : Option MatchResult → List (UUID×ServerMessage)
  | none => if session.gameState.status=.inProgress then prompts session else []
  | some result =>
    [(session.player1Id,matchResultMessage result session.player1Id session.player1Id),
      (session.player2Id,matchResultMessage result session.player2Id session.player1Id)]

/-- What is sent about a turn that has led to the session. -/
def announcements (session : PvPSessionState) (report : TurnReport) :
    List (UUID×ServerMessage) :=
  [(session.player1Id,turnResultForP1 report.turnResult),
    (session.player2Id,turnResultForP2 report.turnResult)]++
    (roundResults session report.roundResult++conclusions session report.matchResult)

/-- The next prompts follow a pause. -/
theorem returns_promptNextTurn (ht : task<2) (session : PvPSessionState) (rooms : List (Worker×UUID))
    (roundEnded : Bool) :
    alone.Returns task (promptNextTurn worker roundEnded) ⟨some session,rooms⟩ ()
      ⟨some session,rooms⟩ (conclusions session none) := by
  refine (returns_sleep ht _).silent ((returns_load ht).silent ?_)
  unfold conclusions
  dsimp only
  split
  · exact returns_sendWaitingForAction worker ht session
  · exact returns_pure

/-- A turn is announced. -/
theorem returns_announceTurn (ht : task<2) (session : PvPSessionState) (rooms : List (Worker×UUID))
    (report : TurnReport) :
    alone.Returns task
      (announceTurn worker report.turnResult
        ⟨some report.turnResult,report.roundResult,report.matchResult⟩ session.player1Id
        session.player2Id)
      ⟨some session,rooms⟩ () ⟨some session,rooms⟩ (announcements session report) := by
  refine (returns_send ht worker _ _).bind ((returns_send ht worker _ _).bind
    ((returns_announceRound worker ht session _).bind ?_))
  dsimp only
  cases report.matchResult with
  | none => exact returns_promptNextTurn worker ht session rooms _
  | some result => exact (returns_send ht worker _ _).bind (returns_send ht worker _ _)

/-- A pair that can be played is resolved, and its turn is announced. -/
theorem returns_resolveTurn (ht : task<2) {session : PvPSessionState} {p1Action p2Action : Action}
    {state : GameState} {report : TurnReport} {rooms : List (Worker×UUID)}
    (h : submitTurn session.gameState p1Action p2Action=(state,.ok report)) :
    alone.Returns task (resolveTurn worker p1Action p2Action) ⟨some session,rooms⟩ ()
      ⟨some {session with gameState := state},rooms⟩
      (announcements {session with gameState := state} report) := by
  have happly : GameSession.applyTurn p1Action p2Action ⟨none,none,none⟩ session=
      .ok (⟨some report.turnResult,report.roundResult,report.matchResult⟩,
        {session with gameState := state}) := by
    simp [GameSession.applyTurn,h]
  exact (returns_watchAndUpdate ht happly _).silent ((returns_cancelTimeout ht worker).silent
    ((returns_load ht).silent (returns_announceTurn worker ht _ rooms report)))

variable (player : UUID) (action : Action)

/-- A submission whose transaction has come to this. -/
theorem returns_submitAction (ht : task<2)
    {session stored session' : PvPSessionState}
    {captured : SubmitCaptured} {rooms : List (Worker×UUID)}
    {messages : List (UUID×ServerMessage)}
    (hs : storeAction player action .fresh session=.ok (captured,stored))
    (hc : alone.Returns task (concludeSubmit worker player action captured) ⟨some stored,rooms⟩
      () ⟨some session',rooms⟩ messages) :
    alone.Returns task (submitAction worker player action) ⟨some session,rooms⟩ ()
      ⟨some session',rooms⟩ messages :=
  (returns_watchAndUpdate ht hs _).silent hc

end Programs

section Handlers

variable {task : ℕ} {session : PvPSessionState} {rooms : List (Worker×UUID)} (worker : Worker)
  (player : UUID)

/-- game_ws from its receive loop on, with the frames that its client is going to send. -/
def playing (frames : List Frame) : Coroutine Unit :=
  Prog.cleanupWith
    ((receiveLoop worker player frames).handle fun e =>
      if e=.webSocketDisconnect then handleDisconnect worker player else .raise e)
    (closeSocket worker player)

/-- The loop begins with a wait. -/
theorem receiveLoop_op (frames : List Frame) :
    ∃ next,receiveLoop worker player frames=.op (.act (.receive frames.head?)) next := by
  cases frames <;> exact ⟨_,rfl⟩

/-- A handler in its loop waits for its client. -/
theorem comes_playing (frames : List Frame) (server : Server) :
    alone.Comes task (playing worker player frames) server (playing worker player frames)
      server [] := by
  refine comes_self ?_
  intro world fresh
  obtain ⟨next,hloop⟩ := receiveLoop_op worker player frames
  simp only [playing,Prog.cleanupWith,Prog.handle,hloop,Prog.andThen,advance,alone,receives,
    if_true]

/-- What the handler does when a frame arrives. -/
theorem playing_op (frame : Frame) (frames : List Frame) :
    ∃ next : Except Exc Unit → Coroutine Unit,
      playing worker player (frame::frames)=
        Prog.op (Op.act (LocalOp.receive (some frame)) : Op language) next ∧
      next (.ok ())=Prog.cleanupWith
        ((do
          handleFrame worker player frame
          receiveLoop worker player frames : Coroutine Unit).handle fun e =>
            if e=.webSocketDisconnect then handleDisconnect worker player else .raise e)
        (closeSocket worker player) :=
  ⟨_,rfl,rfl⟩

/-- A frame arrives. -/
theorem receives_frame (ht : task<2) (frame : Frame) {server : Server} (fresh : ℕ)
    (world : WatchedKey.World runtime) (hs : server.Holds fresh world) :
    ∃ moved events started,
      leftAlone task fresh (Op.act (LocalOp.receive (some frame)) : Op language) world=
        (moved,.ok (),started) ∧
      moved.trace=world.trace++events ∧ alone.reported events=[] ∧
      server.Holds (fresh+started.toList.length) moved := by
  refine ⟨world.acted fresh world.memory [.received task (some frame)] none,
    [.note (.received task (some frame))],none,?_,rfl,rfl,
    hs.session,hs.rooms,hs.fresh,hs.calm⟩
  rw [leftAlone_handler ht hs.calm _ rfl]
  rfl

/-- The handler serves a frame, and waits for the next one. -/
theorem serves_playing (ht : task<2) {frame : Frame} {server server' : Server}
    {messages : List (UUID×ServerMessage)} {frames : List Frame} {config : workers.Config}
    (h : alone.Returns task (handleFrame worker player frame) server () server' messages)
    (htask : config.tasks[task]?=some (playing worker player (frame::frames)))
    (hs : server.Holds config.tasks.length config.world) :
    alone.Moves task config (serves receives config task) (playing worker player frames) server'
      messages := by
  have hwait : alone.Comes task (receiveLoop worker player frames) server'
      (receiveLoop worker player frames) server' [] := by
    refine comes_self ?_
    intro world fresh
    obtain ⟨next,hnext⟩ := receiveLoop_op worker player frames
    simp only [hnext,advance,alone,receives,if_true]
  have hloop := h.bind (f := fun _ => receiveLoop worker player frames) hwait
  obtain ⟨next,hop,hnext⟩ := playing_op worker player frame frames
  obtain ⟨wait,hrest⟩ := receiveLoop_op worker player frames
  rw [List.append_nil] at hloop
  have hcomes : alone.Comes task (next (.ok ())) server (playing worker player frames) server'
      messages := by
    rw [hnext]
    unfold playing
    rw [hrest] at hloop ⊢
    exact (hloop.handle _).cleanupWith _
  rw [hop] at htask
  exact serves_moves (S := alone) runtime_raises htask hs (receives_frame ht frame) hcomes

/-- A player who has not been connected yet is recorded. -/
theorem returns_handleConnect (ht : task<2) (h : session.hasConnected player=false) :
    alone.Returns task (handleConnect worker player) ⟨some session,rooms⟩ ()
      ⟨some (session.markConnected player),rooms⟩ [] := by
  have hmark : GameSession.markConnected player ⟨none,false,none⟩ session=
      .ok (⟨none,false,some (session.markConnected player)⟩,session.markConnected player) := by
    simp [GameSession.markConnected,h]
  exact (returns_watchAndUpdate ht hmark _).silent returns_pure

/-- A match that has not been started is, and the players are prompted. -/
theorem returns_start (ht : task<2) (h : session.started=false) :
    alone.Returns task (start worker) ⟨some session,rooms⟩ ()
      ⟨some {session with started := true},rooms⟩ (prompts session) := by
  have hmark : markStarted ⟨none,false⟩ session=
      .ok (⟨some {session with started := true},false⟩,{session with started := true}) := by
    simp [markStarted,h]
  exact (returns_watchAndUpdate ht hmark _).silent
    (returns_sendWaitingForAction worker ht {session with started := true})

/-- The size of the room is read. -/
theorem returns_roomSize (ht : task<2) (server : Server) :
    alone.Returns task (act (.roomSize worker)) server
      (server.rooms.countP fun entry => entry.1=worker) server [] :=
  returns_local ht rfl fun _ world hs =>
    ⟨world.memory,[],none,by rw [←hs.rooms]; rfl,rfl,hs.session,hs.rooms,hs.fresh,hs.calm⟩

/-- The player joins the room. -/
theorem returns_register (ht : task<2) (h : (worker,player)∉rooms) :
    alone.Returns task (act (.register worker player)) ⟨some session,rooms⟩ ()
      ⟨some session,(worker,player)::rooms⟩ [] :=
  returns_local ht rfl fun _ world hs =>
    ⟨world.memory.register worker player task,[],none,rfl,rfl,hs.session,by
      have hr : world.memory.rooms=rooms := hs.rooms
      simp [World.acted,Memory.register,hr,h],hs.fresh,hs.calm.cancelled,hs.calm.turnTimers⟩

/-- A socket is opened: the player joins the room, is recorded, and the match is started if
the room is full. -/
theorem comes_gameWs (ht : task<2) {session' : PvPSessionState}
    {messages : List (UUID×ServerMessage)} (hroom : (worker,player)∉rooms)
    (hplayer : session.isPlayer player=true) (hconnected : session.hasConnected player=false)
    (hstart : alone.Returns task (startWhenFull worker)
      ⟨some (session.markConnected player),(worker,player)::rooms⟩ ()
      ⟨some session',(worker,player)::rooms⟩ messages) (frames : List Frame) :
    alone.Comes task (gameWs worker player frames) ⟨some session,rooms⟩
      (playing worker player frames) ⟨some session',(worker,player)::rooms⟩ messages := by
  have hplay : alone.Comes task (playGame worker player frames)
      ⟨some session,(worker,player)::rooms⟩ (playing worker player frames)
      ⟨some session',(worker,player)::rooms⟩ messages := by
    have h := (returns_handleConnect worker player ht hconnected).silent
      (f := fun _ => startWhenFull worker >>= fun _ => playing worker player frames)
      (hstart.bind (comes_playing worker player frames _))
    rw [List.append_nil] at h
    exact h
  refine (returns_noted ht [] rfl fun _ _ => rfl).silent ?_
  refine (returns_noted ht [] rfl fun _ _ => rfl).silent ?_
  refine (returns_register worker player ht hroom).silent ?_
  refine (returns_load ht).silent ?_
  dsimp only
  rw [hplayer]
  exact hplay

end Handlers

end KiClash.ServedSubmissions
