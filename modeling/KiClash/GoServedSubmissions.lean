import KiClash.EngineSimulation
import KiClash.GoSession
import KiClash.ServedSubmissions
import KiClash.SubmitScript

/-!
# A submission that a Go instance serves alone

What a handler of gameWebsocket does when nothing overtakes it: which session it leaves,
and which messages it sends to the two players. Both are given by values of the Python
side: the session as goSession reads it, the messages under the texts of the players'
identifiers.
-/

namespace KiClash.GoServedSubmissions

open AsyncTasks WatchedKey GoStore GoSession UndisturbedTasks EngineSimulation
open EngineTypes (UUID TurnOutcome RoundWinner RoundResult MatchResult)
open Engine (TurnReport)
open GameStore (PvPSessionState)
open GoTypes (PvPSession)
open ServerMessages (ServerMessage)
open ServedSubmissions (prompts roundResults conclusions announcements)

section Setting

/-- A wait for the client. -/
def reads : Op language → Bool
  | .act (.readMessage _) => true
  | _ => false

/-- A handler runs until it waits for its client; the session is stored. -/
def alone : Setting runtime (Option PvPSession) (String×ServerMessage) where
  pauses := reads
  holds session _ world := world.value=session
  reports
    | .sent _ player message => some (player,message)
    | _ => none

/-- No operation can only fail. -/
theorem runtime_raises : Raises runtime := by
  intro world task o h
  cases h

variable {task : ℕ} {session : Option PvPSession}

/-- An operation that does not touch the key. -/
theorem returns_act {o : LocalOp} {x : o.Res} {messages : List (String×ServerMessage)}
    (hp : reads (.act o)=false)
    (h : ∀ fresh memory,∃ memory' notes started,
      o.effect true task fresh memory=(memory',notes,.ok x,started) ∧
      (notes++(started.map (Note.started fresh)).toList).filterMap alone.reports=messages) :
    alone.Returns task (act o) session x session messages := by
  refine returns_perform hp ?_
  intro fresh world hs
  obtain ⟨memory,notes,started,heffect,hrep⟩ := h fresh world.memory
  refine ⟨world.acted fresh memory notes started,_,started,?_,rfl,?_,hs⟩
  · rw [leftAlone_eq rfl]
    simp [Op.effect,heffect]
  · rw [Setting.reported_notes]
    exact hrep

/-- A message is sent. -/
theorem returns_send (instance' : Instance) (player : String) (message : ServerMessage) :
    alone.Returns task (send instance' player message) session () session
      [(player,message)] :=
  returns_act rfl fun _ memory => ⟨memory,_,none,rfl,rfl⟩

/-- A pause passes. -/
theorem returns_sleep (tenths : ℕ) :
    alone.Returns task (act (.sleep tenths)) session () session [] :=
  returns_act rfl fun _ memory => ⟨memory,_,none,rfl,rfl⟩

/-- The turn timer is stopped. -/
theorem returns_cancelTurnTimeout (instance' : Instance) :
    alone.Returns task (act (.cancelTurnTimeout instance')) session () session [] :=
  returns_act rfl fun _ memory => ⟨memory.cancelTurnTimeout instance',_,none,rfl,rfl⟩

/-- A new one is started. -/
theorem returns_startTurnTimeout (instance' : Instance) :
    alone.Returns task (startTurnTimeout instance') session () session [] :=
  (returns_cancelTurnTimeout instance').silent
    (returns_act rfl fun fresh memory => ⟨memory.setTurnTimeout instance' fresh,_,_,rfl,rfl⟩)

/-- An answer that goes to the caller's own socket. -/
theorem returns_writeJSON (message : ServerMessage) :
    alone.Returns task (act (.writeJSON message)) session () session [] :=
  returns_act rfl fun _ memory => ⟨memory,_,none,rfl,rfl⟩

/-- The socket is opened. -/
theorem returns_upgrade (instance' : Instance) (player : String) :
    alone.Returns task (act (.upgrade instance' player)) session true session [] :=
  returns_act rfl fun _ memory => ⟨memory,_,none,rfl,rfl⟩

/-- A call that returns no error. -/
theorem returns_returned {α : Type} {p : Goroutine α} {a : α} {session' : Option PvPSession}
    {messages : List (String×ServerMessage)}
    (h : alone.Returns task p session a session' messages) :
    alone.Returns task (returned p) session (.ok a) session' messages := by
  have hr := h.andThen (f := fun r => pure r) returns_pure
  rwa [List.append_nil] at hr

/-- A command on the key that leaves a session in it. -/
theorem returns_redis {o : StoreOp PvPSession Call} {x : o.Res} {session' : Option PvPSession}
    (h : ∀ world : World,world.value=session → ∃ moved events,
      o.effect task world=(moved,x) ∧ moved.trace=world.trace++events ∧
      alone.reported events=[] ∧ moved.value=session') :
    alone.Returns task (redis o) session x session' [] := by
  refine returns_perform rfl ?_
  intro fresh world hs
  obtain ⟨moved,events,heffect,htrace,hreported,hmoved⟩ := h world hs
  refine ⟨moved,events,none,?_,htrace,hreported,hmoved⟩
  rw [leftAlone_eq rfl]
  simp [Op.effect,heffect]

/-- The session is loaded. -/
theorem returns_loadSession (sess : PvPSession) :
    alone.Returns task loadSession (some sess) sess (some sess) [] := by
  have hload : alone.Returns task (redis .load) (some sess) (some sess) (some sess) [] :=
    returns_redis fun world hs =>
      ⟨world.log (.loaded task world.value),[.loaded task world.value],by
        simp [StoreOp.effect,hs],rfl,rfl,hs⟩
  exact hload.silent returns_pure

/-- The first attempt commits. -/
theorem returns_watchAndUpdate {C : Type} {call : C → Call} {mutator : Mutator C}
    {captured captured' : C} {sess sess' : PvPSession}
    (h : mutator captured sess=.ok (captured',sess')) (attempts : ℕ) :
    alone.Returns task (returned (watchAndUpdate call mutator (attempts+1) captured))
      (some sess) (.ok (captured',sess')) (some sess') [] := by
  refine returns_returned ?_
  intro world fresh hs
  have hwatch : leftAlone task fresh (.store .watch) world=(world,.ok world.version,none) := by
    rw [leftAlone_eq rfl]
    rfl
  have hget : leftAlone task fresh (.store .get) world=(world,.ok (some sess),none) := by
    have hvalue : world.value=some sess := hs
    rw [leftAlone_eq rfl]
    simp [Op.effect,StoreOp.effect,hvalue]
  have hexec : leftAlone task fresh
      (.store (.exec world.version attempts (call captured) sess')) world=
      (world.commit task (call captured) sess',.ok true,none) := by
    rw [leftAlone_eq rfl]
    simp [Op.effect,StoreOp.effect]
  rw [watchAndUpdate,redis,advance_perform rfl hwatch,redis,advance_perform rfl hget]
  simp only [h]
  rw [redis,advance_perform rfl hexec]
  -- the session is read again
  obtain ⟨moved,started,events,hadv,htrace,hreported,hmoved⟩ :=
    ((@returns_loadSession task sess').bind
      (f := fun sess => pure (captured',sess)) returns_pure)
      (world.commit task (call captured) sess') fresh rfl
  refine ⟨moved,started,
    .commit task (call captured) (world.value.getD sess') sess'::events,hadv,?_,hreported,hmoved⟩
  rw [htrace]
  simp [World.commit]

end Setting

section Words

/-- A message under the text of its player's identifier. -/
def inText (message : UUID×ServerMessage) : String×ServerMessage := (message.1.text,message.2)

/-- Both servers word an outcome alike for player 1. -/
theorem flipOutcomeFor_p1 (outcome : TurnOutcome) :
    flipOutcomeFor outcome.value "p1"=ServerMessages.flipOutcomeFor outcome .p1 := by
  cases outcome <;> decide

/-- So they do for player 2. -/
theorem flipOutcomeFor_p2 (outcome : TurnOutcome) :
    flipOutcomeFor outcome.value "p2"=ServerMessages.flipOutcomeFor outcome .p2 := by
  cases outcome <;> decide

/-- Both servers word a winner alike. -/
theorem winnerLabelFor_text (winner : RoundWinner) (playerId p1Id : UUID) :
    winnerLabelFor winner.value playerId.text p1Id.text=
      ServerMessages.winnerForPlayer winner playerId p1Id := by
  have htext : playerId.text=p1Id.text ↔ playerId=p1Id := Identifiers.text_injective.eq_iff
  unfold winnerLabelFor ServerMessages.winnerForPlayer
  simp only [htext]
  cases winner <;> rfl

end Words

section Programs

variable {task : ℕ} (instance' : Instance)

/-- The players are prompted. -/
theorem returns_sendWaitingForAction (session : PvPSessionState) (stored : Option PvPSession) :
    alone.Returns task (sendWaitingForAction instance' (goSession session)) stored () stored
      ((prompts session).map inText) := by
  have hround : (goSession session).gameState.currentRound=
      session.gameState.currentRound.map goRoundState := rfl
  unfold sendWaitingForAction prompts
  rw [hround]
  cases session.gameState.currentRound with
  | none => exact returns_pure
  | some round =>
    exact (returns_send instance' _ _).bind
      ((returns_send instance' _ _).bind (returns_startTurnTimeout instance'))

/-- The results of a round are sent. -/
theorem returns_sendRoundResult (session : PvPSessionState) (stored : Option PvPSession)
    (result : Option RoundResult) :
    alone.Returns task
      (sendRoundResult instance' session.player1Id.text session.player2Id.text
        (result.map goRoundResult)) stored () stored
      ((roundResults session result).map inText) := by
  cases result with
  | none => exact returns_pure
  | some result =>
    have hwords : ∀ playerId : UUID,
        roundResultFor (goRoundResult result) playerId.text session.player1Id.text=
          GameSession.roundResultFor result playerId session.player1Id := by
      intro playerId
      simp only [roundResultFor,GameSession.roundResultFor,goRoundResult,winnerLabelFor_text]
    simp only [Option.map_some,sendRoundResult,hwords]
    exact (returns_send instance' _ _).bind (returns_send instance' _ _)

/-- The next prompts follow a pause. -/
theorem returns_promptNextTurn (session : PvPSessionState) (roundEnded : Bool) :
    alone.Returns task (promptNextTurn instance' roundEnded) (some (goSession session)) ()
      (some (goSession session)) ((conclusions session none).map inText) := by
  have hstatus : (goSession session).gameState.status=GoTypes.matchInProgress ↔
      session.gameState.status=.inProgress := status_value_eq _
  refine (returns_sleep _).silent ((returns_returned (returns_loadSession _)).silent ?_)
  unfold conclusions
  dsimp only
  by_cases hs : session.gameState.status=.inProgress
  · rw [if_pos hs,if_pos (hstatus.mpr hs)]
    exact returns_sendWaitingForAction instance' session _
  · rw [if_neg hs,if_neg (hstatus.not.mpr hs)]
    exact returns_pure

/-- A turn is announced. -/
theorem returns_concludeResolve (session : PvPSessionState) (report : TurnReport) :
    alone.Returns task
      (concludeResolve instance'
        ⟨(goReport report).turnResult,(goReport report).roundResult,(goReport report).matchResult⟩
        (goSession session)) (some (goSession session)) () (some (goSession session))
      ((announcements session report).map inText) := by
  have h₁ : turnResultForP1 (goTurnResult report.turnResult)=
      GameSession.turnResultForP1 report.turnResult := by
    simp [turnResultForP1,GameSession.turnResultForP1,goTurnResult,flipOutcomeFor_p1]
  have h₂ : turnResultForP2 (goTurnResult report.turnResult)=
      GameSession.turnResultForP2 report.turnResult := by
    simp [turnResultForP2,GameSession.turnResultForP2,goTurnResult,flipOutcomeFor_p2]
  simp only [goReport,announcements,List.map_append,List.map_cons,List.map_nil,inText,←h₁,←h₂]
  refine (returns_cancelTurnTimeout instance').silent ?_
  refine (returns_send instance' _ _).bind ((returns_send instance' _ _).bind ?_)
  refine (returns_sendRoundResult instance' session _ _).bind ?_
  cases report.matchResult with
  | none => exact returns_promptNextTurn instance' session _
  | some result =>
    have hwords : ∀ playerId : UUID,
        matchResultFor (goMatchResult result) playerId.text session.player1Id.text=
          GameSession.matchResultMessage result playerId session.player1Id := by
      intro playerId
      simp only [matchResultFor,GameSession.matchResultMessage,goMatchResult,winnerLabelFor_text]
    simp only [conclusions,List.map_cons,List.map_nil,inText,←hwords]
    exact (returns_send instance' _ _).bind (returns_send instance' _ _)

/-- A pair that can be played is resolved, and its turn is announced. -/
theorem returns_resolveTurn {session : PvPSessionState} {p1Action p2Action : EngineTypes.Action}
    {state : EngineTypes.GameState} {report : TurnReport}
    (h : Engine.submitTurn session.gameState p1Action p2Action=(state,.ok report)) :
    alone.Returns task (resolveTurn instance' p1Action.value p2Action.value)
      (some (goSession session)) () (some (goSession {session with gameState := state}))
      ((announcements {session with gameState := state} report).map inText) := by
  obtain ⟨hstate,hagree⟩ := submitTurn_value session.gameState p1Action p2Action
  rw [h] at hstate hagree
  have happly : applyTurn p1Action.value p2Action.value ⟨zeroTurnResult,none,none⟩
      (goSession session)=
      .ok (⟨(goReport report).turnResult,(goReport report).roundResult,
        (goReport report).matchResult⟩,goSession {session with gameState := state}) := by
    have hgame : (goSession session).gameState=goGameState session.gameState := rfl
    rcases hsubmit : GoEngine.submitTurn (goGameState session.gameState) p1Action.value
      p2Action.value with ⟨gameState,result⟩
    rw [hsubmit] at hstate hagree
    cases result with
    | error message => exact hagree.elim
    | ok result =>
      simp only [ResultsAgree] at hagree
      simp only at hstate
      simp only [applyTurn,hgame,hsubmit,hagree,hstate]
      rfl
  exact (returns_watchAndUpdate happly _).silent (returns_concludeResolve instance' _ report)

/-- A submission whose transaction has come to this. -/
theorem returns_submitAction {playerId : String} {action : String} {sess stored : PvPSession}
    {sess' : Option PvPSession} {captured : SubmitCaptured} {messages : List (String×ServerMessage)}
    (hs : storeAction playerId action .zero sess=.ok (captured,stored))
    (hc : alone.Returns task (concludeSubmit instance' playerId action captured) (some stored) ()
      sess' messages) :
    alone.Returns task (submitAction instance' playerId action) (some sess) () sess' messages :=
  (returns_watchAndUpdate hs _).silent hc

end Programs

section Handlers

variable {task : ℕ} {session : PvPSessionState} (instance' : Instance) (player : UUID)

/-- The loop begins with a wait. -/
theorem readLoop_op (playerId : String) (frames : List Frame) :
    ∃ next,readLoop instance' playerId frames=.op (.act (.readMessage frames.head?)) next := by
  cases frames <;> exact ⟨_,rfl⟩

/-- A handler in its loop waits for its client. -/
theorem comes_readLoop (playerId : String) (frames : List Frame) (stored : Option PvPSession) :
    alone.Comes task (readLoop instance' playerId frames) stored
      (readLoop instance' playerId frames) stored [] := by
  refine comes_self ?_
  intro world fresh
  obtain ⟨next,hloop⟩ := readLoop_op instance' playerId frames
  simp only [hloop,advance,alone,reads,if_true]

/-- A frame arrives. -/
theorem reads_frame (frame : Frame) (stored : Option PvPSession) (fresh : ℕ) (world : World)
    (hs : alone.holds stored fresh world) :
    ∃ moved events started,
      leftAlone task fresh (Op.act (LocalOp.readMessage (some frame)) : Op language) world=
        (moved,.ok (),started) ∧
      moved.trace=world.trace++events ∧ alone.reported events=[] ∧
      alone.holds stored (fresh+started.toList.length) moved :=
  ⟨world.acted fresh world.memory [.received task (some frame)] none,
    [.note (.received task (some frame))],none,by rw [leftAlone_eq rfl]; rfl,rfl,rfl,hs⟩

/-- The handler serves a frame, and waits for the next one. -/
theorem serves_reading {playerId : String} {frame : Frame} {stored stored' : Option PvPSession}
    {messages : List (String×ServerMessage)} {frames : List Frame} {config : instances.Config}
    (h : alone.Returns task (handleMessage instance' playerId frame) stored () stored' messages)
    (htask : config.tasks[task]?=some (readLoop instance' playerId (frame::frames)))
    (hs : config.world.value=stored) :
    alone.Moves task config (serves reads config task) (readLoop instance' playerId frames) stored'
      messages := by
  have hloop := h.bind (f := fun _ => readLoop instance' playerId frames)
    (comes_readLoop instance' playerId frames stored')
  rw [List.append_nil] at hloop
  exact serves_moves (S := alone) runtime_raises htask hs (reads_frame frame stored) hloop

/-- The Go struct of a session in which a player has been recorded. -/
theorem goSession_markConnected (session : PvPSessionState) :
    (goSession session).markConnected player.text=goSession (session.markConnected player) := by
  have hconnected : (goSession session).hasConnected player.text=session.hasConnected player := by
    rw [Bool.eq_iff_iff]
    simp [GoTypes.PvPSession.hasConnected,PvPSessionState.hasConnected,goSession,
      GoTypes.Slice.elements,Identifiers.text_injective.eq_iff]
  unfold GoTypes.PvPSession.markConnected PvPSessionState.markConnected
  rw [hconnected]
  simp only [PvPSessionState.hasConnected,decide_eq_true_eq]
  split
  · rfl
  · simp [goSession,GoTypes.Slice.append,GoTypes.Slice.elements]

/-- A player who has not been connected yet is recorded. -/
theorem returns_handleConnect (hplayer : session.isPlayer player=true)
    (hstarted : session.started=false) :
    alone.Returns task (handleConnect instance' player.text) (some (goSession session)) ()
      (some (goSession (session.markConnected player))) [] := by
  have hgo : (goSession session).isPlayer player.text=true := by
    simpa [GoTypes.PvPSession.isPlayer,PvPSessionState.isPlayer,goSession,
      Identifiers.text_injective.eq_iff] using hplayer
  have hmark : ∃ opponent,markConnected player.text ⟨"",false⟩ (goSession session)=
      .ok (⟨opponent,false⟩,goSession (session.markConnected player)) := by
    have hold : (goSession session).started=false := hstarted
    have hconnected := goSession_markConnected player session
    unfold markConnected
    rw [hgo]
    simp only [Bool.not_true,Bool.false_eq_true,if_false,hold,Bool.false_and]
    split
    · rw [hconnected]
      exact ⟨_,rfl⟩
    · next hlive =>
      rw [←hconnected,GoTypes.PvPSession.markConnected,if_pos (by simpa using hlive)]
      exact ⟨_,rfl⟩
  obtain ⟨opponent,hmark⟩ := hmark
  exact (returns_watchAndUpdate hmark _).silent returns_pure

/-- As long as a player is missing, the match is not started. -/
theorem returns_start_early (hstarted : session.started=false)
    (hmissing : session.connectedPlayers.length<2) :
    alone.Returns task (start instance') (some (goSession session)) () (some (goSession session))
      [] := by
  have hmark : ∃ waitingFor,markStarted ⟨false,0⟩ (goSession session)=
      .ok (⟨false,waitingFor⟩,goSession session) := by
    have hold : (goSession session).started=false := hstarted
    have hlength : (goSession session).connectedPlayers.length<2 := by
      simpa [goSession,GoTypes.Slice.length,GoTypes.Slice.elements] using hmissing
    unfold markStarted
    rw [hold,if_neg (by simp),if_pos hlength]
    exact ⟨_,rfl⟩
  obtain ⟨waitingFor,hmark⟩ := hmark
  exact (returns_watchAndUpdate hmark _).silent returns_pure

/-- When both are there, it is, and the players are prompted. -/
theorem returns_start (hstarted : session.started=false)
    (hboth : 2≤ session.connectedPlayers.length) :
    alone.Returns task (start instance') (some (goSession session)) ()
      (some (goSession {session with started := true})) ((prompts session).map inText) := by
  have hmark : markStarted ⟨false,0⟩ (goSession session)=
      .ok (⟨true,0⟩,goSession {session with started := true}) := by
    have hold : (goSession session).started=false := hstarted
    have hlength : ¬(goSession session).connectedPlayers.length<2 := by
      have hsame : (goSession session).connectedPlayers.length=session.connectedPlayers.length := by
        simp only [goSession,GoTypes.Slice.length,GoTypes.Slice.elements,Option.getD_some,
          List.length_map]
      omega
    unfold markStarted
    rw [hold,if_neg (by simp),if_neg hlength]
    rfl
  exact (returns_watchAndUpdate hmark _).silent
    (returns_sendWaitingForAction instance' {session with started := true} _)

/-- A socket is opened: the player is recorded, and the match is started if he is the second
one. -/
theorem comes_gameWebsocket {stored' : Option PvPSession} {messages : List (String×ServerMessage)}
    (hplayer : session.isPlayer player=true) (hstarted : session.started=false)
    (hstart : alone.Returns task (start instance')
      (some (goSession (session.markConnected player))) () stored' messages)
    (frames : List Frame) :
    alone.Comes task (gameWebsocket instance' player.text frames) (some (goSession session))
      (readLoop instance' player.text frames) stored' messages := by
  have hgo : (goSession session).isPlayer player.text=true := by
    simpa [GoTypes.PvPSession.isPlayer,PvPSessionState.isPlayer,goSession,
      Identifiers.text_injective.eq_iff] using hplayer
  refine (returns_returned (returns_loadSession _)).silent ?_
  dsimp only
  rw [hgo]
  refine (returns_upgrade instance' player.text).silent ?_
  have h := (@returns_handleConnect task _ instance' player hplayer hstarted).silent
    (f := fun _ => start instance' >>= fun _ => readLoop instance' player.text frames)
    (hstart.bind (comes_readLoop instance' player.text frames _))
  rw [List.append_nil] at h
  exact h

end Handlers

end KiClash.GoServedSubmissions
