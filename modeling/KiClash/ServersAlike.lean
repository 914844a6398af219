import KiClash.GoPendingPairs
import KiClash.GoServedSubmissions
import KiClash.ServedMatches

/-!
# Two servers for one match

The Python worker and the Go instance next to each other. Both get the same frames from the
same two players, each served before the next one comes: the five actions, pings, and frames
of types that neither knows. They store the same session and send the players the same
messages, in the same order. What the handlers write to their own socket is not compared,
which is a pong for each ping.
-/

namespace KiClash.ServersAlike

open EngineTypes AsyncTasks WatchedKey UndisturbedTasks SlottedTurns ServedMatches
open GameStore (PvPSessionState Pairing Worker)
open GoStore (Instance)
open GoSession (goSession instances)
open ServerMessages (ServerMessage)
open GoServedSubmissions (inText reads)
open ServedSubmissions (receives)
open SubmitScript (Verdict)

section Submissions

variable {pairing : Pairing} {session : PvPSessionState}

/-- The variables of submitAction with the values of those of submit_action. -/
def goCaptured (captured : GameStore.SubmitCaptured) : GoStore.SubmitCaptured :=
  ⟨captured.validationError.getD "",captured.shouldResolve,
    (captured.p1ActionToResolve.map Action.value).getD "",
    (captured.p2ActionToResolve.map Action.value).getD "",captured.confirmedTurnNumber⟩

/-- Both mutators find so. -/
theorem go_python (action : Action) (verdict : Verdict) :
    verdict.go action=goCaptured (verdict.python action) := by
  cases verdict <;> rfl

/-- A refusal has a text. -/
theorem python_message {action : Action} {verdict : Verdict} {message : String}
    (h : (verdict.python action).validationError=some message) : message≠"" := by
  cases verdict with
  | notInProgress => exact Option.some.inj h ▸ by decide
  | noRound => exact Option.some.inj h ▸ by decide
  | cannotAfford ki => exact Option.some.inj h ▸ GoPendingPairs.cannotAfford_ne action.value ki
  | stored turnNumber => cases h
  | complete turnNumber p1Action p2Action => cases h

/-- Both mutators do the same to an action of one of the players. -/
theorem go_storeAction (h : Running pairing session) (seat : Seat) (action : Action)
    {captured : GameStore.SubmitCaptured} {stored : PvPSessionState}
    (hstore : GameSession.storeAction (player pairing seat) action .fresh session=
      .ok (captured,stored)) :
    GoSession.storeAction (player pairing seat).text action.value .zero (goSession session)=
        .ok (goCaptured captured,goSession stored) ∧
      ∀ message,captured.validationError=some message → message≠"" := by
  have hplayer : player pairing seat=session.player1Id ∨ player pairing seat=session.player2Id := by
    rw [h.player1,h.player2]
    cases seat with
    | first => exact .inl rfl
    | second => exact .inr rfl
  have hpython := SubmitScript.python_store hplayer action
  have hgo := SubmitScript.go_store h.distinct hplayer action
  rw [hstore] at hpython
  obtain ⟨hcaptured,hstored⟩ := Prod.mk.inj (Except.ok.inj hpython)
  rw [hcaptured,hstored,←go_python]
  exact ⟨hgo,fun message hm => python_message hm⟩

/-- A Go instance serves a submission as a worker does. -/
theorem go_submitted (instance' : Instance) (h : Running pairing session) {seat : Seat}
    {action : Action} {session' : PvPSessionState} {messages : List (UUID×ServerMessage)}
    (hsubmitted : Submitted pairing session seat action session' messages) :
    GoServedSubmissions.alone.Returns (taskOf seat)
      (GoSession.submitAction instance' (player pairing seat).text action.value)
      (some (goSession session)) () (some (goSession session')) (messages.map inText) := by
  cases hsubmitted with
  | rejected message hstore =>
    obtain ⟨hgo,hmessage⟩ := go_storeAction h seat action hstore
    refine GoServedSubmissions.returns_submitAction instance' hgo ?_
    have hne : message≠"" := hmessage message rfl
    simp only [GoSession.concludeSubmit,goCaptured,Option.getD_some,ne_eq,hne,not_false_eq_true,
      if_true]
    exact GoServedSubmissions.returns_send instance' _ _
  | stored round hopen hstore =>
    obtain ⟨hgo,-⟩ := go_storeAction h seat action hstore
    exact GoServedSubmissions.returns_submitAction instance' hgo
      ((GoServedSubmissions.returns_send instance' _ _).bind returns_pure)
  | resolved round p1Action p2Action state report hopen hstore hsubmit hacc =>
    obtain ⟨hgo,-⟩ := go_storeAction h seat action hstore
    exact GoServedSubmissions.returns_submitAction instance' hgo
      ((GoServedSubmissions.returns_send instance' _ _).bind
        (GoServedSubmissions.returns_resolveTurn instance' hsubmit))

end Submissions

section Frames

/-- What a client sends that both servers take for the same. It is not a malformed frame, after
which the worker closes the socket and the instance reads on. Nor is it an unknown action, which
the worker refuses and the instance stores, as it asks for no ki, nor a missing one, which they
refuse in different words. -/
inductive ClientFrame
  | submitAction (action : Action)
  | ping
  | other
  deriving DecidableEq, Repr

/-- The frame as game_ws reads it. -/
def ClientFrame.python : ClientFrame → GameStore.Frame
  | .submitAction action => .submitAction action.value
  | .ping => .ping
  | .other => .other

/-- The frame as gameWebsocket reads it. -/
def ClientFrame.go : ClientFrame → GoStore.Frame
  | .submitAction action => .submitAction action.value
  | .ping => .ping
  | .other => .other

variable {pairing : Pairing} {session : PvPSessionState}

/-- Both servers do the same with a frame. -/
theorem frame_served (worker : Worker) (instance' : Instance) (h : Running pairing session)
    (seat : Seat) (frame : ClientFrame) :
    ∃ session' messages,Running pairing session' ∧
      (∀ rooms,ServedSubmissions.alone.Returns (taskOf seat)
        (GameSession.handleFrame worker (player pairing seat) frame.python)
        ⟨some session,rooms⟩ () ⟨some session',rooms⟩ messages) ∧
      GoServedSubmissions.alone.Returns (taskOf seat)
        (GoSession.handleMessage instance' (player pairing seat).text frame.go)
        (some (goSession session)) () (some (goSession session')) (messages.map inText) := by
  cases frame with
  | submitAction action =>
    obtain ⟨session',messages,hsubmitted,hrunning⟩ := h.submitted seat action
    refine ⟨session',messages,hrunning,?_,?_⟩
    · intro rooms
      simpa only [ClientFrame.python,GameSession.handleFrame,Action.ofValue?_value] using
        returns_submitted worker hsubmitted rooms
    · have hne : action.value≠"" := by cases action <;> decide
      simp only [ClientFrame.go,GoSession.handleMessage,hne,if_false]
      exact go_submitted instance' h hsubmitted
  | ping =>
    refine ⟨session,[],h,?_,?_⟩
    · intro rooms
      exact ServedSubmissions.returns_noted (taskOf_lt seat) [] rfl fun _ _ => rfl
    · exact GoServedSubmissions.returns_writeJSON _
  | other => exact ⟨session,[],h,fun rooms => returns_pure,returns_pure⟩

end Frames

section Instances

variable (pairing : Pairing) (instance' : Instance)

/-- The request of a client that opens its socket. -/
def goEntry (frames : Seat → List GoStore.Frame) (seat : Seat) : GoStore.Entry :=
  .gameWebsocket instance' (player pairing seat).text (frames seat)

/-- Both clients have opened their sockets, and no handler has begun. -/
def goOpened (frames : Seat → List GoStore.Frame) : instances.Config :=
  ⟨((GoSession.initial pairing).world.log
      (.note (.started 0 (goEntry pairing instance' frames .first)))).log
      (.note (.started 1 (goEntry pairing instance' frames .second))),
    [GoSession.body (goEntry pairing instance' frames .first),
      GoSession.body (goEntry pairing instance' frames .second)]⟩

/-- The handlers have begun, one after the other. -/
def goBegun (leader : Seat) (frames : Seat → List GoStore.Frame) : instances.Config :=
  begins reads (begins reads (goOpened pairing instance' frames) (taskOf leader))
    (taskOf (across leader))

/-- What sendToPlayer has sent; what writeJSON has written to a socket is left out. -/
def goSent (config : instances.Config) : List (String×ServerMessage) :=
  GoServedSubmissions.alone.reported config.world.trace

/-- The instance waits for the frames of both clients. -/
structure GoWaits (session : PvPSessionState) (frames : Seat → List GoStore.Frame)
    (config : instances.Config) : Prop where
  /-- The session is stored. -/
  holds : config.world.value=some (goSession session)
  /-- The handlers wait for what comes next. -/
  handlers : ∀ seat,config.tasks[taskOf seat]?=
    some (GoSession.readLoop instance' (player pairing seat).text (frames seat))
  /-- It is a run of the instances. -/
  reached : (GoSession.initial pairing).Reaches config

variable {pairing instance'} {frames : Seat → List GoStore.Frame}

/-- The first handler waits for the other player. -/
theorem goMoves_first (leader : Seat) :
    GoServedSubmissions.alone.Moves (taskOf leader) (goOpened pairing instance' frames)
      (begins reads (goOpened pairing instance' frames) (taskOf leader))
      (GoSession.readLoop instance' (player pairing leader).text (frames leader))
      (some (goSession (pairing.session.markConnected (player pairing leader)))) [] := by
  have hplayer : pairing.session.isPlayer (player pairing leader)=true := by
    cases leader <;> simp [PvPSessionState.isPlayer,Pairing.session,player,Seat.pick]
  have hone : (pairing.session.markConnected (player pairing leader)).connectedPlayers.length<2 := by
    simp [PvPSessionState.markConnected,Pairing.session]
  have hcomes := @GoServedSubmissions.comes_gameWebsocket (taskOf leader) _ instance'
    (player pairing leader) _ _ hplayer rfl
    (GoServedSubmissions.returns_start_early instance' rfl hone) (frames leader)
  have htask : (goOpened pairing instance' frames).tasks[taskOf leader]?=
      some (GoSession.gameWebsocket instance' (player pairing leader).text (frames leader)) := by
    cases leader <;> rfl
  exact begins_moves GoServedSubmissions.runtime_raises htask rfl hcomes

/-- When the other handler has begun as well, the match is started. -/
theorem goWaits_begun (leader : Seat) :
    GoWaits pairing instance' (startedSession pairing leader) frames
        (goBegun pairing instance' leader frames) ∧
      goSent (goBegun pairing instance' leader frames)=
        (ServedSubmissions.prompts (startedSession pairing leader)).map inText := by
  have hother : across leader≠leader := by cases leader <;> decide
  have hne : player pairing (across leader)≠player pairing leader := player_inj.not.mpr hother
  have hplayer : (pairing.session.markConnected (player pairing leader)).isPlayer
      (player pairing (across leader))=true := by
    cases leader <;> simp [PvPSessionState.isPlayer,Pairing.session,player,Seat.pick,across]
  have hstarted : ((pairing.session.markConnected (player pairing leader)).markConnected
      (player pairing (across leader))).started=false := by
    rw [(markConnected_rest _ _).1,(markConnected_rest _ _).1]
    rfl
  have htwo : 2≤((pairing.session.markConnected (player pairing leader)).markConnected
      (player pairing (across leader))).connectedPlayers.length := by
    simp [PvPSessionState.markConnected,Pairing.session,hne]
  have hcomes := @GoServedSubmissions.comes_gameWebsocket (taskOf (across leader)) _ instance'
    (player pairing (across leader)) _ _ hplayer rfl
    (GoServedSubmissions.returns_start instance' hstarted htwo) (frames (across leader))
  have hfirst := @goMoves_first pairing instance' frames leader
  have htask : (goOpened pairing instance' frames).tasks[taskOf (across leader)]?=
      some (GoSession.gameWebsocket instance' (player pairing (across leader)).text
        (frames (across leader))) := by
    cases leader <;> rfl
  have hmoves := begins_moves GoServedSubmissions.runtime_raises
    (hfirst.others _ (fun he => hother (taskOf_inj.mp he)) _ htask) hfirst.holds hcomes
  have hopened : (GoSession.initial pairing).Reaches (goOpened pairing instance' frames) :=
    ⟨[.open (goEntry pairing instance' frames .first),
      .open (goEntry pairing instance' frames .second)],rfl⟩
  refine ⟨⟨hmoves.holds,?_,
    reaches_trans hopened (reaches_trans hfirst.reached hmoves.reached)⟩,?_⟩
  · intro seat
    by_cases hs : seat=across leader
    · rw [hs]
      exact hmoves.rest
    · have hseat : seat=leader := by cases leader <;> cases seat <;> simp_all [across,Seat.pick]
      rw [hseat]
      exact hmoves.others _ (fun he => hother (taskOf_inj.mp he).symm) _ hfirst.rest
  · have hsent : goSent (goBegun pairing instance' leader frames)=
        goSent (begins reads (goOpened pairing instance' frames) (taskOf leader))++
          (ServedSubmissions.prompts (startedSession pairing leader)).map inText :=
      hmoves.reported
    have hsilent : goSent (begins reads (goOpened pairing instance' frames) (taskOf leader))=
        goSent (goOpened pairing instance' frames)++[] := hfirst.reported
    rw [hsent,hsilent]
    rfl

/-- A frame is served. -/
theorem GoWaits.serves {config : instances.Config} {session session' : PvPSessionState}
    {messages : List (String×ServerMessage)} (h : GoWaits pairing instance' session frames config)
    (seat : Seat) {frame : GoStore.Frame} {rest : List GoStore.Frame}
    (hframes : frames seat=frame::rest)
    (hserved : GoServedSubmissions.alone.Returns (taskOf seat)
      (GoSession.handleMessage instance' (player pairing seat).text frame)
      (some (goSession session)) () (some (goSession session')) messages) :
    GoWaits pairing instance' session' (Function.update frames seat rest)
        (serves reads config (taskOf seat)) ∧
      goSent (serves reads config (taskOf seat))=goSent config++messages := by
  have hhandler := h.handlers seat
  rw [hframes] at hhandler
  have hmoves := GoServedSubmissions.serves_reading instance' hserved hhandler h.holds
  refine ⟨⟨hmoves.holds,?_,reaches_trans h.reached hmoves.reached⟩,hmoves.reported⟩
  intro other
  by_cases ho : other=seat
  · rw [ho,Function.update_self]
    exact hmoves.rest
  · rw [Function.update_of_ne ho]
    exact hmoves.others _ (fun he => ho (taskOf_inj.mp he)) _ (h.handlers other)

end Instances

section Runs

variable (pairing : Pairing) (worker : Worker) (instance' : Instance)

/-- The frames that the client of a seat sends: those of a schedule, and later ones. -/
def framesFor (schedule : List (Seat×ClientFrame)) (later : Seat → List ClientFrame) (seat : Seat) :
    List ClientFrame :=
  (schedule.filterMap fun entry => if entry.1=seat then some entry.2 else none)++later seat

/-- A worker serves a schedule. -/
def pythonRun (leader : Seat) (schedule : List (Seat×ClientFrame))
    (later : Seat → List ClientFrame) : GameSession.workers.Config :=
  schedule.foldl (fun config entry => serves receives config (taskOf entry.1))
    (begun pairing worker leader fun seat =>
      (framesFor schedule later seat).map ClientFrame.python)

/-- An instance serves it. -/
def goRun (leader : Seat) (schedule : List (Seat×ClientFrame))
    (later : Seat → List ClientFrame) : instances.Config :=
  schedule.foldl (fun config entry => serves reads config (taskOf entry.1))
    (goBegun pairing instance' leader fun seat =>
      (framesFor schedule later seat).map ClientFrame.go)

/-- Both servers wait for the same frames, with the same session and after the same
messages. -/
structure Alike (session : PvPSessionState) (frames : Seat → List ClientFrame)
    (python : GameSession.workers.Config) (go : instances.Config) : Prop where
  /-- The worker waits. -/
  worker : Waits pairing worker session (fun seat => (frames seat).map ClientFrame.python) python
  /-- The instance waits. -/
  instance' : GoWaits pairing instance' session (fun seat => (frames seat).map ClientFrame.go) go
  /-- The session is between two submissions. -/
  running : Running pairing session
  /-- The same has been sent. -/
  sent : goSent go=(ServedMatches.sent python).map inText

variable {pairing worker instance'}

/-- The frames that are left when the first one of a client has been served. -/
theorem update_map {Frame : Type} (f : ClientFrame → Frame)
    {frames frames' : Seat → List ClientFrame}
    {seat : Seat} (hothers : ∀ other≠seat,frames other=frames' other) :
    Function.update (fun side => (frames side).map f) seat ((frames' seat).map f)=
      fun side => (frames' side).map f := by
  funext side
  by_cases hs : side=seat
  · rw [hs,Function.update_self]
  · rw [Function.update_of_ne hs,hothers side hs]

/-- Both serve a frame. -/
theorem Alike.serves {session : PvPSessionState} {frames frames' : Seat → List ClientFrame}
    {python : GameSession.workers.Config} {go : instances.Config}
    (h : Alike pairing worker instance' session frames python go) {seat : Seat}
    {frame : ClientFrame} (hframes : frames seat=frame::frames' seat)
    (hothers : ∀ other≠seat,frames other=frames' other) :
    ∃ session',Alike pairing worker instance' session' frames'
      (serves receives python (taskOf seat)) (serves reads go (taskOf seat)) := by
  obtain ⟨session',messages,hrunning,hpython,hgo⟩ :=
    frame_served worker instance' h.running seat frame
  have hp : (frames seat).map ClientFrame.python=
      frame.python::(frames' seat).map ClientFrame.python := by
    rw [hframes]
    rfl
  have hg : (frames seat).map ClientFrame.go=frame.go::(frames' seat).map ClientFrame.go := by
    rw [hframes]
    rfl
  obtain ⟨hwaits,hsent⟩ := h.worker.serves seat hp hpython
  obtain ⟨hgoWaits,hgoSent⟩ := h.instance'.serves seat hg hgo
  rw [update_map _ hothers] at hwaits hgoWaits
  refine ⟨session',hwaits,hgoWaits,hrunning,?_⟩
  rw [hgoSent,hsent,h.sent,List.map_append]

/-- Both serve a schedule, by induction on it. -/
theorem Alike.run {session : PvPSessionState} {python : GameSession.workers.Config}
    {go : instances.Config} {later : Seat → List ClientFrame}
    (schedule : List (Seat×ClientFrame))
    (h : Alike pairing worker instance' session (framesFor schedule later) python go) :
    ∃ session',Alike pairing worker instance' session' later
      (schedule.foldl (fun config entry => UndisturbedTasks.serves receives config
        (taskOf entry.1)) python)
      (schedule.foldl (fun config entry => UndisturbedTasks.serves reads config
        (taskOf entry.1)) go) := by
  induction schedule generalizing session python go with
  | nil => exact ⟨session,h⟩
  | cons entry schedule ih =>
    obtain ⟨seat,frame⟩ := entry
    have hframes : framesFor ((seat,frame)::schedule) later seat=
        frame::framesFor schedule later seat := by
      simp [framesFor]
    have hothers : ∀ other≠seat,framesFor ((seat,frame)::schedule) later other=
        framesFor schedule later other := by
      intro other ho
      simp [framesFor,ho.symm]
    obtain ⟨session',h'⟩ := h.serves hframes hothers
    exact ih h'

/-- A worker and an instance that serve the same actions, pings and frames of other types of
the same players, each one before the next, are both in a run of theirs, have sent the same
messages to the same players in the same order, pongs apart, and store the same session, which
holds a match of the engine. -/
theorem servers_alike (pairing : Pairing) (worker : Worker) (instance' : Instance) (leader : Seat)
    (schedule : List (Seat×ClientFrame)) (later : Seat → List ClientFrame) :
    let python := pythonRun pairing worker leader schedule later
    let go := goRun pairing instance' leader schedule later
    (GameSession.initial pairing).Reaches python ∧ (GoSession.initial pairing).Reaches go ∧
      goSent go=(sent python).map inText ∧
      ∃ session calls,python.world.value=some session ∧ go.world.value=some (goSession session) ∧
        session.gameState=EngineRuns.play (Engine.startMatch pairing.gameId .pvp).1 calls := by
  obtain ⟨hpython,hsent⟩ := @waits_begun pairing worker
    (fun seat => (framesFor schedule later seat).map ClientFrame.python) leader
  obtain ⟨hgo,hgoSent⟩ := @goWaits_begun pairing instance'
    (fun seat => (framesFor schedule later seat).map ClientFrame.go) leader
  obtain ⟨session,h⟩ := Alike.run schedule
    ⟨hpython,hgo,running_started leader,by rw [hgoSent,hsent]⟩
  obtain ⟨rooms,-,hholds⟩ := h.worker.holds
  obtain ⟨calls,hcalls⟩ := h.running.played
  exact ⟨h.worker.reached,h.instance'.reached,h.sent,session,calls,hholds.session,
    h.instance'.holds,hcalls⟩

end Runs

end KiClash.ServersAlike
