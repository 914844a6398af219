import KiClash.RoundSimulation
import KiClash.ServedSubmissions
import KiClash.SlottedTurns
import KiClash.SubmitRetries

/-!
# A match that a worker serves alone

One worker and a game of two players, who open their sockets one after the other. Every
frame is served before the next one comes. Between two frames both handlers wait, and the
stored session holds a match of the engine in which somebody has still to pick an action.
-/

namespace KiClash.ServedMatches

open EngineTypes Engine EngineRuns OutcomeMatrix GameStore GameSession ServerMessages
  PendingPairs AsyncTasks WatchedKey UndisturbedTasks ServedSubmissions SlottedTurns

section Sessions

variable (pairing : Pairing)

/-- The player of a seat. -/
def player (seat : Seat) : UUID := seat.pick pairing.player1Id pairing.player2Id

/-- His pending action. -/
def pendingOf (session : PvPSessionState) (seat : Seat) : Option Action :=
  seat.pick session.p1Action session.p2Action

/-- The handler of his socket. -/
def taskOf : Seat → ℕ := Seat.pick 0 1

/-- A session of the pairing between two submissions. -/
structure Running (session : PvPSessionState) : Prop where
  /-- It belongs to player 1. -/
  player1 : session.player1Id=pairing.player1Id
  /-- It belongs to player 2. -/
  player2 : session.player2Id=pairing.player2Id
  /-- Its match has been played by the engine. -/
  played : ∃ calls,session.gameState=play (startMatch pairing.gameId .pvp).1 calls
  /-- A pending action can be paid for. -/
  affordable : ∀ seat round action,openRound session=some round →
    pendingOf session seat=some action → actionKiCost action≤ seat.pick round.p1Ki round.p2Ki
  /-- Somebody has still to pick an action. -/
  oneFree : ∃ seat,pendingOf session seat=none

variable {pairing} {session : PvPSessionState}

/-- The handlers are the first two tasks. -/
theorem taskOf_lt (seat : Seat) : taskOf seat<2 := by cases seat <;> decide

theorem taskOf_inj {seat other : Seat} : taskOf seat=taskOf other ↔ seat=other := by
  cases seat <;> cases other <;> decide

/-- The seats are taken by different players. -/
theorem player_inj {seat other : Seat} : player pairing other=player pairing seat ↔ other=seat := by
  have hne := pairing.distinct
  cases seat <;> cases other <;> simp [player,Seat.pick,hne,hne.symm]

theorem Running.distinct (h : Running pairing session) :
    session.player1Id≠session.player2Id := by
  rw [h.player1,h.player2]
  exact pairing.distinct

/-- Its match keeps the invariant of the engine. -/
theorem Running.invariant (h : Running pairing session) :
    ∃ accepted,MatchInvariant session.gameState accepted := by
  obtain ⟨calls,hcalls⟩ := h.played
  exact ⟨_,hcalls ▸ play_invariant (startMatch_invariant pairing.gameId .pvp) calls⟩

/-- The slots after a submission. -/
theorem pendingOf_storeInSlot (h : Running pairing session) (seat other : Seat) (action : Action) :
    pendingOf (storeInSlot (player pairing seat) action session) other=
      if other=seat then some action else pendingOf session other := by
  have hne := pairing.distinct
  cases seat <;> cases other <;>
    simp [pendingOf,storeInSlot,player,Seat.pick,h.player1,h.player2,hne.symm]

/-- The ki of the player who submits. -/
theorem kiOf_player (h : Running pairing session) (seat : Seat) (round : RoundState) :
    kiOf (player pairing seat) session round=seat.pick round.p1Ki round.p2Ki := by
  have hne := pairing.distinct
  cases seat <;> simp [kiOf,player,Seat.pick,h.player1,hne.symm]

/-- An accepted action can be paid for. -/
theorem Running.pays (h : Running pairing session) {seat : Seat} {action : Action}
    {round : RoundState} (haccept : acceptingRound (player pairing seat) action session=some round)
    (side : Seat) {a : Action}
    (ha : pendingOf (storeInSlot (player pairing seat) action session) side=some a) :
    actionKiCost a≤ side.pick round.p1Ki round.p2Ki := by
  obtain ⟨hopen,hvalid⟩ := acceptingRound_eq_some.mp haccept
  rw [kiOf_player h,validateAction_iff] at hvalid
  rw [pendingOf_storeInSlot h] at ha
  split at ha
  · next hside =>
    cases ha
    rw [hside]
    exact hvalid
  · exact h.affordable side round a hopen ha

/-- An action waits in its slot. -/
theorem Running.stored (h : Running pairing session) {seat : Seat} {action : Action}
    {round : RoundState} (haccept : acceptingRound (player pairing seat) action session=some round)
    (hpair : completedPair (player pairing seat) action session=none) :
    Running pairing (storeInSlot (player pairing seat) action session) := by
  have hopen := (acceptingRound_eq_some.mp haccept).1
  have hgame := storeInSlot_gameState (player pairing seat) action session
  have hsame : openRound (storeInSlot (player pairing seat) action session)=openRound session := by
    simp only [openRound,hgame]
  refine ⟨by simpa using h.player1,by simpa using h.player2,by simpa using h.played,?_,?_⟩
  · intro side r a hr ha
    obtain rfl : round=r := Option.some.inj (hopen.symm.trans (hsame.symm.trans hr))
    exact h.pays haccept side ha
  · -- both slots full would have been a pair
    by_contra hnone
    have hfull : ∀ side,pendingOf (storeInSlot (player pairing seat) action session) side≠none :=
      fun side he => hnone ⟨side,he⟩
    obtain ⟨a₁,h₁⟩ := Option.ne_none_iff_exists'.mp (hfull .first)
    obtain ⟨a₂,h₂⟩ := Option.ne_none_iff_exists'.mp (hfull .second)
    simp only [pendingOf,Seat.pick] at h₁ h₂
    simp [completedPair,haccept,h₁,h₂] at hpair

/-- A pair is played by the engine. -/
theorem Running.resolved (h : Running pairing session) {seat : Seat} {action p1Action p2Action : Action}
    {round : RoundState} (haccept : acceptingRound (player pairing seat) action session=some round)
    (h₁ : (storeInSlot (player pairing seat) action session).p1Action=some p1Action)
    (h₂ : (storeInSlot (player pairing seat) action session).p2Action=some p2Action) :
    ∃ state report,
      submitTurn (cleared (storeInSlot (player pairing seat) action session)).gameState
        p1Action p2Action=(state,.ok report) ∧
      Accepted session.gameState p1Action p2Action state report ∧
      Running pairing
        {cleared (storeInSlot (player pairing seat) action session) with gameState := state} := by
  obtain ⟨hs,hr⟩ := openRound_eq_some.mp (acceptingRound_eq_some.mp haccept).1
  have hgame := storeInSlot_gameState (player pairing seat) action session
  obtain ⟨e,-,hno⟩ | ⟨-,_,state',report,-,-,hsubmit,hacc⟩ :=
    submitTurn_cases session.gameState p1Action p2Action
  · exact absurd ⟨h.pays haccept .first h₁,h.pays haccept .second h₂⟩ (hno hs round hr)
  have hsubmit' : submitTurn
      (cleared (storeInSlot (player pairing seat) action session)).gameState p1Action p2Action=
      (state',.ok report) := by
    rw [←hsubmit]
    congr 1
  obtain ⟨calls,hcalls⟩ := h.played
  refine ⟨state',report,hsubmit',hacc,by simpa [cleared] using h.player1,
    by simpa [cleared] using h.player2,⟨calls++[(p1Action,p2Action)],?_⟩,?_,⟨.first,rfl⟩⟩
  · rw [RoundSimulation.play_append,←hcalls]
    simp only [play,hsubmit]
  · intro side r a _ ha
    cases side <;> cases ha

/-- What is stored and sent when a submission has been served. -/
inductive Submitted (pairing : Pairing) (session : PvPSessionState) (seat : Seat) (action : Action) :
    PvPSessionState → List (UUID×ServerMessage) → Prop
  | rejected (message : String)
      (h : storeAction (player pairing seat) action .fresh session=
        .ok ({SubmitCaptured.fresh with validationError := some message},session)) :
      Submitted pairing session seat action session [(player pairing seat,.errorMsg message)]
  | stored (round : RoundState) (hopen : openRound session=some round)
      (h : storeAction (player pairing seat) action .fresh session=
        .ok ({SubmitCaptured.fresh with confirmedTurnNumber := round.turnNumber+1},
          storeInSlot (player pairing seat) action session)) :
      Submitted pairing session seat action (storeInSlot (player pairing seat) action session)
        [(player pairing seat,.actionConfirmed (round.turnNumber+1) action.value)]
  | resolved (round : RoundState) (p1Action p2Action : Action) (state : GameState)
      (report : TurnReport) (hopen : openRound session=some round)
      (h : storeAction (player pairing seat) action .fresh session=
        .ok (⟨none,true,some p1Action,some p2Action,round.turnNumber+1⟩,
          cleared (storeInSlot (player pairing seat) action session)))
      (hsubmit : submitTurn
        (cleared (storeInSlot (player pairing seat) action session)).gameState p1Action p2Action=
          (state,.ok report))
      (hacc : Accepted session.gameState p1Action p2Action state report) :
      Submitted pairing session seat action
        {cleared (storeInSlot (player pairing seat) action session) with gameState := state}
        ((player pairing seat,.actionConfirmed (round.turnNumber+1) action.value)::
          announcements
            {cleared (storeInSlot (player pairing seat) action session) with gameState := state}
            report)

/-- A submission leaves a session of the same kind. -/
theorem Running.submitted (h : Running pairing session) (seat : Seat) (action : Action) :
    ∃ session' messages,Submitted pairing session seat action session' messages ∧
      Running pairing session' := by
  obtain ⟨stored,hstore⟩ :=
    SubmitRetries.storeAction_ok (player pairing seat) action .fresh session
  generalize SubmitRetries.captures (player pairing seat) action .fresh session=captured at hstore
  cases storeAction_cases hstore with
  | rejected message hrejected => exact ⟨_,_,.rejected message hstore,h⟩
  | stored round haccept hpair =>
    exact ⟨_,_,.stored round (acceptingRound_eq_some.mp haccept).1 hstore,
      h.stored haccept hpair⟩
  | completed round p1Action p2Action haccept h₁ h₂ hpair =>
    obtain ⟨state,report,hsubmit,hacc,hrun⟩ := h.resolved haccept h₁ h₂
    exact ⟨_,_,.resolved round p1Action p2Action state report
      (acceptingRound_eq_some.mp haccept).1 hstore hsubmit hacc,hrun⟩

/-- A worker serves it so. -/
theorem returns_submitted (worker : Worker) {seat : Seat} {action : Action}
    {session' : PvPSessionState} {messages : List (UUID×ServerMessage)}
    (h : Submitted pairing session seat action session' messages) (rooms : List (Worker×UUID)) :
    alone.Returns (taskOf seat) (submitAction worker (player pairing seat) action)
      ⟨some session,rooms⟩ () ⟨some session',rooms⟩ messages := by
  have ht := taskOf_lt seat
  cases h with
  | rejected message hstore =>
    exact returns_submitAction worker _ _ ht hstore (returns_send ht worker _ _)
  | stored round hopen hstore =>
    exact returns_submitAction worker _ _ ht hstore ((returns_send ht worker _ _).bind returns_pure)
  | resolved round p1Action p2Action state report hopen hstore hsubmit hacc =>
    exact returns_submitAction worker _ _ ht hstore
      ((returns_send ht worker _ _).bind (returns_resolveTurn worker ht hsubmit))

end Sessions

section Sockets

variable (pairing : Pairing) (worker : Worker)

/-- The request of a client that opens its socket. -/
def entryOf (frames : Seat → List Frame) (seat : Seat) : Entry :=
  .gameWs worker (player pairing seat) (frames seat)

/-- Both clients have opened their sockets, and no handler has begun. -/
def opened (frames : Seat → List Frame) : workers.Config :=
  ⟨((World.initial pairing.session).log
      (.note (.started 0 (entryOf pairing worker frames .first)))).log
      (.note (.started 1 (entryOf pairing worker frames .second))),
    [body (entryOf pairing worker frames .first),body (entryOf pairing worker frames .second)]⟩

/-- The other seat. -/
def across : Seat → Seat := Seat.pick .second .first

/-- The handlers have begun, one after the other. -/
def begun (leader : Seat) (frames : Seat → List Frame) : workers.Config :=
  begins receives (begins receives (opened pairing worker frames) (taskOf leader))
    (taskOf (across leader))

/-- What send_to_player has sent; what send_json has written to a socket is left out. -/
def sent (config : workers.Config) : List (UUID×ServerMessage) :=
  alone.reported config.world.trace

/-- The worker waits for the frames of both clients. -/
structure Waits (session : PvPSessionState) (frames : Seat → List Frame)
    (config : workers.Config) : Prop where
  /-- The session is stored, and both players are in the room. -/
  holds : ∃ rooms,(∀ seat,(worker,player pairing seat)∈rooms) ∧
    (Server.mk (some session) rooms).Holds config.tasks.length config.world
  /-- The handlers wait for what comes next. -/
  handlers : ∀ seat,config.tasks[taskOf seat]?=
    some (playing worker (player pairing seat) (frames seat))
  /-- It is a run of the workers. -/
  reached : (initial pairing).Reaches config

/-- The session when the match has been started. -/
def startedSession (pairing : Pairing) (leader : Seat) : PvPSessionState :=
  {(pairing.session.markConnected (player pairing leader)).markConnected
      (player pairing (across leader)) with started := true}

/-- Connections leave the rest of a session as it is. -/
theorem markConnected_rest (session : PvPSessionState) (player : UUID) :
    (session.markConnected player).started=session.started ∧
      ∀ seat,pendingOf (session.markConnected player) seat=pendingOf session seat := by
  unfold PvPSessionState.markConnected
  split <;> exact ⟨rfl,fun _ => rfl⟩

variable {pairing}

/-- Nobody has picked an action yet. -/
theorem pendingOf_started (leader seat : Seat) :
    pendingOf (startedSession pairing leader) seat=none := by
  have h := fun session player => (markConnected_rest session player).2 seat
  change pendingOf ((pairing.session.markConnected _).markConnected _) seat=none
  rw [h,h]
  cases seat <;> rfl

/-- Its match is about to begin. -/
theorem running_started (leader : Seat) : Running pairing (startedSession pairing leader) := by
  refine ⟨by simp [startedSession,Pairing.session],by simp [startedSession,Pairing.session],
    ⟨[],by simp [startedSession,Pairing.session,play]⟩,?_,⟨.first,pendingOf_started leader .first⟩⟩
  intro seat round action _ ha
  rw [pendingOf_started] at ha
  cases ha

variable {worker} {frames : Seat → List Frame}

/-- The first handler waits for the other player. -/
theorem moves_first (leader : Seat) :
    alone.Moves (taskOf leader) (opened pairing worker frames)
      (begins receives (opened pairing worker frames) (taskOf leader))
      (playing worker (player pairing leader) (frames leader))
      ⟨some (pairing.session.markConnected (player pairing leader)),
        [(worker,player pairing leader)]⟩ [] := by
  have ht := taskOf_lt leader
  have hplayer : pairing.session.isPlayer (player pairing leader)=true := by
    cases leader <;> simp [PvPSessionState.isPlayer,Pairing.session,player,Seat.pick]
  -- the room is not full yet
  have hstart : alone.Returns (taskOf leader) (startWhenFull worker)
      ⟨some (pairing.session.markConnected (player pairing leader)),
        [(worker,player pairing leader)]⟩ ()
      ⟨some (pairing.session.markConnected (player pairing leader)),
        [(worker,player pairing leader)]⟩ [] := by
    refine (returns_roomSize worker ht _).silent ?_
    simp only [List.countP_singleton,decide_true,if_true]
    exact returns_pure
  have hcomes := comes_gameWs worker (player pairing leader) ht List.not_mem_nil hplayer rfl
    hstart (frames leader)
  have htask : (opened pairing worker frames).tasks[taskOf leader]?=
      some (gameWs worker (player pairing leader) (frames leader)) := by
    cases leader <;> rfl
  exact begins_moves runtime_raises htask
    ⟨rfl,rfl,le_rfl,⟨fun timer h => absurd h List.not_mem_nil,fun _ timer h => by cases h⟩⟩ hcomes

/-- When the other handler has begun as well, the match is started. -/
theorem waits_begun (leader : Seat) :
    Waits pairing worker (startedSession pairing leader) frames
        (begun pairing worker leader frames) ∧
      sent (begun pairing worker leader frames)=prompts (startedSession pairing leader) := by
  have ht := taskOf_lt (across leader)
  have hother : across leader≠leader := by cases leader <;> decide
  have hne : player pairing (across leader)≠player pairing leader := player_inj.not.mpr hother
  have hplayer : (pairing.session.markConnected (player pairing leader)).isPlayer
      (player pairing (across leader))=true := by
    cases leader <;> simp [PvPSessionState.isPlayer,Pairing.session,player,Seat.pick,across]
  have hconnected : (pairing.session.markConnected (player pairing leader)).hasConnected
      (player pairing (across leader))=false := by
    simp [PvPSessionState.hasConnected,PvPSessionState.markConnected,Pairing.session,hne]
  -- the room is full now
  have hstart : alone.Returns (taskOf (across leader)) (startWhenFull worker)
      ⟨some ((pairing.session.markConnected (player pairing leader)).markConnected
          (player pairing (across leader))),
        [(worker,player pairing (across leader)),(worker,player pairing leader)]⟩ ()
      ⟨some (startedSession pairing leader),
        [(worker,player pairing (across leader)),(worker,player pairing leader)]⟩
      (prompts (startedSession pairing leader)) := by
    refine (returns_roomSize worker ht _).silent ?_
    simp only [List.countP_cons,List.countP_nil,decide_true,if_true]
    refine returns_start worker ht ?_
    rw [(markConnected_rest _ _).1,(markConnected_rest _ _).1]
    rfl
  have hcomes := comes_gameWs worker (player pairing (across leader)) ht (by simp [hne]) hplayer
    hconnected hstart (frames (across leader))
  have hfirst := @moves_first pairing worker frames leader
  have htask : (opened pairing worker frames).tasks[taskOf (across leader)]?=
      some (gameWs worker (player pairing (across leader)) (frames (across leader))) := by
    cases leader <;> rfl
  have hmoves := begins_moves runtime_raises
    (hfirst.others _ (fun he => hother (taskOf_inj.mp he)) _ htask) hfirst.holds hcomes
  have hopened : (initial pairing).Reaches (opened pairing worker frames) :=
    ⟨[.open (entryOf pairing worker frames .first),.open (entryOf pairing worker frames .second)],
      rfl⟩
  refine ⟨⟨⟨[(worker,player pairing (across leader)),(worker,player pairing leader)],?_,
    hmoves.holds⟩,?_,reaches_trans hopened (reaches_trans hfirst.reached hmoves.reached)⟩,?_⟩
  · intro seat
    cases leader <;> cases seat <;> simp [across,Seat.pick]
  · intro seat
    by_cases hs : seat=across leader
    · rw [hs]
      exact hmoves.rest
    · have hseat : seat=leader := by cases leader <;> cases seat <;> simp_all [across,Seat.pick]
      rw [hseat]
      exact hmoves.others _ (fun he => hother (taskOf_inj.mp he).symm) _ hfirst.rest
  · have hsent : sent (begun pairing worker leader frames)=
        sent (begins receives (opened pairing worker frames) (taskOf leader))++
          prompts (startedSession pairing leader) := hmoves.reported
    have hsilent : sent (begins receives (opened pairing worker frames) (taskOf leader))=
        sent (opened pairing worker frames)++[] := hfirst.reported
    rw [hsent,hsilent]
    rfl

/-- A frame is served. -/
theorem Waits.serves {config : workers.Config} {session session' : PvPSessionState}
    {messages : List (UUID×ServerMessage)} (h : Waits pairing worker session frames config)
    (seat : Seat) {frame : Frame} {rest : List Frame} (hframes : frames seat=frame::rest)
    (hserved : ∀ rooms,alone.Returns (taskOf seat)
      (handleFrame worker (player pairing seat) frame) ⟨some session,rooms⟩ ()
      ⟨some session',rooms⟩ messages) :
    Waits pairing worker session' (Function.update frames seat rest)
        (serves receives config (taskOf seat)) ∧
      sent (serves receives config (taskOf seat))=sent config++messages := by
  obtain ⟨rooms,hrooms,hholds⟩ := h.holds
  have hhandler := h.handlers seat
  rw [hframes] at hhandler
  have hmoves := serves_playing worker (player pairing seat) (taskOf_lt seat) (hserved rooms)
    hhandler hholds
  refine ⟨⟨⟨rooms,hrooms,hmoves.holds⟩,?_,reaches_trans h.reached hmoves.reached⟩,
    hmoves.reported⟩
  intro other
  by_cases ho : other=seat
  · rw [ho,Function.update_self]
    exact hmoves.rest
  · rw [Function.update_of_ne ho]
    exact hmoves.others _ (fun he => ho (taskOf_inj.mp he)) _ (h.handlers other)

end Sockets

end KiClash.ServedMatches
