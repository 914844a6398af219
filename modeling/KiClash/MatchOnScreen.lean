import KiClash.PvPClient
import KiClash.ServedMatches

/-!
# A match on the screens

Two clients and the server. Both clients have an open socket to their game; the players
pick actions in any order, and every submission is served before the next one comes. What
a client shows is then its player's side of the match that the engine plays.
-/

namespace KiClash.MatchOnScreen

open EngineTypes Engine EngineRuns OutcomeMatrix GameStore GameSession ServerMessages
  PendingPairs AsyncTasks WatchedKey UndisturbedTasks ServedSubmissions SlottedTurns
  ServedMatches PvPClient

section Sides

/-- The open round as the player of a seat sees it. -/
def roundFor (seat : Seat) (round : RoundState) : GameStateData :=
  ⟨round.turnNumber+1,round.roundNumber,seat.pick round.p1Ki round.p2Ki,
    seat.pick round.p2Ki round.p1Ki,turnTimeLimitSeconds⟩

/-- A winner as the player of a seat reads it. -/
def winnerFor (seat : Seat) : RoundWinner → String
  | .p1 => seat.pick "you" "opponent"
  | .p2 => seat.pick "opponent" "you"
  | .draw => "draw"

/-- The winner of a match that is over. -/
def winnerOf (state : GameState) : RoundWinner :=
  if state.roundsWonP1≥roundsToWin then .p1
  else if state.roundsWonP2≥roundsToWin then .p2 else .draw

/-- The result that ends a match. -/
theorem checkMatchEnd_eq {state : GameState} {result : MatchResult}
    (h : checkMatchEnd state=some result) : result=matchResultFor state (winnerOf state) := by
  unfold checkMatchEnd at h
  unfold winnerOf
  split_ifs at h ⊢ <;> simp_all

/-- The player of a seat. -/
def playerOf (session : PvPSessionState) (seat : Seat) : UUID :=
  seat.pick session.player1Id session.player2Id

/-- The prompt that he is sent. -/
def promptFor (seat : Seat) (round : RoundState) : ServerMessage :=
  .waitingForAction (round.turnNumber+1) turnTimeLimitSeconds round.roundNumber
    (seat.pick round.p1Ki round.p2Ki) (seat.pick round.p2Ki round.p1Ki)

/-- What he is sent about a turn, with its prompt or result. -/
def newsFor (seat : Seat) (state : GameState) (report : TurnReport) : List ServerMessage :=
  seat.pick (turnResultForP1 report.turnResult) (turnResultForP2 report.turnResult)::
    ((report.roundResult.map fun result =>
        .roundResult result.roundNumber (winnerFor seat result.winner) result.totalTurns).toList++
      match report.matchResult with
      | some result =>
        [.matchResult (winnerFor seat result.winner) result.roundsWonP1 result.roundsWonP2
          result.totalTurns]
      | none =>
        if state.status=.inProgress then (state.currentRound.map (promptFor seat)).toList else [])

/-- The messages for a player. -/
def toPlayer (player : UUID) (messages : List (UUID×ServerMessage)) : List ServerMessage :=
  messages.filterMap fun message => if message.1=player then some message.2 else none

@[simp] theorem toPlayer_append (player : UUID) (messages messages' : List (UUID×ServerMessage)) :
    toPlayer player (messages++messages')=toPlayer player messages++toPlayer player messages' := by
  simp [toPlayer]

variable {session : PvPSessionState}

/-- Of a pair of messages each player gets his own. -/
theorem toPlayer_pair (hne : session.player1Id≠session.player2Id) (seat : Seat)
    (first second : ServerMessage) :
    toPlayer (playerOf session seat) [(session.player1Id,first),(session.player2Id,second)]=
      [seat.pick first second] := by
  cases seat <;> simp [toPlayer,playerOf,Seat.pick,hne,hne.symm]

/-- A winner in the words of a player. -/
theorem winnerForPlayer_seat (hne : session.player1Id≠session.player2Id) (seat : Seat)
    (winner : RoundWinner) :
    winnerForPlayer winner (playerOf session seat) session.player1Id=winnerFor seat winner := by
  cases seat with
  | first =>
    rw [playerOf,Seat.pick,winnerForPlayer_p1]
    cases winner <;> rfl
  | second =>
    rw [playerOf,Seat.pick,winnerForPlayer_p2 winner hne]
    cases winner <;> rfl

/-- The prompts that a player gets. -/
theorem toPlayer_prompts (hne : session.player1Id≠session.player2Id) (seat : Seat) :
    toPlayer (playerOf session seat) (prompts session)=
      (session.gameState.currentRound.map (promptFor seat)).toList := by
  unfold prompts
  cases session.gameState.currentRound with
  | none => rfl
  | some round =>
    rw [toPlayer_pair hne]
    cases seat <;> rfl

/-- What a player gets of the announcements of a turn. -/
theorem toPlayer_announcements (hne : session.player1Id≠session.player2Id) (seat : Seat)
    (report : TurnReport) :
    toPlayer (playerOf session seat) (announcements session report)=
      newsFor seat session.gameState report := by
  have hround : toPlayer (playerOf session seat) (roundResults session report.roundResult)=
      (report.roundResult.map fun result => ServerMessage.roundResult result.roundNumber
        (winnerFor seat result.winner) result.totalTurns).toList := by
    unfold roundResults
    cases report.roundResult with
    | none => rfl
    | some result =>
      have h1 := winnerForPlayer_seat hne .first result.winner
      have h2 := winnerForPlayer_seat hne .second result.winner
      rw [toPlayer_pair hne]
      cases seat <;> simp_all [roundResultFor,playerOf,Seat.pick]
  have hend : toPlayer (playerOf session seat) (conclusions session report.matchResult)=
      match report.matchResult with
      | some result =>
        [.matchResult (winnerFor seat result.winner) result.roundsWonP1 result.roundsWonP2
          result.totalTurns]
      | none =>
        if session.gameState.status=.inProgress then
          (session.gameState.currentRound.map (promptFor seat)).toList else [] := by
    unfold conclusions
    cases report.matchResult with
    | none =>
      dsimp only
      split
      · exact toPlayer_prompts hne seat
      · rfl
    | some result =>
      have h1 := winnerForPlayer_seat hne .first result.winner
      have h2 := winnerForPlayer_seat hne .second result.winner
      rw [toPlayer_pair hne]
      cases seat <;> simp_all [matchResultMessage,playerOf,Seat.pick]
  rw [announcements,toPlayer_append,toPlayer_append,toPlayer_pair hne,hround,hend]
  rfl

end Sides

section Clients

/-- The client has an open socket to a game, and submits to it. -/
structure Connected (hook : Hook) (socket : ℕ) : Prop where
  /-- The socket is open, and one to a game. -/
  isOpen : ∃ number gameId token,hook.socket socket=some ⟨number,.game gameId token,.open⟩
  /-- The client refers to it. -/
  current : hook.gameWs=some socket

/-- Messages arrive at a socket of a client. -/
def receive (hook : Hook) (socket : ℕ) (messages : List ServerMessage) : Hook :=
  hook.run (messages.map (.gameMessage socket))

@[simp] theorem receive_nil (hook : Hook) (socket : ℕ) : receive hook socket []=hook := rfl

variable {hook : Hook} {socket : ℕ}

/-- What a message shows, if it does not end the match. -/
theorem receive_cons (h : Connected hook socket) {message : ServerMessage}
    (hm : message.isMatchResult=false) (messages : List ServerMessage) :
    receive hook socket (message::messages)=
      receive {hook with view := hook.view.onGameMessage message} socket messages := by
  obtain ⟨number,gameId,token,ho⟩ := h.isOpen
  simp [receive,Hook.run,Hook.step,ho,Hook.onGameMessage,hm]

/-- The client stays connected whatever it shows. -/
theorem Connected.shows (h : Connected hook socket) (view : View) :
    Connected {hook with view := view} socket := ⟨h.isOpen,h.current⟩

/-- The result of the match is shown, and the socket closes. -/
theorem receive_matchResult (h : Connected hook socket) (winner : String)
    (roundsWonP1 roundsWonP2 totalTurns : ℤ) :
    let hook' := receive hook socket [.matchResult winner roundsWonP1 roundsWonP2 totalTurns]
    hook'.view=hook.view.onGameMessage (.matchResult winner roundsWonP1 roundsWonP2 totalTurns) ∧
      hook'.readyState socket=some .closing := by
  obtain ⟨number,gameId,token,ho⟩ := h.isOpen
  have hready : ({hook with
      view := hook.view.onGameMessage (.matchResult winner roundsWonP1 roundsWonP2 totalTurns)} :
      Hook).readyState socket=some .open := by
    change (hook.socket socket).map Socket.readyState=_
    rw [ho]
    rfl
  have hclosed : ({hook with
      view := hook.view.onGameMessage (.matchResult winner roundsWonP1 roundsWonP2 totalTurns)} :
      Hook).socket socket=some ⟨number,.game gameId token,.open⟩ := ho
  simp only [receive,List.map_cons,List.map_nil,Hook.run,List.foldl_cons,List.foldl_nil,Hook.step,
    ho,Hook.onGameMessage,ServerMessage.isMatchResult,if_true,Hook.close,hready]
  refine ⟨rfl,?_⟩
  change ((Hook.gets _ socket .closing).socket socket).map Socket.readyState=_
  rw [Hook.socket_gets,hclosed]
  rfl

end Clients

section Shown

/-- What a client shows of a session: its player's side of the match. It has begun with a
certain score, which is 0 to 0 unless it still shows an earlier match. -/
structure Shows (seat : Seat) (socket : ℕ) (before : View) (session : PvPSessionState)
    (hook : Hook) : Prop where
  /-- The rounds that the player has won are counted. -/
  you : hook.view.roundsWonYou=before.roundsWonYou+
    seat.pick session.gameState.roundsWonP1 session.gameState.roundsWonP2
  /-- So are those of his opponent. -/
  opponent : hook.view.roundsWonOpponent=before.roundsWonOpponent+
    seat.pick session.gameState.roundsWonP2 session.gameState.roundsWonP1
  /-- While the match goes on, the open round is shown, and whether an action is pending. -/
  goesOn : ∀ round,openRound session=some round → Connected hook socket ∧
    hook.view.gameState=some (roundFor seat round) ∧
    hook.view.matchResult=before.matchResult ∧
    hook.view.phase=if (pendingOf session seat).isSome then .waiting else .playing
  /-- When it is over, its result is shown. -/
  isOver : openRound session=none → hook.readyState socket=some .closing ∧
    hook.view.phase=.matchEnd ∧
    hook.view.matchResult=some ⟨winnerFor seat (winnerOf session.gameState),
      session.gameState.roundsWonP1,session.gameState.roundsWonP2,
      finishedTurns session.gameState⟩

variable {seat : Seat} {socket : ℕ} {before : View} {session : PvPSessionState} {hook : Hook}

/-- The client shows more than its phase, its error and what the reveal shows. -/
theorem Shows.view (h : Shows seat socket before session hook) {view : View}
    (hyou : view.roundsWonYou=hook.view.roundsWonYou)
    (hopponent : view.roundsWonOpponent=hook.view.roundsWonOpponent)
    (hgame : view.gameState=hook.view.gameState) (hmatch : view.matchResult=hook.view.matchResult)
    (hphase : view.phase=hook.view.phase) :
    Shows seat socket before session {hook with view := view} := by
  refine ⟨hyou.trans h.you,hopponent.trans h.opponent,?_,?_⟩
  · intro round hr
    obtain ⟨hc,hg,hm,hp⟩ := h.goesOn round hr
    exact ⟨hc.shows view,hgame.trans hg,hmatch.trans hm,hphase.trans hp⟩
  · intro hr
    obtain ⟨hc,hp,hm⟩ := h.isOver hr
    exact ⟨hc,hphase.trans hp,hmatch.trans hm⟩

/-- What a client shows of a session that differs only in the slot of the other player. -/
theorem Shows.congr (h : Shows seat socket before session hook) {session' : PvPSessionState}
    (hstate : session'.gameState=session.gameState)
    (hpending : pendingOf session' seat=pendingOf session seat) :
    Shows seat socket before session' hook := by
  have hopen : openRound session'=openRound session := by simp only [openRound,hstate]
  refine ⟨?_,?_,?_,?_⟩
  · rw [hstate]
    exact h.you
  · rw [hstate]
    exact h.opponent
  · rw [hopen,hpending]
    exact h.goesOn
  · rw [hopen,hstate]
    exact h.isOver

/-- A refusal shows only its text. -/
theorem Shows.errorMsg (h : Shows seat socket before session hook) (message : String)
    {round : RoundState} (hr : openRound session=some round) :
    Shows seat socket before session (receive hook socket [.errorMsg message]) := by
  rw [receive_cons (h.goesOn round hr).1 rfl]
  exact h.view rfl rfl rfl rfl rfl

/-- A confirmation shows that the action is pending. -/
theorem Shows.actionConfirmed (h : Shows seat socket before session hook)
    {session' : PvPSessionState} (hstate : session'.gameState=session.gameState)
    (hpending : (pendingOf session' seat).isSome) {round : RoundState}
    (hr : openRound session=some round) (turn : ℤ) (action : String) :
    Shows seat socket before session'
      (receive hook socket [.actionConfirmed turn action]) := by
  have hopen : openRound session'=openRound session := by simp only [openRound,hstate]
  obtain ⟨hc,hg,hm,-⟩ := h.goesOn round hr
  rw [receive_cons hc rfl]
  refine ⟨?_,?_,?_,?_⟩
  · rw [hstate]
    exact h.you
  · rw [hstate]
    exact h.opponent
  · intro round' hr'
    obtain rfl : round=round' := by
      rw [hopen,hr] at hr'
      exact Option.some.inj hr'
    exact ⟨hc.shows _,hg,hm,by rw [hpending]; rfl⟩
  · intro hnone
    rw [hopen,hr] at hnone
    cases hnone

/-- What is shown of the rounds that have been won when a round result has arrived. -/
theorem onRoundResult (view : View) (seat : Seat) (state : GameState) (result : RoundResult)
    (hyou : view.roundsWonYou=before.roundsWonYou+
      seat.pick state.roundsWonP1 state.roundsWonP2)
    (hopponent : view.roundsWonOpponent=before.roundsWonOpponent+
      seat.pick state.roundsWonP2 state.roundsWonP1) :
    let shown := view.onGameMessage
      (.roundResult result.roundNumber (winnerFor seat result.winner) result.totalTurns)
    let scored := scoreRound state result.winner
    shown.roundsWonYou=before.roundsWonYou+seat.pick scored.roundsWonP1 scored.roundsWonP2 ∧
      shown.roundsWonOpponent=before.roundsWonOpponent+
        seat.pick scored.roundsWonP2 scored.roundsWonP1 := by
  cases seat <;> cases result.winner <;>
    simp_all [View.onGameMessage,winnerFor,scoreRound,Seat.pick,add_assoc]

/-- The news of a turn show what it has led to. -/
theorem shows_news {state state' : GameState} {p1Action p2Action : Action} {report : TurnReport}
    (hc : Connected hook socket)
    (hyou : hook.view.roundsWonYou=before.roundsWonYou+
      seat.pick state.roundsWonP1 state.roundsWonP2)
    (hopponent : hook.view.roundsWonOpponent=before.roundsWonOpponent+
      seat.pick state.roundsWonP2 state.roundsWonP1)
    (hmatch : hook.view.matchResult=before.matchResult) (hs : state.status=.inProgress)
    (hacc : Accepted state p1Action p2Action state' report) (hgame : session.gameState=state')
    (hpending : pendingOf session seat=none) :
    Shows seat socket before session (receive hook socket (newsFor seat state' report)) := by
  have hturn : (seat.pick (turnResultForP1 report.turnResult)
      (turnResultForP2 report.turnResult)).isMatchResult=false := by
    cases seat <;> rfl
  -- the reveal leaves everything else on the screen
  have hreveal : ∀ view : View,
      (view.onGameMessage (seat.pick (turnResultForP1 report.turnResult)
        (turnResultForP2 report.turnResult))).roundsWonYou=view.roundsWonYou ∧
      (view.onGameMessage (seat.pick (turnResultForP1 report.turnResult)
        (turnResultForP2 report.turnResult))).roundsWonOpponent=view.roundsWonOpponent ∧
      (view.onGameMessage (seat.pick (turnResultForP1 report.turnResult)
        (turnResultForP2 report.turnResult))).matchResult=view.matchResult := by
    intro view
    cases seat <;> exact ⟨rfl,rfl,rfl⟩
  obtain ⟨hyou₁,hopponent₁,hmatch₁⟩ := hreveal hook.view
  rw [newsFor,receive_cons hc hturn]
  generalize hook.view.onGameMessage (seat.pick (turnResultForP1 report.turnResult)
    (turnResultForP2 report.turnResult))=revealed at *
  rw [hyou] at hyou₁
  rw [hopponent] at hopponent₁
  rw [hmatch] at hmatch₁
  have hc₁ := hc.shows revealed
  cases hacc with
  | roundGoesOn round hr hw =>
    simp only [Option.map_none,Option.toList_none,List.nil_append,hs,if_true,Option.map_some,
      Option.toList_some,promptFor]
    rw [receive_cons hc₁ rfl,receive_nil]
    refine ⟨?_,?_,?_,?_⟩
    · rw [hgame]
      exact hyou₁
    · rw [hgame]
      exact hopponent₁
    · intro round' hr'
      simp only [openRound,hgame,hs,if_true,Option.some.injEq] at hr'
      subst hr'
      exact ⟨hc₁.shows _,rfl,hmatch₁,by rw [hpending]; rfl⟩
    · intro hnone
      simp [openRound,hgame,hs] at hnone
  | roundCloses round hr roundResult hw hm =>
    obtain ⟨hyou₂,hopponent₂⟩ := onRoundResult revealed seat state roundResult hyou₁ hopponent₁
    simp only [Option.map_some,Option.toList_some,List.singleton_append,scoreRound_status,hs,
      if_true,promptFor]
    rw [receive_cons hc₁ rfl,receive_cons (hc₁.shows _) rfl,receive_nil]
    refine ⟨?_,?_,?_,?_⟩
    · rw [hgame]
      exact hyou₂
    · rw [hgame]
      exact hopponent₂
    · intro round' hr'
      simp only [openRound,hgame,scoreRound_status,hs,if_true,Option.some.injEq] at hr'
      subst hr'
      exact ⟨(hc₁.shows _).shows _,rfl,hmatch₁,by rw [hpending]; rfl⟩
    · intro hnone
      simp [openRound,hgame,hs] at hnone
  | matchCloses round hr roundResult hw matchResult hm =>
    obtain ⟨hyou₂,hopponent₂⟩ := onRoundResult revealed seat state roundResult hyou₁ hopponent₁
    obtain rfl := checkMatchEnd_eq hm
    simp only [Option.map_some,Option.toList_some,List.singleton_append,matchResultFor]
    rw [receive_cons hc₁ rfl]
    obtain ⟨hview,hready⟩ := receive_matchResult (hc₁.shows _)
      (winnerFor seat (winnerOf (closedState state roundResult)))
      (closedState state roundResult).roundsWonP1 (closedState state roundResult).roundsWonP2
      (finishedTurns (closedState state roundResult))
    refine ⟨?_,?_,?_,?_⟩
    · rw [hgame,hview]
      exact hyou₂
    · rw [hgame,hview]
      exact hopponent₂
    · intro round' hr'
      simp [openRound,hgame] at hr'
    · intro _
      rw [hgame,hview]
      exact ⟨hready,rfl,rfl⟩

end Shown

section Server

variable {pairing : Pairing} {session : PvPSessionState}

theorem playerOf_eq (h : Running pairing session) (seat : Seat) :
    playerOf session seat=player pairing seat := by
  rw [playerOf,player,h.player1,h.player2]

/-- One message for the player of a seat. -/
theorem toPlayer_single (seat other : Seat) (message : ServerMessage) :
    toPlayer (player pairing other) [(player pairing seat,message)]=
      if other=seat then [message] else [] := by
  by_cases h : other=seat
  · simp [toPlayer,h]
  · have hne : ¬player pairing seat=player pairing other := fun e => h (player_inj.mp e.symm)
    simp [toPlayer,h,hne]

/-- What the two players are sent when a submission has been served shows the session that
it leaves. -/
theorem shows_submitted (h : Running pairing session) {seat : Seat} {action : Action}
    {session' : PvPSessionState} {messages : List (UUID×ServerMessage)}
    (hsubmitted : Submitted pairing session seat action session' messages)
    (h' : Running pairing session') {round : RoundState} (hround : openRound session=some round)
    {side : Seat} {hook : Hook} {before : View} {socket : ℕ}
    (hshows : Shows side socket before session hook) :
    Shows side socket before session'
      (receive hook socket (toPlayer (player pairing side) messages)) := by
  have hslots := fun other => pendingOf_storeInSlot h seat other action
  have hgame := storeInSlot_gameState (player pairing seat) action session
  cases hsubmitted with
  | rejected message hstore =>
    rw [toPlayer_single]
    split
    · exact hshows.errorMsg message hround
    · exact hshows
  | stored round' hopen hstore =>
    rw [toPlayer_single]
    split
    · next hside =>
      exact hshows.actionConfirmed hgame (by rw [hslots,if_pos hside]; rfl) hround _ _
    · next hside => exact hshows.congr hgame (by rw [hslots,if_neg hside])
  | resolved round' p1Action p2Action state report hopen hstore hsubmit hacc =>
    obtain rfl : round'=round := Option.some.inj (hopen.symm.trans hround)
    obtain ⟨hs,-⟩ := openRound_eq_some.mp hopen
    obtain ⟨hc,-,hm,-⟩ := hshows.goesOn round' hround
    have hnews := toPlayer_announcements h'.distinct side report
    rw [playerOf_eq h'] at hnews
    rw [←List.singleton_append,toPlayer_append,toPlayer_single,hnews]
    split
    · rw [List.singleton_append,receive_cons hc rfl]
      exact shows_news (hc.shows _) hshows.you hshows.opponent hm hs hacc rfl (by cases side <;> rfl)
    · rw [List.nil_append]
      exact shows_news hc hshows.you hshows.opponent hm hs hacc rfl (by cases side <;> rfl)

end Server

section Table

/-- The clients of both players, the server, and the actions that the players are still
going to pick. -/
structure Table where
  /-- The server. -/
  config : workers.Config
  /-- The clients. -/
  hooks : Seat → Hook
  /-- The actions. -/
  picks : Seat → List Action

/-- A player picks his next action, or goes on from what is revealed. -/
inductive Move
  | pick (seat : Seat)
  | continueFromReveal (seat : Seat)
  | continueFromRound (seat : Seat)
  deriving DecidableEq, Repr

variable (pairing : Pairing) (worker : Worker) (sockets : Seat → ℕ)

/-- The frames with which a client submits some actions. -/
def framesOf (actions : List Action) : List Frame :=
  actions.map fun action => .submitAction action.value

/-- A handler has got on, and what it has sent arrives. -/
def Table.after (table : Table) (config : workers.Config) : Table :=
  let news := (sent config).drop (sent table.config).length
  { config := config
    hooks := fun seat =>
      receive (table.hooks seat) (sockets seat) (toPlayer (player pairing seat) news)
    picks := table.picks }

/-- The handler of a seat goes on with the frame that it waits for. -/
def Table.serves (table : Table) (seat : Seat) : Table :=
  table.after pairing sockets (UndisturbedTasks.serves receives table.config (taskOf seat))

/-- Both clients have opened their sockets, and the handlers have begun. -/
def Table.begun (leader : Seat) (hooks : Seat → Hook) (picks : Seat → List Action) : Table :=
  (Table.mk (opened pairing worker fun seat => framesOf (picks seat)) hooks picks).after pairing
    sockets (ServedMatches.begun pairing worker leader fun seat => framesOf (picks seat))

/-- The client of a seat handles an event of its page. -/
def Table.click (table : Table) (seat : Seat) (event : PvPClient.Event) : Table :=
  {table with
    hooks := Function.update table.hooks seat ((table.hooks seat).step event).1}

/-- A move. What a client does not send is not served. -/
def Table.step (table : Table) : Move → Table
  | .pick seat =>
    match table.picks seat with
    | [] => table
    | action::actions =>
      if (table.hooks seat).submitAction action=[(sockets seat,.submitAction action)] then
        {table.serves pairing sockets seat with picks := Function.update table.picks seat actions}
      else table
  | .continueFromReveal seat => table.click seat .continueFromReveal
  | .continueFromRound seat => table.click seat .continueFromRound

/-- The moves one after another. -/
def Table.play (table : Table) (moves : List Move) : Table :=
  moves.foldl (Table.step pairing sockets) table

/-- The match on the screens. -/
structure OnScreen (before : Seat → View) (session : PvPSessionState) (table : Table) : Prop where
  /-- The server waits. -/
  waits : Waits pairing worker session (fun seat => framesOf (table.picks seat)) table.config
  /-- Its session is between two submissions. -/
  running : Running pairing session
  /-- Both clients show it. -/
  shows : ∀ seat,Shows seat (sockets seat) (before seat) session (table.hooks seat)

variable {pairing worker sockets}

/-- What arrives when a handler has got on. -/
theorem after_hooks (table : Table) {config : workers.Config} {messages : List (UUID×ServerMessage)}
    (hsent : sent config=sent table.config++messages) :
    (table.after pairing sockets config).hooks=fun seat =>
      receive (table.hooks seat) (sockets seat) (toPlayer (player pairing seat) messages) := by
  simp [Table.after,hsent]

/-- A submission that its client sends is served. -/
theorem onScreen_pick {before : Seat → View} {session : PvPSessionState} {table : Table}
    (h : OnScreen pairing worker sockets before session table) (seat : Seat) {action : Action}
    {actions : List Action} (hpicks : table.picks seat=action::actions)
    (hsent : (table.hooks seat).submitAction action=[(sockets seat,.submitAction action)]) :
    ∃ session',OnScreen pairing worker sockets before session'
      {table.serves pairing sockets seat with
        picks := Function.update table.picks seat actions} := by
  have ht := taskOf_lt seat
  -- the socket is open, so the match goes on
  have hopen : ∃ round,openRound session=some round := by
    cases hr : openRound session with
    | some round => exact ⟨round,rfl⟩
    | none =>
      have hclosing := ((h.shows seat).isOver hr).1
      unfold Hook.submitAction at hsent
      cases hws : (table.hooks seat).gameWs with
      | none => simp [hws] at hsent
      | some number =>
        simp only [hws] at hsent
        split at hsent
        · next hready =>
          obtain ⟨rfl,-⟩ : number=sockets seat ∧ True := by simpa using hsent
          simp [hclosing] at hready
        · cases hsent
  obtain ⟨round,hround⟩ := hopen
  obtain ⟨session',messages,hsubmitted,hrunning⟩ := h.running.submitted seat action
  have hframe : ∀ rooms,alone.Returns (taskOf seat)
      (handleFrame worker (player pairing seat) (.submitAction action.value))
      ⟨some session,rooms⟩ () ⟨some session',rooms⟩ messages := by
    intro rooms
    simpa only [handleFrame,Action.ofValue?_value] using returns_submitted worker hsubmitted rooms
  have hframes : framesOf (table.picks seat)=.submitAction action.value::framesOf actions := by
    rw [hpicks]
    rfl
  obtain ⟨hwaits,hsent'⟩ := h.waits.serves seat hframes hframe
  have hrest : Function.update (fun seat => framesOf (table.picks seat)) seat (framesOf actions)=
      fun other => framesOf (Function.update table.picks seat actions other) := by
    funext other
    by_cases ho : other=seat
    · rw [ho,Function.update_self,Function.update_self]
    · rw [Function.update_of_ne ho,Function.update_of_ne ho]
  rw [hrest] at hwaits
  refine ⟨session',hwaits,hrunning,?_⟩
  intro other
  change Shows _ _ _ _ ((table.serves pairing sockets seat).hooks other)
  rw [Table.serves,after_hooks table hsent']
  exact shows_submitted h.running hsubmitted hrunning hround (h.shows other)

/-- Both clients are prompted for the first turn. -/
theorem shows_started (leader seat : Seat) {hook : Hook} {socket : ℕ} (h : Connected hook socket) :
    Shows seat socket hook.view (startedSession pairing leader)
      (receive hook socket
        (toPlayer (player pairing seat) (prompts (startedSession pairing leader)))) := by
  have hrun := @running_started pairing leader
  have hgame : (startedSession pairing leader).gameState=
      ⟨pairing.gameId,.pvp,.inProgress,0,0,some ⟨1,0,0,0,[]⟩,[]⟩ := by
    simp [startedSession,Pairing.session,startMatch_eq]
  have hprompts := toPlayer_prompts hrun.distinct seat
  rw [playerOf_eq hrun] at hprompts
  rw [hprompts,hgame]
  simp only [Option.map_some,Option.toList_some,promptFor]
  rw [receive_cons h rfl,receive_nil]
  refine ⟨?_,?_,?_,?_⟩
  · rw [hgame]
    cases seat <;> simp [Seat.pick,View.onGameMessage]
  · rw [hgame]
    cases seat <;> simp [Seat.pick,View.onGameMessage]
  · intro round hr
    simp only [openRound,hgame,if_true,Option.some.injEq] at hr
    subst hr
    exact ⟨h.shows _,rfl,rfl,by rw [pendingOf_started]; rfl⟩
  · intro hr
    simp [openRound,hgame] at hr

/-- Both handlers wait when they have begun. -/
theorem onScreen_begun (leader : Seat) {hooks : Seat → Hook} (picks : Seat → List Action)
    (h : ∀ seat,Connected (hooks seat) (sockets seat)) :
    OnScreen pairing worker sockets (fun seat => (hooks seat).view) (startedSession pairing leader)
      (Table.begun pairing worker sockets leader hooks picks) := by
  obtain ⟨hwaits,hsent⟩ := @waits_begun pairing worker (fun seat => framesOf (picks seat)) leader
  refine ⟨hwaits,running_started leader,?_⟩
  intro seat
  rw [Table.begun,after_hooks _ hsent]
  exact shows_started leader seat (h seat)

/-- What a client shows does not change when its player goes on from what is revealed. -/
theorem onScreen_click {before : Seat → View} {session : PvPSessionState} {table : Table}
    (h : OnScreen pairing worker sockets before session table) (seat : Seat)
    {event : PvPClient.Event}
    (hevent : event=.continueFromReveal ∨ event=.continueFromRound) :
    OnScreen pairing worker sockets before session (table.click seat event) := by
  refine ⟨⟨h.waits.holds,h.waits.handlers,h.waits.reached⟩,h.running,?_⟩
  intro other
  have hother := h.shows other
  by_cases ho : other=seat
  · subst ho
    have hclicked : (table.click other event).hooks other=((table.hooks other).step event).1 := by
      simp [Table.click]
    rw [hclicked]
    rcases hevent with rfl | rfl
    · exact hother.view rfl rfl rfl rfl rfl
    · exact hother.view rfl rfl rfl rfl rfl
  · simpa [Table.click,ho] using hother

/-- Every move keeps the match on the screens. -/
theorem onScreen_step {before : Seat → View} {session : PvPSessionState} {table : Table}
    (h : OnScreen pairing worker sockets before session table) (move : Move) :
    ∃ session',OnScreen pairing worker sockets before session'
      (table.step pairing sockets move) := by
  cases move with
  | continueFromReveal seat => exact ⟨session,onScreen_click h seat (.inl rfl)⟩
  | continueFromRound seat => exact ⟨session,onScreen_click h seat (.inr rfl)⟩
  | pick seat =>
    cases hpicks : table.picks seat with
    | nil =>
      simp only [Table.step,hpicks]
      exact ⟨session,h⟩
    | cons action actions =>
      simp only [Table.step,hpicks]
      split
      · next hsent => exact onScreen_pick h seat hpicks hsent
      · exact ⟨session,h⟩

/-- So do any moves. -/
theorem onScreen_play {before : Seat → View} {session : PvPSessionState} {table : Table}
    (h : OnScreen pairing worker sockets before session table) (moves : List Move) :
    ∃ session',OnScreen pairing worker sockets before session'
      (table.play pairing sockets moves) := by
  induction moves generalizing session table with
  | nil => exact ⟨session,h⟩
  | cons move moves ih =>
    obtain ⟨session',h'⟩ := onScreen_step h move
    exact ih h'

end Table

section Cards

/-- The card of an action is shown and enabled: the page shows the cards while the phase is
playing and there is a gameState, and disables those that cost more than your_ki. -/
def cardEnabled (view : View) (action : Action) : Bool :=
  match view.phase,view.gameState with
  | .playing,some shown => shown.yourKi≥cardCost action
  | _,_ => false

/-- A player can click the actions that the server takes, until he has picked one. -/
theorem cardEnabled_iff {pairing : Pairing} {seat : Seat} {socket : ℕ} {before : View}
    {session : PvPSessionState} {hook : Hook} (h : Shows seat socket before session hook)
    (hrun : Running pairing session) (action : Action) :
    cardEnabled hook.view action ↔
      (acceptingRound (player pairing seat) action session).isSome ∧
        pendingOf session seat=none := by
  have haccept : acceptingRound (player pairing seat) action session=
      (openRound session).filter fun round =>
        validateAction action (kiOf (player pairing seat) session round) := rfl
  cases hr : openRound session with
  | none =>
    obtain ⟨-,hphase,-⟩ := h.isOver hr
    simp [cardEnabled,hphase,haccept,hr]
  | some round =>
    obtain ⟨-,hgame,-,hphase⟩ := h.goesOn round hr
    cases hp : pendingOf session seat with
    | some pending =>
      simp [cardEnabled,hphase,hp]
    | none =>
      rw [haccept,hr]
      simp only [cardEnabled,hphase,hp,hgame,roundFor,Option.isSome_none,Bool.false_eq_true,
        if_false,cardCost_eq,kiOf_player hrun,Option.filter,and_true]
      split <;> simp_all [validateAction]

end Cards

section Match

/-- Two clients with open sockets to a game of the same worker, and players who pick any
actions in any order, each of them served before the next one: what the workers come to is
a run of theirs, the session holds a match of the engine, and both clients show their side
of it, its score, its open round, and in the end its result. The cards that a player can
click are the actions that the server takes from him now, and while the match goes on one
of them can always click. -/
theorem match_shown (pairing : Pairing) (worker : Worker) (sockets : Seat → ℕ) (leader : Seat)
    (hooks : Seat → Hook) (picks : Seat → List Action)
    (hconnected : ∀ seat,Connected (hooks seat) (sockets seat)) (moves : List Move) :
    let table := (Table.begun pairing worker sockets leader hooks picks).play pairing sockets moves
    ∃ session calls,(initial pairing).Reaches table.config ∧
      table.config.world.value=some session ∧
      session.gameState=play (startMatch pairing.gameId .pvp).1 calls ∧
      (∀ seat,Shows seat (sockets seat) (hooks seat).view session (table.hooks seat) ∧
        ∀ action,cardEnabled (table.hooks seat).view action ↔
          (acceptingRound (player pairing seat) action session).isSome ∧
            pendingOf session seat=none) ∧
      (session.gameState.status=.inProgress →
        ∃ seat,cardEnabled (table.hooks seat).view .charge) := by
  obtain ⟨session,h⟩ := onScreen_play
    (@onScreen_begun pairing worker sockets leader hooks picks hconnected) moves
  obtain ⟨rooms,-,hholds⟩ := h.waits.holds
  obtain ⟨calls,hcalls⟩ := h.running.played
  have hcards := fun seat => cardEnabled_iff (h.shows seat) h.running
  refine ⟨session,calls,h.waits.reached,hholds.session,hcalls,fun seat =>
    ⟨h.shows seat,hcards seat⟩,?_⟩
  intro hs
  obtain ⟨seat,hfree⟩ := h.running.oneFree
  obtain ⟨accepted,hinv⟩ := h.running.invariant
  obtain ⟨round,hround⟩ := Option.isSome_iff_exists.mp (hinv.openIff.mp hs)
  have hopen : openRound session=some round := openRound_eq_some.mpr ⟨hs,hround⟩
  -- charging costs nothing
  have hki : 0≤ seat.pick round.p1Ki round.p2Ki := by
    have hr := hinv.openRound round hround
    cases seat with
    | first => exact hr.p1Ki.1
    | second => exact hr.p2Ki.1
  refine ⟨seat,(hcards seat .charge).mpr ⟨?_,hfree⟩⟩
  rw [Option.isSome_iff_exists]
  refine ⟨round,acceptingRound_eq_some.mpr ⟨hopen,?_⟩⟩
  rw [kiOf_player h.running,validateAction_iff]
  exact hki

/-- A client that has joined a game and whose socket has opened. -/
def joined : Hook := after [.joinGame (.small 0) none,.authorized 0 (some "t"),.opened 0]

theorem joined_connected : Connected joined 0 := ⟨⟨_,_,_,rfl⟩,rfl⟩

/-- Player 2 opens the match, and both pick an action. -/
theorem two_picks_shown :
    let table := (Table.begun .small 0 (fun _ => 0) .second (fun _ => joined)
      (Seat.pick [.charge,.attack] [.charge])).play .small (fun _ => 0)
      [.pick .second,.pick .first,.continueFromReveal .first,.pick .first]
    ∃ session calls,(initial .small).Reaches table.config ∧
      table.config.world.value=some session ∧
      session.gameState=play (startMatch (.small 0) .pvp).1 calls ∧
      (∀ seat,Shows seat 0 joined.view session (table.hooks seat) ∧
        ∀ action,cardEnabled (table.hooks seat).view action ↔
          (acceptingRound (player .small seat) action session).isSome ∧
            pendingOf session seat=none) ∧
      (session.gameState.status=.inProgress →
        ∃ seat,cardEnabled (table.hooks seat).view .charge) :=
  match_shown .small 0 (fun _ => 0) .second (fun _ => joined) _
    (fun _ => joined_connected) _

-- His client then waits, and the other one plays on with the ki of the first turn.
example :
    let table := (Table.begun .small 0 (fun _ => 0) .second (fun _ => joined)
      (Seat.pick [.charge,.attack] [.charge])).play .small (fun _ => 0)
      [.pick .second,.pick .first,.continueFromReveal .first,.pick .first]
    (table.hooks .first).view.phase=.waiting ∧ (table.hooks .second).view.phase=.playing ∧
      (table.hooks .second).view.gameState=some ⟨2,1,1,1,turnTimeLimitSeconds⟩ := by decide

end Match

end KiClash.MatchOnScreen
