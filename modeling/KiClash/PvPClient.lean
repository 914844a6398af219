import KiClash.Matchmaking
import KiClash.ServerMessages
import Mathlib.Data.List.Induction

/-!
# The client of a match

The hook usePvP of web/src/hooks/usePvP.ts: what the page shows, the two socket
references and the sockets that the hook has made. Clicks, answers of ensureAuth and the
events of the sockets come in any order. A message reaches its handler only while its
socket is OPEN; send raises while a socket is CONNECTING and discards what it is given
once the socket closes. Analytics are left out.
-/

namespace KiClash.PvPClient

open EngineTypes OutcomeMatrix ServerMessages

section State

/-- PvPPhase. -/
inductive Phase
  | lobby | searching | matched | playing | waiting | revealing | roundEnd | matchEnd
  deriving DecidableEq, Repr

/-- GameStateData. -/
structure GameStateData where
  /-- turn. -/
  turn : ℤ
  /-- round_number. -/
  roundNumber : ℤ
  /-- your_ki. -/
  yourKi : ℤ
  /-- opponent_ki. -/
  opponentKi : ℤ
  /-- time_limit. -/
  timeLimit : ℤ
  deriving DecidableEq, Repr

/-- TurnResultData. -/
structure TurnResultData where
  /-- turn_number. -/
  turnNumber : ℤ
  /-- your_action. -/
  yourAction : String
  /-- opponent_action. -/
  opponentAction : String
  /-- outcome. -/
  outcome : String
  /-- your_ki. -/
  yourKi : ℤ
  /-- opponent_ki. -/
  opponentKi : ℤ
  deriving DecidableEq, Repr

/-- RoundResultData. -/
structure RoundResultData where
  /-- round_number. -/
  roundNumber : ℤ
  /-- winner. -/
  winner : String
  /-- total_turns. -/
  totalTurns : ℤ
  deriving DecidableEq, Repr

/-- MatchResultData. -/
structure MatchResultData where
  /-- winner. -/
  winner : String
  /-- rounds_won_p1. -/
  roundsWonP1 : ℤ
  /-- rounds_won_p2. -/
  roundsWonP2 : ℤ
  /-- total_turns. -/
  totalTurns : ℤ
  deriving DecidableEq, Repr

/-- The state of the hook, which the page renders. -/
structure View where
  /-- phase. -/
  phase : Phase
  /-- opponentName. -/
  opponentName : Option String
  /-- gameState. -/
  gameState : Option GameStateData
  /-- turnResult. -/
  turnResult : Option TurnResultData
  /-- roundResult. -/
  roundResult : Option RoundResultData
  /-- matchResult. -/
  matchResult : Option MatchResultData
  /-- roundsWonYou. -/
  roundsWonYou : ℤ
  /-- roundsWonOpponent. -/
  roundsWonOpponent : ℤ
  /-- error. -/
  error : Option String
  deriving DecidableEq, Repr

/-- The initial state; backToLobby returns to it. -/
def View.initial : View := ⟨.lobby,none,none,none,none,none,0,0,none⟩

/-- readyState of a WebSocket. -/
inductive ReadyState
  | connecting | «open» | closing | closed
  deriving DecidableEq, Repr

/-- The address of a socket. -/
inductive Address
  | matchmaking (token : String)
  | game (gameId : UUID) (token : String)
  deriving DecidableEq, Repr

/-- A socket that the hook has made. -/
structure Socket where
  /-- Its number. -/
  number : ℕ
  /-- Its address. -/
  address : Address
  /-- readyState. -/
  readyState : ReadyState
  deriving DecidableEq, Repr

/-- It is connected to a game. -/
def Socket.isGame (socket : Socket) : Bool :=
  match socket.address with
  | .game _ _ => true
  | .matchmaking _ => false

/-- A call that awaits ensureAuth. -/
inductive Waiting
  | findMatch
  | joinGame (gameId : UUID) (name : Option String)
  deriving DecidableEq, Repr

/-- What the client sends. -/
inductive ClientMessage
  | leaveQueue
  | submitAction (action : Action)
  deriving DecidableEq, Repr

/-- What the matchmaking socket receives. -/
inductive QueueMessage
  | queueJoined
  | matchFound (gameId : UUID) (opponentName : String)
  | matchmakingTimeout
  | pong
  deriving DecidableEq, Repr

/-- The hook: its state, its references, its sockets and its calls. -/
structure Hook where
  /-- The state. -/
  view : View
  /-- matchmakingWs. -/
  matchmakingWs : Option ℕ
  /-- gameWs. -/
  gameWs : Option ℕ
  /-- The sockets, the newest one first. -/
  sockets : List Socket
  /-- The calls that await ensureAuth. -/
  waiting : List Waiting
  deriving DecidableEq, Repr

/-- The component has been mounted. -/
def Hook.mounted : Hook := ⟨.initial,none,none,[],[]⟩

/-- What can happen to the hook. -/
inductive Event
  | findMatch
  | joinGame (gameId : UUID) (name : Option String)
  | cancelSearch
  | submitAction (action : Action)
  | continueFromReveal
  | continueFromRound
  | backToLobby
  | unmount
  /-- ensureAuth of a call has returned, and getToken returns this. -/
  | authorized (call : ℕ) (token : Option String)
  /-- ensureAuth of a call has raised, an Error with a message or something else. -/
  | refused (call : ℕ) (message : Option String)
  | opened (socket : ℕ)
  | gameMessage (socket : ℕ) (message : ServerMessage)
  | queueMessage (socket : ℕ) (message : QueueMessage)
  /-- The socket is closed; onerror comes first if it has failed. -/
  | closed (socket : ℕ) (failed : Bool)
  deriving DecidableEq, Repr

end State

section Sockets

/-- The socket with a number. -/
def Hook.socket (hook : Hook) (number : ℕ) : Option Socket :=
  hook.sockets.find? fun socket => socket.number=number

/-- readyState of a socket. -/
def Hook.readyState (hook : Hook) (number : ℕ) : Option ReadyState :=
  (hook.socket number).map Socket.readyState

/-- A socket gets to a readyState. -/
def Hook.gets (hook : Hook) (number : ℕ) (state : ReadyState) : Hook :=
  {hook with
    sockets := hook.sockets.map fun socket =>
      if socket.number=number then {socket with readyState := state} else socket}

/-- The socket is there as before, with the new readyState. -/
theorem Hook.socket_gets (hook : Hook) (number : ℕ) (state : ReadyState) :
    (hook.gets number state).socket number=
      (hook.socket number).map fun socket => {socket with readyState := state} := by
  have hnumber : ((fun socket : Socket => decide (socket.number=number)) ∘ fun socket : Socket =>
      if socket.number=number then {socket with readyState := state} else socket)=
      fun socket => decide (socket.number=number) := by
    funext socket
    by_cases h : socket.number=number <;> simp [h]
  simp only [socket,gets,List.find?_map,hnumber]
  cases hs : hook.sockets.find? fun socket => decide (socket.number=number) with
  | none => rfl
  | some socket =>
    have hn := List.find?_some hs
    simp only [decide_eq_true_eq] at hn
    simp [hn]

/-- close(), which does nothing to a socket that closes already. -/
def Hook.close (hook : Hook) (number : ℕ) : Hook :=
  match hook.readyState number with
  | some .connecting | some .open => hook.gets number .closing
  | _ => hook

/-- ref.current?.close(). -/
def Hook.closeRef (hook : Hook) : Option ℕ → Hook
  | none => hook
  | some number => hook.close number

/-- new WebSocket. -/
def Hook.connect (hook : Hook) (address : Address) : Hook :=
  {hook with sockets := ⟨hook.sockets.length,address,.connecting⟩::hook.sockets}

end Sockets

section Handlers

/-- onmessage of a game socket, as far as the state goes. -/
def View.onGameMessage (view : View) : ServerMessage → View
  | .waitingForAction turn timeLimit roundNumber p1Ki p2Ki =>
    {view with gameState := some ⟨turn,roundNumber,p1Ki,p2Ki,timeLimit⟩,phase := .playing}
  | .actionConfirmed _ _ => {view with phase := .waiting}
  | .turnResult turnNumber yourAction opponentAction outcome yourKi opponentKi =>
    {view with
      turnResult := some ⟨turnNumber,yourAction,opponentAction,outcome,yourKi,opponentKi⟩
      phase := .revealing}
  | .roundResult roundNumber winner totalTurns =>
    {view with
      roundResult := some ⟨roundNumber,winner,totalTurns⟩
      roundsWonYou := if winner="you" then view.roundsWonYou+1 else view.roundsWonYou
      roundsWonOpponent :=
        if winner="you" then view.roundsWonOpponent
        else if winner="opponent" then view.roundsWonOpponent+1 else view.roundsWonOpponent
      phase := .roundEnd}
  | .matchResult winner roundsWonP1 roundsWonP2 totalTurns =>
    {view with
      matchResult := some ⟨winner,roundsWonP1,roundsWonP2,totalTurns⟩
      phase := .matchEnd}
  | .opponentDisconnected reconnectTimeout =>
    {view with
      error := some ("Opponent disconnected. Waiting "++toString reconnectTimeout++"s...")}
  | .opponentReconnected => {view with error := none}
  | .errorMsg message => {view with error := some message}
  | .pong => view

/-- connectToGame. -/
def Hook.connectToGame (hook : Hook) (gameId : UUID) (token : String) : Hook :=
  {hook.connect (.game gameId token) with gameWs := some hook.sockets.length}

/-- onmessage of a game socket. -/
def Hook.onGameMessage (hook : Hook) (socket : ℕ) (message : ServerMessage) : Hook :=
  let shown := {hook with view := hook.view.onGameMessage message}
  if message.isMatchResult then {shown.close socket with gameWs := none} else shown

/-- onmessage of a matchmaking socket that was made with a token. -/
def Hook.onQueueMessage (hook : Hook) (socket : ℕ) (token : String) : QueueMessage → Hook
  | .queueJoined | .pong => hook
  | .matchFound gameId opponentName =>
    let shown := {hook with
      view := {hook.view with opponentName := some opponentName,phase := .matched}}
    {shown.close socket with matchmakingWs := none}.connectToGame gameId token
  | .matchmakingTimeout =>
    let shown := {hook with
      view := {hook.view with
        error := some "No opponents found. Try AI mode!",phase := .lobby}}
    {shown.close socket with matchmakingWs := none}

/-- onerror of a socket. -/
def View.onError (view : View) (isGame : Bool) : View :=
  {view with
    error := some (if isGame then "Game connection error" else "Connection error")
    phase := .lobby}

/-- onclose of a socket, after onerror if it has failed. -/
def Hook.onClose (hook : Hook) (socket : Socket) (failed : Bool) : Hook :=
  let hook := {hook.gets socket.number .closed with
    view := if failed then hook.view.onError socket.isGame else hook.view}
  if socket.isGame then {hook with gameWs := none} else {hook with matchmakingWs := none}

/-- if (name) setOpponentName(name). -/
def View.named (view : View) (name : Option String) : View :=
  match name with
  | none => view
  | some name => if name="" then view else {view with opponentName := some name}

/-- A call goes on after its await. -/
def Hook.proceed (hook : Hook) (token : String) : Waiting → Hook
  | .findMatch =>
    let hook := {hook with view := {hook.view with phase := .searching}}
    {hook.connect (.matchmaking token) with matchmakingWs := some hook.sockets.length}
  | .joinGame gameId name =>
    {hook with view := {hook.view.named name with phase := .matched}}.connectToGame gameId token

/-- The text of a call that has failed without an Error. -/
def Waiting.failure : Waiting → String
  | .findMatch => "Failed to find match"
  | .joinGame _ _ => "Failed to join game"

/-- backToLobby; the references stay until the sockets have closed. -/
def Hook.backToLobby (hook : Hook) : Hook :=
  let closing := (hook.closeRef hook.gameWs).closeRef hook.matchmakingWs
  {closing with view := .initial}

/-- cancelSearch: leave_queue is lost if the socket closes already, and raises if it is not
yet open. -/
def Hook.cancelSearch (hook : Hook) : Hook×List (ℕ×ClientMessage) :=
  let lobby (hook : Hook) : Hook := {hook with view := {hook.view with phase := .lobby}}
  match hook.matchmakingWs with
  | none => (lobby hook,[])
  | some number =>
    match hook.readyState number with
    | some .connecting => (hook,[])
    | state =>
      (lobby {hook.close number with matchmakingWs := none},
        if state=some .open then [(number,.leaveQueue)] else [])

/-- submitAction. -/
def Hook.submitAction (hook : Hook) (action : Action) : List (ℕ×ClientMessage) :=
  match hook.gameWs with
  | none => []
  | some number =>
    if hook.readyState number=some .open then [(number,.submitAction action)] else []

/-- A call and the others. -/
def Hook.take (hook : Hook) (call : ℕ) : Option (Waiting×Hook) :=
  hook.waiting[call]?.map fun waiting =>
    (waiting,{hook with waiting := hook.waiting.eraseIdx call})

/-- One event, with what is sent. -/
def Hook.step (hook : Hook) : Event → Hook×List (ℕ×ClientMessage)
  | .findMatch =>
    ({hook with
      view := {hook.view with error := none},waiting := hook.waiting++[.findMatch]},[])
  | .joinGame gameId name =>
    ({hook with
      view := {hook.view with error := none}
      waiting := hook.waiting++[.joinGame gameId name]},[])
  | .cancelSearch => hook.cancelSearch
  | .submitAction action => (hook,hook.submitAction action)
  | .continueFromReveal => ({hook with view := {hook.view with turnResult := none}},[])
  | .continueFromRound =>
    ({hook with view := {hook.view with turnResult := none,roundResult := none}},[])
  | .backToLobby => (hook.backToLobby,[])
  | .unmount => ((hook.closeRef hook.matchmakingWs).closeRef hook.gameWs,[])
  | .authorized call token =>
    match hook.take call with
    | none => (hook,[])
    | some (waiting,hook) =>
      if token.getD ""="" then
        ({hook with view := {hook.view with error := some "Not authenticated"}},[])
      else (hook.proceed (token.getD "") waiting,[])
  | .refused call message =>
    match hook.take call with
    | none => (hook,[])
    | some (waiting,hook) =>
      ({hook with
        view := {hook.view with
          error := some (message.getD waiting.failure),phase := .lobby}},[])
  | .opened number =>
    if hook.readyState number=some .connecting then (hook.gets number .open,[]) else (hook,[])
  | .gameMessage number message =>
    match hook.socket number with
    | some ⟨_,.game _ _,.open⟩ => (hook.onGameMessage number message,[])
    | _ => (hook,[])
  | .queueMessage number message =>
    match hook.socket number with
    | some ⟨_,.matchmaking token,.open⟩ => (hook.onQueueMessage number token message,[])
    | _ => (hook,[])
  | .closed number failed =>
    match hook.socket number with
    | none => (hook,[])
    | some socket =>
      if socket.readyState=.closed then (hook,[]) else (hook.onClose socket failed,[])

/-- The events one after another. -/
def Hook.run (hook : Hook) (events : List Event) : Hook :=
  events.foldl (fun hook event => (hook.step event).1) hook

end Handlers

section Submissions

/-- The event makes a socket to a game. -/
def Hook.joins (hook : Hook) : Event → Bool
  | .authorized call token =>
    match hook.waiting[call]? with
    | some (.joinGame _ _) => token.getD ""≠""
    | _ => false
  | .queueMessage number (.matchFound _ _) =>
    match hook.socket number with
    | some ⟨_,.matchmaking _,.open⟩ => true
    | _ => false
  | _ => false

/-- A socket to a game closes, or brings the result of its match. -/
def Hook.drops (hook : Hook) : Event → Bool
  | .gameMessage number message =>
    match hook.socket number with
    | some ⟨_,.game _ _,.open⟩ => message.isMatchResult
    | _ => false
  | .closed number _ =>
    match hook.socket number with
    | some socket => socket.isGame && socket.readyState≠.closed
    | none => false
  | _ => false

/-- The hook after some events. -/
def after (events : List Event) : Hook := Hook.mounted.run events

/-- The socket has been made to a game, and since then no other one has been, no socket to
a game has closed and none has brought a result. -/
def Current (events : List Event) (number : ℕ) : Prop :=
  ∃ earlier event later,events=earlier++event::later ∧
    (after earlier).joins event ∧ (after earlier).sockets.length=number ∧
    ∀ middle next rest,later=middle++next::rest →
      ¬(after (earlier++event::middle)).joins next ∧
      ¬(after (earlier++event::middle)).drops next

@[simp] theorem Hook.close_gameWs (hook : Hook) (number : ℕ) :
    (hook.close number).gameWs=hook.gameWs := by
  unfold close
  split <;> rfl

@[simp] theorem Hook.close_sockets (hook : Hook) (number : ℕ) :
    (hook.close number).sockets.length=hook.sockets.length := by
  unfold close
  split <;> simp [gets]

@[simp] theorem Hook.closeRef_gameWs (hook : Hook) (ref : Option ℕ) :
    (hook.closeRef ref).gameWs=hook.gameWs := by
  cases ref with
  | none => rfl
  | some number => exact hook.close_gameWs number

/-- What an event makes of the reference to the game socket. -/
theorem Hook.step_gameWs (hook : Hook) (event : Event) :
    (hook.step event).1.gameWs=
      if hook.joins event then some hook.sockets.length
      else if hook.drops event then none else hook.gameWs := by
  cases event with
  | findMatch | joinGame | submitAction | continueFromReveal | continueFromRound => rfl
  | backToLobby | unmount => simp [step,Hook.backToLobby,joins,drops]
  | cancelSearch =>
    simp only [step,Hook.cancelSearch,joins,drops,Bool.false_eq_true,if_false]
    split
    · rfl
    · split <;> simp
  | refused call message =>
    simp only [step,take,joins,drops,Bool.false_eq_true,if_false]
    cases hook.waiting[call]? <;> rfl
  | opened number =>
    simp only [step,joins,drops,Bool.false_eq_true,if_false]
    split <;> rfl
  | authorized call token =>
    simp only [step,take,joins,drops,Bool.false_eq_true,if_false]
    cases hook.waiting[call]? with
    | none => rfl
    | some waiting =>
      by_cases ht : token.getD ""="" <;> cases waiting <;>
        simp [ht,proceed,connectToGame,connect]
  | gameMessage number message =>
    rcases hs : hook.socket number with _ | ⟨k,address,state⟩
    · simp [step,joins,drops,hs]
    · cases hm : message.isMatchResult <;> cases address <;> cases state <;>
        simp [step,joins,drops,hs,hm,onGameMessage]
  | queueMessage number message =>
    rcases hs : hook.socket number with _ | ⟨k,address,state⟩
    · cases message <;> simp [step,joins,drops,hs]
    · cases message <;> cases address <;> cases state <;>
        simp [step,joins,drops,hs,onQueueMessage,connectToGame,connect]
  | closed number failed =>
    rcases hs : hook.socket number with _ | socket
    · simp [step,joins,drops,hs]
    · by_cases hc : socket.readyState=.closed <;> cases hg : socket.isGame <;>
        simp [step,joins,drops,hs,hc,hg,onClose,gets]

@[simp] theorem after_concat (events : List Event) (event : Event) :
    after (events++[event])=((after events).step event).1 := by
  simp [after,Hook.run]

/-- How one more event bears on the current socket. -/
theorem current_concat (events : List Event) (event : Event) (number : ℕ) :
    Current (events++[event]) number ↔
      ((after events).joins event ∧ (after events).sockets.length=number) ∨
      (Current events number ∧ ¬(after events).joins event ∧ ¬(after events).drops event) := by
  constructor
  · rintro ⟨earlier,first,later,he,hj,hn,hquiet⟩
    rcases List.eq_nil_or_concat later with rfl | ⟨middle,last,rfl⟩
    · obtain ⟨rfl,hl⟩ := List.append_inj' he rfl
      obtain rfl : event=first := by simpa using hl
      exact .inl ⟨hj,hn⟩
    · have hsplit : events++[event]=(earlier++first::middle)++[last] := by simpa using he
      obtain ⟨rfl,hl⟩ := List.append_inj' hsplit rfl
      obtain rfl : event=last := by simpa using hl
      have hlast := hquiet middle event [] (by simp)
      refine .inr ⟨⟨earlier,first,middle,rfl,hj,hn,?_⟩,hlast⟩
      intro before next rest hm
      exact hquiet before next (rest++[event]) (by simp [hm])
  · rintro (⟨hj,hn⟩ | ⟨⟨earlier,first,later,rfl,hj,hn,hquiet⟩,hlast⟩)
    · refine ⟨events,event,[],rfl,hj,hn,?_⟩
      intro middle next rest h
      simp at h
    · refine ⟨earlier,first,later++[event],by simp,hj,hn,?_⟩
      intro middle next rest hm
      rcases List.eq_nil_or_concat rest with rfl | ⟨rest,last,rfl⟩
      · obtain ⟨rfl,hl⟩ := List.append_inj' hm rfl
        obtain rfl : event=next := by simpa using hl
        exact hlast
      · have hsplit : later++[event]=(middle++next::rest)++[last] := by simpa using hm
        obtain ⟨rfl,-⟩ := List.append_inj' hsplit rfl
        exact hquiet middle next rest rfl

/-- The hook refers to the current socket, if there is one. -/
theorem gameWs_iff (events : List Event) (number : ℕ) :
    (after events).gameWs=some number ↔ Current events number := by
  induction events using List.reverseRecOn with
  | nil =>
    constructor
    · intro h
      cases h
    · rintro ⟨earlier,event,later,h,-⟩
      simp at h
  | append_singleton events event ih =>
    rw [current_concat,after_concat,Hook.step_gameWs]
    by_cases hj : (after events).joins event
    · simp [hj]
    · by_cases hd : (after events).drops event
      · simp [hj,hd]
      · simp [hj,hd,ih]

/-- What is sent for an action that is picked: one message over the socket that the hook
refers to, if that is open. -/
theorem sent_of_submit (hook : Hook) (action : Action) (number : ℕ) :
    (hook.step (.submitAction action)).2=[(number,.submitAction action)] ↔
      hook.readyState number=some .open ∧ hook.gameWs=some number := by
  simp only [Hook.step,Hook.submitAction]
  cases hg : hook.gameWs with
  | none => simp
  | some current =>
    dsimp only
    by_cases ho : hook.readyState current=some .open
    · rw [if_pos ho]
      constructor
      · intro h
        obtain ⟨rfl,-⟩ := Prod.mk.inj (List.singleton_inj.mp h)
        exact ⟨ho,rfl⟩
      · rintro ⟨-,he⟩
        cases he
        rfl
    · rw [if_neg ho]
      constructor
      · exact fun h => nomatch h
      · rintro ⟨hopen,he⟩
        cases he
        exact absurd hopen ho

/-- Otherwise nothing is sent. -/
theorem sent_or_nothing (hook : Hook) (action : Action) :
    (hook.step (.submitAction action)).2=[] ∨
      ∃ number,(hook.step (.submitAction action)).2=[(number,.submitAction action)] := by
  simp only [Hook.step,Hook.submitAction]
  split
  · exact .inl rfl
  · next number _ =>
    split
    · exact .inr ⟨number,rfl⟩
    · exact .inl rfl

/-- In every run of the hook, an action that is picked is sent once or not at all. It is sent
to the socket that was made to a game last, exactly if that is open, and since it was made no
socket to any game has closed and none has brought the result of its match. -/
theorem submission_sent (events : List Event) (action : Action) :
    (∀ number,((after events).step (.submitAction action)).2=[(number,.submitAction action)] ↔
      (after events).readyState number=some .open ∧ Current events number) ∧
    (((after events).step (.submitAction action)).2=[] ↔
      ∀ number,Current events number → (after events).readyState number≠some .open) := by
  have hsent : ∀ number,
      ((after events).step (.submitAction action)).2=[(number,.submitAction action)] ↔
        (after events).readyState number=some .open ∧ Current events number := by
    intro number
    rw [sent_of_submit,gameWs_iff]
  refine ⟨hsent,?_⟩
  constructor
  · intro hnothing number hcurrent hopen
    rw [(hsent number).mpr ⟨hopen,hcurrent⟩] at hnothing
    cases hnothing
  · intro hclosed
    obtain hnothing | ⟨number,hone⟩ := sent_or_nothing (after events) action
    · exact hnothing
    · obtain ⟨hopen,hcurrent⟩ := (hsent number).mp hone
      exact absurd hopen (hclosed number hcurrent)

-- A player leaves a game and joins another one: the old socket closes last, and his action
-- is lost although his new socket is open.
example :
    let hook := after [.joinGame (.small 0) none,.authorized 0 (some "t"),.opened 0,.backToLobby,
      .joinGame (.small 1) none,.authorized 0 (some "t"),.opened 1,.closed 0 false]
    hook.readyState 1=some .open ∧ (hook.step (.submitAction .charge)).2=[] := by decide

end Submissions

section Cards

/-- The cost of a card in ACTION_CONFIG. -/
def cardCost : Action → ℤ
  | .charge | .block => 0
  | .attack | .teleport => 1
  | .energyWave => 3

/-- A card asks for as much ki as the engine. -/
theorem cardCost_eq (action : Action) : cardCost action=actionKiCost action := by
  cases action <;> rfl

end Cards

end KiClash.PvPClient
