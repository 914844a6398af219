import KiClash.SessionTurns
import KiClash.SubmitRetries
import KiClash.TransactionReads

/-!
# The phases of the Python tasks

What the handler of a game socket and the timers have behind them: what the
attempt of a transaction has read, whether the handler has connected and started
the match, which of its submissions waits for its answer, and how far a timer has
come. Every task of the workers goes through these phases.
-/

namespace KiClash.GamePhases

open EngineTypes Engine ServerMessages AsyncTasks WatchedKey TaskPhases TransactionReads
open GameStore GameSession PendingPairs SessionTurns

/-- What a task that submits actions is doing. -/
inductive Doing
  /-- No submission of its own waits for its answer. -/
  | idle
  /-- submit_action has written; the action was accepted for this turn, if for any. -/
  | submitted (turn : Option TurnKey)
  /-- _resolve_turn has written the result of this turn; the session that it has
  written or read last has the other turn. -/
  | resolved (turn upcoming : Option TurnKey)
  deriving DecidableEq

/-- How far the handler of a game socket has come. While it plays, a flag says
whether one of its submissions has found a complete pair. -/
inductive Stage
  /-- The connection has not been accepted. -/
  | arriving
  /-- It has been accepted, but not registered. -/
  | accepted
  /-- It has been registered; the session is read. -/
  | entering
  /-- The player is turned away. -/
  | refusing
  /-- handle_connect has not written. An aborted attempt may have found the player
  connected. -/
  | connecting (found : Bool)
  /-- handle_connect has found the player connected and tells the players. -/
  | returning
  /-- handle_connect is over. -/
  | counting
  /-- start has not written. An aborted attempt may have found the match started. -/
  | starting (found : Bool)
  /-- start has started the match at this turn, and these players have not been
  prompted. -/
  | prompting (turn : TurnKey) (untold : List UUID)
  /-- The receive loop. -/
  | playing (doing : Doing) (paired : Bool)
  /-- The client is gone, and handle_disconnect runs. -/
  | leaving
  /-- The cleanup of the handler. -/
  | closing
  /-- The handler has failed before its receive loop. -/
  | gone
  deriving DecidableEq

/-- How far a turn timer has come. -/
inductive TimerStage
  | waiting | checking | over
  | playing (doing : Doing) (paired : Bool)
  deriving DecidableEq

/-- How far a forfeit timer has come. -/
inductive ForfeitStage
  | waiting | asking | loading | forfeiting | over
  deriving DecidableEq

/-- What a task is and how far it has come. -/
inductive Control
  | socket (worker : Worker) (player : UUID) (stage : Stage)
  | turnTimer (worker : Worker) (stage : TimerStage)
  | forfeitTimer (worker : Worker) (disconnected opponent : UUID) (stage : ForfeitStage)
  deriving DecidableEq

/-- The phase of a task, with the attempt of its transaction that is under way. -/
structure Phase where
  /-- What the task is and how far it has come. -/
  control : Control
  /-- What its attempt has read. -/
  attempt : Attempt PvPSessionState
  deriving DecidableEq

/-- What the mutator of a call can make of a session. -/
inductive Makes : Call → PvPSessionState → PvPSessionState → Prop
  | connect {player : UUID} {c c' : ConnectCaptured} {session session' : PvPSessionState}
      (h : markConnected player c session=.ok (c',session')) :
      Makes (.connect player) session session'
  | start {c c' : StartCaptured} {session session' : PvPSessionState}
      (h : markStarted c session=.ok (c',session')) : Makes .start session session'
  | submit {player : UUID} {action : Action} {stale c' : SubmitCaptured}
      {session session' : PvPSessionState}
      (h : storeAction player action stale session=.ok (c',session')) :
      Makes (.submit player action stale) session session'
  | resolve {p1Action p2Action : Action} {c c' : ResolveCaptured}
      {session session' : PvPSessionState}
      (h : applyTurn p1Action p2Action c session=.ok (c',session')) :
      Makes (.resolve p1Action p2Action) session session'
  | forfeit {forfeiting : RoundWinner} {c c' : Unit} {session session' : PvPSessionState}
      (h : forfeitMatch forfeiting c session=.ok (c',session')) :
      Makes (.forfeit forfeiting) session session'

section Next

variable (attempt : Attempt PvPSessionState)

/-- The session that the attempt has read has the property. -/
def reads (test : PvPSessionState → Bool) : Bool :=
  attempt.value.any test

/-- The turn in which the session that the attempt has read accepts the action. -/
def acceptedTurn (player : UUID) (action : Action) : Option TurnKey :=
  (attempt.value.bind (acceptingRound player action)).map turnOf

/-- The turn that is open in the session that the attempt has read. -/
def openTurn : Option TurnKey := (attempt.value.bind openRound).map turnOf

/-- The turn that is current in the session, whether or not the match is over. -/
def currentTurn (session : PvPSessionState) : Option TurnKey :=
  session.gameState.currentRound.map turnOf

/-- The player's action completes a pair in the session that the attempt has read. -/
def completes (player : UUID) (action : Action) : Bool :=
  reads attempt fun session => (completedPair player action session).isSome

/-- _resolve_turn has read the session. -/
def Doing.loaded (value : Option PvPSessionState) : Doing → Doing
  | .resolved turn _ => .resolved turn (value.bind currentTurn)
  | doing => doing

/-- What a task that submits actions does next. -/
def Doing.next (doing : Doing) (paired : Bool) : (o : Op language) → Except Exc o.Res → Doing×Bool
  | .store (.exec _ _ (.submit player action _) _),r =>
    (match r with
      | .ok true => .submitted (acceptedTurn attempt player action)
      | _ => .idle,
      paired || completes attempt player action)
  | .store (.exec _ _ (.resolve _ _) session),.ok true =>
    (.resolved (openTurn attempt) (currentTurn session),paired)
  | .store .load,.ok value => (doing.loaded value,paired)
  | .act (.send _ _ _),_ =>
    (match doing with
      | .submitted _ => .idle
      | doing => doing,
      paired)
  | _,_ => (doing,paired)

/-- handle_connect's transaction. -/
def connected (player : UUID) (found : Bool) : (o : Op language) → Except Exc o.Res → Stage
  | .store .get,.ok none => .counting
  | .store (.exec _ retriesLeft _ _),.ok written =>
    let found := found || reads attempt fun session => session.hasConnected player
    if written then (if found then .returning else .counting)
    else if retriesLeft=0 then .gone else .connecting found
  | _,.ok _ => .connecting found
  | _,.error _ => .gone

/-- start begins if the room is full. -/
def counted (stage : Stage) : (o : Op language) → Except Exc o.Res → Stage
  | .act (.roomSize _),.ok (n : ℕ) => if n ≥ 2 then .starting false else .playing .idle false
  | _,.ok _ => stage
  | _,.error _ => .gone

/-- What start does once its transaction has written. -/
def announces (session : PvPSessionState) : Stage :=
  match currentTurn session with
  | some turn => .prompting turn [session.player1Id,session.player2Id]
  | none => .playing .idle false

/-- start's transaction. -/
def started (found : Bool) : (o : Op language) → Except Exc o.Res → Stage
  | .store .get,.ok none => .playing .idle false
  | .store (.exec _ retriesLeft _ session),.ok written =>
    let found := found || reads attempt fun session => session.started
    if written then (if found then .playing .idle false else announces session)
    else if retriesLeft=0 then .gone else .starting found
  | _,.ok _ => .starting found
  | _,.error _ => .gone

/-- The prompts of start. -/
def prompted (turn : TurnKey) (untold : List UUID) :
    (o : Op language) → Except Exc o.Res → Stage
  | .act (.send _ _ message),.ok _ =>
    .prompting turn (if message.isPrompt then untold.tail else untold)
  | .act (.restartTimeout _),.ok _ => .playing .idle false
  | _,.ok _ => .prompting turn untold
  | _,.error _ => .gone

/-- The receive loop. -/
def played (doing : Doing) (paired : Bool) : (o : Op language) → Except Exc o.Res → Stage
  | .act (.unregister _ _),_ => .closing
  | _,.error exc => if exc=.webSocketDisconnect then .leaving else .closing
  | o,.ok res =>
    .playing (doing.next attempt paired o (.ok res)).1 (doing.next attempt paired o (.ok res)).2

/-- What a handler does next. -/
def Stage.next (player : UUID) : Stage → (o : Op language) → Except Exc o.Res → Stage
  | .arriving,.act .accept,.ok _ => .accepted
  | .arriving,_,.ok _ => .arriving
  | .accepted,.act (.register _ _),.ok _ => .entering
  | .accepted,_,.ok _ => .accepted
  | .entering,.store .load,.ok (some session) =>
    if session.isPlayer player then .connecting false else .refusing
  | .entering,_,.ok _ => .refusing
  | .refusing,_,.ok _ => .refusing
  | .connecting found,o,r => connected attempt player found o r
  | .returning,o,r => counted .returning o r
  | .counting,o,r => counted .counting o r
  | .starting found,o,r => started attempt found o r
  | .prompting turn untold,o,r => prompted turn untold o r
  | .playing doing paired,o,r => played attempt doing paired o r
  | .leaving,.act (.unregister _ _),_ => .closing
  | .leaving,_,_ => .leaving
  | .closing,_,_ => .closing
  | _,_,_ => .gone

/-- What a turn timer does next. -/
def TimerStage.next : TimerStage → (o : Op language) → Except Exc o.Res → TimerStage
  | .waiting,_,.ok _ => .checking
  | .checking,.store .load,.ok (some session) =>
    if session.gameState.status=.inProgress then .playing .idle false else .over
  | .playing doing paired,o,.ok res =>
    .playing (doing.next attempt paired o (.ok res)).1 (doing.next attempt paired o (.ok res)).2
  | _,_,_ => .over

/-- What a forfeit timer does next. -/
def ForfeitStage.next : ForfeitStage → (o : Op language) → Except Exc o.Res → ForfeitStage
  | .waiting,_,.ok _ => .asking
  | .asking,.act (.isConnected _ _),.ok isConnected => if isConnected then .over else .loading
  | .loading,.store .load,.ok (some _) => .forfeiting
  | .forfeiting,_,.ok _ => .forfeiting
  | _,_,_ => .over

/-- What a task does next. -/
def Control.next : Control → (o : Op language) → Except Exc o.Res → Control
  | .socket worker player stage,o,r => .socket worker player (stage.next attempt player o r)
  | .turnTimer worker stage,o,r => .turnTimer worker (stage.next attempt o r)
  | .forfeitTimer worker disconnected opponent stage,o,r =>
    .forfeitTimer worker disconnected opponent (stage.next o r)

end Next

namespace Control

/-- The worker of a task. -/
def workerOf : Control → Worker
  | .socket worker _ _ => worker
  | .turnTimer worker _ => worker
  | .forfeitTimer worker _ _ _ => worker

/-- The transactions that a task may run. -/
def Runs : Control → Call → Prop
  | .socket _ player (.connecting _),.connect player' => player'=player
  | .socket _ _ (.starting _),.start => True
  | .socket _ player (.playing _ _),.submit player' _ _ => player'=player
  | .turnTimer _ (.playing _ _),.submit _ _ _ => True
  | .socket _ _ (.playing _ paired),.resolve _ _ => paired=true
  | .turnTimer _ (.playing _ paired),.resolve _ _ => paired=true
  | .forfeitTimer _ _ _ .forfeiting,.forfeit _ => True
  | _,_ => False

/-- What a task that submits actions is doing. -/
def doing : Control → Option Doing
  | .socket _ _ (.playing doing _) => some doing
  | .turnTimer _ (.playing doing _) => some doing
  | _ => none

/-- The task announces the result of a turn that it has resolved. -/
def Announces (control : Control) : Prop :=
  ∃ turn upcoming,control.doing=some (.resolved turn upcoming)

/-- A turn timer is armed after the prompts. -/
def Arms : Control → Prop
  | .socket _ _ (.prompting _ untold) => untold=[]
  | .socket _ _ .returning => True
  | control => control.Announces

/-- A player is prompted for a turn by start, by a reconnection and after a
resolution. -/
def Prompts (player : UUID) (turn : TurnKey) : Control → Prop
  | .socket _ _ (.prompting turn' untold) => turn'=turn ∧ untold.head?=some player
  | .socket _ _ .returning => True
  | control => ∃ resolved,control.doing=some (.resolved resolved (some turn))

/-- The messages that a task may send. -/
def Sends (control : Control) (player : UUID) : ServerMessage → Prop
  | .waitingForAction number _ round .. => control.Prompts player (toLex (round,number))
  | .turnResult number .. =>
    ∃ turn upcoming,control.doing=some (.resolved (some turn) upcoming) ∧ (ofLex turn).2=number
  | .actionConfirmed number _ =>
    ∃ turn,control.doing=some (.submitted (some turn)) ∧ (ofLex turn).2=number ∧
      ∀ worker player' stage,control=.socket worker player' stage → player'=player
  | _ => True

/-- What a task may perform. -/
def Allows (control : Control) : Op language → Prop
  | .store (.exec _ _ call _) => control.Runs call
  | .store (.set _ _ _) => False
  | .store .delete => ∃ worker player,control=.socket worker player .closing
  | .store _ => True
  | .act (.register worker player) => control=.socket worker player .accepted
  | .act (.unregister worker player) => ∃ stage,control=.socket worker player stage ∧
    (stage=.refusing ∨ stage=.leaving ∨ stage=.closing ∨ ∃ doing paired,stage=.playing doing paired)
  | .act (.receive _) => ∃ worker player doing paired,
    control=.socket worker player (.playing doing paired)
  | .act (.roomSize worker) => ∃ player,
    control=.socket worker player .returning ∨ control=.socket worker player .counting
  | .act (.isConnected worker player) => ∃ opponent,
    control=.forfeitTimer worker player opponent .asking
  | .act (.startDisconnect worker player _) => control=.socket worker player .leaving
  | .act (.restartTimeout worker) => control.workerOf=worker ∧ control.Arms
  | .act (.send worker player message) => control.workerOf=worker ∧ control.Sends player message
  | .act _ => True

end Control

/-- The phases of the tasks. -/
abbrev watcher : Watcher runtime where
  Phase := Phase
  start
    | .gameWs worker player _ => ⟨.socket worker player .arriving,.idle⟩
    | .turnTimeout worker => ⟨.turnTimer worker .waiting,.idle⟩
    | .forfeitAfterTimeout worker disconnected opponent =>
      ⟨.forfeitTimer worker disconnected opponent .waiting,.idle⟩
  next phase o _ r := ⟨phase.control.next phase.attempt o r,
    Attempt.next (L := language) phase.attempt o r⟩
  allows phase o := phase.control.Allows o ∧
    Attempt.Allows (L := language) Makes phase.attempt o
  ends _ := True

/-- They tell the attempts. -/
theorem tracks : Tracks watcher Makes Phase.attempt where
  start entry := by cases entry <;> rfl
  next _ _ _ _ := rfl
  allows h := h.2

/-- The program goes on in such phases, whatever its attempt has read before. -/
def Goes {α : Type} (Q : Control → Except Exc α → Prop) (control : Control)
    (p : Coroutine α) : Prop :=
  ∀ attempt,watcher.Follows (fun phase r => Q phase.control r) ⟨control,attempt⟩ p

section Parts

variable {α β : Type} {Q : Control → Except Exc α → Prop} {Q' : Control → Except Exc β → Prop}
  {control : Control}

theorem Goes.mono {Q'' : Control → Except Exc α → Prop} {p : Coroutine α} (h : Goes Q control p)
    (hq : ∀ control r,Q control r → Q'' control r) : Goes Q'' control p :=
  fun attempt => (h attempt).mono fun phase r => hq phase.control r

theorem goes_done {r : Except Exc α} (h : Q control r) : Goes Q control (.done r) := fun _ => h

/-- One program after the other. -/
theorem Goes.andThen {p : Coroutine β} {f : Except Exc β → Coroutine α} (h : Goes Q' control p)
    (hf : ∀ control r,Q' control r → Goes Q control (f r)) : Goes Q control (p.andThen f) :=
  fun attempt => (h attempt).andThen fun phase r hq => hf phase.control r hq phase.attempt

/-- Sequencing. -/
theorem Goes.bind {p : Coroutine β} {f : β → Coroutine α} (h : Goes Q' control p)
    (hok : ∀ control a,Q' control (.ok a) → Goes Q control (f a))
    (herror : ∀ control exc,Q' control (.error exc) → Q control (.error exc)) :
    Goes Q control (p >>= f) := by
  rw [Prog.bind_eq_andThen]
  apply h.andThen
  intro control r hq
  cases r with
  | ok a => exact hok control a hq
  | error exc => exact goes_done (herror control exc hq)

/-- What an operation can raise. -/
def Interrupts (exc : Exc) : Prop := exc=.cancelled ∨ exc=.redisError ∨ exc=.webSocketDisconnect

/-- Nothing else is raised by an operation. -/
theorem interrupts_of_outcome {o : Op language} {effective : Bool} {exc : Exc}
    (h : Outcome runtime o effective (.error exc)) : Interrupts exc := by
  have hinterrupt : ∀ memory task,GameStore.interrupt memory task o=some exc → Interrupts exc := by
    intro memory task hexc
    cases o with
    | store o =>
      simp only [GameStore.interrupt] at hexc
      split at hexc <;> cases hexc
      · exact .inl rfl
      · exact .inr (.inl rfl)
    | act o =>
      simp only [GameStore.interrupt] at hexc
      split at hexc
      · cases hexc
      · cases hexc
        exact .inl rfl
      · cases hexc
        exact .inr (.inr rfl)
      · cases hexc
  obtain ⟨choice,task,fresh,world,world',started,hp,-⟩ := h
  obtain ⟨pick,-,he⟩ | ⟨exc',hexc,he,-⟩ := perform_cases hp
  · cases o with
    | store o => cases he
    | act o =>
      cases o with
      | receive frame =>
        cases frame with
        | none =>
          cases he
          exact .inr (.inr rfl)
        | some frame => cases he
      | send | sendJson | accept | safeClose | sleep | register | unregister | isConnected
      | roomSize | cancelTimeout | restartTimeout | cancelDisconnect | startDisconnect | cleanup =>
        cases he
  · cases he
    exact hinterrupt _ _ hexc

/-- An operation that is no transaction. -/
theorem goes_op {o : Op language} {f : Except Exc o.Res → Coroutine α} (hplain : Plain o)
    (hallows : control.Allows o)
    (h : ∀ attempt effective r,Outcome runtime o effective r →
      Goes Q (control.next attempt o r) (f r)) : Goes Q control (.op o f) := by
  intro attempt
  refine ⟨⟨hallows,?_⟩,fun effective r ho => h attempt effective r ho _⟩
  match o with
  | .store (.exec _ _ _ _) => exact hplain.elim
  | .store .watch | .store .unwatch | .store .get | .store .load | .store .delete
  | .store (.set _ _ _) | .act _ => exact True.intro

/-- An action and what follows it. -/
theorem goes_act {o : LocalOp} {f : LocalOp.Res o → Coroutine α} (hallows : control.Allows (.act o))
    (hfails : ∀ attempt exc,Interrupts exc →
      Q (control.next attempt (.act o) (.error exc)) (.error exc))
    (h : ∀ attempt res,Goes Q (control.next attempt (.act o) (.ok res)) (f res)) :
    Goes Q control (act o >>= f) := by
  apply goes_op (o := .act o) True.intro hallows
  intro attempt effective r ho
  cases r with
  | error exc => exact goes_done (hfails attempt exc (interrupts_of_outcome ho))
  | ok res => exact h attempt res

/-- A command and what follows it. -/
theorem goes_redis {o : StoreOp PvPSessionState Call} {f : o.Res → Coroutine α}
    (hplain : Plain (L := language) (.store o)) (hallows : control.Allows (.store o))
    (hfails : ∀ attempt exc,Interrupts exc →
      Q (control.next attempt (.store o) (.error exc)) (.error exc))
    (h : ∀ attempt res,Goes Q (control.next attempt (.store o) (.ok res)) (f res)) :
    Goes Q control (redis o >>= f) := by
  apply goes_op hplain hallows
  intro attempt effective r ho
  cases r with
  | error exc => exact goes_done (hfails attempt exc (interrupts_of_outcome ho))
  | ok res => exact h attempt res

/-- An action at the end. -/
theorem goes_last {o : LocalOp} {Q : Control → Except Exc (LocalOp.Res o) → Prop}
    (hallows : control.Allows (.act o))
    (h : ∀ attempt r,(∀ exc,r=.error exc → Interrupts exc) →
      Q (control.next attempt (.act o) r) r) : Goes Q control (act o) := by
  apply goes_op (o := .act o) True.intro hallows
  intro attempt effective r ho
  refine goes_done (h attempt r ?_)
  rintro exc rfl
  exact interrupts_of_outcome ho

/-- A transaction. The first relation says what control and captured variables have
to do with each other. -/
theorem goes_watchAndUpdate {L : Type} {call : L → Call} {mutator : Mutator L}
    {Q : Control → Except Exc (L×PvPSessionState) → Prop} (I : L → Control → Prop)
    (hmakes : ∀ c session c' session',mutator c session=.ok (c',session') →
      Makes (call c) session session')
    (hreads : ∀ c control,I c control →
      control.Allows (.store .watch) ∧ control.Allows (.store .get) ∧
      (∀ attempt (token : ℕ),I c (control.next attempt (.store .watch) (.ok token))) ∧
      (∀ attempt session,I c (control.next attempt (.store .get) (.ok (some session)))) ∧
      (∀ attempt exc,Interrupts exc →
        Q (control.next attempt (.store .watch) (.error exc)) (.error exc)) ∧
      ∀ attempt exc,Interrupts exc →
        Q (control.next attempt (.store .get) (.error exc)) (.error exc))
    (hmissing : ∀ c control attempt,I c control →
      (control.next attempt (.store .get) (.ok none)).Allows (.store .unwatch) ∧
      ∀ attempt',
        Q ((control.next attempt (.store .get) (.ok none)).next attempt' (.store .unwatch)
          (.ok ())) (.error .gameNotFound) ∧
        ∀ exc,Interrupts exc →
          Q ((control.next attempt (.store .get) (.ok none)).next attempt' (.store .unwatch)
            (.error exc)) (.error exc))
    (hraises : ∀ c control session e,I c control → mutator c session=.error e →
      Q control (.error e))
    (hexec : ∀ c control session c' session' (token n : ℕ),I c control →
      mutator c session=.ok (c',session') →
      control.Allows (.store (.exec token n (call c) session')) ∧
      (∀ exc,Interrupts exc →
        Q (control.next (.found token session) (.store (.exec token n (call c) session'))
          (.error exc)) (.error exc)) ∧
      (n≠0 → I c' (control.next (.found token session)
        (.store (.exec token n (call c) session')) (.ok false))) ∧
      (n=0 → Q (control.next (.found token session) (.store (.exec token n (call c) session'))
        (.ok false)) (.error .tooManyConflicts)) ∧
      Q (control.next (.found token session) (.store (.exec token n (call c) session'))
        (.ok true)) (.ok (c',session')))
    {attempts : ℕ} (hattempts : attempts≠0) {c : L} (h : I c control) :
    Goes Q control (watchAndUpdate call mutator attempts c) := by
  induction attempts generalizing c control with
  | zero => exact absurd rfl hattempts
  | succ n ih =>
    obtain ⟨hwallows,-,hwok,-,hwerror,-⟩ := hreads c control h
    intro attempt
    refine ⟨⟨hwallows,True.intro⟩,fun _ r ho => ?_⟩
    cases r with
    | error exc => exact hwerror attempt exc (interrupts_of_outcome ho)
    | ok token =>
      have hi := hwok attempt token
      obtain ⟨-,hgallows,-,hgok,-,hgerror⟩ := hreads c _ hi
      refine ⟨⟨hgallows,True.intro⟩,fun _ r ho => ?_⟩
      rcases r with exc | _ | session
      · exact hgerror _ exc (interrupts_of_outcome ho)
      · obtain ⟨hallows,hends⟩ := hmissing c _ (.watched token) hi
        refine ⟨⟨hallows,True.intro⟩,fun _ r ho => ?_⟩
        cases r with
        | error exc => exact (hends _).2 exc (interrupts_of_outcome ho)
        | ok u => exact (hends _).1
      · have hi' := hgok (.watched token) session
        dsimp only [Prog.bind]
        cases hm : mutator c session with
        | error e => exact hraises c _ session e hi' hm
        | ok result =>
          obtain ⟨hallows,herror,hagain,hlast,hcommitted⟩ :=
            hexec c _ session result.1 result.2 token n hi' hm
          refine ⟨⟨hallows,session,rfl,hmakes c session result.1 result.2 hm⟩,fun _ r ho => ?_⟩
          cases r with
          | error exc => exact herror exc (interrupts_of_outcome ho)
          | ok committed =>
            cases committed with
            | true => exact hcommitted
            | false =>
              by_cases hn : n=0
              · subst hn
                exact hlast rfl
              · exact ih hn (hagain hn) _

/-- What is caught on the way. -/
theorem goes_except {catches : Exc → Bool} {p : Coroutine β} {f : Option β → Coroutine α}
    (h : Goes Q' control p)
    (hok : ∀ control b,Q' control (.ok b) → Goes Q control (f (some b)))
    (hcaught : ∀ control exc,Q' control (.error exc) → catches exc=true → Goes Q control (f none))
    (herror : ∀ control exc,Q' control (.error exc) → catches exc=false →
      Q control (.error exc)) : Goes Q control (except catches p >>= f) := by
  have hexcept : Goes (fun control (r : Except Exc (Option β)) =>
      (∃ b,r=.ok (some b) ∧ Q' control (.ok b)) ∨
      (∃ exc,r=.ok none ∧ catches exc=true ∧ Q' control (.error exc)) ∨
      ∃ exc,r=.error exc ∧ catches exc=false ∧ Q' control (.error exc)) control
      (except catches p) := by
    have hmap : Goes (fun control (r : Except Exc (Option β)) =>
        (∃ b,r=.ok (some b) ∧ Q' control (.ok b)) ∨
        ∃ exc,r=.error exc ∧ Q' control (.error exc)) control (some <$> p) := by
      change Goes _ _ (p >>= fun b => pure (some b))
      apply h.bind
      · exact fun control b hq => goes_done (.inl ⟨b,rfl,hq⟩)
      · exact fun control exc hq => .inr ⟨exc,rfl,hq⟩
    apply hmap.andThen
    rintro control r (⟨b,rfl,hq⟩ | ⟨exc,rfl,hq⟩)
    · exact goes_done (.inl ⟨b,rfl,hq⟩)
    · dsimp only
      cases hc : catches exc with
      | true => exact goes_done (.inr (.inl ⟨exc,rfl,hc,hq⟩))
      | false => exact goes_done (.inr (.inr ⟨exc,rfl,hc,hq⟩))
  apply hexcept.bind
  · rintro control value (⟨b,he,hq⟩ | ⟨exc,he,hc,hq⟩ | ⟨exc,he,-⟩)
    · cases he
      exact hok control b hq
    · cases he
      exact hcaught control exc hq hc
    · cases he
  · rintro control exc (⟨b,he,-⟩ | ⟨exc',he,-⟩ | ⟨exc',he,hc,hq⟩)
    · cases he
    · cases he
    · cases he
      exact herror control exc hq hc

end Parts

/-- Who submits actions: a handler for its player, or a turn timer for both. -/
inductive Actor
  | handler (worker : Worker) (player : UUID)
  | timer (worker : Worker)

namespace Actor

/-- Its worker. -/
def workerOf : Actor → Worker
  | .handler worker _ => worker
  | .timer worker => worker

/-- It submits actions. -/
def playing (actor : Actor) (doing : Doing) (paired : Bool) : Control :=
  match actor with
  | .handler worker player => .socket worker player (.playing doing paired)
  | .timer worker => .turnTimer worker (.playing doing paired)

/-- An operation of it has raised. -/
def failed (exc : Exc) : Actor → Control
  | .handler worker player =>
    .socket worker player (if exc=.webSocketDisconnect then .leaving else .closing)
  | .timer worker => .turnTimer worker .over

/-- It submits for the player. -/
def For (player : UUID) : Actor → Prop
  | .handler _ player' => player=player'
  | .timer _ => True

/-- It goes on to submit actions, or an exception is on its way. -/
def Plays {α : Type} (actor : Actor) (control : Control) : Except Exc α → Prop
  | .ok _ => ∃ doing paired,control=actor.playing doing paired
  | .error exc => Interrupts exc ∧ control=actor.failed exc ∨
    ¬Interrupts exc ∧ ∃ doing paired,control=actor.playing doing paired

/-- No player gives up his socket by an operation of this kind. -/
def Stays : Op language → Prop
  | .act (.unregister _ _) => False
  | _ => True

section Moves

variable {actor : Actor} {attempt : Attempt PvPSessionState} {doing : Doing} {paired : Bool}
  {o : Op language}

theorem workerOf_playing : (actor.playing doing paired).workerOf=actor.workerOf := by
  cases actor <;> rfl

theorem doing_playing : (actor.playing doing paired).doing=some doing := by
  cases actor <;> rfl

/-- It goes on after an operation that has returned. -/
theorem next_ok {res : o.Res} (hstays : Stays o) :
    (actor.playing doing paired).next attempt o (.ok res)=
      actor.playing (doing.next attempt paired o (.ok res)).1
        (doing.next attempt paired o (.ok res)).2 := by
  cases actor with
  | timer worker => rfl
  | handler worker player =>
    match o with
    | .store _ => rfl
    | .act (.unregister _ _) => exact hstays.elim
    | .act (.send _ _ _) | .act (.sendJson _) | .act .accept | .act (.safeClose _ _)
    | .act (.receive _) | .act (.sleep _) | .act (.register _ _) | .act (.isConnected _ _)
    | .act (.roomSize _) | .act (.cancelTimeout _) | .act (.restartTimeout _)
    | .act (.cancelDisconnect _ _) | .act (.startDisconnect _ _ _) | .act (.cleanup _) => rfl

/-- An exception ends it. -/
theorem next_error {exc : Exc} (hstays : Stays o) :
    (actor.playing doing paired).next attempt o (.error exc)=actor.failed exc := by
  cases actor with
  | timer worker => rfl
  | handler worker player =>
    match o with
    | .store _ => rfl
    | .act (.unregister _ _) => exact hstays.elim
    | .act (.send _ _ _) | .act (.sendJson _) | .act .accept | .act (.safeClose _ _)
    | .act (.receive _) | .act (.sleep _) | .act (.register _ _) | .act (.isConnected _ _)
    | .act (.roomSize _) | .act (.cancelTimeout _) | .act (.restartTimeout _)
    | .act (.cancelDisconnect _ _) | .act (.startDisconnect _ _ _) | .act (.cleanup _) => rfl

/-- It may send what its phase allows. -/
theorem allows_send {player : UUID} {message : ServerMessage}
    (h : (actor.playing doing paired).Sends player message) :
    (actor.playing doing paired).Allows (.act (.send actor.workerOf player message)) :=
  ⟨workerOf_playing,h⟩

end Moves

end Actor

section Turns

variable {α : Type} {actor : Actor} {doing : Doing} {paired : Bool}

open Actor

/-- An action of somebody who submits actions. -/
theorem goes_playing {o : LocalOp} {f : LocalOp.Res o → Coroutine α} {doing' : Doing}
    (hstays : Stays (.act o)) (hallows : (actor.playing doing paired).Allows (.act o))
    (hnext : ∀ attempt res,doing.next attempt paired (.act o) (.ok res)=(doing',paired))
    (h : ∀ res,Goes actor.Plays (actor.playing doing' paired) (f res)) :
    Goes actor.Plays (actor.playing doing paired) (act o >>= f) := by
  apply goes_act hallows
  · intro attempt exc hexc
    rw [next_error hstays]
    exact .inl ⟨hexc,rfl⟩
  · intro attempt res
    rw [next_ok hstays,hnext]
    exact h res

/-- What somebody who submits actions is doing after a single action. -/
def Keeps {α : Type} (actor : Actor) (doing : Doing) (paired : Bool) (control : Control) :
    Except Exc α → Prop
  | .ok _ => control=actor.playing doing paired
  | .error exc => Interrupts exc ∧ control=actor.failed exc

theorem Keeps.plays {control : Control} {r : Except Exc α}
    (h : Keeps actor doing paired control r) : actor.Plays control r := by
  cases r with
  | ok a => exact ⟨doing,paired,h⟩
  | error exc => exact .inl h

/-- A single action of somebody who submits actions. -/
theorem goes_playing_last {o : LocalOp} {doing' : Doing} (hstays : Stays (.act o))
    (hallows : (actor.playing doing paired).Allows (.act o))
    (hnext : ∀ attempt res,doing.next attempt paired (.act o) (.ok res)=(doing',paired)) :
    Goes (Keeps actor doing' paired) (actor.playing doing paired) (act o) := by
  apply goes_last hallows
  intro attempt r hr
  cases r with
  | error exc => exact ⟨hr exc rfl,next_error hstays⟩
  | ok res =>
    rw [next_ok hstays,hnext]
    rfl

/-- Somebody who submits actions reads the session. -/
theorem goes_playing_load {f : Option PvPSessionState → Coroutine α}
    (h : ∀ value,Goes actor.Plays (actor.playing (doing.loaded value) paired) (f value)) :
    Goes actor.Plays (actor.playing doing paired) (load >>= f) := by
  have hstays : Stays (.store .load) := True.intro
  have hplain : Plain (L := language) (.store .load) := True.intro
  apply goes_redis hplain True.intro
  · intro attempt exc hexc
    rw [next_error hstays]
    exact .inl ⟨hexc,rfl⟩
  · intro attempt value
    rw [next_ok hstays]
    exact h value

/-- What is said about a turn that has been resolved. -/
def Announcement (turn upcoming : Option TurnKey) : ServerMessage → Prop
  | .waitingForAction number _ round .. => upcoming=some (toLex (round,number))
  | .turnResult number .. => ∃ turn',turn=some turn' ∧ (ofLex turn').2=number
  | .actionConfirmed .. => False
  | _ => True

/-- Whoever has resolved a turn may send it. -/
theorem allows_announcement {turn upcoming : Option TurnKey} {player : UUID}
    {message : ServerMessage} (h : Announcement turn upcoming message) :
    (actor.playing (.resolved turn upcoming) paired).Allows
      (.act (.send actor.workerOf player message)) := by
  apply allows_send
  cases message with
  | waitingForAction number limit round =>
    cases h
    cases actor <;> exact ⟨turn,rfl⟩
  | turnResult number =>
    obtain ⟨turn',rfl,hnumber⟩ := h
    exact ⟨turn',upcoming,doing_playing,hnumber⟩
  | actionConfirmed number action => exact h.elim
  | roundResult | matchResult | opponentDisconnected | opponentReconnected | errorMsg | pong =>
    exact True.intro

/-- A message about a turn. -/
theorem goes_announcing_last {turn upcoming : Option TurnKey} {player : UUID}
    {message : ServerMessage} (hmessage : Announcement turn upcoming message) :
    Goes (Keeps actor (.resolved turn upcoming) paired)
      (actor.playing (.resolved turn upcoming) paired) (send actor.workerOf player message) :=
  goes_playing_last (o := .send _ _ _) True.intro (allows_announcement hmessage) fun _ _ => rfl

/-- After a message it goes on to announce the turn. -/
theorem goes_announcing {turn upcoming : Option TurnKey} {player : UUID} {message : ServerMessage}
    {f : Unit → Coroutine α} {Q : Control → Except Exc α → Prop}
    (hmessage : Announcement turn upcoming message)
    (h : Goes Q (actor.playing (.resolved turn upcoming) paired) (f ()))
    (hfails : ∀ exc,Interrupts exc → Q (actor.failed exc) (.error exc) := by
      exact fun _ hexc => .inl ⟨hexc,rfl⟩) :
    Goes Q (actor.playing (.resolved turn upcoming) paired)
      (send actor.workerOf player message >>= f) := by
  apply (goes_announcing_last hmessage).bind
  · rintro control u rfl
    exact h
  · rintro control exc ⟨hexc,rfl⟩
    exact hfails exc hexc

/-- The prompts after a resolution. -/
theorem goes_sendWaitingForAction {turn : Option TurnKey} (session : PvPSessionState) :
    Goes actor.Plays (actor.playing (.resolved turn (currentTurn session)) paired)
      (sendWaitingForAction actor.workerOf session) := by
  unfold sendWaitingForAction currentTurn
  split
  · exact goes_done ⟨_,_,rfl⟩
  · next round hround =>
    rw [hround]
    refine goes_announcing rfl (goes_announcing rfl ?_)
    have hallows : (actor.playing (.resolved turn (some (turnOf round))) paired).Allows
        (.act (.restartTimeout actor.workerOf)) := by
      refine ⟨workerOf_playing,?_⟩
      cases actor <;> exact ⟨turn,_,rfl⟩
    exact (goes_playing_last (o := .restartTimeout _) True.intro hallows fun _ _ => rfl).mono
      fun _ _ => Keeps.plays

/-- The pause and the prompts after a turn. -/
theorem goes_promptNextTurn {turn upcoming : Option TurnKey} (roundEnded : Bool) :
    Goes actor.Plays (actor.playing (.resolved turn upcoming) paired)
      (promptNextTurn actor.workerOf roundEnded) := by
  apply goes_playing (o := .sleep _) True.intro True.intro fun _ _ => rfl
  intro _
  apply goes_playing_load
  intro value
  cases value with
  | none => exact goes_done ⟨_,_,rfl⟩
  | some session =>
    dsimp only
    split
    · exact goes_sendWaitingForAction session
    · exact goes_done ⟨_,_,rfl⟩

/-- The messages once a turn has been resolved. -/
theorem goes_announceTurn {turn : TurnKey} {upcoming : Option TurnKey} {result : TurnResult}
    (captured : ResolveCaptured) (p1Id p2Id : UUID) (hturn : (ofLex turn).2=result.turnNumber) :
    Goes actor.Plays (actor.playing (.resolved (some turn) upcoming) paired)
      (announceTurn actor.workerOf result captured p1Id p2Id) := by
  have hfinal : ∀ result : MatchResult,
      Goes actor.Plays (actor.playing (.resolved (some turn) upcoming) paired)
        (sendMatchResult actor.workerOf result p1Id p2Id) := by
    intro result
    refine goes_announcing ?_ ((goes_announcing_last ?_).mono fun _ _ => Keeps.plays)
    · exact True.intro
    · exact True.intro
  unfold announceTurn
  refine goes_announcing ⟨turn,rfl,hturn⟩ (goes_announcing ⟨turn,rfl,hturn⟩ ?_)
  cases hround : captured.roundResult with
  | none =>
    cases captured.matchResult with
    | none => exact goes_promptNextTurn _
    | some result => exact hfinal result
  | some roundResult =>
    have hround : Goes (Keeps actor (.resolved (some turn) upcoming) paired)
        (actor.playing (.resolved (some turn) upcoming) paired)
        (sendRoundResult actor.workerOf roundResult p1Id p2Id) := by
      refine goes_announcing ?_ (goes_announcing_last ?_) fun _ hexc => ⟨hexc,rfl⟩
      · exact True.intro
      · exact True.intro
    apply hround.bind
    · rintro control u rfl
      cases captured.matchResult with
      | none => exact goes_promptNextTurn _
      | some result => exact hfinal result
    · exact fun control exc h => .inl h

/-- The messages after a resolution. -/
theorem goes_concludeResolve {turn : TurnKey} {upcoming : Option TurnKey}
    {captured : ResolveCaptured}
    (hturn : ∀ result,captured.turnResult=some result → (ofLex turn).2=result.turnNumber) :
    Goes actor.Plays (actor.playing (.resolved (some turn) upcoming) paired)
      (concludeResolve actor.workerOf captured) := by
  apply goes_playing (o := .cancelTimeout _) True.intro True.intro fun _ _ => rfl
  intro _
  cases hr : captured.turnResult with
  | none => exact goes_done ⟨_,_,rfl⟩
  | some result =>
    apply goes_playing_load
    intro value
    cases value with
    | none => exact goes_done ⟨_,_,rfl⟩
    | some session => exact goes_announceTurn captured _ _ (hturn result hr)

/-- What is known after a transaction of somebody who submits actions. -/
def Writes {L : Type} (actor : Actor) (done : L → Doing → Bool → Prop) (control : Control) :
    Except Exc (L×PvPSessionState) → Prop
  | .ok result => ∃ doing paired,control=actor.playing doing paired ∧ done result.1 doing paired
  | .error exc => actor.Plays control (.error exc : Except Exc Unit)

/-- A transaction of somebody who submits actions. -/
theorem goes_transaction {L : Type} {call : L → Call} {mutator : Mutator L}
    {done : L → Doing → Bool → Prop} (I : L → Bool → Prop)
    (hmakes : ∀ c session c' session',mutator c session=.ok (c',session') →
      Makes (call c) session session')
    (hraises : ∀ c session e,mutator c session=.error e → ¬Interrupts e)
    (hexec : ∀ c paired session c' session' (token n : ℕ) (doing : Doing),I c paired →
      mutator c session=.ok (c',session') →
      (actor.playing doing paired).Runs (call c) ∧
      I c' (doing.next (.found token session) paired (.store (.exec token n (call c) session'))
        (.ok false)).2 ∧
      done c' (doing.next (.found token session) paired (.store (.exec token n (call c) session'))
        (.ok true)).1 (doing.next (.found token session) paired
          (.store (.exec token n (call c) session')) (.ok true)).2)
    {c : L} (h : I c paired) :
    Goes (Writes actor done) (actor.playing doing paired)
      (watchAndUpdate call mutator defaultMaxRetries c) := by
  have hstays : ∀ o : StoreOp PvPSessionState Call,Stays (.store o) := fun _ => True.intro
  refine goes_watchAndUpdate (fun c control => ∃ doing paired,control=actor.playing doing paired ∧
    I c paired) hmakes ?_ ?_ ?_ ?_ (show defaultMaxRetries≠0 by decide) ⟨doing,paired,rfl,h⟩
  · rintro c control ⟨doing,paired,rfl,hi⟩
    refine ⟨True.intro,True.intro,fun attempt token => ?_,fun attempt session => ?_,
      fun attempt exc hexc => ?_,fun attempt exc hexc => ?_⟩
    · exact ⟨doing,paired,next_ok (hstays .watch),hi⟩
    · exact ⟨doing,paired,next_ok (hstays .get),hi⟩
    · exact .inl ⟨hexc,next_error (hstays .watch)⟩
    · exact .inl ⟨hexc,next_error (hstays .get)⟩
  · rintro c control attempt ⟨doing,paired,rfl,hi⟩
    have hget : (actor.playing doing paired).next attempt (.store .get) (.ok none)=
        actor.playing doing paired := next_ok (hstays .get)
    rw [hget]
    refine ⟨True.intro,fun attempt' => ⟨.inr ⟨?_,doing,paired,next_ok (hstays .unwatch)⟩,
      fun exc hexc => .inl ⟨hexc,next_error (hstays .unwatch)⟩⟩⟩
    rintro (he | he | he) <;> cases he
  · rintro c control session e ⟨doing,paired,rfl,-⟩ hm
    exact .inr ⟨hraises c session e hm,doing,paired,rfl⟩
  · rintro c control session c' session' token n ⟨doing,paired,rfl,hi⟩ hm
    obtain ⟨hruns,hagain,hdone⟩ := hexec c paired session c' session' token n doing hi hm
    refine ⟨hruns,fun exc hexc => .inl ⟨hexc,next_error (hstays (.exec _ _ _ _))⟩,
      fun _ => ⟨_,_,next_ok (hstays (.exec _ _ _ _)),hagain⟩,fun _ => .inr ⟨?_,_,_,
        next_ok (hstays (.exec _ _ _ _))⟩,⟨_,_,next_ok (hstays (.exec _ _ _ _)),hdone⟩⟩
    rintro (he | he | he) <;> cases he

/-- _resolve_turn. -/
theorem goes_resolveTurn (p1Action p2Action : Action) :
    Goes actor.Plays (actor.playing doing true)
      (resolveTurn actor.workerOf p1Action p2Action) := by
  have hwrites : Goes (Writes actor fun captured doing paired => ∃ turn upcoming,
      doing=.resolved (some turn) upcoming ∧
        ∀ result,captured.turnResult=some result → (ofLex turn).2=result.turnNumber)
      (actor.playing doing true)
      (watchAndUpdate (fun _ => .resolve p1Action p2Action) (GameSession.applyTurn p1Action p2Action)
        defaultMaxRetries ⟨none,none,none⟩) := by
    refine goes_transaction (fun _ paired => paired=true) (fun _ _ _ _ hm => .resolve hm) ?_ ?_ rfl
    · intro c session e hm
      unfold GameSession.applyTurn at hm
      split at hm
      · cases hm
        rintro (he | he | he) <;> cases he
      · cases hm
    · rintro c paired session c' session' token n doing rfl hm
      refine ⟨by cases actor <;> rfl,rfl,?_⟩
      unfold GameSession.applyTurn at hm
      split at hm
      · cases hm
      · next gameState report hsubmit =>
        cases hm
        obtain ⟨round,hopen,-,haccepted⟩ := openRound_of_submitTurn hsubmit
        refine ⟨turnOf round,currentTurn {session with gameState := gameState},?_,?_⟩
        · simp [Doing.next,openTurn,Attempt.value,hopen]
        · rintro result ⟨⟩
          obtain ⟨-,hround⟩ := openRound_eq_some.mp hopen
          cases haccepted with
          | roundGoesOn round₁ h₁ | roundCloses round₁ h₁ | matchCloses round₁ h₁ =>
            cases hround.symm.trans h₁
            rfl
  apply goes_except hwrites
  · rintro control result ⟨_,paired,rfl,turn,upcoming,rfl,hturn⟩
    exact goes_concludeResolve hturn
  · rintro control exc (⟨hexc,-⟩ | ⟨-,doing,paired,rfl⟩) hc
    · cases of_decide_eq_true hc
      rcases hexc with he | he | he <;> cases he
    · exact goes_done ⟨doing,paired,rfl⟩
  · exact fun control exc h _ => h

/-- submit_action. -/
theorem goes_submitAction {player : UUID} (action : Action) (hfor : actor.For player) :
    Goes actor.Plays (actor.playing doing paired)
      (submitAction actor.workerOf player action) := by
  have hwrites : Goes (Writes actor fun captured doing paired =>
      (captured.shouldResolve=true → paired=true) ∧ ∃ turn,doing=.submitted turn ∧
        (captured.validationError=none → ∃ turn',turn=some turn' ∧
          (ofLex turn').2=captured.confirmedTurnNumber))
      (actor.playing doing paired)
      (watchAndUpdate (.submit player action) (storeAction player action) defaultMaxRetries
        .fresh) := by
    refine goes_transaction (fun captured paired => captured.shouldResolve=true → paired=true)
      (fun _ _ _ _ hm => .submit hm) ?_ ?_ nofun
    · intro c session e hm
      obtain ⟨session',hresult⟩ := SubmitRetries.storeAction_ok player action c session
      rw [hresult] at hm
      cases hm
    · intro c paired session c' session' token n doing hi hm
      have hruns : (actor.playing doing paired).Runs (.submit player action c) := by
        cases actor <;> exact hfor
      -- the flag is set if it was, or if this attempt has found a complete pair
      have hflag : c'.shouldResolve=true →
          (paired || completes (.found token session) player action)=true := by
        intro hresolve
        cases storeAction_cases hm with
        | rejected | stored => rw [hi hresolve,Bool.true_or]
        | completed round p1Action p2Action h h₁ h₂ hpair =>
          simp [completes,reads,Attempt.value,hpair]
      refine ⟨hruns,hflag,hflag,_,rfl,fun herror => ?_⟩
      cases storeAction_cases hm with
      | rejected => cases herror
      | stored round h | completed round _ _ h =>
        refine ⟨turnOf round,?_,rfl⟩
        simp [acceptedTurn,Attempt.value,h]
  have herror : ∀ doing paired text,Goes actor.Plays (actor.playing doing paired)
      (send actor.workerOf player (.errorMsg text)) := by
    intro doing paired text
    have hallows : (actor.playing doing paired).Allows
        (.act (.send actor.workerOf player (.errorMsg text))) := allows_send True.intro
    cases doing with
    | idle | submitted turn | resolved turn upcoming =>
      exact (goes_playing_last (o := .send _ _ _) True.intro hallows fun _ _ => rfl).mono
        fun _ _ => Keeps.plays
  apply goes_except hwrites
  · rintro control result ⟨_,paired,rfl,hflag,turn,rfl,hturn⟩
    change Goes _ _ (concludeSubmit actor.workerOf player action result.1)
    unfold concludeSubmit
    split
    · exact herror _ _ _
    · next hnone =>
      have hallows : (actor.playing (.submitted turn) paired).Allows (.act (.send actor.workerOf
          player (.actionConfirmed result.1.confirmedTurnNumber action.value))) := by
        obtain ⟨turn',rfl,hnumber⟩ := hturn hnone
        refine allows_send ⟨turn',doing_playing,hnumber,fun worker player' stage he => ?_⟩
        cases actor with
        | timer worker => cases he
        | handler worker own =>
          cases he
          exact hfor.symm
      apply goes_playing (o := .send _ _ _) True.intro hallows fun _ _ => rfl
      intro _
      have hends : Goes actor.Plays (actor.playing .idle paired) (pure ()) :=
        goes_done ⟨.idle,paired,rfl⟩
      cases hresolve : result.1.shouldResolve with
      | false => exact hends
      | true =>
        rw [hflag hresolve] at hends ⊢
        cases result.1.p1ActionToResolve with
        | none => exact hends
        | some p1Action =>
          cases result.1.p2ActionToResolve with
          | none => exact hends
          | some p2Action => exact goes_resolveTurn p1Action p2Action
  · rintro control exc (⟨hexc,-⟩ | ⟨-,doing,paired,rfl⟩) hc
    · cases of_decide_eq_true hc
      rcases hexc with he | he | he <;> cases he
    · exact herror _ _ _
  · exact fun control exc h _ => h

end Turns

section Connecting

variable {worker : Worker} {player : UUID}

/-- What is left of handle_connect and start can end anywhere with an exception. -/
def Reaches {α : Type} (P : Control → Prop) (control : Control) : Except Exc α → Prop
  | .ok _ => P control
  | .error _ => True

/-- handle_connect is over. -/
def Arrived (worker : Worker) (player : UUID) (control : Control) : Prop :=
  control=.socket worker player .counting ∨ control=.socket worker player .returning

/-- start is over. -/
def Started (worker : Worker) (player : UUID) (control : Control) : Prop :=
  control=.socket worker player (.playing .idle false)

/-- What is known after handle_connect's transaction. -/
def Marked (worker : Worker) (player : UUID) (control : Control) :
    Except Exc (ConnectCaptured×PvPSessionState) → Prop
  | .ok (captured,_) =>
    captured.isReconnect=true ∧ control=.socket worker player .returning ∨
      captured.isReconnect=false ∧ control=.socket worker player .counting
  | .error exc => exc=.gameNotFound → control=.socket worker player .counting

/-- handle_connect's transaction. -/
theorem goes_markConnected :
    Goes (Marked worker player) (.socket worker player (.connecting false))
      (watchAndUpdate (fun _ => .connect player) (markConnected player) defaultMaxRetries
        ⟨none,false,none⟩) := by
  have hraised : ∀ {exc : Exc} {control : Control},Interrupts exc →
      Marked worker player control (.error exc) := by
    rintro exc control hexc rfl
    rcases hexc with he | he | he <;> cases he
  refine goes_watchAndUpdate (fun captured control => ∃ found,
    control=.socket worker player (.connecting found) ∧ captured.isReconnect=found)
    (fun _ _ _ _ hm => .connect hm) ?_ ?_ ?_ ?_ (show defaultMaxRetries≠0 by decide)
    ⟨false,rfl,rfl⟩
  · rintro captured control ⟨found,rfl,hfound⟩
    exact ⟨True.intro,True.intro,fun _ _ => ⟨found,rfl,hfound⟩,fun _ _ => ⟨found,rfl,hfound⟩,
      fun _ _ hexc => hraised hexc,fun _ _ hexc => hraised hexc⟩
  · rintro captured control attempt ⟨found,rfl,hfound⟩
    exact ⟨True.intro,fun _ => ⟨fun _ => rfl,fun _ hexc => hraised hexc⟩⟩
  · intro captured control session e _ hm
    unfold markConnected at hm
    split at hm <;> cases hm
  · rintro captured control session captured' session' token n ⟨found,rfl,hfound⟩ hm
    have hflag : captured'.isReconnect=(found || session.hasConnected player) := by
      unfold markConnected at hm
      split at hm
      · next hc =>
        cases hm
        rw [hc,Bool.or_true]
      · next hc =>
        cases hm
        rw [Bool.eq_false_iff.mpr hc,Bool.or_false]
        exact hfound
    refine ⟨rfl,fun _ hexc => hraised hexc,fun hn => ?_,fun hn => ?_,?_⟩
    · refine ⟨_,?_,hflag⟩
      simp [Control.next,Stage.next,connected,hn,reads,Attempt.value]
    · rintro ⟨⟩
    · cases hc : captured'.isReconnect with
      | true =>
        rw [hflag] at hc
        exact .inl ⟨hflag.trans hc,by
          simp [Control.next,Stage.next,connected,reads,Attempt.value,hc]⟩
      | false =>
        rw [hflag] at hc
        exact .inr ⟨hflag.trans hc,by
          simp [Control.next,Stage.next,connected,reads,Attempt.value,hc]⟩

/-- The prompts of a reconnection. -/
theorem goes_prompts_again (session : PvPSessionState) :
    Goes (Reaches (Arrived worker player)) (.socket worker player .returning)
      (sendWaitingForAction worker session) := by
  have hprompts : ∀ player' turn limit number ki ki',(Control.socket worker player .returning).Allows
      (.act (.send worker player' (.waitingForAction turn limit number ki ki'))) :=
    fun _ _ _ _ _ _ => ⟨rfl,True.intro⟩
  have harms : (Control.socket worker player .returning).Allows (.act (.restartTimeout worker)) :=
    ⟨rfl,True.intro⟩
  unfold sendWaitingForAction
  split
  · exact goes_done (.inr rfl)
  · apply goes_act (hprompts _ _ _ _ _ _) (fun _ _ _ => True.intro)
    intro _ _
    apply goes_act (hprompts _ _ _ _ _ _) (fun _ _ _ => True.intro)
    intro _ _
    apply goes_last harms
    rintro _ (exc | u) -
    · exact True.intro
    · exact .inr rfl

/-- handle_connect. -/
theorem goes_handleConnect :
    Goes (Reaches (Arrived worker player)) (.socket worker player (.connecting false))
      (handleConnect worker player) := by
  have hdone : ∀ {control : Control},Arrived worker player control →
      Goes (Reaches (Arrived worker player)) control (pure ()) := fun h => goes_done h
  have htells : ∀ player',(Control.socket worker player .returning).Allows
      (.act (.send worker player' .opponentReconnected)) := fun _ => ⟨rfl,True.intro⟩
  have hrefuses : (Control.socket worker player .counting).Allows
      (.act (.send worker player (.errorMsg "Game not found"))) := ⟨rfl,True.intro⟩
  apply goes_except goes_markConnected
  · rintro control ⟨captured,session⟩ (⟨hreconnect,rfl⟩ | ⟨hreconnect,rfl⟩)
    · dsimp only
      rw [hreconnect]
      cases captured.opponentToNotify with
      | none => exact hdone (.inr rfl)
      | some opponent =>
        apply goes_act (o := .cancelDisconnect _ _) True.intro fun _ _ _ => True.intro
        intro _ _
        apply goes_act (htells opponent) fun _ _ _ => True.intro
        intro _ _
        cases captured.newState with
        | none => exact hdone (.inr rfl)
        | some session =>
          dsimp only
          split
          · exact goes_prompts_again session
          · exact hdone (.inr rfl)
    · dsimp only
      rw [hreconnect]
      exact hdone (.inl rfl)
  · intro control exc hmarked hc
    rw [hmarked (of_decide_eq_true hc)]
    apply goes_last hrefuses
    rintro _ (exc | u) -
    · exact True.intro
    · exact .inl rfl
  · exact fun _ _ _ _ => True.intro

/-- What is known after start's transaction. -/
def Announcing (worker : Worker) (player : UUID) (control : Control) :
    Except Exc (StartCaptured×PvPSessionState) → Prop
  | .ok (captured,_) =>
    captured.alreadyStarted=true ∧ Started worker player control ∨
      captured.alreadyStarted=false ∧ ∃ session,captured.newState=some session ∧
        control=.socket worker player (announces session)
  | .error exc => exc=.gameNotFound → Started worker player control

/-- start's transaction. -/
theorem goes_markStarted :
    Goes (Announcing worker player) (.socket worker player (.starting false))
      (watchAndUpdate (fun _ => .start) markStarted defaultMaxRetries ⟨none,false⟩) := by
  have hraised : ∀ {exc : Exc} {control : Control},Interrupts exc →
      Announcing worker player control (.error exc) := by
    rintro exc control hexc rfl
    rcases hexc with he | he | he <;> cases he
  refine goes_watchAndUpdate (fun captured control => ∃ found,
    control=.socket worker player (.starting found) ∧ captured.alreadyStarted=found)
    (fun _ _ _ _ hm => .start hm) ?_ ?_ ?_ ?_ (show defaultMaxRetries≠0 by decide)
    ⟨false,rfl,rfl⟩
  · rintro captured control ⟨found,rfl,hfound⟩
    exact ⟨True.intro,True.intro,fun _ _ => ⟨found,rfl,hfound⟩,fun _ _ => ⟨found,rfl,hfound⟩,
      fun _ _ hexc => hraised hexc,fun _ _ hexc => hraised hexc⟩
  · rintro captured control attempt ⟨found,rfl,hfound⟩
    exact ⟨True.intro,fun _ => ⟨fun _ => rfl,fun _ hexc => hraised hexc⟩⟩
  · intro captured control session e _ hm
    unfold markStarted at hm
    split at hm <;> cases hm
  · rintro captured control session captured' session' token n ⟨found,rfl,hfound⟩ hm
    have hflag : captured'.alreadyStarted=(found || session.started) ∧
        captured'.newState=some session' := by
      unfold markStarted at hm
      split at hm
      · next hs =>
        cases hm
        rw [hs,Bool.or_true]
        exact ⟨rfl,rfl⟩
      · next hs =>
        cases hm
        rw [Bool.eq_false_iff.mpr hs,Bool.or_false]
        exact ⟨hfound,rfl⟩
    obtain ⟨halready,hnew⟩ := hflag
    refine ⟨True.intro,fun _ hexc => hraised hexc,fun hn => ?_,fun hn => ?_,?_⟩
    · refine ⟨_,?_,halready⟩
      simp [Control.next,Stage.next,started,hn,reads,Attempt.value]
    · rintro ⟨⟩
    · cases hs : captured'.alreadyStarted with
      | true =>
        rw [halready] at hs
        exact .inl ⟨halready.trans hs,by
          simp [Started,Control.next,Stage.next,started,reads,Attempt.value,hs]⟩
      | false =>
        rw [halready] at hs
        exact .inr ⟨halready.trans hs,session',hnew,by
          simp [Control.next,Stage.next,started,reads,Attempt.value,hs]⟩

/-- The prompts of start. -/
theorem goes_prompts (session : PvPSessionState) :
    Goes (Reaches (Started worker player)) (.socket worker player (announces session))
      (sendWaitingForAction worker session) := by
  have hprompts : ∀ player' untold number limit round ki ki',
      (Control.socket worker player (.prompting (toLex (round,number)) (player'::untold))).Allows
        (.act (.send worker player' (.waitingForAction number limit round ki ki'))) :=
    fun _ _ _ _ _ _ _ => ⟨rfl,rfl,rfl⟩
  have harms : ∀ turn,(Control.socket worker player (.prompting turn [])).Allows
      (.act (.restartTimeout worker)) := fun _ => ⟨rfl,rfl⟩
  unfold sendWaitingForAction announces currentTurn
  cases hround : session.gameState.currentRound with
  | none => exact goes_done rfl
  | some round =>
    apply goes_act (hprompts _ _ _ _ _ _ _) (fun _ _ _ => True.intro)
    intro _ _
    apply goes_act (hprompts _ _ _ _ _ _ _) (fun _ _ _ => True.intro)
    intro _ _
    apply goes_last (harms _)
    rintro _ (exc | u) -
    · exact True.intro
    · rfl

/-- start. -/
theorem goes_start :
    Goes (Reaches (Started worker player)) (.socket worker player (.starting false))
      (start worker) := by
  apply goes_except goes_markStarted
  · rintro control ⟨captured,session⟩ (⟨halready,hstarted⟩ | ⟨halready,session',hnew,rfl⟩)
    · dsimp only
      rw [halready]
      exact goes_done hstarted
    · dsimp only
      rw [halready,hnew]
      exact goes_prompts session'
  · intro control exc hstarted hc
    exact goes_done (hstarted (of_decide_eq_true hc))
  · exact fun _ _ _ _ => True.intro

/-- The room is counted, and the match is started if it is full. -/
theorem goes_startWhenFull {control : Control} (h : Arrived worker player control) :
    Goes (Reaches (Started worker player)) control (startWhenFull worker) := by
  have hcounts : control.Allows (.act (.roomSize worker)) := by
    obtain rfl | rfl := h
    · exact ⟨player,.inr rfl⟩
    · exact ⟨player,.inl rfl⟩
  apply goes_act hcounts
  · exact fun _ _ _ => True.intro
  · intro attempt (size : ℕ)
    have hnext : control.next attempt (.act (.roomSize worker)) (.ok size)=
        .socket worker player (if size ≥ 2 then .starting false else .playing .idle false) := by
      obtain rfl | rfl := h <;> rfl
    rw [hnext]
    split
    · exact goes_start
    · exact goes_done rfl

/-- Where the receive loop and handle_disconnect can end. -/
def Leaves (worker : Worker) (player : UUID) (control : Control) : Prop :=
  ∃ stage,control=.socket worker player stage ∧
    (stage=.leaving ∨ stage=.closing ∨ ∃ doing paired,stage=.playing doing paired)

/-- handle_disconnect. -/
theorem goes_handleDisconnect :
    Goes (fun control _ => Leaves worker player control) (.socket worker player .leaving)
      (handleDisconnect worker player) := by
  have hleaves : Leaves worker player (.socket worker player .leaving) := ⟨.leaving,rfl,.inl rfl⟩
  have hload : Goes (fun control (_ : Except Exc (Option PvPSessionState)) =>
      control=.socket worker player .leaving) (.socket worker player .leaving) load :=
    goes_op (o := .store .load) True.intro True.intro fun _ _ _ _ => goes_done rfl
  have htells : ∀ player',(Control.socket worker player .leaving).Allows
      (.act (.send worker player' (.opponentDisconnected disconnectTimeoutSeconds))) :=
    fun _ => ⟨rfl,True.intro⟩
  apply goes_except hload
  · rintro control value rfl
    cases value with
    | none => exact goes_done hleaves
    | some session =>
      apply goes_act (htells _) fun _ _ _ => hleaves
      intro _ _
      exact goes_last (o := .startDisconnect _ _ _) rfl fun _ _ _ => hleaves
  · rintro control exc rfl -
    exact goes_done hleaves
  · rintro control exc rfl -
    exact hleaves

/-- The cleanup of a handler. -/
theorem goes_closeSocket {control : Control} (h : Leaves worker player control) :
    Goes (fun _ _ => True) control (closeSocket worker player) := by
  have hunregisters : control.Allows (.act (.unregister worker player)) := by
    obtain ⟨stage,rfl,hstage⟩ := h
    exact ⟨stage,rfl,.inr hstage⟩
  have hnext : ∀ attempt r,control.next attempt (.act (.unregister worker player)) r=
      .socket worker player .closing := by
    intro attempt r
    obtain ⟨stage,rfl,rfl | rfl | ⟨doing,paired,rfl⟩⟩ := h <;> cases r <;> rfl
  have hplain : Plain (L := language) (.store .load) := True.intro
  apply goes_act hunregisters fun _ _ _ => True.intro
  intro attempt u
  rw [hnext]
  apply goes_redis hplain True.intro fun _ _ _ => True.intro
  intro attempt value
  cases value with
  | none => exact goes_done True.intro
  | some session =>
    dsimp only
    split
    · apply goes_act (o := .cleanup _) True.intro fun _ _ _ => True.intro
      intro _ _
      exact goes_op (o := .store .delete) True.intro ⟨worker,player,rfl⟩ fun _ _ _ _ =>
        goes_done True.intro
    · exact goes_done True.intro

open Actor

/-- What the handler does with a frame. -/
theorem goes_handleFrame (doing : Doing) (paired : Bool) (frame : Frame) :
    Goes (Actor.handler worker player).Plays ((Actor.handler worker player).playing doing paired)
      (handleFrame worker player frame) := by
  have hsends : ∀ message,Goes (Actor.handler worker player).Plays
      ((Actor.handler worker player).playing doing paired) (act (.sendJson message)) :=
    fun message => (goes_playing_last (o := .sendJson message) True.intro True.intro
      fun _ _ => rfl).mono fun _ _ => Keeps.plays
  cases frame with
  | other => exact goes_done ⟨doing,paired,rfl⟩
  | ping => exact hsends _
  | malformed =>
    refine goes_done (.inr ⟨?_,doing,paired,rfl⟩)
    rintro (he | he | he) <;> cases he
  | submitAction text =>
    dsimp only [handleFrame]
    cases Action.ofValue? text with
    | none => exact hsends _
    | some action => exact goes_submitAction action rfl

/-- The receive loop. -/
theorem goes_receiveLoop (frames : List Frame) (doing : Doing) (paired : Bool) :
    Goes (Actor.handler worker player).Plays ((Actor.handler worker player).playing doing paired)
      (receiveLoop worker player frames) := by
  have hreceives : ∀ frame doing paired,((Actor.handler worker player).playing doing paired).Allows
      (.act (.receive frame)) := fun _ doing paired => ⟨worker,player,doing,paired,rfl⟩
  induction frames generalizing doing paired with
  | nil =>
    exact (goes_playing_last (o := .receive none) True.intro (hreceives none doing paired)
      fun _ _ => rfl).mono fun _ _ => Keeps.plays
  | cons frame frames ih =>
    apply goes_playing (o := .receive (some frame)) True.intro (hreceives _ doing paired)
      fun _ _ => rfl
    intro _
    apply (goes_handleFrame doing paired frame).bind
    · rintro control u ⟨doing',paired',rfl⟩
      exact ih doing' paired'
    · exact fun _ _ h => h

/-- A handler whose player may play. -/
theorem goes_playGame (frames : List Frame) :
    Goes (fun _ _ => True) (.socket worker player (.connecting false))
      (playGame worker player frames) := by
  apply goes_handleConnect.bind
  · intro control u harrived
    apply (goes_startWhenFull harrived).bind
    · rintro control u rfl
      have hloop : Goes (fun control _ => Leaves worker player control)
          (.socket worker player (.playing .idle false))
          ((receiveLoop worker player frames).handle fun e =>
            if e=.webSocketDisconnect then handleDisconnect worker player else .raise e) := by
        apply (goes_receiveLoop frames .idle false).andThen
        intro control r hplays
        cases r with
        | ok u =>
          obtain ⟨doing,paired,rfl⟩ := hplays
          exact goes_done ⟨_,rfl,.inr (.inr ⟨doing,paired,rfl⟩)⟩
        | error exc =>
          dsimp only
          obtain ⟨hexc,rfl⟩ | ⟨hexc,doing,paired,rfl⟩ := hplays
          · unfold failed
            dsimp only
            split
            · exact goes_handleDisconnect
            · exact goes_done ⟨_,rfl,.inr (.inl rfl)⟩
          · rw [if_neg fun he => hexc (.inr (.inr he))]
            exact goes_done ⟨_,rfl,.inr (.inr ⟨doing,paired,rfl⟩)⟩
      apply hloop.andThen
      intro control r hleaves
      apply (goes_closeSocket hleaves).andThen
      intro control r' _
      cases r' with
      | ok u => exact goes_done True.intro
      | error exc => exact goes_done True.intro
    · exact fun _ _ _ => True.intro
  · exact fun _ _ _ => True.intro

/-- The handler of a game socket. -/
theorem goes_gameWs (frames : List Frame) :
    Goes (fun _ _ => True) (.socket worker player .arriving) (gameWs worker player frames) := by
  have hrefuse : ∀ message,Goes (fun _ _ => True) (.socket worker player .refusing)
      (refuse worker player message) := by
    intro message
    apply goes_act (o := .sendJson _) True.intro fun _ _ _ => True.intro
    intro _ _
    exact goes_last (o := .unregister _ _) ⟨.refusing,rfl,.inl rfl⟩ fun _ _ _ => True.intro
  have hplain : Plain (L := language) (.store .load) := True.intro
  apply goes_act (o := .accept) True.intro fun _ _ _ => True.intro
  intro _ _
  apply goes_act (o := .safeClose _ _) True.intro fun _ _ _ => True.intro
  intro _ _
  apply goes_act (o := .register _ _) rfl fun _ _ _ => True.intro
  intro _ _
  apply goes_redis hplain True.intro fun _ _ _ => True.intro
  intro attempt value
  cases value with
  | none => exact hrefuse _
  | some session =>
    have hnext : (Control.socket worker player .entering).next attempt (.store .load)
        (.ok (some session))=.socket worker player
          (if session.isPlayer player then .connecting false else .refusing) := rfl
    change Goes _ ((Control.socket worker player .entering).next attempt (.store .load)
        (.ok (some session))) (if _ then _ else _)
    rw [hnext]
    cases session.isPlayer player with
    | false => exact hrefuse _
    | true => exact goes_playGame frames

end Connecting

section Timers

variable {worker : Worker}

open Actor

/-- A turn timer. -/
theorem goes_turnTimeout :
    Goes (fun _ _ => True) (.turnTimer worker .waiting) (turnTimeout worker) := by
  have hload : Goes (fun control (r : Except Exc (Option PvPSessionState)) => ∀ session,
      r=.ok (some session) → session.gameState.status=.inProgress →
        control=(Actor.timer worker).playing .idle false) (.turnTimer worker .checking) load := by
    apply goes_op (o := .store .load) True.intro True.intro
    rintro attempt effective r -
    apply goes_done
    rintro session rfl hs
    simp [Control.next,TimerStage.next,hs,Actor.playing]
  have hdefault : ∀ needs player doing paired,Goes (Actor.timer worker).Plays
      ((Actor.timer worker).playing doing paired) (submitDefault worker needs player) := by
    intro needs player doing paired
    cases needs with
    | false => exact goes_done ⟨doing,paired,rfl⟩
    | true => exact goes_submitAction _ True.intro
  apply goes_act (o := .sleep _) True.intro fun _ _ _ => True.intro
  intro _ _
  apply goes_except hload
  · intro control value hcontrol
    cases value with
    | none => exact goes_done True.intro
    | some session =>
      dsimp only
      split
      · exact goes_done True.intro
      · next hs =>
        rw [hcontrol session rfl (not_not.mp hs)]
        apply (hdefault _ _ _ _).bind
        · rintro control u ⟨doing,paired,rfl⟩
          exact (hdefault _ _ doing paired).mono fun _ _ _ => True.intro
        · exact fun _ _ _ => True.intro
  · exact fun _ _ _ _ => goes_done True.intro
  · exact fun _ _ _ _ => True.intro

/-- A forfeit timer. -/
theorem goes_forfeitAfterTimeout (disconnected opponent : UUID) :
    Goes (fun _ _ => True) (.forfeitTimer worker disconnected opponent .waiting)
      (forfeitAfterTimeout worker disconnected opponent) := by
  have hload : Goes (fun control (r : Except Exc (Option PvPSessionState)) => ∀ session,
      r=.ok (some session) → control=.forfeitTimer worker disconnected opponent .forfeiting)
      (.forfeitTimer worker disconnected opponent .loading) load := by
    apply goes_op (o := .store .load) True.intro True.intro
    rintro attempt effective r -
    apply goes_done
    rintro session rfl
    rfl
  have hwrites : ∀ forfeiting,Goes (fun control (r : Except Exc (Unit×PvPSessionState)) =>
      ∀ result,r=.ok result → control=.forfeitTimer worker disconnected opponent .forfeiting)
      (.forfeitTimer worker disconnected opponent .forfeiting)
      (watchAndUpdate (fun _ => .forfeit forfeiting) (forfeitMatch forfeiting) defaultMaxRetries
        ()) := by
    intro forfeiting
    have hraised : ∀ {P : Prop} {exc : Exc} (result : Unit×PvPSessionState),
        (.error exc : Except Exc (Unit×PvPSessionState))=.ok result → P := by
      intro P exc result he
      cases he
    refine goes_watchAndUpdate
      (fun _ control => control=.forfeitTimer worker disconnected opponent .forfeiting)
      (fun _ _ _ _ hm => .forfeit hm) ?_ ?_ ?_ ?_ (show defaultMaxRetries≠0 by decide) rfl
    · rintro _ control rfl
      exact ⟨True.intro,True.intro,fun _ _ => rfl,fun _ _ => rfl,fun _ _ _ => hraised,
        fun _ _ _ => hraised⟩
    · rintro _ control attempt rfl
      exact ⟨True.intro,fun _ => ⟨hraised,fun _ _ => hraised⟩⟩
    · exact fun _ _ _ _ _ _ => hraised
    · rintro _ control session _ session' token n rfl hm
      exact ⟨True.intro,fun _ _ => hraised,fun _ => rfl,fun _ => hraised,fun _ _ => rfl⟩
  have htells : ∀ winner a b c,(Control.forfeitTimer worker disconnected opponent .forfeiting).Allows
      (.act (.send worker opponent (.matchResult winner a b c))) :=
    fun _ _ _ _ => ⟨rfl,True.intro⟩
  have hplain : Plain (L := language) (.store .load) := True.intro
  apply goes_act (o := .sleep _) True.intro fun _ _ _ => True.intro
  intro _ _
  apply goes_act (o := .isConnected _ _) ⟨opponent,rfl⟩ fun _ _ _ => True.intro
  intro attempt connected
  cases connected with
  | true => exact goes_done True.intro
  | false =>
    apply goes_except hload
    · intro control value hcontrol
      cases value with
      | none => exact goes_done True.intro
      | some session =>
        rw [hcontrol session rfl]
        apply goes_except (hwrites _)
        · intro control result hcontrol
          rw [hcontrol result rfl]
          apply goes_redis hplain True.intro fun _ _ _ => True.intro
          intro _ value
          cases value with
          | none => exact goes_done True.intro
          | some session => exact goes_last (htells _ _ _ _) fun _ _ _ => True.intro
        · exact fun _ _ _ _ => goes_done True.intro
        · exact fun _ _ _ _ => True.intro
    · exact fun _ _ _ _ => goes_done True.intro
    · exact fun _ _ _ _ => True.intro

end Timers

/-- Every task goes through its phases. -/
theorem body_follows (entry : Entry) :
    watcher.Follows (fun phase _ => watcher.ends phase) (watcher.start entry) (body entry) := by
  cases entry with
  | gameWs worker player frames => exact goes_gameWs frames .idle
  | turnTimeout worker => exact goes_turnTimeout .idle
  | forfeitAfterTimeout worker disconnected opponent =>
    exact goes_forfeitAfterTimeout disconnected opponent .idle

end KiClash.GamePhases
