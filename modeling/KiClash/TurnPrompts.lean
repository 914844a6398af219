import KiClash.GameHandshake
import KiClash.GamePrograms

/-!
# One prompt for each turn

The prompts that the players of a Python match are sent. Whoever resolves a turn pauses
and prompts for the turn that it then finds, so two of them that pause at the same time
prompt for the same turn. When each of them finds the turn after its own and nobody is
still prompting, every player is prompted once for each turn, in the order of the turns.
-/

namespace KiClash.TurnPrompts

open EngineTypes Engine ServerMessages AsyncTasks WatchedKey TaskPhases TransactionReads Histories
open GameStore GameSession PendingPairs SessionChronicle SessionTurns GamePhases
open GameTransactions

section Paces

/-- How far a task is on the way to its next prompts. -/
inductive Pace
  /-- It has nothing to prompt for. -/
  | idle
  /-- Its resolution has written this session. -/
  | resolved (session : PvPSessionState)
  /-- The pause after it is over. -/
  | paused (session : PvPSessionState)
  /-- These players have not been prompted for the turn of this session. -/
  | prompting (session : PvPSessionState) (untold : List UUID)
  deriving DecidableEq

/-- Nobody has been prompted for the session. -/
def Pace.begin (session : PvPSessionState) : Pace :=
  .prompting session [session.player1Id,session.player2Id]

/-- What an operation makes of it. -/
def Pace.next : Pace → (o : Op language) → Except Exc o.Res → Pace
  | _,.store (.exec _ _ (.resolve _ _) session),.ok true => .resolved session
  | _,.store (.exec _ _ .start session),.ok true => .begin session
  | _,.store (.exec _ _ (.connect _) session),.ok true => .begin session
  | .resolved session,.act (.sleep _),.ok _ => .paused session
  | .paused _,.store .load,.ok (some session) =>
    if session.gameState.status=.inProgress then .begin session else .idle
  | .paused _,.store .load,_ => .idle
  | .prompting session untold,.act (.send _ _ message),_ =>
    .prompting session (if message.isPrompt then untold.tail else untold)
  | pace,_,_ => pace

/-- The player is the next one to be prompted for the turn. -/
def Pace.Prompts (player : UUID) (turn : TurnKey) : Pace → Prop
  | .prompting session untold => untold.head?=some player ∧ currentTurn session=some turn
  | _ => False

/-- What a task may perform. -/
def Pace.Allows (pace : Pace) : Op language → Prop
  | .act (.send _ player (.waitingForAction number _ round _ _)) =>
    pace.Prompts player (toLex (round,number))
  | _ => True

/-- The paces of the tasks. -/
abbrev pacing : Watcher runtime where
  Phase := Pace
  start _ := .idle
  next pace o _ r := pace.next o r
  allows := Pace.Allows
  ends _ := True

variable {α β : Type} {worker : Worker}

/-- A program that prompts nobody. -/
abbrev Silent (p : Coroutine α) : Prop :=
  ∀ pace,pacing.Follows (fun _ _ => True) pace p

theorem Silent.andThen {p : Coroutine α} {f : Except Exc α → Coroutine β} (h : Silent p)
    (hf : ∀ r,Silent (f r)) : Silent (p.andThen f) :=
  fun pace => (h pace).andThen fun pace r _ => hf r pace

/-- An operation that is no prompt. -/
def Free : Op language → Prop
  | .act (.send _ _ message) => message.isPrompt=false
  | _ => True

/-- It is allowed. -/
theorem allows_free {o : Op language} (h : Free o) (pace : Pace) : pace.Allows o := by
  unfold Pace.Allows
  split
  · cases h
  · exact True.intro

theorem silent_free {p : Coroutine α} (h : p.All Free) : Silent p := fun _ =>
  Watcher.Follows.among h (fun _ _ _ hfree => ⟨allows_free hfree _,fun _ _ => True.intro⟩)
    True.intro

/-- A transaction prompts nobody. -/
theorem free_watchAndUpdate {L : Type} {call : L → Call} {mutator : Mutator L} (attempts : ℕ)
    (c : L) : (watchAndUpdate call mutator attempts c).All Free := by
  induction attempts generalizing c with
  | zero => exact True.intro
  | succ attempts ih =>
    refine ⟨True.intro,fun r => ?_⟩
    cases r with
    | error exc => exact True.intro
    | ok token =>
      refine ⟨True.intro,fun r => ?_⟩
      rcases r with exc | _ | session
      · exact True.intro
      · exact ⟨True.intro,fun r => by cases r <;> exact True.intro⟩
      · dsimp only [Prog.bind]
        cases mutator c session with
        | error e => exact True.intro
        | ok result =>
          refine ⟨True.intro,fun r => ?_⟩
          rcases r with exc | _ | _
          · exact True.intro
          · exact ih result.1
          · exact True.intro

/-- The programs that prompt nobody. -/
theorem walk : GamePrograms.Walk fun _ p => Silent p where
  done _ _ := True.intro
  andThen := Silent.andThen
  send hcasual := silent_free (Prog.All.perform hcasual.1)
  act o ho := by
    apply silent_free (Prog.All.perform _)
    cases o with
    | send => cases ho
    | _ => exact True.intro
  load := silent_free (Prog.All.perform True.intro)
  delete := silent_free (Prog.All.perform True.intro)
  update attempts c _ := silent_free (free_watchAndUpdate attempts c)

end Paces

section Programs

variable {α β : Type} {worker : Worker}

/-- The prompts for a session that nobody has been prompted for. -/
theorem follows_sendWaitingForAction (session : PvPSessionState) :
    pacing.Follows (fun _ _ => True) (.begin session) (sendWaitingForAction worker session) := by
  unfold sendWaitingForAction
  split
  · exact True.intro
  · next round hround =>
    have hturn : currentTurn session=some (toLex (round.roundNumber,round.turnNumber+1)) := by
      rw [currentTurn,hround]
      rfl
    refine ⟨⟨rfl,hturn⟩,fun _ r _ => ?_⟩
    cases r with
    | error exc => exact True.intro
    | ok u =>
      refine ⟨⟨rfl,hturn⟩,fun _ r _ => ?_⟩
      cases r with
      | error exc => exact True.intro
      | ok u => exact ⟨True.intro,fun _ _ _ => True.intro⟩

/-- A transaction after which prompts may come: what it returns is what it has written, as
its mutator has left it. -/
theorem follows_update {L : Type} {call : L → Call} {mutator : Mutator L}
    (after : PvPSessionState → Pace)
    (hafter : ∀ (pace : Pace) token retriesLeft c session,
      pace.next (.store (.exec token retriesLeft (call c) session)) (.ok true)=after session)
    (attempts : ℕ) (c : L) (pace : Pace) :
    pacing.Follows (fun pace (r : Except Exc (L×PvPSessionState)) =>
      ∀ result,r=.ok result → pace=after result.2 ∧ ∃ c session,mutator c session=.ok result)
      pace (watchAndUpdate call mutator attempts c) := by
  have hraised : ∀ (pace : Pace) exc result,
      (.error exc : Except Exc (L×PvPSessionState))=.ok result →
        pace=after result.2 ∧ ∃ c session,mutator c session=.ok result :=
    fun _ exc result he => nomatch he
  induction attempts generalizing c pace with
  | zero => exact hraised _ _
  | succ attempts ih =>
    refine ⟨True.intro,fun _ r _ => ?_⟩
    cases r with
    | error exc => exact hraised _ exc
    | ok token =>
      refine ⟨True.intro,fun _ r _ => ?_⟩
      rcases r with exc | _ | session
      · exact hraised _ exc
      · refine ⟨True.intro,fun _ r _ => ?_⟩
        cases r with
        | error exc => exact hraised _ exc
        | ok u => exact hraised _ _
      · dsimp only [Prog.bind]
        cases hm : mutator c session with
        | error e => exact hraised _ e
        | ok result =>
          refine ⟨True.intro,fun _ r _ => ?_⟩
          rcases r with exc | _ | _
          · exact hraised _ exc
          · exact ih result.1 _
          · intro result' he
            obtain rfl : result=result' := Except.ok.inj he
            exact ⟨hafter _ token attempts c result.2,c,session,hm⟩

/-- Whoever connects again is prompted with what handle_connect has written. -/
theorem silent_handleConnect (player : UUID) : Silent (handleConnect worker player) := by
  intro pace
  apply GamePrograms.follows_except
    (follows_update .begin (fun _ _ _ _ _ => rfl) defaultMaxRetries _ pace)
  · rintro pace ⟨captured,written⟩ hwritten
    obtain ⟨rfl,c,session,hm⟩ := hwritten _ rfl
    dsimp only at hm ⊢
    have hstate : captured.newState=some written := by
      unfold markConnected at hm
      split at hm <;> cases hm <;> rfl
    split
    · refine ⟨True.intro,fun _ r _ => ?_⟩
      cases r with
      | error exc => exact True.intro
      | ok u =>
        refine ⟨True.intro,fun _ r _ => ?_⟩
        cases r with
        | error exc => exact True.intro
        | ok u =>
          dsimp only
          rw [hstate]
          dsimp only
          split
          · exact follows_sendWaitingForAction written
          · exact True.intro
    · exact True.intro
  · exact fun _ _ _ => walk.send ⟨rfl,rfl⟩ _
  · exact fun _ _ _ => True.intro

/-- start prompts with what it has written. -/
theorem silent_start : Silent (start worker) := by
  intro pace
  apply GamePrograms.follows_except
    (follows_update .begin (fun _ _ _ _ _ => rfl) defaultMaxRetries _ pace)
  · rintro pace ⟨captured,written⟩ hwritten
    obtain ⟨rfl,c,session,hm⟩ := hwritten _ rfl
    dsimp only at hm ⊢
    have hstate : captured.newState=some written := by
      unfold markStarted at hm
      split at hm <;> cases hm <;> rfl
    split
    · exact True.intro
    · rw [hstate]
      exact follows_sendWaitingForAction written
  · exact fun _ _ _ => True.intro
  · exact fun _ _ _ => True.intro

/-- Whoever has resolved a turn prompts with what it finds after the pause. -/
theorem follows_promptNextTurn (written : PvPSessionState) (roundEnded : Bool) :
    pacing.Follows (fun _ _ => True) (.resolved written) (promptNextTurn worker roundEnded) := by
  refine ⟨True.intro,fun _ r _ => ?_⟩
  cases r with
  | error exc => exact True.intro
  | ok u =>
    refine ⟨True.intro,fun _ r _ => ?_⟩
    rcases r with exc | _ | session
    · exact True.intro
    · exact True.intro
    · change pacing.Follows _ (if session.gameState.status=.inProgress then _ else _)
        (if session.gameState.status=.inProgress then _ else _)
      split
      · exact follows_sendWaitingForAction session
      · exact True.intro

/-- An operation that leaves the pace of a task that has resolved a turn. -/
def Keeps : Op language → Prop
  | .act (.send _ _ message) => message.isPrompt=false
  | .act (.cancelTimeout _) => True
  | .store .load => True
  | _ => False

/-- A program of such operations. -/
theorem follows_keeps {written : PvPSessionState} {p : Coroutine α} {f : α → Coroutine β}
    (h : p.All Keeps)
    (hf : ∀ a,pacing.Follows (fun _ _ => True) (.resolved written) (f a)) :
    pacing.Follows (fun _ _ => True) (.resolved written) (p >>= f) := by
  have hidle : p.All (pacing.Idle (.resolved written)) := by
    refine h.mono fun o ho => ?_
    cases o with
    | store o =>
      cases o with
      | load => exact ⟨True.intro,fun _ _ _ => rfl⟩
      | watch | get | unwatch | delete | exec | set => exact ho.elim
    | act o =>
      cases o with
      | send worker player message =>
        have hfree : Free (.act (.send worker player message)) := ho
        exact ⟨allows_free hfree _,fun _ _ _ => rfl⟩
      | cancelTimeout => exact ⟨True.intro,fun _ _ _ => rfl⟩
      | _ => exact ho.elim
  apply (Watcher.Follows.idle hidle).bind
  · rintro _ a rfl
    exact hf a
  · exact fun _ _ _ => True.intro

theorem silent_resolveTurn (p1Action p2Action : Action) :
    Silent (resolveTurn worker p1Action p2Action) := by
  intro pace
  have hsend : ∀ {player message},message.isPrompt=false →
      (send worker player message).All Keeps := fun hmessage => Prog.All.perform hmessage
  have hround : ∀ p1Id p2Id result,(announceRound worker p1Id p2Id result).All Keeps := by
    intro p1Id p2Id result
    cases result with
    | none => exact True.intro
    | some result => exact (hsend rfl).bind fun _ => hsend rfl
  apply GamePrograms.follows_except
    (follows_update .resolved (fun _ _ _ _ _ => rfl) defaultMaxRetries _ pace)
  · rintro pace ⟨captured,written⟩ hresolved
    rw [(hresolved _ rfl).1]
    have hcancel : (act (.cancelTimeout worker)).All Keeps := Prog.All.perform True.intro
    have hload : load.All Keeps := Prog.All.perform True.intro
    apply follows_keeps hcancel
    intro _
    dsimp only
    cases captured.turnResult with
    | none => exact True.intro
    | some turnResult =>
      apply follows_keeps hload
      intro value
      cases value with
      | none => exact True.intro
      | some read =>
        apply follows_keeps (hsend rfl)
        intro _
        apply follows_keeps (hsend rfl)
        intro _
        apply follows_keeps (hround _ _ _)
        intro _
        cases captured.matchResult with
        | none => exact follows_promptNextTurn written _
        | some result =>
          have htells : ∀ player,Free (.act (.send worker player
              (matchResultMessage result player read.player1Id))) := fun _ => rfl
          exact silent_free ((Prog.All.perform (htells _)).bind fun _ =>
            Prog.All.perform (htells _)) _
  · exact fun _ _ _ => True.intro
  · exact fun _ _ _ => True.intro

theorem silent_forfeitAfterTimeout (disconnected opponent : UUID) :
    Silent (forfeitAfterTimeout worker disconnected opponent) := by
  have hwrite : ∀ forfeiting,Silent (writeForfeit worker opponent forfeiting) := by
    intro forfeiting
    apply walk.bind (walk.except (silent_free (free_watchAndUpdate _ _)))
    intro outcome
    cases outcome with
    | none => exact walk.done _
    | some result =>
      apply walk.bind walk.load
      intro value
      cases value with
      | none => exact walk.done _
      | some session =>
        have hresult : Free (.act (.send worker opponent
            (forfeitResult opponent forfeiting session))) := rfl
        exact silent_free (Prog.All.perform hresult)
  apply walk.bind (walk.act (.sleep _) rfl)
  intro _
  apply walk.bind (walk.act (.isConnected _ _) rfl)
  intro isConnected
  split
  · exact walk.done _
  · apply walk.bind (walk.except walk.load)
    intro value
    rcases value with _ | _ | session
    · exact walk.done _
    · exact walk.done _
    · exact hwrite _

/-- Every task follows its paces. -/
theorem body_follows (entry : Entry) :
    pacing.Follows (fun pace _ => pacing.ends pace) (pacing.start entry) (body entry) := by
  cases entry with
  | gameWs worker player frames =>
    exact walk.gameWs (fun _ => silent_resolveTurn) (fun _ => silent_handleConnect)
      (fun _ => silent_start) player frames .idle
  | turnTimeout worker => exact walk.turnTimeout (fun _ => silent_resolveTurn) .idle
  | forfeitAfterTimeout worker disconnected opponent =>
    exact silent_forfeitAfterTimeout disconnected opponent .idle

end Programs

/-- The phases of the tasks and their paces. -/
abbrev tempo : Watcher runtime := watcher.both pacing

/-- Every task follows both. -/
theorem tempo_follows (entry : Entry) :
    tempo.Follows (fun phase _ => tempo.ends phase) (tempo.start entry) (body entry) :=
  (GamePhases.body_follows entry).both (body_follows entry)

/-- The turn with which a match begins. -/
def openingTurn : TurnKey := toLex (1,1)

/-- A prompt: a player and the turn that he is prompted for. -/
abbrev Prompt := UUID×TurnKey

section Prompts

/-- The task is at a place from which players are prompted. -/
def mayPrompt : Control → Bool
  | .socket _ _ (.prompting _ _) | .socket _ _ .returning => true
  | .socket _ _ (.playing (.resolved _ _) _) | .turnTimer _ (.playing (.resolved _ _) _) => true
  | _ => false

/-- The prompts that the task has still to send. -/
def owed : tempo.Phase → List Prompt
  | (phase,.prompting session untold) =>
    match mayPrompt phase.control,currentTurn session with
    | true,some turn => untold.map fun player => (player,turn)
    | _,_ => []
  | _ => []

/-- The turn that follows the one that the task has resolved, if it has still to prompt for
it. -/
def awaited : tempo.Phase → Option TurnKey
  | (_,.resolved session) | (_,.paused session) => currentTurn session
  | _ => none

/-- What a task waits for is a matter of its pace. -/
theorem awaited_pace {phase phase' : Phase} (pace : Pace) :
    awaited (phase,pace)=awaited (phase',pace) := by
  cases pace <;> rfl

/-- The prompt that an operation sends. -/
def promptOf (performed : Performed tempo) : Option Prompt :=
  if performed.effective then
    match performed.op with
    | .act (.send _ player (.waitingForAction number _ round _ _)) =>
      some (player,toLex (round,number))
    | _ => none
  else none

/-- The prompt that a move sends. -/
def promptSent (moment : Seen.Moment tempo) : Option Prompt :=
  (moment.1.performed moment.2).bind promptOf

/-- The turns that a player is prompted for, in the order in which he is. -/
def sentTo (player : UUID) (moments : List (Seen.Moment tempo)) : List TurnKey :=
  (moments.filterMap promptSent).filterMap fun prompt =>
    if prompt.1=player then some prompt.2 else none

/-- The control starts the match. -/
def isStarting : Control → Bool
  | .socket _ _ (.starting _) => true
  | _ => false

/-- Only a handler in its start does. -/
theorem starting_of_isStarting {control : Control} (h : isStarting control=true) :
    ∃ worker player found,control=.socket worker player (.starting found) := by
  cases control with
  | socket worker player stage =>
    cases stage with
    | starting found => exact ⟨worker,player,found,rfl⟩
    | _ => cases h
  | turnTimer | forfeitTimer => cases h

/-- A handler that comes to prompt the players does so because it starts the match, and
the first turn is open. -/
def begins (config : workers.Config) (performed : Performed tempo) : Bool :=
  !GameHandshake.welcomes performed.phase.1.attempt performed.phase.1.control performed.op
      performed.result ||
    isStarting performed.phase.1.control &&
      config.world.value.any fun session => currentTurn session=some openingTurn

/-- A task that reads the session after its pause finds the turn after the one that it has
resolved, and no other task has still to prompt. -/
def resumes (phases : List tempo.Phase) (task : TaskId) :
    Pace → (o : Op language) → Except Exc o.Res → Bool
  | .paused written,.store .load,.ok (some session) =>
    session.gameState.status≠.inProgress || currentTurn session=currentTurn written &&
      (phases.eraseIdx task).all fun phase => (owed phase).isEmpty
  | _,_,_ => true

/-- Nobody comes to prompt for a turn at the wrong time. -/
def Punctual (moment : Seen.Moment tempo) : Prop :=
  (moment.1.performed moment.2).all (fun performed => begins moment.1.config performed &&
    resumes moment.1.phases performed.task performed.phase.2 performed.op performed.result)=true

instance (moment : Seen.Moment tempo) : Decidable (Punctual moment) :=
  inferInstanceAs (Decidable (_=_))

variable {history : List (Seen.Moment tempo)} {moment : Seen.Moment tempo} {player : UUID}

/-- A further moment that prompts nobody. -/
theorem sentTo_silent (h : promptSent moment=none) :
    sentTo player (history++[moment])=sentTo player history := by
  simp [sentTo,h]

/-- A further moment that prompts somebody. -/
theorem sentTo_prompt {prompt : Prompt} (h : promptSent moment=some prompt) :
    sentTo player (history++[moment])=
      sentTo player history++(if prompt.1=player then [prompt.2] else []) := by
  rw [sentTo,List.filterMap_append,List.filterMap_append]
  congr 1
  simp only [List.filterMap_cons,h,List.filterMap_nil]
  split <;> simp_all

end Prompts

section Steps

/-- A transaction that has committed. -/
inductive Commits : Call → PvPSessionState → (o : Op language) → Except Exc o.Res → Prop
  | exec (token retriesLeft : ℕ) (call : Call) (session : PvPSessionState) :
    Commits call session (.store (.exec token retriesLeft call session)) (.ok true)

section Places

variable {control : Control} {attempt : Attempt PvPSessionState} {o : Op language}
  {r : Except Exc o.Res}

/-- A task that has resolved a turn had done so before, or has just committed that. -/
theorem resolved_before {before now : Doing×Bool} (hturns : Turns attempt o r before now)
    (hnow : ∃ turn upcoming,now.1=.resolved turn upcoming) :
    (∃ turn upcoming,before.1=.resolved turn upcoming) ∨
      ∃ call session,Commits call session o r ∧ resolves call=true := by
  cases hturns with
  | same => exact .inl hnow
  | told | aborted | submitted =>
    obtain ⟨turn,upcoming,he⟩ := hnow
    cases he
  | loaded value doing =>
    obtain ⟨turn,upcoming,he⟩ := hnow
    cases doing with
    | resolved turn' upcoming' => exact .inl ⟨turn',upcoming',rfl⟩
    | idle | submitted => cases he
  | resolved token retriesLeft p1Action p2Action session =>
    exact .inr ⟨_,session,.exec token retriesLeft _ session,rfl⟩

/-- Whoever has resolved a turn may prompt. -/
theorem mayPrompt_of_plays {turn upcoming : Option TurnKey} {paired : Bool}
    (h : plays control=some (.resolved turn upcoming,paired)) : mayPrompt control=true := by
  cases control with
  | socket worker player stage =>
    cases stage <;> cases h
    rfl
  | turnTimer worker stage =>
    cases stage <;> cases h
    rfl
  | forfeitTimer => cases h

/-- A task that may prompt while it plays could do so before, or has just resolved the turn. -/
theorem playing_before {doing : Doing} {paired : Bool}
    (hnext : plays (control.next attempt o r)=some (doing,paired))
    (hdoing : ∃ turn upcoming,doing=.resolved turn upcoming) :
    mayPrompt control=true ∨ ∃ call session,Commits call session o r ∧ resolves call=true := by
  obtain hidle | ⟨before,hbefore,hpassed⟩ := plays_before hnext
  · cases hidle
    obtain ⟨turn,upcoming,he⟩ := hdoing
    cases he
  · obtain ⟨turn,upcoming,he⟩ | hcommits := resolved_before hpassed hdoing
    · obtain ⟨doing₀,paired₀⟩ := before
      cases he
      exact .inl (mayPrompt_of_plays hbefore)
    · exact .inr hcommits

/-- A handler on its way back was so before, or has just committed its connect. -/
theorem returning_before {worker : Worker} {player : UUID} {stage : Stage}
    (hallows : (Control.socket worker player stage).Allows o)
    (hstage : stage.next attempt player o r=.returning) :
    mayPrompt (.socket worker player stage)=true ∨ ∃ call session,Commits call session o r ∧
      GameHandshake.welcomes attempt (.socket worker player stage) o r=true ∧
        ∃ player',call=.connect player' := by
  have hpasses := passes_next attempt player stage o r
  rw [hstage] at hpasses
  cases hpasses with
  | same => exact .inl rfl
  | dismissed _ _ _ hover => obtain he | he := hover <;> cases he
  | left _ _ _ _ hleft => obtain he | he := hleft <;> cases he
  | started _ _ _ _ session _ hannounces =>
    unfold announces at hannounces
    split at hannounces <;> cases hannounces
  | returning found token retriesLeft call session hfound =>
    refine .inr ⟨call,session,.exec token retriesLeft call session,hfound,?_⟩
    have hruns : (Control.socket worker player (.connecting found)).Runs call := hallows
    cases call with
    | connect player' => exact ⟨player',rfl⟩
    | start | submit | resolve | forfeit => exact hruns.elim

/-- A handler that prompts did so before, or has just committed its start. -/
theorem prompting_before {worker : Worker} {player : UUID} {stage : Stage} {turn : TurnKey}
    {untold : List UUID} (hallows : (Control.socket worker player stage).Allows o)
    (hstage : stage.next attempt player o r=.prompting turn untold) :
    mayPrompt (.socket worker player stage)=true ∨ ∃ call session,Commits call session o r ∧
      GameHandshake.welcomes attempt (.socket worker player stage) o r=true ∧ call=.start := by
  have hpasses := passes_next attempt player stage o r
  rw [hstage] at hpasses
  cases hpasses with
  | same | prompted => exact .inl rfl
  | dismissed _ _ _ hover => obtain he | he := hover <;> cases he
  | left _ _ _ _ hleft => obtain he | he := hleft <;> cases he
  | started found token retriesLeft call session hfound =>
    refine .inr ⟨call,session,.exec token retriesLeft call session,?_,?_⟩
    · change (!(found || reads attempt fun session => session.started))=true
      rw [hfound]
      rfl
    · have hruns : (Control.socket worker player (.starting found)).Runs call := hallows
      cases call with
      | start => rfl
      | connect | submit | resolve | forfeit => exact hruns.elim

/-- Whoever may prompt could do so before, or has just committed: it has welcomed the
players, or it has resolved a turn. -/
theorem mayPrompt_before (hallows : control.Allows o)
    (h : mayPrompt (control.next attempt o r)=true) :
    mayPrompt control=true ∨ ∃ call session,Commits call session o r ∧
      (GameHandshake.welcomes attempt control o r=true ∧
          (call=.start ∨ ∃ player,call=.connect player) ∨
        resolves call=true) := by
  have hplaying : ∀ doing paired,plays (control.next attempt o r)=some (doing,paired) →
      (∃ turn upcoming,doing=.resolved turn upcoming) →
      mayPrompt control=true ∨ ∃ call session,Commits call session o r ∧
        (GameHandshake.welcomes attempt control o r=true ∧
            (call=.start ∨ ∃ player,call=.connect player) ∨
          resolves call=true) := by
    intro doing paired hnext hdoing
    obtain hbefore | ⟨call,session,hcommits,hcall⟩ := playing_before hnext hdoing
    · exact .inl hbefore
    · exact .inr ⟨call,session,hcommits,.inr hcall⟩
  cases control with
  | forfeitTimer => cases h
  | turnTimer worker stage =>
    cases hstage : stage.next attempt o r with
    | playing doing paired =>
      rw [Control.next,hstage] at h hplaying
      cases doing with
      | resolved turn upcoming => exact hplaying _ paired rfl ⟨turn,upcoming,rfl⟩
      | idle | submitted => cases h
    | waiting | checking | _ =>
      rw [Control.next,hstage] at h
      cases h
  | socket worker player stage =>
    cases hstage : stage.next attempt player o r with
    | playing doing paired =>
      rw [Control.next,hstage] at h hplaying
      cases doing with
      | resolved turn upcoming => exact hplaying _ paired rfl ⟨turn,upcoming,rfl⟩
      | idle | submitted => cases h
    | returning =>
      obtain hbefore | ⟨call,session,hcommits,hwelcomes,hcall⟩ := returning_before hallows hstage
      · exact .inl hbefore
      · exact .inr ⟨call,session,hcommits,.inl ⟨hwelcomes,.inr hcall⟩⟩
    | prompting turn untold =>
      obtain hbefore | ⟨call,session,hcommits,hwelcomes,hcall⟩ := prompting_before hallows hstage
      · exact .inl hbefore
      · exact .inr ⟨call,session,hcommits,.inl ⟨hwelcomes,.inl hcall⟩⟩
    | arriving | accepted | entering | refusing | connecting | counting | starting | leaving
    | closing | gone =>
      rw [Control.next,hstage] at h
      cases h

end Places

/-- The operation sends a prompt. -/
def isPrompt : Op language → Bool
  | .act (.send _ _ message) => message.isPrompt
  | _ => false

/-- What an operation can make of a pace. -/
inductive Turns : Pace → (o : Op language) → Except Exc o.Res → Pace → Prop
  | resolved (pace : Pace) (token retriesLeft : ℕ) (p1Action p2Action : Action)
      (session : PvPSessionState) :
      Turns pace (.store (.exec token retriesLeft (.resolve p1Action p2Action) session)) (.ok true)
        (.resolved session)
  | begun (pace : Pace) (token retriesLeft : ℕ) (call : Call) (session : PvPSessionState)
      (hcall : call=.start ∨ ∃ player,call=.connect player) :
      Turns pace (.store (.exec token retriesLeft call session)) (.ok true) (.begin session)
  | paused (session : PvPSessionState) (tenths : ℕ) (u : Unit) :
      Turns (.resolved session) (.act (.sleep tenths)) (.ok u) (.paused session)
  | found (written session : PvPSessionState) (h : session.gameState.status=.inProgress) :
      Turns (.paused written) (.store .load) (.ok (some session)) (.begin session)
  | given (written : PvPSessionState) (r : Except Exc (Option PvPSessionState)) :
      Turns (.paused written) (.store .load) r .idle
  | prompted (session : PvPSessionState) (untold : List UUID) (worker : Worker) (player : UUID)
      (message : ServerMessage) (hmessage : message.isPrompt=true) (r : Except Exc Unit) :
      Turns (.prompting session untold) (.act (.send worker player message)) r
        (.prompting session untold.tail)
  | same (pace : Pace) (o : Op language) (r : Except Exc o.Res)
      (hcommits : ∀ call session,Commits call session o r → resolves call=false ∧ call≠.start ∧
        ∀ player,call≠.connect player)
      (hsilent : ∀ session untold,pace=.prompting session untold → isPrompt o=false) :
      Turns pace o r pace

/-- It makes that of it. -/
theorem turns_next (pace : Pace) (o : Op language) (r : Except Exc o.Res) :
    Turns pace o r (pace.next o r) := by
  unfold Pace.next
  split
  · exact .resolved _ _ _ _ _ _
  · exact .begun _ _ _ _ _ (.inl rfl)
  · exact .begun _ _ _ _ _ (.inr ⟨_,rfl⟩)
  · exact .paused _ _ _
  · split
    · next h => exact .found _ _ h
    · exact .given _ _
  · exact .given _ _
  · next session untold worker player message r =>
    cases hmessage : message.isPrompt with
    | true => exact .prompted session untold worker player message hmessage r
    | false =>
      refine .same _ _ _ (fun _ _ hcommits => nomatch hcommits) fun _ _ _ => hmessage
  · next hresolve hstart hconnect _ _ _ hsend =>
    apply Turns.same
    · intro call session hcommits
      cases hcommits with
      | exec token retriesLeft =>
        cases call with
        | resolve p1Action p2Action =>
          exact (hresolve token retriesLeft p1Action p2Action session rfl HEq.rfl).elim
        | start => exact (hstart token retriesLeft session rfl HEq.rfl).elim
        | connect player => exact (hconnect token retriesLeft player session rfl HEq.rfl).elim
        | submit | forfeit => exact ⟨rfl,nofun,nofun⟩
    · rintro session untold rfl
      cases o with
      | store o => rfl
      | act o =>
        cases o with
        | send worker player message => exact (hsend _ _ _ _ _ _ rfl rfl HEq.rfl).elim
        | _ => rfl

/-- Whoever prompts a player may do so. -/
theorem mayPrompt_of_prompts {control : Control} {player : UUID} {turn : TurnKey}
    (h : control.Prompts player turn) : mayPrompt control=true := by
  cases control with
  | forfeitTimer =>
    obtain ⟨resolved,hdoing⟩ := h
    cases hdoing
  | turnTimer worker stage =>
    obtain ⟨resolved,hdoing⟩ := h
    cases stage <;> cases hdoing
    rfl
  | socket worker own stage =>
    cases stage with
    | returning | prompting => rfl
    | playing doing paired =>
      obtain ⟨resolved,hdoing⟩ := h
      cases hdoing
      rfl
    | arriving | accepted | entering | refusing | connecting | counting | starting | leaving
    | closing | gone =>
      obtain ⟨resolved,hdoing⟩ := h
      cases hdoing

/-- What it means to owe a prompt. -/
theorem mem_owed {phase : tempo.Phase} {prompt : Prompt} : prompt∈owed phase ↔
    ∃ session untold,phase.2=.prompting session untold ∧ mayPrompt phase.1.control=true ∧
      currentTurn session=some prompt.2 ∧ prompt.1∈untold := by
  obtain ⟨phase,pace⟩ := phase
  obtain ⟨player,turn⟩ := prompt
  cases pace with
  | idle | resolved | paused => simp [owed]
  | prompting session untold =>
    cases hmay : mayPrompt phase.control with
    | false => simp [owed,hmay]
    | true =>
      cases hturn : currentTurn session with
      | none => simp [owed,hmay,hturn]
      | some turn' => simp [owed,hmay,hturn,and_comm,eq_comm]

/-- The task comes to prompt for the session. -/
inductive Takes (phase : Phase) (pace : Pace) :
    (o : Op language) → Except Exc o.Res → PvPSessionState → Prop
  | welcomes {call : Call} {session : PvPSessionState} {o : Op language} {r : Except Exc o.Res}
      (hcommits : Commits call session o r) (hcall : call=.start ∨ ∃ player,call=.connect player)
      (h : GameHandshake.welcomes phase.attempt phase.control o r=true) : Takes phase pace o r session
  | resumes {written session : PvPSessionState} (hpace : pace=.paused written)
      (h : session.gameState.status=.inProgress) :
      Takes phase pace (.store .load) (.ok (some session)) session

/-- A prompt that a task owes has been owed before, and it is not the one that the task has
just sent, or the task has come to prompt for its turn. -/
theorem owed_next {phase : Phase} {pace : Pace} {o : Op language} {effective : Bool}
    {r : Except Exc o.Res} (hallows : phase.control.Allows o) {prompt : Prompt}
    (h : prompt∈owed (tempo.next (phase,pace) o effective r)) :
    (∃ session untold,pace=.prompting session untold ∧ mayPrompt phase.control=true ∧
        currentTurn session=some prompt.2 ∧
        prompt.1∈if isPrompt o then untold.tail else untold) ∨
      ∃ session,Takes phase pace o r session ∧ currentTurn session=some prompt.2 := by
  obtain ⟨session,untold,hpace,hmay,hturn,hplayer⟩ := mem_owed.mp h
  have hpace : pace.next o r=.prompting session untold := hpace
  have hmay : mayPrompt (phase.control.next phase.attempt o r)=true := hmay
  have hbefore := mayPrompt_before hallows hmay
  have hnext := turns_next pace o r
  rw [hpace] at hnext
  cases hnext with
  | begun _ token retriesLeft call _ hcall =>
    have hruns : phase.control.Runs call := hallows
    obtain hcould | ⟨call',session',hcommits,⟨hwelcomes,-⟩ | hresolves⟩ := hbefore
    · obtain ⟨control,attempt⟩ := phase
      cases control with
      | forfeitTimer => cases hcould
      | turnTimer worker stage =>
        obtain rfl | ⟨player,rfl⟩ := hcall <;> cases stage <;> exact hruns.elim
      | socket worker own stage =>
        obtain rfl | ⟨player,rfl⟩ := hcall
        · cases stage with
          | starting => cases hcould
          | _ => exact hruns.elim
        · cases stage with
          | connecting => cases hcould
          | _ => exact hruns.elim
    · exact .inr ⟨_,.welcomes (.exec token retriesLeft call _) hcall hwelcomes,hturn⟩
    · cases hcommits
      obtain rfl | ⟨player,rfl⟩ := hcall <;> cases hresolves
  | found written _ hprogress => exact .inr ⟨session,.resumes rfl hprogress,hturn⟩
  | prompted _ untold₀ worker player message hmessage r =>
    refine .inl ⟨session,untold₀,rfl,?_,hturn,?_⟩
    · obtain hmay | ⟨call,session,hcommits,-⟩ := hbefore
      · exact hmay
      · cases hcommits
    · have hprompt : isPrompt (.act (.send worker player message))=true := hmessage
      rw [if_pos hprompt]
      exact hplayer
  | same _ _ _ hcommits hsilent =>
    refine .inl ⟨session,untold,rfl,?_,hturn,?_⟩
    · obtain hmay | ⟨call,session,hcommitted,⟨-,hcall⟩ | hcall⟩ := hbefore
      · exact hmay
      · obtain ⟨-,hstart,hconnect⟩ := hcommits call session hcommitted
        obtain rfl | ⟨player,rfl⟩ := hcall
        · exact absurd rfl hstart
        · exact absurd rfl (hconnect player)
      · obtain ⟨hresolve,-⟩ := hcommits call session hcommitted
        rw [hcall] at hresolve
        cases hresolve
    · rw [hsilent session untold rfl]
      exact hplayer

end Steps

section Marks

variable {pairing : Pairing} {seen seen' : Seen watcher} {move : workers.Move} {turn : TurnKey}

/-- The turn has begun, and if it is the first one the match has been started. -/
structure Marked (turn : TurnKey) (config : workers.Config) : Prop where
  /-- The match begins with the first turn. -/
  first : openingTurn ≤ turn
  /-- The stored session is not before the turn. -/
  reached : ∀ session,config.world.value=some session →
    ∀ current,currentTurn session=some current → turn ≤ current
  /-- The first turn is prompted by start. -/
  started : turn=openingTurn → ∀ session,config.world.value=some session → session.started=true

/-- It stays so. -/
theorem Marked.step (h : Marked turn seen.config) (hregular : Regular pairing seen)
    (hs : Seen.Moved seen move seen') : Marked turn seen'.config := by
  cases hs with
  | opened entry harrives => exact ⟨h.first,h.reached,h.started⟩
  | performed task choice phase o rest world r started htask hphase hp =>
    refine ⟨h.first,?_,?_⟩
    · intro session' hsession' current' hcurrent'
      obtain ⟨token,retriesLeft,call,before,after,rfl,-,-,hbefore,hafter,-,hmakes⟩ |
        ⟨hsame | ⟨hnone,-⟩,-⟩ := hregular.key_cases htask hphase hp
      · cases hafter.symm.trans hsession'
        obtain ⟨current,hcurrent,hturn⟩ :=
          turn_of_makes hmakes (fun _ => hregular.numbered hbefore) hcurrent'
        have hle := h.reached before hbefore current hcurrent
        split at hturn
        · exact hle.trans hturn.le
        · exact hturn ▸ hle
      · exact h.reached session' (hsame.symm.trans hsession') current' hcurrent'
      · cases hnone.symm.trans hsession'
    · intro hopening session' hsession'
      obtain ⟨token,retriesLeft,call,before,after,rfl,-,-,hbefore,hafter,-,hmakes⟩ |
        ⟨hsame | ⟨hnone,-⟩,-⟩ := hregular.key_cases htask hphase hp
      · cases hafter.symm.trans hsession'
        rw [started_of_makes hmakes,h.started hopening before hbefore,Bool.true_or]
      · exact h.started hopening session' (hsame.symm.trans hsession')
      · cases hnone.symm.trans hsession'

/-- No session comes to be before the first turn. -/
theorem turns_step (h : ∀ session,seen.config.world.value=some session →
      ∀ current,currentTurn session=some current → openingTurn ≤ current)
    (hregular : Regular pairing seen) (hs : Seen.Moved seen move seen') :
    ∀ session,seen'.config.world.value=some session →
      ∀ current,currentTurn session=some current → openingTurn ≤ current := by
  intro after hafter current hcurrent
  cases hs with
  | opened entry harrives => exact h after hafter current hcurrent
  | performed task choice phase o rest world r started htask hphase hp =>
    obtain ⟨token,retriesLeft,call,before,session,rfl,-,-,hbefore,hsession,-,hmakes⟩ |
      ⟨hsame | ⟨hnone,-⟩,-⟩ := hregular.key_cases htask hphase hp
    · cases hsession.symm.trans hafter
      obtain ⟨earlier,hearlier,hturn⟩ :=
        turn_of_makes hmakes (fun _ => hregular.numbered hbefore) hcurrent
      have hfirst := h before hbefore earlier hearlier
      split at hturn
      · exact hfirst.trans hturn.le
      · exact hturn ▸ hfirst
    · exact h after (hsame.symm.trans hafter) current hcurrent
    · cases hnone.symm.trans hafter

end Marks

section Origins

variable {seen seen' : Seen tempo} {move : workers.Move}

/-- Where the phase of a task comes from. -/
inductive Origin (seen : Seen tempo) (move : workers.Move) (seen' : Seen tempo) (task : TaskId)
    (phase' : tempo.Phase) : Prop
  | begun (h : phase'.2=.idle)
  | kept (hphase : seen.phases[task]?=some phase') (hother : ∀ choice,move≠.run task choice)
  | passed (choice : Choice) (phase : tempo.Phase) (o : Op language)
      (rest : Except Exc o.Res → Coroutine Unit) (r : Except Exc o.Res) (started : Option Entry)
      (hmove : move=.run task choice) (htask : seen.config.tasks[task]?=some (.op o rest))
      (hphase : seen.phases[task]?=some phase)
      (hp : WatchedKey.perform (R := runtime) choice task seen.config.tasks.length o
        seen.config.world=some (seen'.config.world,r,started))
      (hnext : phase'=tempo.next phase o (took choice o seen.config.world) r)

/-- Every phase comes from there. -/
theorem origin (hs : Seen.Moved seen move seen') {task : TaskId} {phase' : tempo.Phase}
    (hphase' : seen'.phases[task]?=some phase') : Origin seen move seen' task phase' := by
  cases hs with
  | opened entry harrives =>
    obtain hold | ⟨-,hnew⟩ := @Seen.getElem?_extended _ _ (some (tempo.start entry)) _ _ hphase'
    · exact .kept hold fun _ => nofun
    · cases hnew
      exact .begun rfl
  | performed other choice phase o rest world r started htask hphase hp =>
    obtain ⟨rfl,hnext⟩ | ⟨hne,hold⟩ | ⟨-,hstarted⟩ := Seen.getElem?_moved hphase'
    · exact .passed choice phase o rest r started rfl htask hphase hp hnext
    · refine .kept hold fun choice' he => ?_
      cases he
      exact hne rfl
    · obtain ⟨entry,-,rfl⟩ := Option.map_eq_some_iff.mp hstarted
      exact .begun rfl

/-- The prompt that a move sends is the first one that its task owes. -/
theorem owes_of_promptSent (hconforms : seen.Conforms) {prompt : Prompt}
    (h : promptSent (seen,move)=some prompt) : ∃ (task : TaskId) (choice : Choice)
      (phase : tempo.Phase) (o : Op language) (session : PvPSessionState) (untold : List UUID),
      move=.run task choice ∧ (∃ rest,seen.config.tasks[task]?=some (.op o rest)) ∧
        seen.phases[task]?=some phase ∧ isPrompt o=true ∧
        phase.2=.prompting session (prompt.1::untold) ∧ mayPrompt phase.1.control=true ∧
        currentTurn session=some prompt.2 := by
  obtain ⟨performed,hperformed,hprompt⟩ := Option.bind_eq_some_iff.mp h
  obtain ⟨hphase,rest,htask⟩ := Seen.performed_cases hperformed
  have hallows := hconforms.allows hphase htask
  have hmove : ∃ choice,move=.run performed.task choice := by
    cases move with
    | «open» entry => cases hperformed
    | run task choice =>
      simp only [Seen.performed] at hperformed
      split at hperformed
      · obtain ⟨outcome,-,rfl⟩ := Option.map_eq_some_iff.mp hperformed
        exact ⟨choice,rfl⟩
      · cases hperformed
  obtain ⟨choice,rfl⟩ := hmove
  obtain ⟨task,phase,o,effective,r⟩ := performed
  unfold promptOf at hprompt
  dsimp only at hprompt hphase htask hallows ⊢
  split at hprompt
  · split at hprompt
    · next worker player number limit round yours theirs =>
      cases hprompt
      have hcontrol : phase.1.control.Prompts player (toLex (round,number)) := hallows.1.1.2
      have hpace : phase.2.Prompts player (toLex (round,number)) := hallows.2
      unfold Pace.Prompts at hpace
      split at hpace
      · next session untold hprompting =>
        obtain ⟨hhead,hturn⟩ := hpace
        obtain ⟨rest',rfl⟩ := List.head?_eq_some_iff.mp hhead
        exact ⟨task,choice,phase,
          .act (.send worker player (.waitingForAction number limit round yours theirs)),session,
          rest',rfl,⟨rest,htask⟩,hphase,rfl,hprompting,mayPrompt_of_prompts hcontrol,hturn⟩
      · exact hpace.elim
    · cases hprompt
  · cases hprompt

end Origins

/-- What is known of the prompts that have been sent, and of those that are owed. -/
structure Prompted (history : List (Seen.Moment tempo)) (seen : Seen tempo) : Prop where
  /-- The prompts that a player has been sent. -/
  sorted : ∀ player,(sentTo player history).Pairwise (· < ·)
  /-- Their turns have begun. -/
  sent : ∀ player,∀ turn∈sentTo player history,Marked turn seen.config
  /-- No session is before the first turn. -/
  turns : ∀ session,seen.config.world.value=some session →
    ∀ current,currentTurn session=some current → openingTurn ≤ current
  /-- Nobody is owed a prompt twice. -/
  distinct : ∀ (task : TaskId) (phase : tempo.Phase) (session : PvPSessionState)
    (untold : List UUID),seen.phases[task]?=some phase → phase.2=.prompting session untold →
    untold.Nodup
  /-- The prompts that are owed come after those that have been sent. -/
  owed : ∀ (task : TaskId) (phase : tempo.Phase),seen.phases[task]?=some phase →
    ∀ prompt∈TurnPrompts.owed phase,Marked prompt.2 seen.config ∧
      ∀ turn∈sentTo prompt.1 history,turn<prompt.2
  /-- At most one task owes prompts. -/
  alone : ∀ (task task' : TaskId) (phase phase' : tempo.Phase),seen.phases[task]?=some phase →
    seen.phases[task']?=some phase' → TurnPrompts.owed phase≠[] → TurnPrompts.owed phase'≠[] →
    task'=task
  /-- Nobody has been prompted for a turn that a task waits for. -/
  awaited : ∀ (task : TaskId) (phase : tempo.Phase) (turn : TurnKey),
    seen.phases[task]?=some phase → TurnPrompts.awaited phase=some turn →
    openingTurn<turn ∧ Marked turn seen.config ∧ ∀ player,turn∉sentTo player history
  /-- Nobody else owes such a prompt or waits for the turn. -/
  spare : ∀ (task task' : TaskId) (phase phase' : tempo.Phase) (turn : TurnKey),
    seen.phases[task]?=some phase → seen.phases[task']?=some phase' →
    TurnPrompts.awaited phase=some turn →
    (∀ prompt∈TurnPrompts.owed phase',prompt.2≠turn) ∧
      (TurnPrompts.awaited phase'=some turn → task'=task)

section Invariant

variable {pairing : Pairing} {history : List (Seen.Moment tempo)} {seen seen' : Seen tempo}
  {move : workers.Move} {task : TaskId} {choice : Choice} {phase : tempo.Phase}

/-- A resolution leads to a turn after all that have begun. -/
theorem Prompted.resolves (hregular : Regular pairing seen.first) (h : Prompted history seen)
    {token retriesLeft : ℕ} {p1Action p2Action : Action} {session : PvPSessionState}
    {rest : Except Exc Bool → Coroutine Unit} {started : Option Entry}
    (htask : seen.config.tasks[task]?=
      some (.op (.store (.exec token retriesLeft (.resolve p1Action p2Action) session)) rest))
    (hphase : seen.phases[task]?=some phase)
    (hp : WatchedKey.perform (R := runtime) choice task seen.config.tasks.length
      (.store (.exec token retriesLeft (.resolve p1Action p2Action) session)) seen.config.world=
        some (seen'.config.world,.ok true,started)) {turn : TurnKey}
    (hturn : currentTurn session=some turn) :
    openingTurn<turn ∧ Marked turn seen'.config ∧
      ∀ earlier,Marked earlier seen.config → earlier<turn := by
  have hfirst : seen.first.phases[task]?=some phase.1 := by simp [Seen.first,hphase]
  obtain ⟨-,before,hbefore,hafter,-,-,hmakes⟩ := hregular.committed htask hfirst hp
  obtain ⟨current,hcurrent,hlt⟩ :=
    turn_of_makes hmakes (fun _ => hregular.numbered hbefore) hturn
  have hlt : current<turn := hlt
  have hopening : openingTurn<turn := (h.turns before hbefore current hcurrent).trans_lt hlt
  refine ⟨hopening,⟨hopening.le,?_,fun he => absurd he hopening.ne'⟩,?_⟩
  · intro session' hsession' current' hcurrent'
    cases hafter.symm.trans hsession'
    exact (Option.some.inj (hturn.symm.trans hcurrent')).le
  · exact fun earlier hmarked =>
      (hmarked.reached before hbefore current hcurrent).trans_lt hlt

/-- The other tasks owe nothing if the rest of the list does not. -/
theorem owed_others {phases : List tempo.Phase}
    (h : ((phases.eraseIdx task).all fun phase => (owed phase).isEmpty)=true) {other : TaskId}
    (hne : other≠task) {phase' : tempo.Phase} (hphase' : phases[other]?=some phase') :
    owed phase'=[] := by
  have hmem : phase'∈phases.eraseIdx task :=
    List.mem_eraseIdx_iff_getElem?.mpr ⟨other,hne,hphase'⟩
  exact List.isEmpty_iff.mp (List.all_eq_true.mp h phase' hmem)

/-- A task that comes to prompt for a turn is the first one to do so, and the only one. -/
theorem Prompted.takes (hregular : Regular pairing seen.first) (h : Prompted history seen)
    {o : Op language} {rest : Except Exc o.Res → Coroutine Unit}
    {r : Except Exc o.Res} {started : Option Entry}
    (htask : seen.config.tasks[task]?=some (.op o rest))
    (hphase : seen.phases[task]?=some phase)
    (hp : WatchedKey.perform (R := runtime) choice task seen.config.tasks.length o
      seen.config.world=some (seen'.config.world,r,started))
    (hmoved : Seen.Moved seen (.run task choice) seen')
    (hpunctual : Punctual (seen,.run task choice)) {session : PvPSessionState} {turn : TurnKey}
    (htakes : Takes phase.1 phase.2 o r session) (hturn : currentTurn session=some turn) :
    Marked turn seen'.config ∧ (∀ player,∀ earlier∈sentTo player history,earlier<turn) ∧
      ∀ (other : TaskId) (phase' : tempo.Phase),other≠task → seen.phases[other]?=some phase' →
        TurnPrompts.owed phase'=[] ∧ TurnPrompts.awaited phase'≠some turn := by
  have hfirst : seen.first.phases[task]?=some phase.1 := by simp [Seen.first,hphase]
  have hcondition : begins seen.config ⟨task,phase,o,took choice o seen.config.world,r⟩=true ∧
      resumes seen.phases task phase.2 o r=true := by
    have hall := hpunctual
    unfold Punctual at hall
    rw [Seen.performed_eq htask hphase hp,Option.all_some,Bool.and_eq_true] at hall
    exact hall
  obtain ⟨hbegins,hresumes⟩ := hcondition
  cases htakes with
  | @welcomes call _ _ _ hcommits hcall hwelcomes =>
    cases hcommits with
    | exec token retriesLeft =>
    obtain ⟨-,before,hbefore,hafter,hfound,hruns,hmakes⟩ := hregular.committed htask hfirst hp
    have hbefore : seen.config.world.value=some before := hbefore
    have hstarting : isStarting phase.1.control=true ∧ currentTurn before=some openingTurn := by
      simp only [begins,hwelcomes,Bool.not_true,Bool.false_or,Bool.and_eq_true,hbefore,
        Option.any_some,decide_eq_true_eq] at hbegins
      exact hbegins
    obtain ⟨hstarting,hopening⟩ := hstarting
    obtain ⟨⟨control,attempt⟩,pace⟩ := phase
    have hfound : attempt=.found token before := hfound
    subst hfound
    obtain ⟨worker,own,found,rfl⟩ := starting_of_isStarting hstarting
    have hcall : call=.start := by
      cases call with
      | start => rfl
      | connect | submit | resolve | forfeit => exact hruns.elim
    subst hcall
    have hfresh : before.started=false := by
      have hnot : (!(found || before.started))=true := hwelcomes
      have hnot : (found || before.started)=false := by simpa using hnot
      exact (Bool.or_eq_false_iff.mp hnot).2
    have hsame : turn=openingTurn := by
      rw [currentTurn_of_makes hmakes rfl,hopening] at hturn
      exact (Option.some.inj hturn).symm
    subst hsame
    -- before the start nothing has been prompted or resolved
    have hnever : ∀ earlier,¬Marked earlier seen.config := by
      intro earlier hmarked
      have hle := hmarked.reached before hbefore openingTurn hopening
      have hstarted := hmarked.started (le_antisymm hle hmarked.first) before hbefore
      rw [hfresh] at hstarted
      cases hstarted
    refine ⟨⟨le_refl _,?_,?_⟩,?_,?_⟩
    · intro session' hsession' current hcurrent
      cases hafter.symm.trans hsession'
      exact (Option.some.inj (hturn.symm.trans hcurrent)).le
    · intro _ session' hsession'
      cases hafter.symm.trans hsession'
      rw [started_of_makes hmakes]
      simp
    · exact fun player earlier hearlier => absurd (h.sent player earlier hearlier) (hnever earlier)
    · intro other phase' hne hphase'
      constructor
      · apply List.eq_nil_iff_forall_not_mem.mpr
        intro prompt hprompt
        exact hnever prompt.2 (h.owed other phase' hphase' prompt hprompt).1
      · intro hwaits
        exact hnever _ (h.awaited other phase' _ hphase' hwaits).2.1
  | resumes hpace hprogress =>
    next written =>
    have hstored : some session=seen.config.world.value := perform_load hp
    rw [hpace] at hresumes
    have hquiet : currentTurn session=currentTurn written ∧
        ((seen.phases.eraseIdx task).all fun phase => (TurnPrompts.owed phase).isEmpty)=true := by
      simp only [TurnPrompts.resumes,hprogress,ne_eq,not_true_eq_false,decide_false,Bool.false_or,
        Bool.and_eq_true,decide_eq_true_eq] at hresumes
      exact hresumes
    obtain ⟨hsame,hquiet⟩ := hquiet
    have hawaited : TurnPrompts.awaited phase=some turn := by
      obtain ⟨phase,pace⟩ := phase
      have hpace : pace=.paused written := hpace
      subst hpace
      exact hsame.symm.trans hturn
    obtain ⟨hopening,hmarked,hunsent⟩ := h.awaited task phase turn hphase hawaited
    refine ⟨hmarked.step hregular hmoved.first,?_,?_⟩
    · intro player earlier hearlier
      have hle := (h.sent player earlier hearlier).reached session hstored.symm turn hturn
      refine lt_of_le_of_ne hle ?_
      rintro rfl
      exact hunsent player hearlier
    · intro other phase' hne hphase'
      refine ⟨owed_others hquiet hne hphase',fun hwaits => ?_⟩
      exact hne ((h.spare task other phase phase' turn hphase hphase' hawaited).2 hwaits)

/-- What a player has been sent grows only with a prompt that he is owed first. -/
theorem sentTo_cases (history : List (Seen.Moment tempo)) (move : workers.Move)
    (hconforms : seen.Conforms) (player : UUID) :
    sentTo player (history++[(seen,move)])=sentTo player history ∨
      ∃ (task : TaskId) (choice : Choice) (phase : tempo.Phase) (o : Op language)
        (session : PvPSessionState) (untold : List UUID) (turn : TurnKey),
        move=.run task choice ∧ (∃ rest,seen.config.tasks[task]?=some (.op o rest)) ∧
          seen.phases[task]?=some phase ∧ isPrompt o=true ∧
          phase.2=.prompting session (player::untold) ∧ currentTurn session=some turn ∧
          (player,turn)∈owed phase ∧
          sentTo player (history++[(seen,move)])=sentTo player history++[turn] := by
  cases hsent : promptSent (seen,move) with
  | none => exact .inl (sentTo_silent hsent)
  | some prompt =>
    rw [sentTo_prompt hsent]
    obtain ⟨task,choice,phase,o,session,untold,hmove,htask,hphase,ho,hpace,hmay,hturn⟩ :=
      owes_of_promptSent hconforms hsent
    by_cases he : prompt.1=player
    · subst he
      right
      refine ⟨task,choice,phase,o,session,untold,prompt.2,hmove,htask,hphase,ho,hpace,hturn,?_,?_⟩
      · exact mem_owed.mpr ⟨session,_,hpace,hmay,hturn,List.mem_cons_self⟩
      · rw [if_pos rfl]
    · rw [if_neg he,List.append_nil]
      exact .inl rfl

/-- The players of a session that a task comes to prompt for are two. -/
theorem distinct_ids {session : PvPSessionState} (h : BelongsTo pairing session) :
    [session.player1Id,session.player2Id].Nodup := by
  rw [h.1,h.2]
  simpa using pairing.distinct

/-- Nobody is owed a prompt twice after a move. -/
theorem Prompted.distinct_step (hregular : Regular pairing seen.first) (h : Prompted history seen)
    (hmoved : Seen.Moved seen move seen') {task : TaskId} {phase' : tempo.Phase}
    {session : PvPSessionState} {untold : List UUID} (hphase' : seen'.phases[task]?=some phase')
    (hpace' : phase'.2=.prompting session untold) : untold.Nodup := by
  obtain hidle | ⟨hphase,-⟩ | ⟨choice,phase,o,rest,r,started,rfl,htask,hphase,hp,hnext⟩ :=
    origin hmoved hphase'
  · rw [hidle] at hpace'
    cases hpace'
  · exact h.distinct task phase' session untold hphase hpace'
  · have hfirst : seen.first.phases[task]?=some phase.1 := by simp [Seen.first,hphase]
    have hturns := turns_next phase.2 o r
    have hpace : phase.2.next o r=.prompting session untold := by
      rw [hnext] at hpace'
      exact hpace'
    rw [hpace] at hturns
    generalize hbefore : phase.2=pace at hturns
    cases hturns with
    | begun _ token retriesLeft call _ hcall =>
      obtain ⟨-,before,hstored,-,-,-,hmakes⟩ := hregular.committed htask hfirst hp
      have hbelongs := hregular.belongs hstored
      have hids := ids_of_makes hmakes
      exact distinct_ids ⟨hids.1.trans hbelongs.1,hids.2.trans hbelongs.2⟩
    | found written _ hprogress =>
      exact distinct_ids (hregular.belongs (perform_load hp).symm)
    | prompted _ untold₀ worker player message hmessage r =>
      exact (h.distinct task phase session untold₀ hphase hbefore).tail
    | same => exact h.distinct task phase session untold hphase hbefore

/-- A move that is not a prompt prompts nobody. -/
theorem sentTo_same {o : Op language} {rest : Except Exc o.Res → Coroutine Unit}
    (hconforms : seen.Conforms) (htask : seen.config.tasks[task]?=some (.op o rest))
    (ho : isPrompt o=false) (player : UUID) :
    sentTo player (history++[(seen,.run task choice)])=sentTo player history := by
  obtain hsame | ⟨task',choice',phase',o',session,untold,turn,hmove,⟨rest',htask'⟩,-,ho',-⟩ :=
    sentTo_cases history (.run task choice) hconforms player
  · exact hsame
  · cases hmove
    cases htask.symm.trans htask'
    rw [ho] at ho'
    cases ho'

/-- Whoever owes a prompt after a move owed it before, and it is not the one that the move
sends, or it comes to prompt for its turn. -/
theorem Prompted.owes (hregular : Regular pairing seen.first) (hconforms : seen.Conforms)
    (h : Prompted history seen) (hmoved : Seen.Moved seen move seen')
    (hpunctual : Punctual (seen,move)) {phase' : tempo.Phase}
    (hphase' : seen'.phases[task]?=some phase') {prompt : Prompt}
    (hprompt : prompt∈TurnPrompts.owed phase') :
    (∃ phase,seen.phases[task]?=some phase ∧ prompt∈TurnPrompts.owed phase ∧
        sentTo prompt.1 (history++[(seen,move)])=sentTo prompt.1 history) ∨
      (∃ choice,move=.run task choice) ∧ Marked prompt.2 seen'.config ∧
        (∀ player,∀ earlier∈sentTo player (history++[(seen,move)]),earlier<prompt.2) ∧
        ∀ (other : TaskId) (phase : tempo.Phase),other≠task → seen.phases[other]?=some phase →
          TurnPrompts.owed phase=[] ∧ TurnPrompts.awaited phase≠some prompt.2 := by
  obtain hidle | ⟨hphase,hother⟩ |
    ⟨choice,phase,o,rest,r,started,rfl,htask,hphase,hp,hnext⟩ := origin hmoved hphase'
  · obtain ⟨session,untold,hpace,-⟩ := mem_owed.mp hprompt
    cases hidle.symm.trans hpace
  · -- another task that prompts would owe a prompt as well
    refine .inl ⟨phase',hphase,hprompt,?_⟩
    obtain hsame | ⟨task',choice,phase,o,session,untold,turn,hmove,-,hphase₁,-,-,-,howed,-⟩ :=
      sentTo_cases history move hconforms prompt.1
    · exact hsame
    · have htask := h.alone task task' phase' phase hphase hphase₁ (List.ne_nil_of_mem hprompt)
        (List.ne_nil_of_mem howed)
      subst htask
      exact absurd hmove (hother choice)
  · have hallows : phase.1.control.Allows o := (hconforms.allows hphase htask).1.1
    obtain ⟨phase,pace⟩ := phase
    rw [hnext] at hprompt
    obtain ⟨session,untold,hpace,hmay,hturn,hplayer⟩ | ⟨session,htakes,hturn⟩ :=
      owed_next hallows hprompt
    · have hpace : pace=.prompting session untold := hpace
      subst hpace
      have hdistinct := h.distinct task _ session untold hphase rfl
      refine .inl ⟨_,hphase,mem_owed.mpr ⟨session,untold,rfl,hmay,hturn,?_⟩,?_⟩
      · split at hplayer
        · exact List.mem_of_mem_tail hplayer
        · exact hplayer
      · obtain hsame | ⟨task',choice',phase',o',session',untold',turn,hmove,⟨rest',htask'⟩,
          hphase₁,ho,hpace,-⟩ :=
          sentTo_cases history (.run task choice) hconforms prompt.1
        · exact hsame
        · -- the head of the list has just been sent
          cases hmove
          cases htask.symm.trans htask'
          cases hphase.symm.trans hphase₁
          cases hpace
          rw [if_pos ho] at hplayer
          exact absurd hplayer (List.nodup_cons.mp hdistinct).1
    · obtain ⟨hmarked,hearlier,hothers⟩ :=
        h.takes hregular htask hphase hp hmoved hpunctual htakes hturn
      have ho : isPrompt o=false := by
        cases htakes with
        | welcomes hcommits => cases hcommits; rfl
        | resumes => rfl
      refine .inr ⟨⟨choice,rfl⟩,hmarked,?_,hothers⟩
      intro player earlier hmem
      rw [sentTo_same hconforms htask ho] at hmem
      exact hearlier player earlier hmem

/-- Whoever waits for a turn after a move waited for it before, or it has just led to it. -/
theorem Prompted.awaits (hregular : Regular pairing seen.first) (hconforms : seen.Conforms)
    (h : Prompted history seen) (hmoved : Seen.Moved seen move seen') {phase' : tempo.Phase}
    (hphase' : seen'.phases[task]?=some phase') {turn : TurnKey}
    (hturn : TurnPrompts.awaited phase'=some turn) :
    (∃ phase,seen.phases[task]?=some phase ∧ TurnPrompts.awaited phase=some turn) ∨
      (∃ choice,move=.run task choice) ∧ openingTurn<turn ∧ Marked turn seen'.config ∧
        (∀ earlier,Marked earlier seen.config → earlier<turn) ∧
        ∀ player,sentTo player (history++[(seen,move)])=sentTo player history := by
  obtain hidle | ⟨hphase,-⟩ |
    ⟨choice,phase,o,rest,r,started,rfl,htask,hphase,hp,hnext⟩ := origin hmoved hphase'
  · obtain ⟨phase',pace⟩ := phase'
    cases hidle
    cases hturn
  · exact .inl ⟨phase',hphase,hturn⟩
  · obtain ⟨phase,pace⟩ := phase
    rw [hnext] at hturn
    have hturns := turns_next pace o r
    change TurnPrompts.awaited
      (watcher.next phase o (took choice o seen.config.world) r,pace.next o r)=some turn at hturn
    generalize pace.next o r=pace' at hturns hturn
    cases hturns with
    | resolved _ token retriesLeft p1Action p2Action session =>
      obtain ⟨hopening,hmarked,hlater⟩ := h.resolves hregular htask hphase hp hturn
      exact .inr ⟨⟨choice,rfl⟩,hopening,hmarked,hlater,
        fun player => sentTo_same hconforms htask rfl player⟩
    | begun | found => cases hturn
    | given => cases hturn
    | prompted => cases hturn
    | paused session => exact .inl ⟨_,hphase,hturn⟩
    | same => exact .inl ⟨_,hphase,awaited_pace pace ▸ hturn⟩

/-- What is known stays known. -/
theorem Prompted.step (hregular : Regular pairing seen.first) (hconforms : seen.Conforms)
    (h : Prompted history seen) (hmoved : Seen.Moved seen move seen')
    (hpunctual : Punctual (seen,move)) : Prompted (history++[(seen,move)]) seen' := by
  have hkeeps : ∀ {turn},Marked turn seen.config → Marked turn seen'.config :=
    fun hmarked => hmarked.step hregular hmoved.first
  have howes := fun {task} {phase'} (hphase' : seen'.phases[task]?=some phase') {prompt}
    (hprompt : prompt∈TurnPrompts.owed phase') =>
      h.owes hregular hconforms hmoved hpunctual hphase' hprompt
  have hawaits := fun {task} {phase'} (hphase' : seen'.phases[task]?=some phase') {turn}
    (hturn : TurnPrompts.awaited phase'=some turn) =>
      h.awaits hregular hconforms hmoved hphase' hturn
  refine ⟨?_,?_,?_,fun _ _ _ _ => h.distinct_step hregular hmoved,?_,?_,?_,?_⟩
  · intro player
    obtain hsame | ⟨task,-,phase,-,-,-,turn,-,-,hphase,-,-,-,howed,hgrows⟩ :=
      sentTo_cases history move hconforms player
    · rw [hsame]
      exact h.sorted player
    · rw [hgrows]
      refine List.pairwise_append.mpr ⟨h.sorted player,List.pairwise_singleton _ _,?_⟩
      intro earlier hearlier turn' hturn'
      cases List.mem_singleton.mp hturn'
      exact (h.owed task phase hphase _ howed).2 earlier hearlier
  · intro player turn hturn
    obtain hsame | ⟨task,-,phase,-,-,-,turn',-,-,hphase,-,-,-,howed,hgrows⟩ :=
      sentTo_cases history move hconforms player
    · rw [hsame] at hturn
      exact hkeeps (h.sent player turn hturn)
    · rw [hgrows] at hturn
      obtain hturn | hturn := List.mem_append.mp hturn
      · exact hkeeps (h.sent player turn hturn)
      · cases List.mem_singleton.mp hturn
        exact hkeeps (h.owed task phase hphase _ howed).1
  · exact turns_step h.turns hregular hmoved.first
  · intro task phase' hphase' prompt hprompt
    obtain ⟨phase,hphase,howed,hsame⟩ | ⟨-,hmarked,hearlier,-⟩ := howes hphase' hprompt
    · obtain ⟨hmarked,hearlier⟩ := h.owed task phase hphase prompt howed
      rw [hsame]
      exact ⟨hkeeps hmarked,hearlier⟩
    · exact ⟨hmarked,hearlier prompt.1⟩
  · intro task task' phase phase' hphase hphase' howed howed'
    obtain ⟨prompt,hprompt⟩ := List.exists_mem_of_ne_nil _ howed
    obtain ⟨prompt',hprompt'⟩ := List.exists_mem_of_ne_nil _ howed'
    by_contra hne
    obtain ⟨before,hbefore,howed,-⟩ | ⟨⟨choice,rfl⟩,-,-,hothers⟩ := howes hphase hprompt
    · obtain ⟨before',hbefore',howed',-⟩ | ⟨-,-,-,hothers⟩ := howes hphase' hprompt'
      · exact hne (h.alone task task' before before' hbefore hbefore' (List.ne_nil_of_mem howed)
          (List.ne_nil_of_mem howed'))
      · rw [(hothers task before (Ne.symm hne) hbefore).1] at howed
        cases howed
    · obtain ⟨before',hbefore',howed',-⟩ | ⟨⟨choice',he⟩,-⟩ := howes hphase' hprompt'
      · rw [(hothers task' before' hne hbefore').1] at howed'
        cases howed'
      · cases he
        exact hne rfl
  · intro task phase' turn hphase' hturn
    obtain ⟨phase,hphase,hturn⟩ | ⟨-,hopening,hmarked,hlater,hsame⟩ := hawaits hphase' hturn
    · obtain ⟨hopening,hmarked,hunsent⟩ := h.awaited task phase turn hphase hturn
      refine ⟨hopening,hkeeps hmarked,fun player hmem => ?_⟩
      obtain hsame | ⟨other,-,phase₁,-,-,-,turn',-,-,hphase₁,-,-,-,howed,hgrows⟩ :=
        sentTo_cases history move hconforms player
      · rw [hsame] at hmem
        exact hunsent player hmem
      · rw [hgrows] at hmem
        obtain hmem | hmem := List.mem_append.mp hmem
        · exact hunsent player hmem
        · cases List.mem_singleton.mp hmem
          exact (h.spare task other phase phase₁ _ hphase hphase₁ hturn).1 _ howed rfl
    · refine ⟨hopening,hmarked,fun player hmem => ?_⟩
      rw [hsame] at hmem
      exact (hlater turn (h.sent player turn hmem)).ne rfl
  · intro task task' phase phase' turn hphase hphase' hturn
    have hsame : ∀ {prompt : Prompt},prompt∈TurnPrompts.owed phase' → task'≠task := by
      rintro prompt hprompt rfl
      cases hphase.symm.trans hphase'
      obtain ⟨session,untold,hpace,-⟩ := mem_owed.mp hprompt
      obtain ⟨phase,pace⟩ := phase
      cases hpace
      cases hturn
    constructor
    · rintro prompt hprompt rfl
      obtain ⟨before,hbefore,hwaits⟩ | ⟨⟨choice,hmove⟩,-,-,hlater,-⟩ := hawaits hphase hturn
      · obtain ⟨before',hbefore',howed',-⟩ | ⟨-,-,-,hothers⟩ := howes hphase' hprompt
        · exact (h.spare task task' before before' _ hbefore hbefore' hwaits).1 prompt howed' rfl
        · exact (hothers task before (hsame hprompt).symm hbefore).2 hwaits
      · obtain ⟨before',hbefore',howed',-⟩ | ⟨⟨choice',hmove'⟩,-⟩ := howes hphase' hprompt
        · exact (hlater _ (h.owed task' before' hbefore' prompt howed').1).ne rfl
        · cases hmove.symm.trans hmove'
          exact hsame hprompt rfl
    · intro hturn'
      obtain ⟨before,hbefore,hwaits⟩ | ⟨⟨choice,hmove⟩,-,-,hlater,-⟩ := hawaits hphase hturn
      · obtain ⟨before',hbefore',hwaits'⟩ | ⟨-,-,-,hlater,-⟩ := hawaits hphase' hturn'
        · exact (h.spare task task' before before' _ hbefore hbefore' hwaits).2 hwaits'
        · exact ((hlater _ (h.awaited task before _ hbefore hwaits).2.1).ne rfl).elim
      · obtain ⟨before',hbefore',hwaits'⟩ | ⟨⟨choice',hmove'⟩,-⟩ := hawaits hphase' hturn'
        · exact ((hlater _ (h.awaited task' before' _ hbefore' hwaits').2.1).ne rfl).elim
        · cases hmove.symm.trans hmove'
          rfl

end Invariant

section Runs

variable {pairing : Pairing} {moves : List workers.Move} {seen : Seen tempo}

/-- What is known of the prompts of a punctual run. -/
theorem prompted_of_run (hrun : (Seen.initial tempo (initial pairing)).run moves=some seen)
    (hpunctual : Meets (fun _ moment => Punctual moment)
      ((Seen.initial tempo (initial pairing)).moments moves)) :
    Prompted ((Seen.initial tempo (initial pairing)).moments moves) seen := by
  refine (Seen.along (I := fun history seen => Prompted history seen ∧ Regular pairing seen.first)
    tempo_follows rfl ?_ hrun hpunctual ?_).1.1
  · rintro history seen seen' move - hconforms ⟨h,hregular⟩ hpunctual hmoved
    exact ⟨h.step hregular hconforms hmoved hpunctual,hregular.step hmoved.first⟩
  · have hstart : (Seen.initial watcher (initial pairing)).run []=
        some (Seen.initial watcher (initial pairing)) := rfl
    refine ⟨⟨fun _ => List.Pairwise.nil,fun _ _ hturn => (nomatch hturn),?_,
      fun _ _ _ _ hphase => (nomatch hphase),fun _ _ hphase => (nomatch hphase),
      fun _ _ _ _ hphase => (nomatch hphase),fun _ _ _ hphase => (nomatch hphase),
      fun _ _ _ _ _ hphase => (nomatch hphase)⟩,regular hstart⟩
    intro session hsession current hcurrent
    cases hsession
    cases hcurrent
    exact le_refl openingTurn

/-- In a run in which nobody comes to prompt for a turn at the wrong time, each player is
prompted at most once for each turn, and the turns come in their order. -/
theorem prompts_in_order (pairing : Pairing) {moves : List workers.Move} {seen : Seen tempo}
    (hrun : (Seen.initial tempo (initial pairing)).run moves=some seen)
    (hpunctual : Meets (fun _ moment => Punctual moment)
      ((Seen.initial tempo (initial pairing)).moments moves)) (player : UUID) :
    (sentTo player ((Seen.initial tempo (initial pairing)).moments moves)).Pairwise (· < ·) :=
  (prompted_of_run hrun hpunctual).sorted player

end Runs

/-- Two players charge in turn 1, and the second one's handler resolves it and prompts them
for turn 2. -/
def plays : List workers.Move :=
  opens 1 ["charge"]::proceeds 0 8++opens 2 ["charge"]::proceeds 1 14++proceeds 0 5++proceeds 1 17

/-- Player 1 is prompted for the two turns. -/
theorem plays_prompts :
    sentTo (.small 1) ((Seen.initial tempo (initial .small)).moments plays)=
        [toLex (1,1),toLex (1,2)] ∧
      (sentTo (.small 1) ((Seen.initial tempo (initial .small)).moments plays)).Pairwise
        (· < ·) := by
  have hrun : ((Seen.initial tempo (initial .small)).run plays).isSome=true := by decide
  have hpunctual : Meets (fun _ moment => Punctual moment)
      ((Seen.initial tempo (initial .small)).moments plays) := by
    apply Seen.meets_of_forall
    decide
  obtain ⟨seen,hseen⟩ := Option.isSome_iff_exists.mp hrun
  exact ⟨by decide,prompts_in_order .small hseen hpunctual (.small 1)⟩

/-- Nobody disconnects, and nothing fails. -/
def undisturbed : GameStore.Event → Bool
  | .note (.received _ none) | .note (.raised _ _) | .deleted _ => false
  | _ => true

/-- At the deadline of turn 1 the timer charges for player 1, player 2 submits and his
handler resolves the turn, and the timer charges for him again. Player 1 submits in the
pause, and his handler resolves turn 2. -/
def races : List workers.Move :=
  opens 1 ["charge"]::proceeds 0 8++opens 2 ["charge"]::proceeds 1 14++proceeds 2 6++
    proceeds 1 8++proceeds 2 3++proceeds 1 4++proceeds 0 17++proceeds 1 4

/-- Both handlers prompt player 1 for turn 3. -/
theorem turn_prompted_twice : ¬∀ (pairing : Pairing) (moves : List workers.Move)
    (seen : Seen tempo),(Seen.initial tempo (initial pairing)).run moves=some seen →
      seen.config.world.trace.all undisturbed=true → ∀ player,
        (sentTo player ((Seen.initial tempo (initial pairing)).moments moves)).Pairwise (· < ·) := by
  intro h
  have hrun : ((Seen.initial tempo (initial .small)).run races).any
      (fun seen => seen.config.world.trace.all undisturbed)=true := by decide
  have htwice : ¬(sentTo (.small 1)
      ((Seen.initial tempo (initial .small)).moments races)).Pairwise (· < ·) := by decide
  obtain ⟨seen,hseen,hcalm⟩ := (Option.any_eq_true _ _).mp hrun
  exact htwice (h .small races seen hseen hcalm (.small 1))

end KiClash.TurnPrompts
