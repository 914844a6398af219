import KiClash.DivergingRuns
import KiClash.GameHandshake

/-!
# What the handlers make of a hidden action

While a player's action is pending, two sessions may differ in its slot alone.
The handlers of the Python session read the session everywhere, but connecting,
prompting, resolving a pair and forfeiting are the same for both: nothing that
they send or do depends on that slot.
-/

namespace KiClash.HiddenActions

open EngineTypes OutcomeMatrix Engine ServerMessages AsyncTasks WatchedKey VeiledRuns Histories
open GameStore GameSession PendingPairs SessionChronicle SessionTurns SlottedTurns
open GameHandshake

variable {pairing : Pairing} {seat : Seat} {α β : Type} {worker : Worker}

section Veil

/-- Sessions of the pairing that differ at most in the pending action of the seat. -/
structure LooksLike (pairing : Pairing) (seat : Seat) (session session' : PvPSessionState) :
    Prop where
  /-- The session belongs to the pairing. -/
  belongs : BelongsTo pairing session
  /-- The matches. -/
  gameState : session'.gameState=session.gameState
  /-- The first players. -/
  player1Id : session'.player1Id=session.player1Id
  /-- The second players. -/
  player2Id : session'.player2Id=session.player2Id
  /-- Who has connected. -/
  connectedPlayers : session'.connectedPlayers=session.connectedPlayers
  /-- Whether the first prompt has been claimed. -/
  started : session'.started=session.started
  /-- The pending action of the other seat. -/
  others : ∀ other,other≠seat → pending session' other=pending session other
  /-- There is a pending action of the seat. -/
  filled : (pending session seat).isSome=true
  /-- In both sessions. -/
  filled' : (pending session' seat).isSome=true

/-- Operations that only the player can tell apart. -/
inductive Hides (player : UUID) : LocalOp → LocalOp → Prop
  | send (worker : Worker) (message message' : ServerMessage) :
      Hides player (.send worker player message) (.send worker player message')
  | receive (frame frame' : Frame) : Hides player (.receive (some frame)) (.receive (some frame'))

/-- The submission leaves no stale pair behind to be resolved, unless it ends with an error. -/
def leavesNoPair (stale : SubmitCaptured) : Prop :=
  stale.validationError=none → stale.shouldResolve=false

instance (stale : SubmitCaptured) : Decidable (leavesNoPair stale) :=
  inferInstanceAs (Decidable (_ → _))

/-- The pending action of a seat is hidden from everybody but its player. -/
def veil (pairing : Pairing) (seat : Seat) : Veil language where
  looksLike := LooksLike pairing seat
  covered session := (pending session seat).isSome=true
  valid := BelongsTo pairing
  hides := Hides (playerOf pairing seat)
  inputs
    | .receive (some _) => true
    | _ => false
  writes
    | .submit player _ _ => player=playerOf pairing seat
    | _ => False
  keeps
    | .submit _ _ stale => leavesNoPair stale
    | _ => True
  refl hvalid hcovered := ⟨hvalid,rfl,rfl,rfl,rfl,rfl,fun _ _ => rfl,hcovered,hcovered⟩
  valid_of_looksLike h := h.belongs
  result h := by cases h <;> rfl

/-- The workers do not show what is hidden. -/
theorem conceals : Conceals (veil pairing seat) runtime where
  store _ _ _ _ := ⟨rfl,rfl⟩
  action h _ _ := by cases h <;> exact ⟨rfl,rfl⟩
  act h _ _ _ _ := by cases h <;> exact ⟨rfl,HEq.rfl,rfl⟩

/-- A frame of a game socket, counted from one. -/
def frameOf (pairing : Pairing) (seat : Seat) (task : TaskId) (number : ℕ) :
    Input (veil pairing seat) runtime where
  task := task
  number := number
  note
    | .received other (some _) => other=task
    | _ => false
  act _ other _ o _ := by
    cases o with
    | receive frame => cases frame <;> simp [veil,LocalOp.effect,runtime]
    | _ => simp [veil,LocalOp.effect,runtime]
  started _ _ := rfl
  raised _ _ := rfl

end Veil

section Rules

/-- The program does the same for everybody but the player of the seat, and receives nothing. -/
abbrev Quiet (pairing : Pairing) (seat : Seat) (p : Coroutine α) : Prop :=
  Tame (veil pairing seat) False p

/-- A program that is over. -/
theorem quiet_done (r : Except Exc α) : Quiet pairing seat (.done r) :=
  Tame.done (V := veil pairing seat) r

/-- An operation other than a receipt. -/
theorem quiet_act (o : LocalOp) (ho : (veil pairing seat).inputs o=false) :
    Quiet pairing seat (act o) :=
  Tame.act (fun hin => absurd (ho.symm.trans hin) nofun) fun r => .done r

/-- A message. -/
theorem quiet_send (player : UUID) (message : ServerMessage) :
    Quiet pairing seat (send worker player message) := quiet_act _ rfl

/-- Reading the session, when the rest does the same with sessions that look alike. -/
theorem quiet_load {f : Option PvPSessionState → Coroutine α} (hnone : Quiet pairing seat (f none))
    (hsome : ∀ session,BelongsTo pairing session → Quiet pairing seat (f (some session)))
    (hsame : ∀ session session',LooksLike pairing seat session session' →
      f (some session)=f (some session')) : Quiet pairing seat (load >>= f) :=
  Tame.load hnone hsome (fun e => quiet_done (.error e)) hsame

/-- A program whose exceptions may be caught, with what comes after it. -/
theorem except_bind (catches : Exc → Bool) (p : Coroutine α) (f : Option α → Coroutine β) :
    except catches p >>= f=p.andThen fun
      | .ok a => f (some a)
      | .error e => if catches e then f none else .done (.error e) := by
  induction p with
  | done r =>
    cases r with
    | ok a => rfl
    | error e =>
      change Prog.bind (if catches e then pure none else .raise e) f=if catches e then f none else _
      split <;> rfl
  | op o next ih => exact congrArg (Prog.op o) (funext ih)

/-- Reading it in a try block. -/
theorem quiet_tryLoad {f : Option (Option PvPSessionState) → Coroutine α}
    (hfailed : Quiet pairing seat (f none)) (hnone : Quiet pairing seat (f (some none)))
    (hsome : ∀ session,BelongsTo pairing session → Quiet pairing seat (f (some (some session))))
    (hsame : ∀ session session',LooksLike pairing seat session session' →
      f (some (some session))=f (some (some session'))) :
    Quiet pairing seat (exceptException load >>= f) := by
  rw [exceptException,except_bind]
  refine Tame.load hnone hsome (fun e => ?_) hsame
  change Quiet pairing seat (if decide (e≠.cancelled)=true then f none else .done (.error e))
  split
  · exact hfailed
  · exact quiet_done _

/-- Two outcomes of a mutator: both raise the same, or both return related things. -/
inductive Both {γ : Type} (Q : γ → γ → Prop) : Except Exc γ → Except Exc γ → Prop
  | error (e : Exc) : Both Q (.error e) (.error e)
  | ok {x x' : γ} (h : Q x x') : Both Q (.ok x) (.ok x')

section Update

variable {C : Type} {call : C → Call} {mutator : Mutator C} {like : C → C → Prop}
  {f : Option (C×PvPSessionState) → Coroutine α}

/-- What comes after a transaction if a missing session is caught. -/
def afterUpdate (f : Option (C×PvPSessionState) → Coroutine α) :
    Except Exc (C×PvPSessionState) → Coroutine α
  | .ok x => f (some x)
  | .error e => if e=.gameNotFound then f none else .done (.error e)

/-- A transaction with what comes after it. -/
theorem update_bind (p : Coroutine (C×PvPSessionState))
    (f : Option (C×PvPSessionState) → Coroutine α) :
    exceptNotFound p >>= f=p.andThen (afterUpdate f) := by
  rw [exceptNotFound,except_bind]
  congr 1
  funext r
  cases r with
  | ok x => rfl
  | error e =>
    change (if decide (e=.gameNotFound)=true then _ else _)=if e=.gameNotFound then _ else _
    simp only [decide_eq_true_eq]

/-- What has to be known of a mutator and of what comes after its transaction. -/
structure Updates (pairing : Pairing) (seat : Seat) (mutator : Mutator C) (like : C → C → Prop)
    (f : Option (C×PvPSessionState) → Coroutine α) : Prop where
  /-- The rest. -/
  rest : ∀ outcome,Quiet pairing seat (f outcome)
  /-- The session keeps its players. -/
  belongs : ∀ captured session x,BelongsTo pairing session →
    mutator captured session=.ok x → BelongsTo pairing x.2
  /-- Captured variables are like themselves. -/
  refl : ∀ captured session x,like captured captured → mutator captured session=.ok x →
    like x.1 x.1
  /-- The mutator does not tell sessions apart that look alike, nor does the rest, as long as an
  action of the seat is pending. -/
  alike : ∀ captured captured' session session',like captured captured' →
    LooksLike pairing seat session session' → Both (fun x x' => like x.1 x'.1 ∧
      ((pending x.2 seat).isSome=true → LooksLike pairing seat x.2 x'.2 ∧
        Alike (veil pairing seat) (f (some x)) (f (some x'))))
      (mutator captured session) (mutator captured' session')

/-- An attempt of a transaction once the session has been read. -/
def decided (call : C → Call) (mutator : Mutator C) (attempts token : ℕ) (captured : C)
    (session : PvPSessionState) : Coroutine (C×PvPSessionState) :=
  match mutator captured session with
  | .error e => .raise e
  | .ok (next,session) => do
    let committed ← redis (.exec token attempts (call captured) session)
    if committed then pure (next,session)
    else watchAndUpdate call mutator attempts next

/-- Whatever comes of the transaction. -/
theorem Updates.quiet_rest (h : Updates pairing seat mutator like f)
    (r : Except Exc (C×PvPSessionState)) : Quiet pairing seat (afterUpdate f r) := by
  cases r with
  | ok x => exact h.rest (some x)
  | error e =>
    change Quiet pairing seat (if e=.gameNotFound then f none else .done (.error e))
    split
    · exact h.rest none
    · exact quiet_done _

/-- A transaction in which the captured variables are alike. -/
theorem Updates.alike_watchAndUpdate (h : Updates pairing seat mutator like f) (attempts : ℕ)
    {captured captured' : C} (hlike : like captured captured') :
    Alike (veil pairing seat)
      ((watchAndUpdate call mutator attempts captured).andThen (afterUpdate f))
      ((watchAndUpdate call mutator attempts captured').andThen (afterUpdate f)) := by
  induction attempts generalizing captured captured' with
  | zero => exact (h.quiet_rest _).alike
  | succ attempts ih =>
    refine Alike.command (o := .watch) True.intro fun token => ?_
    cases token with
    | error e => exact (h.quiet_rest (.error e)).alike
    | ok token =>
      refine Alike.get ?_ (fun session session' hsame => ?_)
        fun e => (h.quiet_rest (.error e)).alike
      · refine Alike.command (o := .unwatch) True.intro fun r => ?_
        cases r with
        | error e => exact (h.quiet_rest (.error e)).alike
        | ok r => exact (h.quiet_rest (.error .gameNotFound)).alike
      · have hboth := h.alike captured captured' session session' hlike hsame
        change Alike (veil pairing seat)
          ((decided call mutator attempts token captured session).andThen (afterUpdate f))
          ((decided call mutator attempts token captured' session').andThen (afterUpdate f))
        unfold decided
        generalize mutator captured session=r,mutator captured' session'=r' at hboth
        cases hboth with
        | error e => exact (h.quiet_rest (.error e)).alike
        | ok hx =>
          exact Alike.exec (fun hcovered => (hx.2 hcovered).1) (fun hcovered => (hx.2 hcovered).2)
            (ih hx.1) fun e => (h.quiet_rest (.error e)).alike

/-- A transaction of the code. -/
theorem Updates.quiet_watchAndUpdate (h : Updates pairing seat mutator like f) (attempts : ℕ)
    {captured : C} (hlike : like captured captured) :
    Quiet pairing seat
      ((watchAndUpdate call mutator attempts captured).andThen (afterUpdate f)) := by
  induction attempts generalizing captured with
  | zero => exact h.quiet_rest _
  | succ attempts ih =>
    refine Tame.op (fun hin => nomatch hin) (h.alike_watchAndUpdate (attempts+1) hlike)
      fun token _ => ?_
    cases token with
    | error e => exact h.quiet_rest (.error e)
    | ok token =>
      refine Tame.op (fun hin => nomatch hin)
        ((h.alike_watchAndUpdate (attempts+1) hlike).after_watch (.ok token)) fun raw hraw => ?_
      obtain e | _ | session := raw
      · exact h.quiet_rest (.error e)
      · refine Tame.command (o := .unwatch) True.intro fun r => ?_
        cases r with
        | error e => exact h.quiet_rest (.error e)
        | ok r => exact h.quiet_rest (.error .gameNotFound)
      · have hbelongs := h.belongs captured session
        have hrefl := h.refl captured session
        change Quiet pairing seat
          ((decided call mutator attempts token captured session).andThen (afterUpdate f))
        unfold decided
        generalize mutator captured session=r at hbelongs hrefl
        cases r with
        | error e => exact h.quiet_rest (.error e)
        | ok x =>
          have hnext := hrefl x hlike rfl
          refine Tame.op (fun hin => nomatch hin) (Alike.exec
            (fun hcovered => (veil pairing seat).refl (hbelongs x hraw rfl) hcovered)
            (fun _ => (h.quiet_rest (.ok x)).alike) (ih hnext).alike
            fun e => (h.quiet_rest (.error e)).alike) fun committed _ => ?_
          obtain e | _ | _ := committed
          · exact h.quiet_rest (.error e)
          · exact ih hnext
          · exact h.quiet_rest (.ok x)

/-- A mutator that leaves sessions that look alike, and a rest that depends on the captured
variables alone. -/
theorem Updates.of_same (hrest : ∀ outcome,Quiet pairing seat (f outcome))
    (hbelongs : ∀ captured session x,BelongsTo pairing session →
      mutator captured session=.ok x → BelongsTo pairing x.2)
    (hrefl : ∀ captured,like captured captured)
    (hsame : ∀ captured captured' session session',like captured captured' →
      f (some (captured',session'))=f (some (captured,session)))
    (halike : ∀ captured captured' session session',like captured captured' →
      LooksLike pairing seat session session' →
      Both (fun x x' => like x.1 x'.1 ∧ LooksLike pairing seat x.2 x'.2)
        (mutator captured session) (mutator captured' session')) :
    Updates pairing seat mutator like f where
  rest := hrest
  belongs := hbelongs
  refl _ _ x _ _ := hrefl x.1
  alike captured captured' session session' hlike hlooks := by
    have hboth := halike captured captured' session session' hlike hlooks
    generalize mutator captured session=r,mutator captured' session'=r' at hboth
    cases hboth with
    | error e => exact .error e
    | ok hx =>
      refine .ok ⟨hx.1,fun _ => ⟨hx.2,?_⟩⟩
      rw [hsame _ _ _ _ hx.1]
      exact (hrest _).alike

/-- A transaction whose missing session is caught. -/
theorem Updates.quiet (h : Updates pairing seat mutator like f) (attempts : ℕ) {captured : C}
    (hlike : like captured captured) :
    Quiet pairing seat (exceptNotFound (watchAndUpdate call mutator attempts captured) >>= f) := by
  rw [update_bind]
  exact h.quiet_watchAndUpdate attempts hlike

end Update

end Rules

section Sessions

variable {session session' : PvPSessionState}

/-- What a prompt is made of. -/
def view (session : PvPSessionState) : GameState×UUID×UUID :=
  (session.gameState,session.player1Id,session.player2Id)

/-- Sessions that look alike are prompted alike. -/
theorem LooksLike.view (h : LooksLike pairing seat session session') :
    view session'=view session := by
  simp only [HiddenActions.view,h.gameState,h.player1Id,h.player2Id]

/-- A prompt is made of the view. -/
theorem sendWaitingForAction_view (h : view session'=view session) :
    sendWaitingForAction worker session'=sendWaitingForAction worker session := by
  simp only [view,Prod.mk.injEq] at h
  obtain ⟨hgame,h₁,h₂⟩ := h
  unfold sendWaitingForAction
  rw [hgame,h₁,h₂]

/-- Changes of the match. -/
theorem LooksLike.played (h : LooksLike pairing seat session session') (gameState : GameState) :
    LooksLike pairing seat {session with gameState := gameState}
      {session' with gameState := gameState} :=
  ⟨h.belongs,rfl,h.player1Id,h.player2Id,h.connectedPlayers,h.started,h.others,h.filled,h.filled'⟩

/-- The first prompt is claimed. -/
theorem LooksLike.begun (h : LooksLike pairing seat session session') :
    LooksLike pairing seat {session with started := true} {session' with started := true} :=
  ⟨h.belongs,h.gameState,h.player1Id,h.player2Id,h.connectedPlayers,rfl,h.others,h.filled,h.filled'⟩

/-- A player has connected. -/
theorem LooksLike.connected (h : LooksLike pairing seat session session') (player : UUID) :
    LooksLike pairing seat (session.markConnected player) (session'.markConnected player) := by
  unfold PvPSessionState.markConnected
  rw [h.connectedPlayers]
  split
  · exact h
  · exact ⟨h.belongs,h.gameState,h.player1Id,h.player2Id,rfl,h.started,h.others,h.filled,h.filled'⟩

end Sessions

section Prompts

/-- _send_waiting_for_action. -/
theorem quiet_sendWaitingForAction (session : PvPSessionState) :
    Quiet pairing seat (sendWaitingForAction worker session) := by
  unfold sendWaitingForAction
  cases session.gameState.currentRound with
  | none => exact quiet_done _
  | some round =>
    exact (quiet_send _ _).bind fun _ => (quiet_send _ _).bind fun _ => quiet_act _ rfl

/-- A prompt while the match is in progress. -/
theorem quiet_prompt (session : PvPSessionState) :
    Quiet pairing seat (if session.gameState.status=.inProgress then
      sendWaitingForAction worker session else pure ()) := by
  split
  · exact quiet_sendWaitingForAction session
  · exact quiet_done _

/-- It is made of the view. -/
theorem prompt_view {session session' : PvPSessionState} (h : view session'=view session) :
    (if session'.gameState.status=.inProgress then sendWaitingForAction worker session'
      else pure ())=if session.gameState.status=.inProgress then sendWaitingForAction worker session
      else pure () := by
  have hgame : session'.gameState=session.gameState := congrArg Prod.fst h
  rw [sendWaitingForAction_view h,hgame]

/-- The captured variables of handle_connect for sessions that look alike. -/
structure LikeConnect (captured captured' : ConnectCaptured) : Prop where
  /-- opponent_to_notify. -/
  opponentToNotify : captured'.opponentToNotify=captured.opponentToNotify
  /-- is_reconnect. -/
  isReconnect : captured'.isReconnect=captured.isReconnect
  /-- new_state. -/
  newState : captured'.newState.map view=captured.newState.map view

/-- handle_connect after its transaction. -/
def afterConnect (worker : Worker) (playerId : UUID) :
    Option (ConnectCaptured×PvPSessionState) → Coroutine Unit
  | none => send worker playerId (.errorMsg "Game not found")
  | some (captured,_) =>
    match captured.isReconnect,captured.opponentToNotify with
    | true,some opponent => do
      act (.cancelDisconnect worker playerId)
      send worker opponent .opponentReconnected
      match captured.newState with
      | none => pure ()
      | some session =>
        if session.gameState.status=.inProgress then sendWaitingForAction worker session
        else pure ()
    | _,_ => pure ()

/-- It depends on the captured variables alone. -/
theorem LikeConnect.same {captured captured' : ConnectCaptured} (h : LikeConnect captured captured')
    (player : UUID) (session session' : PvPSessionState) :
    afterConnect worker player (some (captured',session'))=
      afterConnect worker player (some (captured,session)) := by
  obtain ⟨hopponent,hreconnect,hstate⟩ := h
  simp only [afterConnect,hopponent,hreconnect]
  obtain ⟨opponent,isReconnect,newState⟩ := captured
  obtain ⟨opponent',isReconnect',newState'⟩ := captured'
  cases newState with
  | none =>
    cases newState' with
    | none => rfl
    | some session' => cases hstate
  | some session =>
    cases newState' with
    | none => cases hstate
    | some session' => simp only [prompt_view (Option.some.inj hstate)]

/-- handle_connect. -/
theorem quiet_handleConnect (player : UUID) :
    Quiet pairing seat (handleConnect worker player) := by
  have hrest : ∀ outcome,Quiet pairing seat (afterConnect worker player outcome) := by
    intro outcome
    cases outcome with
    | none => exact quiet_send _ _
    | some x =>
      dsimp only [afterConnect]
      split
      · refine (quiet_act _ rfl).bind fun _ => (quiet_send _ _).bind fun _ => ?_
        split
        · exact quiet_done _
        · exact quiet_prompt _
      · exact quiet_done _
  have hupdates : Updates pairing seat (markConnected player) LikeConnect
      (afterConnect worker player) := by
    refine .of_same hrest ?_ (fun _ => ⟨rfl,rfl,rfl⟩)
      (fun _ _ session session' h => h.same player session session') ?_
    · intro captured session x hbelongs hx
      rw [GameTransactions.markConnected_cases hx]
      exact ⟨(markConnected_player1Id player session).trans hbelongs.1,
        (markConnected_player2Id player session).trans hbelongs.2⟩
    · intro captured captured' session session' hlike hsame
      have hconnected : session'.hasConnected player=session.hasConnected player := by
        unfold PvPSessionState.hasConnected
        rw [hsame.connectedPlayers]
      unfold markConnected
      rw [hconnected]
      split
      · refine .ok ⟨⟨?_,rfl,congrArg some hsame.view⟩,hsame⟩
        simp only [hsame.player1Id,hsame.player2Id]
      · exact .ok ⟨⟨hlike.opponentToNotify,hlike.isReconnect,
          congrArg some (hsame.connected player).view⟩,hsame.connected player⟩
  exact hupdates.quiet _ ⟨rfl,rfl,rfl⟩

/-- The captured variables of start for sessions that look alike. -/
structure LikeStart (captured captured' : StartCaptured) : Prop where
  /-- new_state. -/
  newState : captured'.newState.map view=captured.newState.map view
  /-- already_started. -/
  alreadyStarted : captured'.alreadyStarted=captured.alreadyStarted

/-- start after its transaction. -/
def afterStart (worker : Worker) : Option (StartCaptured×PvPSessionState) → Coroutine Unit
  | none => pure ()
  | some (captured,_) =>
    if captured.alreadyStarted then pure ()
    else match captured.newState with
    | none => pure ()
    | some session => sendWaitingForAction worker session

/-- It depends on the captured variables alone. -/
theorem LikeStart.same {captured captured' : StartCaptured} (h : LikeStart captured captured')
    (session session' : PvPSessionState) :
    afterStart worker (some (captured',session'))=afterStart worker (some (captured,session)) := by
  obtain ⟨hstate,hstarted⟩ := h
  simp only [afterStart,hstarted]
  obtain ⟨newState,alreadyStarted⟩ := captured
  obtain ⟨newState',alreadyStarted'⟩ := captured'
  cases newState with
  | none =>
    cases newState' with
    | none => rfl
    | some session' => cases hstate
  | some session =>
    cases newState' with
    | none => cases hstate
    | some session' => simp only [sendWaitingForAction_view (Option.some.inj hstate)]

/-- start. -/
theorem quiet_start : Quiet pairing seat (start worker) := by
  have hrest : ∀ outcome,Quiet pairing seat (afterStart worker outcome) := by
    intro outcome
    cases outcome with
    | none => exact quiet_done _
    | some x =>
      dsimp only [afterStart]
      split
      · exact quiet_done _
      · split
        · exact quiet_done _
        · exact quiet_sendWaitingForAction _
  have hupdates : Updates pairing seat markStarted LikeStart (afterStart worker) := by
    refine .of_same hrest ?_ (fun _ => ⟨rfl,rfl⟩)
      (fun _ _ session session' h => h.same session session') ?_
    · intro captured session x hbelongs hx
      rw [GameTransactions.markStarted_cases hx]
      exact hbelongs
    · intro captured captured' session session' hlike hsame
      unfold markStarted
      rw [hsame.started]
      split
      · exact .ok ⟨⟨congrArg some hsame.view,rfl⟩,hsame⟩
      · exact .ok ⟨⟨congrArg some hsame.begun.view,hlike.alreadyStarted⟩,hsame.begun⟩
  exact hupdates.quiet _ ⟨rfl,rfl⟩

end Prompts

section Turns

/-- The pause and the next prompt. -/
theorem quiet_promptNextTurn (roundEnded : Bool) :
    Quiet pairing seat (promptNextTurn worker roundEnded) := by
  refine (quiet_act _ rfl).bind fun _ => quiet_load (quiet_done _) (fun session _ => ?_) ?_
  · exact quiet_prompt session
  · exact fun session session' h => (prompt_view h.view).symm

/-- What is announced of a turn. -/
theorem quiet_announceTurn (turnResult : TurnResult) (captured : ResolveCaptured)
    (p1Id p2Id : UUID) :
    Quiet pairing seat (announceTurn worker turnResult captured p1Id p2Id) := by
  refine (quiet_send _ _).bind fun _ => (quiet_send _ _).bind fun _ => ?_
  refine Tame.bind ?_ fun _ => ?_
  · cases captured.roundResult with
    | none => exact quiet_done _
    | some result => exact (quiet_send _ _).bind fun _ => quiet_send _ _
  · split
    · exact (quiet_send _ _).bind fun _ => quiet_send _ _
    · exact quiet_promptNextTurn _

/-- _resolve_turn after its transaction. -/
theorem quiet_concludeResolve (captured : ResolveCaptured) :
    Quiet pairing seat (concludeResolve worker captured) := by
  refine (quiet_act _ rfl).bind fun _ => ?_
  split
  · exact quiet_done _
  · next turnResult _ =>
    refine quiet_load (quiet_done _) (fun session _ => quiet_announceTurn _ _ _ _) ?_
    intro session session' h
    simp only [h.player1Id,h.player2Id]

/-- _resolve_turn after its transaction, if there was a session. -/
def afterResolve (worker : Worker) : Option (ResolveCaptured×PvPSessionState) → Coroutine Unit
  | none => pure ()
  | some (captured,_) => concludeResolve worker captured

/-- _resolve_turn of the same pair. -/
theorem quiet_resolveTurn (p1Action p2Action : Action) :
    Quiet pairing seat (resolveTurn worker p1Action p2Action) := by
  have hupdates : Updates pairing seat (GameSession.applyTurn p1Action p2Action) Eq
      (afterResolve worker) := by
    refine .of_same ?_ ?_ (fun _ => rfl) ?_ ?_
    · intro outcome
      cases outcome with
      | none => exact quiet_done _
      | some x => exact quiet_concludeResolve x.1
    · intro captured session x hbelongs hx
      obtain ⟨gameState,report,-,hsession⟩ := GameTransactions.applyTurn_cases hx
      rw [hsession]
      exact hbelongs
    · rintro captured _ session session' rfl
      rfl
    · intro captured captured' session session' _ hsame
      unfold GameSession.applyTurn
      rw [hsame.gameState]
      split
      · exact .error _
      · exact .ok ⟨rfl,hsame.played _⟩
  exact hupdates.quiet _ rfl

/-- _forfeit_after_timeout after its transaction. -/
def afterForfeit (worker : Worker) (opponent : UUID) (forfeiting : RoundWinner) :
    Option (Unit×PvPSessionState) → Coroutine Unit
  | none => pure ()
  | some _ => do
    match ← load with
    | none => pure ()
    | some session => send worker opponent (forfeitResult opponent forfeiting session)

/-- _forfeit_after_timeout once the side is known. -/
theorem quiet_writeForfeit (opponent : UUID) (forfeiting : RoundWinner) :
    Quiet pairing seat (writeForfeit worker opponent forfeiting) := by
  have hupdates : Updates pairing seat (forfeitMatch forfeiting) Eq
      (afterForfeit worker opponent forfeiting) := by
    refine .of_same ?_ ?_ (fun _ => rfl) (fun _ _ _ _ _ => rfl) ?_
    · intro outcome
      cases outcome with
      | none => exact quiet_done _
      | some x =>
        refine quiet_load (quiet_done _) (fun session _ => quiet_send _ _) ?_
        intro session session' h
        simp only [forfeitResult,opponentLabel,h.player1Id,h.player2Id,h.gameState]
    · rintro captured session x hbelongs ⟨⟩
      exact hbelongs
    · intro captured captured' session session' _ hsame
      unfold forfeitMatch
      rw [hsame.gameState]
      exact .ok ⟨rfl,hsame.played _⟩
  exact hupdates.quiet _ rfl

/-- _forfeit_after_timeout. -/
theorem quiet_forfeitAfterTimeout (disconnected opponent : UUID) :
    Quiet pairing seat (forfeitAfterTimeout worker disconnected opponent) := by
  refine (quiet_act _ rfl).bind fun _ => (quiet_act (.isConnected _ _) rfl).bind fun connected => ?_
  cases connected with
  | true => exact quiet_done _
  | false =>
    refine quiet_tryLoad (quiet_done _) (quiet_done _) (fun session _ => quiet_writeForfeit _ _) ?_
    intro session session' h
    simp only [forfeitingSide,h.player1Id]

/-- handle_disconnect. -/
theorem quiet_handleDisconnect (player : UUID) :
    Quiet pairing seat (handleDisconnect worker player) := by
  refine quiet_tryLoad (quiet_done _) (quiet_done _) (fun session _ => ?_) ?_
  · exact (quiet_send _ _).bind fun _ => quiet_act _ rfl
  · intro session session' h
    dsimp only
    rw [h.player1Id,h.player2Id]

/-- The finally block of game_ws. -/
theorem quiet_closeSocket (player : UUID) : Quiet pairing seat (closeSocket worker player) := by
  refine (quiet_act (.unregister _ _) rfl).bind fun _ =>
    quiet_load (quiet_done _) (fun session _ => ?_) ?_
  · dsimp only
    split
    · exact (quiet_act (.cleanup _) rfl).bind fun _ =>
        Tame.command (o := .delete) True.intro fun r => .done r
    · exact quiet_done _
  · intro session session' h
    simp only [h.gameState]

/-- game_ws after a refusal. -/
theorem quiet_refuse (player : UUID) (message : String) :
    Quiet pairing seat (refuse worker player message) :=
  (quiet_act _ rfl).bind fun _ => quiet_act _ rfl

/-- game_ws when both players may have connected. -/
theorem quiet_startWhenFull : Quiet pairing seat (startWhenFull worker) := by
  refine (quiet_act (.roomSize _) rfl).bind fun size => ?_
  split
  · exact quiet_start
  · exact quiet_done _

end Turns

end KiClash.HiddenActions
