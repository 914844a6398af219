import KiClash.GoOperations
import KiClash.TaskPhases

/-!
# The phases of the Go goroutines

What the handler of a game socket and the timers have behind them: whether a
socket's connect transaction has committed, what the attempts of start have
found, whether the disconnect transaction has committed, and whether a timer's
time has passed. Every goroutine of the server goes through these phases.
-/

namespace KiClash.GoPhases

open GoTypes GoEngine ServerMessages AsyncTasks WatchedKey TaskPhases GoStore GoSession GoOperations

/-- How far the handler of a game socket has come. -/
inductive Stage
  /-- The connection has not been upgraded. -/
  | arriving
  /-- handleConnect has not written. -/
  | connecting
  /-- start has not written. The attempt that is under way has found the match
  ready, or an aborted one has. -/
  | starting (found ready : Bool)
  /-- start has written, and reads the session again before it prompts the players. -/
  | reloading
  /-- start prompts the players, of whom these have not been told. -/
  | prompting (untold : List String)
  /-- The read loop. -/
  | playing
  /-- Reading has failed, and handleDisconnect has not written. -/
  | leaving
  /-- handleDisconnect has written, and the turn timer is still to be cancelled. -/
  | pausing
  /-- The turn timer of the instance has been cancelled. -/
  | parting
  /-- handleDisconnect has returned early; it has written or not. -/
  | gone (written : Bool)
  deriving DecidableEq, Repr

/-- How far a turn timer has come. -/
inductive TurnStage
  | waiting | fired | stopped
  deriving DecidableEq, Repr

/-- How far a forfeit timer has come. -/
inductive ForfeitStage
  | waiting | checking | forfeiting | over
  deriving DecidableEq, Repr

/-- The phase of a goroutine. A socket's player is marked while a transaction of
its handler has added him to the connected players and none has removed him. -/
inductive Phase
  | socket (instance' : Instance) (player : String) (stage : Stage) (marked : Bool)
  | turnTimer (instance' : Instance) (stage : TurnStage)
  | forfeitTimer (instance' : Instance) (disconnected opponent : String) (stage : ForfeitStage)
  deriving DecidableEq, Repr

/-- Whether a transaction is over with an operation, and whether it has written. -/
def concludes : (o : Op language) → Bool → Except Failure o.Res → Option Bool
  | .store (.exec _ _ _ _),true,_ => some true
  | .store (.exec _ _ _ _),false,.error _ => some false
  | .store (.exec _ retriesLeft _ _),false,.ok _ => if retriesLeft=0 then some false else none
  | .store .get,_,.ok none => some false
  | .store .get,_,.error _ => some false
  | .store .watch,_,.error _ => some false
  | _,_,_ => none

/-- An attempt to mark the player cannot be made with what has been read. -/
def outsider (player : String) : (o : Op language) → Except Failure o.Res → Bool
  | .store .get,.ok (some sess) => !sess.isPlayer player
  | _,_ => false

/-- An attempt of start finds both players connected and the match not started. -/
def findsReady : (o : Op language) → Except Failure o.Res → Option Bool
  | .store .get,.ok (some sess) => some (!sess.started && !(sess.connectedPlayers.length<2 : Bool))
  | _,_ => none

/-- The operation has failed. -/
def fails {α : Type} : Except Failure α → Bool
  | .ok _ => false
  | .error _ => true

/-- handleConnect's transaction. -/
def connected (player : String) (o : Op language) (effective : Bool)
    (r : Except Failure o.Res) : Stage×Bool :=
  if outsider player o r then (.starting false false,false)
  else match concludes o effective r with
  | none => (.connecting,false)
  | some written => (.starting false false,written)

/-- start's transaction. -/
def started (found ready : Bool) (o : Op language) (effective : Bool)
    (r : Except Failure o.Res) : Stage :=
  match findsReady o r,concludes o effective r,o with
  | some found,_,_ => .starting found ready
  | none,some written,_ =>
    if written && !fails r && (found || ready) then .reloading else .playing
  | none,none,.store (.exec _ _ _ _) => .starting false (found || ready)
  | none,none,_ => .starting found ready

/-- The read at the end of start's transaction. -/
def reloaded (o : Op language) (r : Except Failure o.Res) : Stage :=
  match o,r with
  | .store .load,.ok (some sess) =>
    if sess.gameState.currentRound.isSome then .prompting [sess.player1Id,sess.player2Id]
    else .playing
  | .store .load,_ => .playing
  | _,_ => .reloading

/-- The prompts of start, and the first message of the client. -/
def prompted (untold : List String) : Op language → Stage
  | .act (.send _ _ message) => .prompting (if message.isPrompt then untold.tail else untold)
  | .act (.readMessage none) => .leaving
  | .act (.readMessage (some _)) => .playing
  | _ => .prompting untold

/-- The read loop. -/
def reading : Op language → Stage
  | .act (.readMessage none) => .leaving
  | _ => .playing

/-- handleDisconnect's transaction. -/
def disconnected (marked : Bool) (o : Op language) (effective : Bool)
    (r : Except Failure o.Res) : Stage×Bool :=
  match concludes o effective r with
  | none => (.leaving,marked)
  | some false => (.gone false,marked)
  | some true => (if fails r then .gone true else .pausing,false)

/-- The rest of handleDisconnect. -/
def paused (o : Op language) (r : Except Failure o.Res) : Stage :=
  match o,r with
  | .store .load,.ok (some _) => .pausing
  | .store .load,_ => .gone true
  | .act (.cancelTurnTimeout _),_ => .parting
  | _,_ => .pausing

/-- What a handler does next. -/
def Stage.next (player : String) (marked : Bool) :
    Stage → (o : Op language) → Bool → Except Failure o.Res → Stage×Bool
  | .arriving,.act (.upgrade _ _),_,.ok true => (.connecting,false)
  | .arriving,_,_,_ => (.arriving,marked)
  | .connecting,o,effective,r => connected player o effective r
  | .starting found ready,o,effective,r => (started found ready o effective r,marked)
  | .reloading,o,_,r => (reloaded o r,marked)
  | .prompting untold,o,_,_ => (prompted untold o,marked)
  | .playing,o,_,_ => (reading o,marked)
  | .leaving,o,effective,r => disconnected marked o effective r
  | .pausing,o,_,r => (paused o r,marked)
  | .parting,_,_,_ => (.parting,marked)
  | .gone written,_,_,_ => (.gone written,marked)

/-- What a turn timer does next. -/
def TurnStage.next : TurnStage → (o : Op language) → Except Failure o.Res → TurnStage
  | .waiting,.act (.selectTimer _),.ok passed => if passed then .fired else .stopped
  | stage,_,_ => stage

/-- What a forfeit timer does next. -/
def ForfeitStage.next (player : String) :
    ForfeitStage → (o : Op language) → Except Failure o.Res → ForfeitStage
  | .waiting,.act (.selectTimer _),.ok passed => if passed then .checking else .over
  | .checking,.store .load,.ok (some sess) =>
    if sess.gameState.status=matchInProgress && !sess.hasConnected player then .forfeiting
    else .over
  | .checking,.store .load,_ => .over
  | stage,_,_ => stage

/-- What a goroutine does next. -/
def Phase.next : Phase → (o : Op language) → Bool → Except Failure o.Res → Phase
  | .socket instance' player stage marked,o,effective,r =>
    .socket instance' player (stage.next player marked o effective r).1
      (stage.next player marked o effective r).2
  | .turnTimer instance' stage,o,_,r => .turnTimer instance' (stage.next o r)
  | .forfeitTimer instance' disconnected opponent stage,o,_,r =>
    .forfeitTimer instance' disconnected opponent (stage.next disconnected o r)

/-- The instance of a goroutine. -/
def Phase.instanceOf : Phase → Instance
  | .socket instance' _ _ _ => instance'
  | .turnTimer instance' _ => instance'
  | .forfeitTimer instance' _ _ _ => instance'

/-- The phases in which actions are submitted and turns are resolved. -/
def Phase.Plays : Phase → Prop
  | .socket _ _ .playing _ => True
  | .turnTimer _ .fired => True
  | _ => False

/-- The transactions that a goroutine may run in a phase. -/
def Phase.Runs : Phase → Call → Prop
  | .socket _ player .connecting _,.connect player' => player'=player
  | .socket _ _ (.starting _ _) _,.start => True
  | .socket _ player .leaving _,.disconnect player' => player'=player
  | .forfeitTimer _ disconnected _ .forfeiting,.forfeit disconnected' => disconnected'=disconnected
  | phase,.submit _ _ _ => phase.Plays
  | phase,.resolve _ _ => phase.Plays
  | _,_ => False

/-- The turn timer of an instance is armed by handlers that connect or play and by
turn timers. -/
def Phase.Arms : Phase → Prop
  | .socket _ _ (.starting _ _) _ => True
  | .socket _ _ (.prompting _) _ => True
  | phase => phase.Plays

/-- A player may be prompted by whoever may arm the turn timer; start prompts each
player in turn. -/
def Phase.Prompts (player : String) : Phase → Prop
  | .socket _ _ (.prompting untold) _ => untold.head?=some player
  | phase => phase.Arms

/-- What a goroutine may perform in a phase. -/
def Phase.Allows (phase : Phase) : Op language → Prop
  | .store (.exec _ _ call _) => phase.Runs call
  | .store (.set _ _ _) => False
  | .store .delete => False
  | .store .unwatch => False
  | .store _ => True
  | .act (.upgrade instance' player) => ∃ marked,phase=.socket instance' player .arriving marked
  | .act (.readMessage _) => ∃ instance' player stage marked,
    phase=.socket instance' player stage marked ∧ (stage=.prompting [] ∨ stage=.playing)
  | .act (.selectTimer _) => (∃ instance',phase=.turnTimer instance' .waiting) ∨
    ∃ instance' disconnected opponent,phase=.forfeitTimer instance' disconnected opponent .waiting
  | .act (.setTurnTimeout instance') => phase.instanceOf=instance' ∧ phase.Arms
  | .act (.cancelTurnTimeout instance') => phase.instanceOf=instance' ∧
    (phase.Arms ∨ ∃ player marked,phase=.socket instance' player .pausing marked)
  | .act (.startDisconnect instance' player _) => ∃ marked,
    phase=.socket instance' player .parting marked
  | .act (.send instance' player message) => phase.instanceOf=instance' ∧
    (message.isPrompt=true → phase.Prompts player)
  | .act _ => True

/-- Where a goroutine may end. -/
def Phase.Ends : Phase → Prop
  | .socket _ _ .arriving _ => True
  | .socket _ _ .parting _ => True
  | .socket _ _ (.gone _) _ => True
  | .socket _ _ _ _ => False
  | .turnTimer _ .waiting => False
  | .turnTimer _ _ => True
  | .forfeitTimer _ _ _ .over => True
  | .forfeitTimer _ _ _ .forfeiting => True
  | .forfeitTimer _ _ _ _ => False

/-- The phases of the goroutines. -/
abbrev watcher : Watcher runtime where
  Phase := Phase
  start
    | .gameWebsocket instance' player _ => .socket instance' player .arriving false
    | .turnTimeoutLoop instance' => .turnTimer instance' .waiting
    | .forfeitAfterTimeout instance' disconnected opponent =>
      .forfeitTimer instance' disconnected opponent .waiting
  next := Phase.next
  allows := Phase.Allows
  ends := Phase.Ends

section Parts

variable {α : Type} {Q : Phase → Except Failure α → Prop} {phase : Phase}

/-- A program that starts with an action goes on after it. -/
theorem follows_act {o : LocalOp} {f : LocalOp.Res o → Goroutine α}
    (hallows : phase.Allows (.act o))
    (h : ∀ res,watcher.Follows Q (phase.next (.act o) true (.ok res)) (f res)) :
    watcher.Follows Q phase (act o >>= f) := by
  refine ⟨hallows,fun effective r ho => ?_⟩
  obtain ⟨rfl,res,rfl⟩ := outcome_act ho
  exact h res

/-- A program that starts with a command. -/
theorem follows_redis {o : StoreOp PvPSession Call} {f : o.Res → Goroutine α}
    (hallows : phase.Allows (.store o))
    (hfails : ∀ effective exc,Q (phase.next (.store o) effective (.error exc)) (.error exc))
    (h : ∀ effective res,Outcome runtime (.store o) effective (.ok res) →
      watcher.Follows Q (phase.next (.store o) effective (.ok res)) (f res)) :
    watcher.Follows Q phase (redis o >>= f) := by
  refine ⟨hallows,fun effective r ho => ?_⟩
  cases r with
  | error exc => exact hfails effective exc
  | ok res => exact h effective res ho

/-- A command that has returned. -/
theorem effective_of_ok {o : StoreOp PvPSession Call} {effective : Bool} {res : o.Res}
    (h : Outcome runtime (.store o) effective (.ok res)) :
    Effective (L := language) o res effective := by
  obtain ⟨exc,he⟩ | ⟨res',he,heffective⟩ := h.store
  · cases he
  · cases he
    exact heffective

/-- An error that a program hands to its caller as a value. -/
theorem follows_returned {β : Type} {Q' : Phase → Except Failure β → Prop} {p : Goroutine β}
    {f : Except Failure β → Goroutine α} (h : watcher.Follows Q' phase p)
    (hf : ∀ phase r,Q' phase r → watcher.Follows Q phase (f r)) :
    watcher.Follows Q phase (returned p >>= f) := by
  have hreturned : watcher.Follows
      (fun phase (r : Except Failure (Except Failure β)) => ∃ r',r=.ok r' ∧ Q' phase r')
      phase (returned p) := h.andThen fun phase r hq => ⟨r,rfl,hq⟩
  apply hreturned.bind
  · rintro phase r ⟨r',he,hq⟩
    cases he
    exact hf phase r hq
  · rintro phase exc ⟨r',he,-⟩
    cases he

/-- A transaction: a phase before and one after GET for each state of the captured
variables, and what holds when it is over. -/
theorem follows_watchAndUpdate {L : Type} {call : L → Call} {mutator : Mutator L}
    {Q : Phase → Except Failure (L×PvPSession) → Prop} (before : L → Phase)
    (after : L → PvPSession → Phase)
    (hwatch : ∀ c,(before c).Allows (.store .watch) ∧
      (∀ token : ℕ,(before c).next (.store .watch) true (.ok token)=before c) ∧
      ∀ effective exc,Q ((before c).next (.store .watch) effective (.error exc)) (.error exc))
    (hget : ∀ c,(before c).Allows (.store .get) ∧
      (∀ sess : PvPSession,(before c).next (.store .get) true (.ok (some sess))=after c sess) ∧
      Q ((before c).next (.store .get) true (.ok none)) (.error .gameNotFound) ∧
      ∀ effective exc,Q ((before c).next (.store .get) effective (.error exc)) (.error exc))
    (hmutator : ∀ c sess e,mutator c sess=.error e → Q (after c sess) (.error (.mutator e)))
    (hexec : ∀ c sess c' sess',mutator c sess=.ok (c',sess') → ∀ token n,
      (after c sess).Allows (.store (.exec token n (call c) sess')) ∧
      (∀ effective exc,Q ((after c sess).next (.store (.exec token n (call c) sess')) effective
        (.error exc)) (.error exc)) ∧
      (n≠0 → (after c sess).next (.store (.exec token n (call c) sess')) false (.ok false)=
        before c') ∧
      (n=0 → Q ((after c sess).next (.store (.exec token n (call c) sess')) false (.ok false))
        (.error .tooManyWatchRetries)) ∧
      watcher.Follows Q ((after c sess).next (.store (.exec token n (call c) sess')) true (.ok true))
        (loadSession >>= fun sess => pure (c',sess)))
    {attempts : ℕ} (hattempts : attempts≠0) (c : L) :
    watcher.Follows Q (before c) (watchAndUpdate call mutator attempts c) := by
  induction attempts generalizing c with
  | zero => exact absurd rfl hattempts
  | succ n ih =>
    obtain ⟨hwallows,hwok,hwerror⟩ := hwatch c
    obtain ⟨hgallows,hgsome,hgnone,hgerror⟩ := hget c
    apply follows_redis hwallows hwerror
    intro effective token ho
    cases effective_of_ok ho
    rw [hwok]
    apply follows_redis hgallows hgerror
    intro effective value ho
    cases effective_of_ok ho
    cases value with
    | none => exact hgnone
    | some sess =>
      rw [hgsome]
      dsimp only
      cases hm : mutator c sess with
      | error e => exact hmutator c sess e hm
      | ok result =>
        obtain ⟨hallows,herror,hagain,hlast,hcommitted⟩ :=
          hexec c sess result.1 result.2 hm token n
        apply follows_redis hallows herror
        intro effective committed ho
        have he : effective=committed := effective_of_ok ho
        subst he
        cases effective with
        | true => exact hcommitted
        | false =>
          by_cases hn : n=0
          · subst hn
            exact hlast rfl
          · rw [hagain hn]
            exact ih hn result.1

end Parts

section Sockets

variable {instance' : Instance} {player : String} {marked : Bool} {phase : Phase}

/-- While a player plays or a timer has fired, reading, talking and submitting
leave the phase. -/
theorem conducts_of_plays (h : phase.Plays) :
    Conducts phase.instanceOf (watcher.Idle phase) ∧
      (∀ player action,Commits (watcher.Idle phase) (Call.submit player action)) ∧
      ∀ p1 p2,Commits (watcher.Idle phase) fun _ : ResolveCaptured => .resolve p1 p2 := by
  have harms : phase.Arms := by
    unfold Phase.Arms
    split <;> trivial
  have hprompts : ∀ player,phase.Prompts player := by
    intro player
    unfold Phase.Prompts
    split
    · exact h.elim
    · exact harms
  unfold Phase.Plays at h
  split at h
  · next instance' player marked =>
    refine ⟨⟨⟨True.intro,fun _ _ _ => rfl⟩,⟨True.intro,fun _ _ _ => rfl⟩,
      ⟨True.intro,fun _ r _ => ?_⟩,fun _ _ => ⟨⟨rfl,fun _ => hprompts _⟩,fun _ _ _ => rfl⟩,
      fun _ => ⟨True.intro,fun _ _ _ => rfl⟩,⟨⟨rfl,.inl harms⟩,fun _ _ _ => rfl⟩,
      ⟨⟨rfl,harms⟩,fun _ _ _ => rfl⟩⟩,fun _ _ _ _ _ _ => ⟨True.intro,fun _ _ _ => rfl⟩,
      fun _ _ _ _ _ _ => ⟨True.intro,fun _ _ _ => rfl⟩⟩
    rcases r with _ | _ | _ <;> rfl
  · next instance' =>
    exact ⟨⟨⟨True.intro,fun _ _ _ => rfl⟩,⟨True.intro,fun _ _ _ => rfl⟩,
      ⟨True.intro,fun _ _ _ => rfl⟩,fun _ _ => ⟨⟨rfl,fun _ => hprompts _⟩,fun _ _ _ => rfl⟩,
      fun _ => ⟨True.intro,fun _ _ _ => rfl⟩,⟨⟨rfl,.inl harms⟩,fun _ _ _ => rfl⟩,
      ⟨⟨rfl,harms⟩,fun _ _ _ => rfl⟩⟩,fun _ _ _ _ _ _ => ⟨True.intro,fun _ _ _ => rfl⟩,
      fun _ _ _ _ _ _ => ⟨True.intro,fun _ _ _ => rfl⟩⟩
  · exact h.elim

/-- The session is read again after a commit. -/
theorem follows_reload {L : Type} {Q : Phase → Except Failure (L×PvPSession) → Prop} {c : L}
    (hallows : phase.Allows (.store .load))
    (hsome : ∀ sess : PvPSession,Q (phase.next (.store .load) true (.ok (some sess))) (.ok (c,sess)))
    (hnone : Q (phase.next (.store .load) true (.ok none)) (.error .gameNotFound))
    (herror : ∀ effective exc,Q (phase.next (.store .load) effective (.error exc)) (.error exc)) :
    watcher.Follows Q phase (loadSession >>= fun sess => pure (c,sess)) := by
  refine ⟨hallows,fun effective r ho => ?_⟩
  cases r with
  | error exc => exact herror effective exc
  | ok value =>
    cases effective_of_ok ho
    cases value with
    | none => exact hnone
    | some sess => exact hsome sess

/-- The phase between handleConnect and start, with the player marked or not. -/
def Arrived (instance' : Instance) (player : String) (phase : Phase) : Prop :=
  ∃ marked,phase=.socket instance' player (.starting false false) marked

/-- handleConnect's transaction marks the player, or gives up. -/
theorem follows_connect (instance' : Instance) (player : String) :
    watcher.Follows (fun phase _ => Arrived instance' player phase)
      (.socket instance' player .connecting false)
      (watchAndUpdate (fun _ => .connect player) (markConnected player) defaultMaxWatchRetries
        ⟨"",false⟩) := by
  have hload : ∀ (marked : Bool) (c : ConnectCaptured),watcher.Follows
      (fun phase _ => Arrived instance' player phase)
      (.socket instance' player (.starting false false) marked)
      (loadSession >>= fun sess => pure (c,sess)) := by
    intro marked c
    exact follows_reload True.intro (fun _ => ⟨marked,rfl⟩) ⟨marked,rfl⟩ fun _ _ => ⟨marked,rfl⟩
  refine follows_watchAndUpdate (fun _ => .socket instance' player .connecting false)
    (fun _ sess => if sess.isPlayer player then .socket instance' player .connecting false
      else .socket instance' player (.starting false false) false) ?_ ?_ ?_ ?_
    (by decide) _
  · intro c
    exact ⟨True.intro,fun _ => rfl,fun _ _ => ⟨false,rfl⟩⟩
  · intro c
    refine ⟨True.intro,fun sess => ?_,⟨false,rfl⟩,fun _ _ => ⟨false,rfl⟩⟩
    cases hp : sess.isPlayer player with
    | true => simp [Phase.next,Stage.next,connected,outsider,concludes,hp]
    | false => simp [Phase.next,Stage.next,connected,outsider,hp]
  · intro c sess e hm
    unfold markConnected at hm
    cases hp : sess.isPlayer player with
    | true => simp [hp] at hm
    | false =>
      rw [if_neg Bool.false_ne_true]
      exact ⟨false,rfl⟩
  · intro c sess c' sess' hm token n
    have hplayer : sess.isPlayer player=true := by
      cases hp : sess.isPlayer player with
      | true => rfl
      | false => simp [markConnected,hp] at hm
    simp only [hplayer,if_true]
    refine ⟨rfl,fun effective exc => ?_,fun hn => ?_,fun hn => ?_,hload true c'⟩
    · cases effective <;> exact ⟨_,rfl⟩
    · simp [Phase.next,Stage.next,connected,outsider,concludes,hn]
    · subst hn
      exact ⟨false,rfl⟩

/-- While a handler connects it may prompt the players. -/
theorem idle_connecting {found ready : Bool} (sess : PvPSession) :
    (sendWaitingForAction instance' sess).All
      (watcher.Idle (.socket instance' player (.starting found ready) marked)) := by
  have hidle : ∀ o : LocalOp,
      (Phase.socket instance' player (.starting found ready) marked).Allows (.act o) →
      watcher.Idle (.socket instance' player (.starting found ready) marked) (.act o) :=
    fun o hallows => ⟨hallows,fun _ _ _ => rfl⟩
  unfold sendWaitingForAction
  split
  · exact all_done _
  · apply (Prog.All.perform (hidle (.send _ _ _) ⟨rfl,fun _ => True.intro⟩)).bind
    intro _
    apply (Prog.All.perform (hidle (.send _ _ _) ⟨rfl,fun _ => True.intro⟩)).bind
    intro _
    apply (Prog.All.perform (hidle (.cancelTurnTimeout _) ⟨rfl,.inl True.intro⟩)).bind
    exact fun _ => Prog.All.perform (hidle (.setTurnTimeout _) ⟨rfl,True.intro⟩)

/-- A program that leaves the phase and handles whatever fails. -/
theorem follows_still {p : Goroutine α} {Q : Phase → Except Failure α → Prop}
    (hall : p.All (watcher.Idle phase)) (hreturns : Returns runtime p)
    (h : ∀ a,Q phase (.ok a)) : watcher.Follows Q phase p := by
  apply ((Watcher.Follows.idle hall).returns hreturns).mono
  rintro phase r ⟨rfl,a,rfl⟩
  exact h a

/-- handleConnect. -/
theorem follows_handleConnect (instance' : Instance) (player : String) :
    watcher.Follows (fun phase r => Arrived instance' player phase ∧ ∃ u,r=.ok u)
      (.socket instance' player .connecting false) (handleConnect instance' player) := by
  apply follows_returned (follows_connect instance' player)
  rintro phase r ⟨marked,rfl⟩
  have hsend : ∀ player' message,
      watcher.Idle (.socket instance' player (.starting false false) marked)
        (.act (.send instance' player' message)) :=
    fun _ _ => ⟨⟨rfl,fun _ => True.intro⟩,fun _ _ _ => rfl⟩
  cases r with
  | error exc =>
    cases exc with
    | gameNotFound =>
      exact follows_still (Prog.All.perform (hsend _ _)) (returns_act _)
        fun u => ⟨⟨marked,rfl⟩,u,rfl⟩
    | tooManyWatchRetries | mutator | store => exact ⟨⟨marked,rfl⟩,(),rfl⟩
  | ok result =>
    dsimp only
    split
    · refine follows_still ?_ ?_ fun u => ⟨⟨marked,rfl⟩,u,rfl⟩
      · apply (Prog.All.perform ⟨True.intro,fun _ _ _ => rfl⟩).bind
        intro _
        apply (Prog.All.perform (hsend _ _)).bind
        intro _
        split
        · exact idle_connecting _
        · exact all_done _
      · apply (returns_act _).bind
        intro _
        apply (returns_act _).bind
        intro _
        split
        · exact returns_sendWaitingForAction _
        · exact returns_done _
    · exact ⟨⟨marked,rfl⟩,(),rfl⟩

/-- The phases from which the read loop goes on. -/
def Started (instance' : Instance) (player : String) (phase : Phase) : Prop :=
  ∃ stage marked,phase=.socket instance' player stage marked ∧
    (stage=.prompting [] ∨ stage=.playing)

/-- start's transaction. -/
theorem follows_markStarted (instance' : Instance) (player : String) (marked : Bool) :
    watcher.Follows (fun phase r => ∃ stage,phase=.socket instance' player stage marked ∧
        (stage=.playing ∧ (∀ c sess,r=.ok (c,sess) → c.shouldStart=true →
            sess.gameState.currentRound=none) ∨
          ∃ c sess cr,stage=.prompting [sess.player1Id,sess.player2Id] ∧ r=.ok (c,sess) ∧
            c.shouldStart=true ∧ sess.gameState.currentRound=some cr))
      (.socket instance' player (.starting false false) marked)
      (watchAndUpdate (fun _ => .start) markStarted defaultMaxWatchRetries ⟨false,0⟩) := by
  have hnever : ∀ exc (c : StartCaptured) (sess : PvPSession),
      (.error exc : Except Failure (StartCaptured×PvPSession))=.ok (c,sess) →
        c.shouldStart=true → sess.gameState.currentRound=none := fun _ _ _ h => nomatch h
  refine follows_watchAndUpdate
    (fun c : StartCaptured => .socket instance' player (.starting false c.shouldStart) marked)
    (fun c sess => .socket instance' player
      (.starting (!sess.started && !(sess.connectedPlayers.length<2 : Bool)) c.shouldStart) marked)
    ?_ ?_ ?_ ?_ (show defaultMaxWatchRetries≠0 by decide) ⟨false,0⟩
  · intro c
    exact ⟨True.intro,fun _ => rfl,fun _ _ => ⟨.playing,rfl,.inl ⟨rfl,hnever _⟩⟩⟩
  · intro c
    exact ⟨True.intro,fun sess => rfl,⟨.playing,rfl,.inl ⟨rfl,hnever _⟩⟩,
      fun _ _ => ⟨.playing,rfl,.inl ⟨rfl,hnever _⟩⟩⟩
  · intro c sess e hm
    unfold markStarted at hm
    split at hm
    · cases hm
    · split at hm <;> cases hm
  · intro c sess c' sess' hm token n
    -- the flag is set if it was, or if this attempt has found the match ready
    have hflag : ((!sess.started && !(sess.connectedPlayers.length<2 : Bool)) || c.shouldStart)=
        c'.shouldStart := by
      unfold markStarted at hm
      split at hm
      · next hs =>
        cases hm
        simp [hs]
      · next hs =>
        split at hm
        · next hl =>
          cases hm
          simp [hl]
        · next hl =>
          cases hm
          simp [hs,hl]
    refine ⟨True.intro,fun effective exc => ?_,fun hn => ?_,fun hn => ?_,?_⟩
    · refine ⟨.playing,?_,.inl ⟨rfl,hnever _⟩⟩
      cases effective <;> simp [Phase.next,Stage.next,started,findsReady,concludes,fails]
    · rw [← hflag]
      simp [Phase.next,Stage.next,started,findsReady,concludes,hn]
    · subst hn
      exact ⟨.playing,rfl,.inl ⟨rfl,hnever _⟩⟩
    · have hnext : (Phase.socket instance' player (.starting
          (!sess.started && !(sess.connectedPlayers.length<2 : Bool)) c.shouldStart) marked).next
          (.store (.exec token n .start sess')) true (.ok true)=
          .socket instance' player (if c'.shouldStart then .reloading else .playing) marked := by
        simp [Phase.next,Stage.next,started,findsReady,concludes,fails,← hflag]
      rw [hnext]
      cases hs : c'.shouldStart with
      | false =>
        apply follows_reload True.intro
        · refine fun sess => ⟨.playing,rfl,.inl ⟨rfl,?_⟩⟩
          rintro c sess ⟨⟩ htrue
          rw [hs] at htrue
          cases htrue
        · exact ⟨.playing,rfl,.inl ⟨rfl,hnever _⟩⟩
        · exact fun _ _ => ⟨.playing,rfl,.inl ⟨rfl,hnever _⟩⟩
      | true =>
        apply follows_reload True.intro
        · intro sess
          cases hr : sess.gameState.currentRound with
          | none =>
            refine ⟨.playing,?_,.inl ⟨rfl,?_⟩⟩
            · simp [Phase.next,Stage.next,reloaded,hr]
            · rintro c sess ⟨⟩ _
              exact hr
          | some cr =>
            refine ⟨.prompting [sess.player1Id,sess.player2Id],?_,.inr ⟨c',sess,cr,rfl,rfl,hs,hr⟩⟩
            simp [Phase.next,Stage.next,reloaded,hr]
        · exact ⟨.playing,rfl,.inl ⟨rfl,hnever _⟩⟩
        · exact fun _ _ => ⟨.playing,rfl,.inl ⟨rfl,hnever _⟩⟩

/-- The prompts of start. -/
theorem follows_prompts (instance' : Instance) (player : String) (marked : Bool) {sess : PvPSession}
    {cr : RoundState} (hr : sess.gameState.currentRound=some cr) :
    watcher.Follows (fun phase r => Started instance' player phase ∧ ∃ u,r=.ok u)
      (.socket instance' player (.prompting [sess.player1Id,sess.player2Id]) marked)
      (sendWaitingForAction instance' sess) := by
  have hsends : ∀ (untold : List String) (other : String) (message : ServerMessage),
      untold.head?=some other → (Phase.socket instance' player (.prompting untold) marked).Allows
        (.act (.send instance' other message)) := fun _ _ _ hhead => ⟨rfl,fun _ => hhead⟩
  have hcancels : (Phase.socket instance' player (.prompting []) marked).Allows
      (.act (.cancelTurnTimeout instance')) := ⟨rfl,.inl True.intro⟩
  have harms : (Phase.socket instance' player (.prompting []) marked).Allows
      (.act (.setTurnTimeout instance')) := ⟨rfl,True.intro⟩
  unfold sendWaitingForAction
  rw [hr]
  apply follows_act (hsends _ _ _ rfl)
  intro _
  apply follows_act (hsends _ _ _ rfl)
  intro _
  apply follows_act hcancels
  intro _
  refine ⟨harms,fun effective r ho => ?_⟩
  obtain ⟨-,u,rfl⟩ := outcome_act ho
  exact ⟨⟨.prompting [],marked,rfl,.inl rfl⟩,u,rfl⟩

/-- start. -/
theorem follows_start (instance' : Instance) (player : String) (marked : Bool) :
    watcher.Follows (fun phase r => Started instance' player phase ∧ ∃ u,r=.ok u)
      (.socket instance' player (.starting false false) marked) (start instance') := by
  apply follows_returned (follows_markStarted instance' player marked)
  rintro phase r ⟨stage,rfl,⟨rfl,hflag⟩ | ⟨c,sess,cr,rfl,rfl,hflag,hr⟩⟩
  · have hdone : watcher.Follows
        (fun phase (r : Except Failure Unit) => Started instance' player phase ∧ ∃ u,r=.ok u)
        (.socket instance' player .playing marked) (pure ()) :=
      ⟨⟨.playing,marked,rfl,.inr rfl⟩,(),rfl⟩
    cases r with
    | error exc => exact hdone
    | ok result =>
      dsimp only
      split
      · exact hdone
      · next hstart =>
        have hnone := hflag result.1 result.2 rfl (by simpa using hstart)
        unfold sendWaitingForAction
        rw [hnone]
        exact hdone
  · dsimp only
    rw [if_neg (by simp [hflag])]
    exact follows_prompts instance' player marked hr

/-- handleDisconnect's transaction. -/
theorem follows_markDisconnected (instance' : Instance) (player : String) (marked : Bool) :
    watcher.Follows (fun phase r => (∃ marked written,
        phase=.socket instance' player (.gone written) marked ∧ ∃ exc,r=.error exc) ∨
        phase=.socket instance' player .pausing false ∧ ∃ result,r=.ok result)
      (.socket instance' player .leaving marked)
      (watchAndUpdate (fun _ => .disconnect player) (markDisconnected player)
        defaultMaxWatchRetries "") := by
  refine follows_watchAndUpdate (fun _ => .socket instance' player .leaving marked)
    (fun _ _ => .socket instance' player .leaving marked) ?_ ?_ ?_ ?_
    (show defaultMaxWatchRetries≠0 by decide) ""
  · intro c
    exact ⟨True.intro,fun _ => rfl,fun _ exc => .inl ⟨marked,false,rfl,exc,rfl⟩⟩
  · intro c
    exact ⟨True.intro,fun sess => rfl,.inl ⟨marked,false,rfl,_,rfl⟩,
      fun _ exc => .inl ⟨marked,false,rfl,exc,rfl⟩⟩
  · intro c sess e hm
    cases hm
  · intro c sess c' sess' hm token n
    refine ⟨rfl,fun effective exc => ?_,fun hn => ?_,fun hn => ?_,?_⟩
    · cases effective with
      | false => exact .inl ⟨marked,false,rfl,exc,rfl⟩
      | true => exact .inl ⟨false,true,rfl,exc,rfl⟩
    · simp [Phase.next,Stage.next,disconnected,concludes,hn]
    · subst hn
      exact .inl ⟨marked,false,rfl,_,rfl⟩
    · apply follows_reload True.intro
      · exact fun sess => .inr ⟨rfl,_,rfl⟩
      · exact .inl ⟨false,true,rfl,_,rfl⟩
      · exact fun _ exc => .inl ⟨false,true,rfl,exc,rfl⟩

/-- handleDisconnect. -/
theorem follows_handleDisconnect (instance' : Instance) (player : String) (marked : Bool) :
    watcher.Follows (fun phase _ => phase.Ends) (.socket instance' player .leaving marked)
      (handleDisconnect instance' player) := by
  apply follows_returned (follows_markDisconnected instance' player marked)
  rintro phase r (⟨marked,written,rfl,exc,rfl⟩ | ⟨rfl,result,rfl⟩)
  · exact True.intro
  · have hcancels : (Phase.socket instance' player .pausing false).Allows
        (.act (.cancelTurnTimeout instance')) := ⟨rfl,.inr ⟨player,false,rfl⟩⟩
    have hsends : (Phase.socket instance' player .parting false).Allows
        (.act (.send instance' result.1 (.opponentDisconnected disconnectTimeoutSec))) :=
      ⟨rfl,fun h => nomatch h⟩
    have hstarts : (Phase.socket instance' player .parting false).Allows
        (.act (.startDisconnect instance' player result.1)) := ⟨false,rfl⟩
    apply follows_act hcancels
    intro _
    apply follows_act hsends
    intro _
    exact ⟨hstarts,fun _ _ _ => True.intro⟩

/-- What the handler does with a message. -/
theorem follows_handleMessage (instance' : Instance) (player : String) (marked : Bool)
    (frame : Frame) :
    watcher.Follows (fun phase r => phase=.socket instance' player .playing marked ∧ ∃ u,r=.ok u)
      (.socket instance' player .playing marked) (handleMessage instance' player frame) := by
  have hwrite : ∀ message,watcher.Follows
      (fun phase r => phase=.socket instance' player .playing marked ∧ ∃ u,r=.ok u)
      (.socket instance' player .playing marked) (act (.writeJSON message)) := by
    intro message
    exact follows_still (Prog.All.perform ⟨True.intro,fun _ _ _ => rfl⟩) (returns_act _)
      fun u => ⟨rfl,u,rfl⟩
  cases frame with
  | malformed | other => exact ⟨rfl,(),rfl⟩
  | ping => exact hwrite _
  | submitAction action =>
    change watcher.Follows _ _ (if action="" then _ else _)
    split
    · exact hwrite _
    · have hplays : (Phase.socket instance' player .playing marked).Plays := True.intro
      obtain ⟨hconducts,hsubmits,hresolves⟩ := conducts_of_plays hplays
      exact follows_still (hconducts.submitAction player action (hsubmits player action) hresolves)
        (returns_submitAction player action) fun u => ⟨rfl,u,rfl⟩

/-- The read loop. -/
theorem follows_readLoop (instance' : Instance) (player : String) (frames : List Frame)
    (h : Started instance' player phase) :
    watcher.Follows (fun phase _ => phase.Ends) phase (readLoop instance' player frames) := by
  induction frames generalizing phase with
  | nil =>
    obtain ⟨stage,marked,rfl,hstage⟩ := h
    have hreads : (Phase.socket instance' player stage marked).Allows (.act (.readMessage none)) :=
      ⟨instance',player,stage,marked,rfl,hstage⟩
    apply follows_act hreads
    intro _
    have hnext : ∀ res,(Phase.socket instance' player stage marked).next
        (.act (.readMessage none)) true (.ok res)=.socket instance' player .leaving marked := by
      intro res
      obtain rfl | rfl := hstage <;> rfl
    rw [hnext]
    exact follows_handleDisconnect instance' player marked
  | cons frame frames ih =>
    obtain ⟨stage,marked,rfl,hstage⟩ := h
    have hreads : (Phase.socket instance' player stage marked).Allows
        (.act (.readMessage (some frame))) := ⟨instance',player,stage,marked,rfl,hstage⟩
    apply follows_act hreads
    intro _
    have hnext : ∀ res,(Phase.socket instance' player stage marked).next
        (.act (.readMessage (some frame))) true (.ok res)=
        .socket instance' player .playing marked := by
      intro res
      obtain rfl | rfl := hstage <;> rfl
    rw [hnext]
    apply (follows_handleMessage instance' player marked frame).bind
    · rintro phase u ⟨rfl,-⟩
      exact ih ⟨.playing,marked,rfl,.inr rfl⟩
    · rintro phase exc ⟨-,u,he⟩
      cases he

/-- The handler of a game socket. -/
theorem follows_gameWebsocket (instance' : Instance) (player : String) (frames : List Frame) :
    watcher.Follows (fun phase _ => phase.Ends) (.socket instance' player .arriving false)
      (gameWebsocket instance' player frames) := by
  have hload : watcher.Follows
      (fun phase (_ : Except Failure PvPSession) => phase=.socket instance' player .arriving false)
      (.socket instance' player .arriving false) loadSession := by
    apply Watcher.Follows.idle
    refine ⟨⟨True.intro,fun _ _ _ => rfl⟩,fun r => ?_⟩
    rcases r with _ | _ | _ <;> exact True.intro
  apply follows_returned hload
  rintro phase r rfl
  cases r with
  | error exc => exact True.intro
  | ok sess =>
    dsimp only
    split
    · exact True.intro
    · have hupgrades : (Phase.socket instance' player .arriving false).Allows
          (.act (.upgrade instance' player)) := ⟨false,rfl⟩
      apply follows_act hupgrades
      intro upgraded
      cases upgraded with
      | false => exact True.intro
      | true =>
        apply (follows_handleConnect instance' player).bind
        · rintro phase u ⟨⟨marked,rfl⟩,-⟩
          apply (follows_start instance' player marked).bind
          · rintro phase u ⟨hstarted,-⟩
            exact follows_readLoop instance' player frames hstarted
          · rintro phase exc ⟨-,u,he⟩
            cases he
        · rintro phase exc ⟨-,u,he⟩
          cases he

end Sockets

section Timers

/-- A turn timer. -/
theorem follows_turnTimeoutLoop (instance' : Instance) :
    watcher.Follows (fun phase _ => phase.Ends) (.turnTimer instance' .waiting)
      (turnTimeoutLoop instance') := by
  have hselects : (Phase.turnTimer instance' .waiting).Allows
      (.act (.selectTimer turnTimeLimitTenths)) := .inl ⟨instance',rfl⟩
  apply follows_act hselects
  intro passed
  have hplays : (Phase.turnTimer instance' .fired).Plays := True.intro
  obtain ⟨hconducts,hsubmits,hresolves⟩ := conducts_of_plays hplays
  have hdefault : ∀ needs player,(submitDefault instance' needs player).All
      (watcher.Idle (.turnTimer instance' .fired)) := by
    intro needs player
    cases needs with
    | false => exact all_done _
    | true => exact hconducts.submitAction player _ (hsubmits player _) hresolves
  cases passed with
  | false => exact True.intro
  | true =>
    refine (Watcher.Follows.idle ?_).mono fun phase _ he => ?_
    · apply (all_returned hconducts.loadSession).bind
      intro result
      cases result with
      | error exc => exact all_done _
      | ok sess =>
        dsimp only
        split
        · exact all_done _
        · exact (hdefault _ _).bind fun _ => hdefault _ _
    · rw [he]
      exact True.intro

/-- What a forfeit timer does once it has checked the session. -/
theorem forfeits (instance' : Instance) (disconnected opponent : String) (sess : PvPSession) :
    (writeForfeit instance' disconnected opponent sess).All
      (watcher.Idle (.forfeitTimer instance' disconnected opponent .forfeiting)) := by
  have hidle : ∀ o,(Phase.forfeitTimer instance' disconnected opponent .forfeiting).Allows o →
      watcher.Idle (.forfeitTimer instance' disconnected opponent .forfeiting) o :=
    fun o h => ⟨h,fun _ _ _ => rfl⟩
  have hload : (GoSession.loadSession).All
      (watcher.Idle (.forfeitTimer instance' disconnected opponent .forfeiting)) := by
    apply (Prog.All.perform (hidle (.store .load) True.intro)).bind
    intro value
    cases value with
    | none => exact all_done _
    | some sess => exact all_done _
  have hwrite : ∀ attempts,(watchAndUpdate (fun _ => .forfeit disconnected) markAbandoned attempts
      ()).All (watcher.Idle (.forfeitTimer instance' disconnected opponent .forfeiting)) := by
    intro attempts
    induction attempts with
    | zero => exact all_done _
    | succ attempts ih =>
      apply (Prog.All.perform (hidle (.store .watch) True.intro)).bind
      intro token
      apply (Prog.All.perform (hidle (.store .get) True.intro)).bind
      intro value
      cases value with
      | none => exact all_done _
      | some sess =>
        apply (Prog.All.perform (hidle (.store (.exec _ _ (.forfeit disconnected) _)) rfl)).bind
        intro committed
        cases committed with
        | true => exact hload.bind fun _ => all_done _
        | false => exact ih
  apply (all_returned (hwrite _)).bind
  intro _
  exact Prog.All.perform (hidle (.act (.send _ _ _)) ⟨rfl,fun h => nomatch h⟩)

/-- A forfeit timer. -/
theorem follows_forfeitAfterTimeout (instance' : Instance) (disconnected opponent : String) :
    watcher.Follows (fun phase _ => phase.Ends)
      (.forfeitTimer instance' disconnected opponent .waiting)
      (forfeitAfterTimeout instance' disconnected opponent) := by
  have hselects : (Phase.forfeitTimer instance' disconnected opponent .waiting).Allows
      (.act (.selectTimer disconnectTimeoutTenths)) := .inr ⟨instance',disconnected,opponent,rfl⟩
  apply follows_act hselects
  intro passed
  cases passed with
  | false => exact True.intro
  | true =>
    have hload : watcher.Follows (fun phase (r : Except Failure PvPSession) =>
        (phase=.forfeitTimer instance' disconnected opponent .over ∧
          ∀ sess,r=.ok sess → sess.gameState.status≠matchInProgress ∨
            sess.hasConnected disconnected=true) ∨
        phase=.forfeitTimer instance' disconnected opponent .forfeiting ∧
          ∃ sess,r=.ok sess ∧ sess.gameState.status=matchInProgress ∧
            sess.hasConnected disconnected=false)
        (.forfeitTimer instance' disconnected opponent .checking) loadSession := by
      refine ⟨True.intro,fun effective r _ => ?_⟩
      rcases r with exc | _ | sess
      · exact .inl ⟨rfl,fun _ h => nomatch h⟩
      · exact .inl ⟨rfl,fun _ h => nomatch h⟩
      · by_cases hs : sess.gameState.status=matchInProgress
        · cases hc : sess.hasConnected disconnected with
          | true =>
            refine .inl ⟨?_,?_⟩
            · simp [Phase.next,ForfeitStage.next,hc]
            · rintro _ ⟨⟩
              exact .inr hc
          | false =>
            refine .inr ⟨?_,sess,rfl,hs,hc⟩
            simp [Phase.next,ForfeitStage.next,hs,hc]
        · refine .inl ⟨?_,?_⟩
          · simp [Phase.next,ForfeitStage.next,hs]
          · rintro _ ⟨⟩
            exact .inl hs
    apply follows_returned hload
    rintro phase r (⟨rfl,hover⟩ | ⟨rfl,sess,rfl,hs,hc⟩)
    · cases r with
      | error exc => exact True.intro
      | ok sess =>
        dsimp only
        split
        · exact True.intro
        · next hs =>
          rw [if_pos ((hover sess rfl).resolve_left (not_not.mpr (not_not.mp hs)))]
          exact True.intro
    · dsimp only
      rw [if_neg (not_not.mpr hs),if_neg (by simp [hc])]
      refine (Watcher.Follows.idle (forfeits instance' disconnected opponent sess)).mono ?_
      intro phase r he
      rw [he]
      exact True.intro

end Timers

/-- Every goroutine follows its phases. -/
theorem body_follows (entry : Entry) :
    watcher.Follows (fun phase _ => phase.Ends) (watcher.start entry) (body entry) := by
  cases entry with
  | gameWebsocket instance' player frames => exact follows_gameWebsocket instance' player frames
  | turnTimeoutLoop instance' => exact follows_turnTimeoutLoop instance'
  | forfeitAfterTimeout instance' disconnected opponent =>
    exact follows_forfeitAfterTimeout instance' disconnected opponent

end KiClash.GoPhases
