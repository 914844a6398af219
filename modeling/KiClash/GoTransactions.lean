import KiClash.GoChronicle
import KiClash.GoPhases
import KiClash.TransactionReads
import Mathlib.Data.List.Nodup

/-!
# What the Go transactions write

Every transaction of a goroutine writes what the mutator of its call makes of
the session that it replaces. What this means for the connected players and for
the started flag is read off the mutators here.
-/

namespace KiClash.GoTransactions

open GoTypes GoEngine AsyncTasks WatchedKey TaskPhases TransactionReads
open GameStore (Pairing)
open GoSessionContracts (p1Of p2Of IsPlayer Belongs)
open GoStore GoSession GoOperations GoPhases

/-- What the mutator of a call can make of a session. -/
inductive Makes : Call → PvPSession → PvPSession → Prop
  | connect {player : String} {c c' : ConnectCaptured} {sess sess' : PvPSession}
      (h : markConnected player c sess=.ok (c',sess')) : Makes (.connect player) sess sess'
  | start {c c' : StartCaptured} {sess sess' : PvPSession} (h : markStarted c sess=.ok (c',sess')) :
      Makes .start sess sess'
  | submit {player : String} {action : Action} {stale c' : SubmitCaptured} {sess sess' : PvPSession}
      (h : storeAction player action stale sess=.ok (c',sess')) :
      Makes (.submit player action stale) sess sess'
  | disconnect {player c c' : String} {sess sess' : PvPSession}
      (h : markDisconnected player c sess=.ok (c',sess')) : Makes (.disconnect player) sess sess'
  | resolve {p1 p2 : Action} {c c' : ResolveCaptured} {sess sess' : PvPSession}
      (h : applyTurn p1 p2 c sess=.ok (c',sess')) : Makes (.resolve p1 p2) sess sess'
  | forfeit {disconnected : String} {c c' : Unit} {sess sess' : PvPSession}
      (h : markAbandoned c sess=.ok (c',sess')) : Makes (.forfeit disconnected) sess sess'

section Programs

variable {α : Type} {instance' : Instance}

/-- The program writes what the mutators make of what it has read. -/
abbrev Writes (p : Goroutine α) : Prop := Reads runtime Makes p

/-- An error that is handed to the caller. -/
theorem writes_returned {p : Goroutine α} (h : Writes p) : Writes (returned p) :=
  h.andThen fun _ => .done _

theorem writes_loadSession : Writes loadSession := by
  apply Reads.plain
  apply (Prog.All.perform True.intro).bind
  intro value
  cases value with
  | none => exact all_done _
  | some sess => exact all_done _

/-- A transaction. -/
theorem writes_watchAndUpdate {L : Type} {call : L → Call} {mutator : Mutator L}
    (hmakes : ∀ c sess c' sess',mutator c sess=.ok (c',sess') → Makes (call c) sess sess')
    (retries : ℕ) (c : L) : Writes (watchAndUpdate call mutator retries c) := by
  induction retries generalizing c with
  | zero => exact .done _
  | succ retries ih =>
    apply Reads.attempt
    intro token value
    cases value with
    | none => exact .done _
    | some sess =>
      dsimp only
      cases hm : mutator c sess with
      | error e => exact True.intro
      | ok result =>
        apply follows_exec (hmakes c sess result.1 result.2 hm)
        intro committed
        cases committed with
        | true => exact writes_loadSession.bind fun _ => .done _
        | false => exact ih result.1

/-- Talking to the players and waiting write nothing. -/
theorem plain_conducts (instance' : Instance) :
    Conducts instance' (Plain : Op language → Prop) where
  watch := True.intro
  get := True.intro
  load := True.intro
  send _ _ := True.intro
  sleep _ := True.intro
  cancelTurnTimeout := True.intro
  setTurnTimeout := True.intro

theorem writes_act (o : LocalOp) : Writes (act o) := .plain (Prog.All.perform True.intro)

theorem writes_sendWaitingForAction (sess : PvPSession) :
    Writes (sendWaitingForAction instance' sess) :=
  .plain ((plain_conducts instance').sendWaitingForAction sess)

theorem writes_resolveTurn (p1 p2 : Action) : Writes (resolveTurn instance' p1 p2) := by
  refine (writes_returned (writes_watchAndUpdate (fun _ _ _ _ => ?_) _ _)).bind fun result => ?_
  · exact .resolve
  cases result with
  | error e => exact .done _
  | ok result => exact .plain ((plain_conducts instance').concludeResolve result.1 result.2)

theorem writes_submitAction (player : String) (action : Action) :
    Writes (submitAction instance' player action) := by
  refine (writes_returned (writes_watchAndUpdate (fun _ _ _ _ => ?_) _ _)).bind fun result => ?_
  · exact .submit
  cases result with
  | error e => cases e <;> exact writes_act _
  | ok result =>
    change Writes (concludeSubmit instance' player action result.1)
    unfold concludeSubmit
    split
    · exact writes_act _
    · apply (writes_act _).bind
      intro _
      split
      · exact writes_resolveTurn _ _
      · exact .done _

theorem writes_handleConnect (player : String) : Writes (handleConnect instance' player) := by
  refine (writes_returned (writes_watchAndUpdate (fun _ _ _ _ => ?_) _ _)).bind fun result => ?_
  · exact .connect
  cases result with
  | error e =>
    cases e with
    | gameNotFound => exact writes_act _
    | tooManyWatchRetries | mutator | store => exact .done _
  | ok result =>
    dsimp only
    split
    · apply (writes_act _).bind
      intro _
      apply (writes_act _).bind
      intro _
      split
      · exact writes_sendWaitingForAction _
      · exact .done _
    · exact .done _

theorem writes_start : Writes (start instance') := by
  refine (writes_returned (writes_watchAndUpdate (fun _ _ _ _ => ?_) _ _)).bind fun result => ?_
  · exact .start
  cases result with
  | error e => exact .done _
  | ok result =>
    dsimp only
    split
    · exact .done _
    · exact writes_sendWaitingForAction _

theorem writes_handleDisconnect (player : String) : Writes (handleDisconnect instance' player) := by
  refine (writes_returned (writes_watchAndUpdate (fun _ _ _ _ => ?_) _ _)).bind fun result => ?_
  · exact .disconnect
  cases result with
  | error e => exact .done _
  | ok result => exact (writes_act _).bind fun _ => (writes_act _).bind fun _ => writes_act _

theorem writes_readLoop (player : String) (frames : List Frame) :
    Writes (readLoop instance' player frames) := by
  induction frames with
  | nil => exact (writes_act _).bind fun _ => writes_handleDisconnect player
  | cons frame frames ih =>
    apply (writes_act _).bind
    intro _
    refine Reads.bind ?_ fun _ => ih
    cases frame with
    | malformed | other => exact .done _
    | ping => exact writes_act _
    | submitAction action =>
      change Writes (if action="" then _ else _)
      split
      · exact writes_act _
      · exact writes_submitAction player action

/-- Every goroutine writes what the mutators make of what it has read. -/
theorem writes_body (entry : Entry) : Writes (body entry) := by
  cases entry with
  | gameWebsocket instance' player frames =>
    apply (writes_returned writes_loadSession).bind
    intro result
    cases result with
    | error e => exact .done _
    | ok sess =>
      dsimp only
      split
      · exact .done _
      · apply (writes_act _).bind
        intro upgraded
        cases upgraded with
        | false => exact .done _
        | true =>
          apply (writes_handleConnect player).bind
          intro _
          apply writes_start.bind
          intro _
          exact writes_readLoop player frames
  | turnTimeoutLoop instance' =>
    have hdefault : ∀ needs player,Writes (submitDefault instance' needs player) := by
      intro needs player
      cases needs with
      | false => exact .done _
      | true => exact writes_submitAction _ _
    apply (writes_act _).bind
    intro passed
    cases passed with
    | false => exact .done _
    | true =>
      apply (writes_returned writes_loadSession).bind
      intro result
      cases result with
      | error e => exact .done _
      | ok sess =>
        dsimp only
        split
        · exact .done _
        · exact (hdefault _ _).bind fun _ => hdefault _ _
  | forfeitAfterTimeout instance' disconnected opponent =>
    apply (writes_act _).bind
    intro passed
    cases passed with
    | false => exact .done _
    | true =>
      apply (writes_returned writes_loadSession).bind
      intro result
      cases result with
      | error e => exact .done _
      | ok sess =>
        dsimp only
        split
        · exact .done _
        · split
          · exact .done _
          · refine (writes_returned (writes_watchAndUpdate (fun _ _ _ _ => ?_) _ _)).bind fun _ => ?_
            · exact .forfeit
            · exact writes_act _

end Programs

section Effects

variable {call : Call} {sess sess' : PvPSession}

/-- Whether a player is present after a call, given whether he was before. -/
def presentAfter (call : Call) (player : String) (present : Bool) : Bool :=
  match call with
  | .connect other => present || other=player
  | .disconnect other => present && other≠player
  | _ => present

/-- A player that connects becomes present, unless he is present already. -/
theorem hasConnected_markConnected (sess : PvPSession) (other player : String) :
    (sess.markConnected other).hasConnected player=(sess.hasConnected player || other=player) := by
  unfold PvPSession.markConnected
  split
  · next h =>
    by_cases he : other=player
    · subst he
      simp [h]
    · simp [he]
  · simp [PvPSession.hasConnected,Slice.append,Slice.elements]

/-- The mutator of handleConnect. -/
theorem markConnected_cases {player : String} {c c' : ConnectCaptured}
    (h : markConnected player c sess=.ok (c',sess')) : sess.isPlayer player=true ∧
      sess'=sess.markConnected player ∧
      c'.isReconnect=(sess.started && !sess.hasConnected player) := by
  unfold markConnected at h
  cases hp : sess.isPlayer player with
  | false => simp [hp] at h
  | true =>
    simp only [hp,Bool.not_true,Bool.false_eq_true,if_false,Except.ok.injEq,Prod.mk.injEq] at h
    obtain ⟨rfl,rfl⟩ := h
    refine ⟨rfl,?_,rfl⟩
    cases hc : sess.hasConnected player with
    | true => simp [PvPSession.markConnected,hc]
    | false => simp

/-- The mutator of start. -/
theorem markStarted_cases {c c' : StartCaptured} (h : markStarted c sess=.ok (c',sess')) :
    (sess'=sess ∧ c'.shouldStart=c.shouldStart ∧
      (sess.started=true ∨ sess.connectedPlayers.length<2)) ∨
    sess.started=false ∧ ¬sess.connectedPlayers.length<2 ∧ sess'={sess with started := true} ∧
      c'.shouldStart=true := by
  unfold markStarted at h
  split at h
  · next hs =>
    cases h
    exact .inl ⟨rfl,rfl,.inl hs⟩
  · next hs =>
    split at h
    · next hl =>
      cases h
      exact .inl ⟨rfl,rfl,.inr hl⟩
    · next hl =>
      cases h
      exact .inr ⟨by simpa using hs,hl,rfl,rfl⟩

/-- The mutator of resolveTurn. -/
theorem applyTurn_cases {p1 p2 : Action} {c c' : ResolveCaptured}
    (h : GoSession.applyTurn p1 p2 c sess=.ok (c',sess')) :
    ∃ gameState,sess'={sess with gameState := gameState} := by
  unfold GoSession.applyTurn at h
  split at h
  · cases h
  · cases h
    exact ⟨_,rfl⟩

/-- A submission changes neither who is present nor whether the match has started. -/
theorem stores_present {player : String} {action : Action} {stale captured : SubmitCaptured}
    (h : GoPendingPairs.Stores player action stale sess captured sess') :
    sess'.connectedPlayers=sess.connectedPlayers ∧ sess'.started=sess.started := by
  have hslot : (GoPendingPairs.storeInSlot player action sess).connectedPlayers=
      sess.connectedPlayers ∧ (GoPendingPairs.storeInSlot player action sess).started=
      sess.started := by
    unfold GoPendingPairs.storeInSlot
    split <;> exact ⟨rfl,rfl⟩
  cases h with
  | rejected message hmessage h => exact ⟨rfl,rfl⟩
  | stored cr h hpair => exact hslot
  | completed cr p1 p2 h h₁ h₂ hpair => exact hslot

/-- The players that remain when one is filtered out. -/
theorem hasConnected_filtered (sess : PvPSession) (other player : String) :
    PvPSession.hasConnected {sess with
      connectedPlayers := sess.connectedPlayers.map fun players =>
        players.filter fun c => c≠other} player=(sess.hasConnected player && other≠player) := by
  unfold PvPSession.hasConnected
  cases sess.connectedPlayers with
  | none => rfl
  | some players =>
    simp only [Slice.elements,Option.map_some,Option.getD_some,List.any_filter]
    by_cases he : other=player
    · subst he
      simp
    · have hne : ∀ c : String,(decide (c≠other) && decide (c=player))=decide (c=player) := by
        intro c
        by_cases hc : c=player
        · subst hc
          simp [Ne.symm he]
        · simp [hc]
      simp only [hne,he,ne_eq,not_false_eq_true,decide_true,Bool.and_true]

/-- Only connecting and disconnecting change who is present. -/
theorem Makes.hasConnected (h : Makes call sess sess') (player : String) :
    sess'.hasConnected player=presentAfter call player (sess.hasConnected player) := by
  cases h with
  | connect h =>
    obtain ⟨-,rfl,-⟩ := markConnected_cases h
    exact hasConnected_markConnected sess _ player
  | start h =>
    obtain ⟨rfl,-⟩ | ⟨-,-,rfl,-⟩ := markStarted_cases h <;> rfl
  | submit h =>
    unfold PvPSession.hasConnected
    rw [(stores_present (GoPendingPairs.storeAction_cases h)).1]
    rfl
  | disconnect h =>
    cases h
    exact hasConnected_filtered sess _ player
  | resolve h =>
    obtain ⟨gameState,rfl⟩ := applyTurn_cases h
    rfl
  | forfeit h =>
    cases h
    rfl

/-- Only start starts the match. -/
theorem Makes.started (h : Makes call sess sess') :
    sess'.started=sess.started ∨ call=.start ∧ sess.started=false ∧
      ¬sess.connectedPlayers.length<2 ∧ sess'={sess with started := true} := by
  cases h with
  | connect h =>
    obtain ⟨-,rfl,-⟩ := markConnected_cases h
    unfold PvPSession.markConnected
    split <;> exact .inl rfl
  | start h =>
    obtain ⟨rfl,-⟩ | ⟨hs,hl,he,-⟩ := markStarted_cases h
    · exact .inl rfl
    · exact .inr ⟨rfl,hs,hl,he⟩
  | submit h => exact .inl (stores_present (GoPendingPairs.storeAction_cases h)).2
  | disconnect h =>
    cases h
    exact .inl rfl
  | resolve h =>
    obtain ⟨gameState,rfl⟩ := applyTurn_cases h
    exact .inl rfl
  | forfeit h =>
    cases h
    exact .inl rfl

/-- No call resumes a match that is over. -/
theorem Makes.inProgress (h : Makes call sess sess')
    (hs : sess'.gameState.status=matchInProgress) : sess.gameState.status=matchInProgress := by
  cases h with
  | connect h =>
    obtain ⟨-,rfl,-⟩ := markConnected_cases h
    unfold PvPSession.markConnected at hs
    split at hs <;> exact hs
  | start h =>
    obtain ⟨rfl,-⟩ | ⟨-,-,rfl,-⟩ := markStarted_cases h <;> exact hs
  | submit h =>
    rw [← (GoPendingPairs.storeAction_cases h).unchanged.1]
    exact hs
  | disconnect h =>
    cases h
    exact hs
  | @resolve p1 p2 c c' sess sess' h =>
    obtain ⟨error,he,-⟩ | ⟨cr,hprogress,-⟩ := GoPendingPairs.submitTurn_cases sess.gameState p1 p2
    · simp [GoSession.applyTurn,he] at h
    · exact hprogress
  | forfeit h =>
    cases h
    exact absurd hs (show matchAbandoned≠matchInProgress by decide)

end Effects

section Memory

variable {choice : Choice} {task fresh : GoroutineId} {world world' : World}
  {started : Option Entry}

/-- An action does what it does to the memory; nothing interrupts it. -/
theorem perform_act {o : LocalOp} {r : Except Failure (LocalOp.Res o)}
    (hp : WatchedKey.perform (R := runtime) choice task fresh (.act o) world=
      some (world',r,started)) : ∃ pick,
    world'.memory=(o.effect pick task fresh world.memory).1 ∧
      r=(o.effect pick task fresh world.memory).2.2.1 ∧
      started=(o.effect pick task fresh world.memory).2.2.2 := by
  obtain ⟨pick,-,he⟩ | ⟨exc,hinterrupt,-⟩ := perform_cases hp
  · cases he
    exact ⟨pick,rfl,rfl,rfl⟩
  · cases hinterrupt

/-- A command leaves the memory alone and starts nothing. -/
theorem perform_redis {o : StoreOp PvPSession Call} {r : Except Failure o.Res}
    (hp : WatchedKey.perform (R := runtime) choice task fresh (.store o) world=
      some (world',r,started)) : world'.memory=world.memory ∧ started=none := by
  have hmemory : (o.effect task world).1.memory=world.memory := o.effect_memory task world
  obtain ⟨pick,-,he⟩ | ⟨exc,-,rfl,rfl,rfl | ⟨pick,-,rfl⟩⟩ := perform_cases hp
  · cases he
    exact ⟨hmemory,rfl⟩
  · exact ⟨rfl,rfl⟩
  · exact ⟨hmemory,rfl⟩

/-- Nothing revokes a cancellation. -/
theorem cancelled_grows {o : Op language} {r : Except Failure o.Res}
    (hp : WatchedKey.perform (R := runtime) choice task fresh o world=some (world',r,started))
    {timer : GoroutineId} (h : timer∈world.memory.cancelled) : timer∈world'.memory.cancelled := by
  cases o with
  | store o =>
    rw [(perform_redis hp).1]
    exact h
  | act o =>
    obtain ⟨pick,hmemory,-⟩ := perform_act hp
    rw [hmemory]
    cases o with
    | cancelTurnTimeout instance' =>
      simp only [LocalOp.effect,Memory.cancelTurnTimeout]
      split
      · exact h
      · exact List.mem_cons_of_mem _ h
    | cancelDisconnectTimer instance' player => exact List.mem_append_right _ h
    | startDisconnect instance' player opponent => exact List.mem_append_right _ h
    | send | writeJSON | upgrade | readMessage | selectTimer | sleep | setTurnTimeout => exact h

end Memory

section Moments

/-- A moment of a run of the instances. -/
abbrev Moment := Seen.Moment watcher

/-- The moments of a run. -/
abbrev momentsOf (pairing : Pairing) (moves : List instances.Move) : List Moment :=
  (Seen.initial watcher (initial pairing)).moments moves

/-- The move of the moment performs such an operation. -/
def performs (test : Performed watcher → Bool) (moment : Moment) : Bool :=
  (moment.1.performed moment.2).any test

/-- A disconnect transaction commits. -/
def removes (performed : Performed watcher) : Bool :=
  match performed.op,performed.effective with
  | .store (.exec _ _ (.disconnect _) _),true => true
  | _,_ => false

/-- The player is connected. -/
def connectedIn (player : String) (config : instances.Config) : Bool :=
  config.world.value.any fun sess => sess.hasConnected player

variable {test : Performed watcher → Bool} {seen : Seen watcher}

/-- A goroutine that moves performs its next operation. -/
theorem performs_run {task : GoroutineId} {choice : Choice} {phase : Phase} {o : Op language}
    {rest : Except Failure o.Res → Goroutine Unit} {world : World} {r : Except Failure o.Res}
    {started : Option Entry} (htask : seen.config.tasks[task]?=some (.op o rest))
    (hphase : seen.phases[task]?=some phase)
    (hp : WatchedKey.perform (R := runtime) choice task seen.config.tasks.length o
      seen.config.world=some (world,r,started)) :
    performs test (seen,.run task choice)=
      test ⟨task,phase,o,took choice o seen.config.world,r⟩ := by
  rw [performs,Seen.performed_eq htask hphase hp,Option.any_some]

end Moments

section Steps

variable {pairing : Pairing} {config : instances.Config}

/-- There always is a session, and it belongs to the two players. -/
theorem stored (hreach : (initial pairing).Reaches config) :
    ∃ sess,config.world.value=some sess ∧ Belongs pairing sess :=
  (GoChronicle.chronicle hreach).stored

/-- What an operation does to the session: a transaction that takes effect writes
what its mutator makes of it, and all else leaves it alone. -/
theorem key_cases (hreach : (initial pairing).Reaches config) {task : GoroutineId}
    {choice : Choice} {phase : Phase} {o : Op language}
    {rest : Except Failure o.Res → Goroutine Unit} {world : World} {r : Except Failure o.Res}
    {started : Option Entry} (htask : config.tasks[task]?=some (.op o rest))
    (hallows : phase.Allows o)
    (hp : WatchedKey.perform (R := runtime) choice task config.tasks.length o config.world=
      some (world,r,started)) :
    (∃ token retriesLeft call before after,
      o=.store (.exec token retriesLeft call after) ∧ took choice o config.world=true ∧
        phase.Runs call ∧ config.world.value=some before ∧ world.value=some after ∧
        Makes call before after) ∨
    world.value=config.world.value ∧ ∀ token retriesLeft call after,
      o=.store (.exec token retriesLeft call after) → took choice o config.world=false := by
  have hreadOnly : ReadOnly o → world.value=config.world.value ∧ ∀ token retriesLeft call after,
      o=.store (.exec token retriesLeft call after) → took choice o config.world=false := by
    intro h
    refine ⟨(perform_readOnly h hp).2,?_⟩
    rintro token retriesLeft call after rfl
    exact h.elim
  match o with
  | .store .watch | .store .get | .store .load | .act _ => exact .inr (hreadOnly True.intro)
  | .store (.set _ _ _) | .store .delete | .store .unwatch => exact hallows.elim
  | .store (.exec token retriesLeft call value) =>
    have hexec := perform_exec hp
    cases htook : took choice (.store (.exec token retriesLeft call value)) config.world with
    | true =>
      rw [htook,if_pos rfl] at hexec
      obtain ⟨before,hbefore,hmakes⟩ := makes_of_exec (fun entry => writes_body entry) rfl hreach
        htask htook
      exact .inl ⟨token,retriesLeft,call,before,value,rfl,rfl,hallows,hbefore,hexec.2.1,hmakes⟩
    | false =>
      rw [htook,if_neg Bool.false_ne_true] at hexec
      exact .inr ⟨hexec.2,fun _ _ _ _ _ => rfl⟩

/-- A run of the instances that leads somewhere can be watched. -/
theorem exists_seen (hreach : (initial pairing).Reaches config) : ∃ moves,∃ seen : Seen watcher,
    (Seen.initial watcher (initial pairing)).run moves=some seen ∧ seen.config=config := by
  obtain ⟨moves,hrun⟩ := hreach
  obtain ⟨seen,hseen,hconfig⟩ := @Seen.exists_run _ _ watcher
    (Seen.initial watcher (initial pairing)) _ _ hrun
  exact ⟨moves,seen,hseen,hconfig⟩

/-- The session of a configuration has such a property. -/
def SessionHas (P : PvPSession → Prop) (config : instances.Config) : Prop :=
  ∀ sess,config.world.value=some sess → P sess

/-- What the mutators keep holds of the session wherever a run leads to. -/
theorem session_of_makes {P : PvPSession → Prop}
    (hmakes : ∀ {call sess sess'},Makes call sess sess' → Belongs pairing sess → P sess → P sess')
    (hinitial : P (goSession pairing.session)) (hreach : (initial pairing).Reaches config) :
    SessionHas P config := by
  obtain ⟨moves,seen,hseen,rfl⟩ := exists_seen hreach
  refine (Seen.invariant (I := fun seen : Seen watcher => SessionHas P seen.config)
    (F := fun _ _ => True) body_follows rfl ?_ hseen (fun _ _ => True.intro) ?_).1
  · intro seen seen' move hreach hconforms hi _ hs
    cases hs with
    | opened entry harrives => exact hi
    | performed task choice phase o rest world r started htask hphase hp =>
      intro sess' hsess'
      obtain ⟨token,retriesLeft,call,before,after,rfl,htook,hruns,hbefore,hafter,hm⟩ |
        ⟨hsame,-⟩ := key_cases hreach htask (hconforms.allows hphase htask) hp
      · cases hafter.symm.trans hsess'
        obtain ⟨sess,hsess,hbelongs⟩ := stored hreach
        cases hbefore.symm.trans hsess
        exact hmakes hm hbelongs (hi before hbefore)
      · exact hi sess' (hsame ▸ hsess')
  · intro sess hsess
    cases hsess
    exact hinitial

/-- The connected players are players of the match, each listed once. -/
def Listed (pairing : Pairing) (sess : PvPSession) : Prop :=
  sess.connectedPlayers.elements.Nodup ∧
    ∀ player∈sess.connectedPlayers.elements,IsPlayer pairing player

/-- A session knows its players. -/
theorem isPlayer_of_belongs {sess : PvPSession} {player : String} (hbelongs : Belongs pairing sess)
    (h : sess.isPlayer player=true) : IsPlayer pairing player := by
  unfold IsPlayer
  simpa only [PvPSession.isPlayer,Bool.or_eq_true,decide_eq_true_eq,hbelongs.1,hbelongs.2] using h

/-- The mutators keep the list so. -/
theorem Makes.listed {call : Call} {sess sess' : PvPSession} (h : Makes call sess sess')
    (hbelongs : Belongs pairing sess) (hlisted : Listed pairing sess) : Listed pairing sess' := by
  cases h with
  | @connect player c c' sess sess' h =>
    obtain ⟨hplayer,rfl,-⟩ := markConnected_cases h
    unfold PvPSession.markConnected
    split
    · exact hlisted
    · next hc =>
      obtain ⟨hnodup,hplayers⟩ := hlisted
      have hnew : player∉sess.connectedPlayers.elements := by
        intro hmem
        exact hc (List.any_eq_true.mpr ⟨player,hmem,decide_eq_true rfl⟩)
      constructor
      · change (sess.connectedPlayers.elements++[player]).Nodup
        rw [List.nodup_append]
        refine ⟨hnodup,List.nodup_singleton _,?_⟩
        rintro a ha b hb rfl
        exact hnew (List.mem_singleton.mp hb ▸ ha)
      · intro other hmem
        obtain hmem | hmem := List.mem_append.mp hmem
        · exact hplayers other hmem
        · rw [List.mem_singleton.mp hmem]
          exact isPlayer_of_belongs hbelongs hplayer
  | start h =>
    obtain ⟨rfl,-⟩ | ⟨-,-,rfl,-⟩ := markStarted_cases h <;> exact hlisted
  | submit h =>
    unfold Listed
    rw [(stores_present (GoPendingPairs.storeAction_cases h)).1]
    exact hlisted
  | disconnect h =>
    cases h
    unfold Listed Slice.elements at hlisted ⊢
    cases hc : sess.connectedPlayers with
    | none => exact ⟨List.nodup_nil,fun _ hmem => nomatch hmem⟩
    | some players =>
      rw [hc] at hlisted
      exact ⟨hlisted.1.filter _,fun player hmem => hlisted.2 player (List.mem_of_mem_filter hmem)⟩
  | resolve h =>
    obtain ⟨gameState,rfl⟩ := applyTurn_cases h
    exact hlisted
  | forfeit h =>
    cases h
    exact hlisted

/-- So it is throughout a run. -/
theorem listed (hreach : (initial pairing).Reaches config) :
    SessionHas (Listed pairing) config :=
  session_of_makes (fun hm => hm.listed) ⟨List.nodup_nil,fun _ hmem => nomatch hmem⟩ hreach

/-- Both players are connected. -/
def bothConnected (sess : PvPSession) : Bool :=
  sess.hasConnected sess.player1Id && sess.hasConnected sess.player2Id

/-- A session that shows both players. -/
theorem hasConnected_of_both {sess : PvPSession} (hbelongs : Belongs pairing sess)
    (h : bothConnected sess=true) {player : String} (hplayer : IsPlayer pairing player) :
    sess.hasConnected player=true := by
  rw [bothConnected,hbelongs.1,hbelongs.2,Bool.and_eq_true] at h
  obtain rfl | rfl := hplayer
  · exact h.1
  · exact h.2

/-- Two connected players are both players. -/
theorem both_of_length {sess : PvPSession} (h : Listed pairing sess)
    (hlength : ¬sess.connectedPlayers.length<2) {player : String}
    (hplayer : IsPlayer pairing player) : sess.hasConnected player=true := by
  obtain ⟨hnodup,hplayers⟩ := h
  by_contra habsent
  have hnot : player∉sess.connectedPlayers.elements := fun hmem =>
    habsent (List.any_eq_true.mpr ⟨player,hmem,decide_eq_true rfl⟩)
  have hsubset : ∃ other,∀ p∈sess.connectedPlayers.elements,p∈[other] := by
    obtain rfl | rfl := hplayer
    · refine ⟨p2Of pairing,fun p hmem => List.mem_singleton.mpr ?_⟩
      exact (hplayers p hmem).resolve_left fun he => hnot (he ▸ hmem)
    · refine ⟨p1Of pairing,fun p hmem => List.mem_singleton.mpr ?_⟩
      exact (hplayers p hmem).resolve_right fun he => hnot (he ▸ hmem)
  obtain ⟨other,hother⟩ := hsubset
  have hle := hnodup.length_le_of_subset hother
  rw [Slice.length] at hlength
  simp only [List.length_singleton] at hle
  omega

end Steps

end KiClash.GoTransactions
