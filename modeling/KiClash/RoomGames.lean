import Mathlib.Data.List.Forall2
import KiClash.RoomRuns

/-!
# The sessions of the games that are started

start_game puts the room in game in one transaction and saves the session of the game
afterwards, from what its mutator has stashed, perhaps in an aborted attempt. As long as
no such attempt is followed by one that finds the room in game, and no failure comes
between the transition and the save, every call that has ended has saved exactly the
sessions of the transitions that it has committed.
-/

namespace KiClash.RoomGames

open EngineTypes Engine AsyncTasks WatchedKey TaskPhases TransactionReads
open GameStore (PvPSessionState)
open Rooms RoomPhases RoomRuns

/-- The task puts the room in game. -/
def transition (task : ℕ) (moment : Moment) : Option RoomState :=
  (moment.1.performed moment.2).bind fun performed =>
    match performed.op with
    | .store (.exec _ _ _ room) =>
      if performed.task=task && performed.effective && room.status=.inGame &&
          moment.1.config.world.value.any (fun before => before.status≠.inGame) then some room
      else none
    | _ => none

/-- The task saves a session. -/
def saved (task : ℕ) (moment : Moment) : Option PvPSessionState :=
  (moment.1.performed moment.2).bind fun performed =>
    match performed.op with
    | .act (.save session) =>
      if performed.task=task && performed.effective then some session else none
    | _ => none

/-- The rooms that the task has put in game, oldest first. -/
def transitions (task : ℕ) (history : List Moment) : List RoomState :=
  history.filterMap (transition task)

/-- The sessions that it has saved. -/
def saves (task : ℕ) (history : List Moment) : List PvPSessionState :=
  history.filterMap (saved task)

/-- The session is that of the game of the room, between its host and its guest. -/
structure SessionFor (room : RoomState) (session : PvPSessionState) : Prop where
  /-- The game. -/
  gameId : room.gameId=some session.gameState.gameId
  /-- Player 1. -/
  host : session.player1Id=room.host.id
  /-- Player 2. -/
  guest : room.guest.map RoomPlayer.id=some session.player2Id

/-- The transition of a room into a game does not fail after it has taken effect; a save
does not fail before it takes effect; and a start request that writes a room in game has
stashed nothing in an aborted attempt. -/
def sound (moment : Moment) : Bool :=
  (moment.1.performed moment.2).all fun performed =>
    match performed.phase.stage,performed.op,performed.result with
    | .starting _ stale,.store (.exec _ _ _ _),result =>
      !performed.effective || moment.1.config.world.value.all fun before =>
        if before.status=.inGame then stale.isNone else result.isOk
    | .saving _ _,.act (.save _),_ => performed.effective
    | _,_,_ => true

/-- What the claims of a start request come to: for each transition that it has committed
it has saved one session when it returns, and it saves no other one; and if it fails, the
game that it has put into the room has a session. -/
structure OneSessionEach (history : List Moment) (seen : Seen watcher) (task : ℕ) : Prop where
  /-- It has returned. -/
  returned : seen.config.tasks[task]?=some (.done (.ok ())) →
    List.Forall₂ SessionFor (transitions task history) (saves task history)
  /-- Its sessions are those of its own transitions. -/
  own : ∀ session∈saves task history,∃ room∈transitions task history,SessionFor room session
  /-- There is at most one for each. -/
  once : (saves task history).length ≤ (transitions task history).length
  /-- It has failed. -/
  failed : ∀ exc,seen.config.tasks[task]?=some (.done (.error exc)) →
    ∀ room∈transitions task history,∃ session∈seen.config.world.memory,SessionFor room session

/-- What a request in this stage has put in game, and what it has saved. -/
def Told : Stage → List RoomState → List PvPSessionState → Prop
  | .saving _ session,rooms,sessions =>
    ∃ room,rooms=[room] ∧ SessionFor room session ∧ sessions=[]
  | .over,rooms,sessions => List.Forall₂ SessionFor rooms sessions
  | _,rooms,sessions => rooms=[] ∧ sessions=[]

section Stages

variable {stage : Stage} {rooms : List RoomState} {sessions : List PvPSessionState}

/-- A request that has done nothing has nothing to tell. -/
theorem told_nil (h : stage.Ends) : Told stage [] [] := by
  cases stage with
  | saving own session => exact h.elim
  | creating | updating | starting | asking | leaving | destroying => exact ⟨rfl,rfl⟩
  | _ => exact .nil

/-- A request that has stopped has saved the sessions of its transitions. -/
theorem Told.stopped (h : Told stage rooms sessions) (hends : stage.Ends) :
    List.Forall₂ SessionFor rooms sessions := by
  cases stage with
  | saving own session => exact hends.elim
  | creating | updating | starting | asking | leaving | destroying =>
    obtain ⟨rfl,rfl⟩ := h
    exact .nil
  | _ => exact h

/-- Sessions that belong to the rooms one by one belong to each of them. -/
theorem session_of_transition (h : List.Forall₂ SessionFor rooms sessions) {room : RoomState}
    (hroom : room∈rooms) : ∃ session∈sessions,SessionFor room session := by
  induction h with
  | nil => cases hroom
  | cons hfor hrest ih =>
    obtain rfl | hrest' := List.mem_cons.mp hroom
    · exact ⟨_,List.mem_cons_self,hfor⟩
    · obtain ⟨session,hsession,hfor'⟩ := ih hrest'
      exact ⟨session,List.mem_cons_of_mem _ hsession,hfor'⟩

/-- At any time it has saved at most these, and no others. -/
theorem Told.own (h : Told stage rooms sessions) :
    (∀ session∈sessions,∃ room∈rooms,SessionFor room session) ∧
      sessions.length ≤ rooms.length := by
  by_cases hends : stage.Ends
  · have hall := h.stopped hends
    refine ⟨fun session hsession => ?_,Nat.le_of_eq hall.length_eq.symm⟩
    clear h
    induction hall with
    | nil => cases hsession
    | cons hfor hrest ih =>
      rcases List.mem_cons.mp hsession with rfl | hrest'
      · exact ⟨_,List.mem_cons_self,hfor⟩
      · obtain ⟨room,hroom,hfor'⟩ := ih hrest'
        exact ⟨room,List.mem_cons_of_mem _ hroom,hfor'⟩
  · cases stage with
    | saving own session =>
      obtain ⟨room,rfl,-,rfl⟩ := h
      exact ⟨(fun _ hsession => nomatch hsession),Nat.zero_le _⟩
    | _ => exact (hends True.intro).elim

/-- Who is in a transaction has told nothing. -/
theorem Told.updates (h : Told stage rooms sessions) (hupdates : stage.Updates) :
    rooms=[] ∧ sessions=[] := by
  cases stage with
  | updating | starting | leaving => exact h
  | _ => exact hupdates.elim

/-- Nor does it tell anything new while it neither writes nor saves. -/
theorem Told.next (h : Told stage rooms sessions) (hends : stage.Ends)
    {attempt : Attempt RoomState} {o : Op language} {r : Except Exc o.Res}
    (hnext : (stage.next attempt o r).Ends) : Told (stage.next attempt o r) rooms sessions := by
  cases stage with
  | saving own session => exact hends.elim
  | creating | updating | starting | asking | leaving | destroying =>
    obtain ⟨rfl,rfl⟩ := h
    exact told_nil hnext
  | _ => exact h

/-- Without a transaction there is nothing to save. -/
theorem ends_of_plain (hends : stage.Ends) {attempt : Attempt RoomState} {o : Op language}
    {r : Except Exc o.Res} (hplain : Plain o) : (stage.next attempt o r).Ends := by
  unfold Stage.next
  split
  · exact True.intro
  · exact True.intro
  · exact True.intro
  · exact hplain.elim
  · exact hends.elim
  · split
    · exact True.intro
    · split <;> exact True.intro
  · exact True.intro
  · exact hends

/-- The transactions are those of requests that update. -/
theorem updates_of_runs {call : Call} (h : stage.Runs call) : stage.Updates := by
  cases stage with
  | updating | starting | leaving => exact True.intro
  | _ => exact h.elim

/-- Only start_game puts a room in game. -/
theorem start_of_rewrites {room room' : RoomState} {call : Call} (h : Rewrites room call room')
    (hbefore : room.status≠.inGame) (hafter : room'.status=.inGame) :
    ∃ playerId,call=.start playerId := by
  cases h with
  | startedBefore playerId => exact ⟨playerId,rfl⟩
  | started playerId => exact ⟨playerId,rfl⟩
  | joined | left => cases hafter
  | welcomed | hostPicked | guestPicked | hostReady | guestReady => exact absurd hafter hbefore

end Stages

section Moments

variable {seen seen' : Seen watcher} {task : ℕ} {choice : Choice} {phase : Phase} {o : Op language}
  {rest : Except Exc o.Res → Coroutine Unit} {world : World runtime} {r : Except Exc o.Res}
  {started : Option Entry}

/-- What a transaction puts in game. -/
theorem transition_exec {token retriesLeft : ℕ} {call : Call} {before after : RoomState}
    {rest : Except Exc Bool → Coroutine Unit} {r : Except Exc Bool}
    (htask : seen.config.tasks[task]?=some (.op (.store (.exec token retriesLeft call after)) rest))
    (hphase : seen.phases[task]?=some phase)
    (hp : WatchedKey.perform (R := runtime) choice task seen.config.tasks.length
      (.store (.exec token retriesLeft call after)) seen.config.world=some (world,r,started))
    (htook : took choice (.store (.exec token retriesLeft call after)) seen.config.world=true)
    (hbefore : seen.config.world.value=some before) :
    transition task (seen,System.Move.run task choice)=
      if after.status=.inGame ∧ before.status≠.inGame then some after else none := by
  rw [transition,Seen.performed_eq htask hphase hp,Option.bind_some]
  simp [htook,hbefore]

/-- What another operation does. -/
theorem transition_idle (htask : seen.config.tasks[task]?=some (.op o rest))
    (hphase : seen.phases[task]?=some phase)
    (hp : WatchedKey.perform (R := runtime) choice task seen.config.tasks.length o
      seen.config.world=some (world,r,started))
    (hidle : Plain o ∨ took choice o seen.config.world=false) :
    transition task (seen,System.Move.run task choice)=none := by
  rw [transition,Seen.performed_eq htask hphase hp,Option.bind_some]
  match o with
  | .store (.exec token retriesLeft call after) =>
    obtain hplain | htook := hidle
    · exact hplain.elim
    · simp [htook]
  | .store .watch | .store .unwatch | .store .get | .store .load | .store .delete
  | .store (.set _ _ _) | .act _ => rfl

/-- A command saves nothing. -/
theorem saved_store {o : StoreOp RoomState Call} {rest : Except Exc o.Res → Coroutine Unit}
    {r : Except Exc o.Res} (htask : seen.config.tasks[task]?=some (.op (.store o) rest))
    (hphase : seen.phases[task]?=some phase)
    (hp : WatchedKey.perform (R := runtime) choice task seen.config.tasks.length (.store o)
      seen.config.world=some (world,r,started)) :
    saved task (seen,System.Move.run task choice)=none := by
  rw [saved,Seen.performed_eq htask hphase hp]
  rfl

/-- What one request does does not count for another one. -/
theorem of_other {other : ℕ} (hne : task≠other) :
    transition other (seen,System.Move.run task choice)=none ∧
      saved other (seen,System.Move.run task choice)=none := by
  have hnone : ∀ performed,seen.performed (System.Move.run task choice)=some performed →
      performed.task=task := by
    intro performed hperformed
    simp only [Seen.performed] at hperformed
    split at hperformed
    · obtain ⟨outcome,-,rfl⟩ := Option.map_eq_some_iff.mp hperformed
      rfl
    · cases hperformed
  constructor
  · rw [transition,Option.bind_eq_none_iff]
    intro performed hperformed
    have htask := hnone performed hperformed
    split
    · simp [htask,hne]
    · rfl
  · rw [saved,Option.bind_eq_none_iff]
    intro performed hperformed
    have htask := hnone performed hperformed
    split
    · simp [htask,hne]
    · rfl

/-- A transaction of start_game that takes effect either puts the room in game, and then
the session that is saved next is that of its game, or it finds the room in game. -/
theorem told_start {playerId : UUID} {stale : Option GameState} {attempt : Attempt RoomState}
    {token retriesLeft : ℕ} {before after : RoomState} {rest : Except Exc Bool → Coroutine Unit}
    {r : Except Exc Bool}
    (htask : seen.config.tasks[task]?=
      some (.op (.store (.exec token retriesLeft (.start playerId) after)) rest))
    (hphase : seen.phases[task]?=some ⟨.starting playerId stale,attempt⟩)
    (hp : WatchedKey.perform (R := runtime) choice task seen.config.tasks.length
      (.store (.exec token retriesLeft (.start playerId) after)) seen.config.world=
        some (world,r,started))
    (htook : took choice (.store (.exec token retriesLeft (Call.start playerId) after))
      seen.config.world=true)
    (hbefore : seen.config.world.value=some before) (hfound : attempt=.found token before)
    (hrewrites : Rewrites before (.start playerId) after)
    (hsound : sound (seen,System.Move.run task choice)=true) :
    Told (Stage.next attempt (.starting playerId stale)
        (.store (.exec token retriesLeft (.start playerId) after)) r)
      (transition task (seen,System.Move.run task choice)).toList [] := by
  have hresult := Outcome.store ⟨choice,task,_,_,world,started,hp,htook⟩
  rw [transition_exec htask hphase hp htook hbefore]
  rw [sound,Seen.performed_eq htask hphase hp,Option.all_some] at hsound
  simp only [htook,hbefore,Bool.not_true,Bool.false_or,Option.all_some] at hsound
  subst hfound
  cases hrewrites with
  | startedBefore _ hmember hstatus =>
    rw [if_neg fun h => h.2 hstatus]
    rw [if_pos hstatus] at hsound
    obtain ⟨exc,rfl⟩ | ⟨committed,rfl,rfl⟩ := hresult
    · exact ⟨rfl,rfl⟩
    · cases stale with
      | some state => cases hsound
      | none =>
        have hopens : opensGame (.found token before)=false := by
          simp [opensGame,Attempt.value,hstatus]
        simp only [Stage.next,if_true,stashed,hopens]
        exact .nil
  | started _ gameId hmember hstatus guest hguest =>
    rw [if_pos ⟨rfl,hstatus⟩]
    rw [if_neg hstatus] at hsound
    obtain ⟨exc,rfl⟩ | ⟨committed,rfl,rfl⟩ := hresult
    · cases hsound
    · have hopens : opensGame (.found token before)=true := by
        simp [opensGame,Attempt.value,hstatus]
      simp only [Stage.next,if_true,stashed,hopens,written,hguest]
      exact ⟨_,rfl,⟨rfl,rfl,rfl⟩,rfl⟩

/-- A transaction keeps what is told of its request. -/
theorem told_exec (hregular : Regular seen) {token retriesLeft : ℕ} {call : Call}
    {after : RoomState} {rest : Except Exc Bool → Coroutine Unit} {r : Except Exc Bool}
    (htask : seen.config.tasks[task]?=some (.op (.store (.exec token retriesLeft call after)) rest))
    (hphase : seen.phases[task]?=some phase)
    (hp : WatchedKey.perform (R := runtime) choice task seen.config.tasks.length
      (.store (.exec token retriesLeft call after)) seen.config.world=some (world,r,started))
    (hsound : sound (seen,System.Move.run task choice)=true) :
    Told (phase.stage.next phase.attempt (.store (.exec token retriesLeft call after)) r)
      (transition task (seen,System.Move.run task choice)).toList [] := by
  obtain ⟨hruns,-⟩ := hregular.conforms.allows hphase htask
  obtain ⟨stage,attempt⟩ := phase
  cases hregular.wrote htask hphase hp with
  | transaction _ _ _ before _ _ htook _ hbefore hafter hfound hmakes =>
    have hrewrites := rewrites_of_makes hmakes
    cases stage with
    | starting playerId stale =>
      have hcall : call=.start playerId := hruns
      subst hcall
      exact told_start htask hphase hp htook hbefore hfound hrewrites hsound
    | updating call' =>
      obtain ⟨rfl,hordinary⟩ := hruns
      have hnone : ¬(after.status=.inGame ∧ before.status≠.inGame) := by
        rintro ⟨hafter',hbefore'⟩
        obtain ⟨playerId,rfl⟩ := start_of_rewrites hrewrites hbefore' hafter'
        exact hordinary
      rw [transition_exec htask hphase hp htook hbefore,if_neg hnone]
      apply told_nil
      rcases r with exc | _ | _ <;> exact True.intro
    | leaving playerId loaded =>
      have hcall : call=.leave playerId := hruns
      subst hcall
      have hnone : ¬(after.status=.inGame ∧ before.status≠.inGame) := by
        rintro ⟨hafter',hbefore'⟩
        obtain ⟨playerId',he⟩ := start_of_rewrites hrewrites hbefore' hafter'
        cases he
      rw [transition_exec htask hphase hp htook hbefore,if_neg hnone]
      apply told_nil
      rcases r with exc | _ | _ <;> exact True.intro
    | _ => exact hruns.elim
  | kept _ _ hvalue hidle =>
    have htook := hidle.resolve_left id
    have hends := ends_of_updates (updates_of_runs hruns)
    rw [transition_idle htask hphase hp (.inr htook)]
    apply told_nil
    obtain ⟨exc,rfl⟩ | ⟨committed,rfl,rfl⟩ :=
      Outcome.store ⟨choice,task,_,_,world,started,hp,htook⟩
    · exact ends_of_error hends _ _ exc
    · cases stage with
      | saving own session => exact hends.elim
      | _ => exact True.intro

/-- The save of start_game saves the session of its transition. -/
theorem told_save (hregular : Regular seen) {session : PvPSessionState}
    {rest : Except Exc Unit → Coroutine Unit} {r : Except Exc Unit}
    (htask : seen.config.tasks[task]?=some (.op (.act (.save session)) rest))
    (hphase : seen.phases[task]?=some phase)
    (hp : WatchedKey.perform (R := runtime) choice task seen.config.tasks.length
      (.act (.save session)) seen.config.world=some (world,r,started))
    (hsound : sound (seen,System.Move.run task choice)=true) {rooms : List RoomState}
    {sessions : List PvPSessionState} (h : Told phase.stage rooms sessions) :
    Told (phase.stage.next phase.attempt (.act (.save session)) r)
      (rooms++(transition task (seen,System.Move.run task choice)).toList)
      (sessions++(saved task (seen,System.Move.run task choice)).toList) := by
  obtain ⟨⟨own,hstage⟩,-⟩ := hregular.conforms.allows hphase htask
  rw [transition_idle htask hphase hp (.inl True.intro),saved,Seen.performed_eq htask hphase hp]
  rw [sound,Seen.performed_eq htask hphase hp,Option.all_some] at hsound
  simp only [hstage] at hsound h ⊢
  obtain ⟨room,rfl,hfor,rfl⟩ := h
  simp only [hsound,Option.bind_some,decide_true,Bool.and_self,if_true]
  exact .cons hfor .nil

/-- Any other command leaves what is told of its request. -/
theorem told_plain (hregular : Regular seen) {o : StoreOp RoomState Call}
    {rest : Except Exc o.Res → Coroutine Unit} {r : Except Exc o.Res} (hplain : Plain (L := language) (.store o))
    (htask : seen.config.tasks[task]?=some (.op (.store o) rest))
    (hphase : seen.phases[task]?=some phase) {rooms : List RoomState}
    {sessions : List PvPSessionState} (h : Told phase.stage rooms sessions) :
    Told (phase.stage.next phase.attempt (.store o) r) rooms sessions := by
  obtain ⟨hallows,-⟩ := hregular.conforms.allows hphase htask
  have hends : phase.stage.Ends := by
    match o with
    | .watch | .unwatch | .get | .load => exact hallows
    | .delete =>
      obtain ⟨playerId,loaded,hstage⟩ := hallows
      rw [hstage]
      exact True.intro
    | .set onlyIfAbsent call room =>
      obtain ⟨code,host,hstage,-⟩ := hallows
      rw [hstage]
      exact True.intro
    | .exec _ _ _ _ => exact hplain.elim
  exact h.next hends (ends_of_plain hends hplain)

/-- A move of a request keeps what is told of it. -/
theorem told_next (hregular : Regular seen)
    (htask : seen.config.tasks[task]?=some (.op o rest)) (hphase : seen.phases[task]?=some phase)
    (hp : WatchedKey.perform (R := runtime) choice task seen.config.tasks.length o
      seen.config.world=some (world,r,started))
    (hsound : sound (seen,System.Move.run task choice)=true) {rooms : List RoomState}
    {sessions : List PvPSessionState} (h : Told phase.stage rooms sessions) :
    Told (phase.stage.next phase.attempt o r)
      (rooms++(transition task (seen,System.Move.run task choice)).toList)
      (sessions++(saved task (seen,System.Move.run task choice)).toList) := by
  have hstore : ∀ {o : StoreOp RoomState Call} {rest : Except Exc o.Res → Coroutine Unit}
      {r : Except Exc o.Res},Plain (L := language) (.store o) →
      seen.config.tasks[task]?=some (.op (.store o) rest) →
      WatchedKey.perform (R := runtime) choice task seen.config.tasks.length (.store o)
        seen.config.world=some (world,r,started) →
      Told (phase.stage.next phase.attempt (.store o) r)
        (rooms++(transition task (seen,System.Move.run task choice)).toList)
        (sessions++(saved task (seen,System.Move.run task choice)).toList) := by
    intro o rest r hplain htask hp
    rw [transition_idle htask hphase hp (.inl hplain),saved_store htask hphase hp]
    simp only [Option.toList_none,List.append_nil]
    exact told_plain hregular hplain htask hphase h
  match o with
  | .store (.exec token retriesLeft call after) =>
    obtain ⟨hruns,-⟩ := hregular.conforms.allows hphase htask
    obtain ⟨rfl,rfl⟩ := h.updates (updates_of_runs hruns)
    rw [saved_store htask hphase hp]
    exact told_exec hregular htask hphase hp hsound
  | .act (.save session) => exact told_save hregular htask hphase hp hsound h
  | .store .watch | .store .unwatch | .store .get | .store .load | .store .delete
  | .store (.set _ _ _) => exact hstore True.intro htask hp

/-- A saved session stays, after those that were saved before. -/
theorem memory_of_perform (htask : seen.config.tasks[task]?=some (.op o rest))
    (hphase : seen.phases[task]?=some phase)
    (hp : WatchedKey.perform (R := runtime) choice task seen.config.tasks.length o
      seen.config.world=some (world,r,started)) :
    world.memory=
      seen.config.world.memory++(saved task (seen,System.Move.run task choice)).toList := by
  rw [saved,Seen.performed_eq htask hphase hp,Option.bind_some]
  match o with
  | .act (.save session) =>
    cases choice with
    | proceed pick =>
      cases hp
      simp [took,World.acted]
    | raiseBefore =>
      cases hp
      simp [took,World.deliver]
    | raiseAfter pick =>
      cases hp
      simp [took,World.acted,World.deliver,Op.effect]
  | .store o =>
    have hkept : ∀ exc,((o.effect task seen.config.world).1.deliver task exc).memory=
        seen.config.world.memory := fun _ => StoreOp.effect_memory task o seen.config.world
    rw [show (_ : Option PvPSessionState)=none from rfl]
    cases choice with
    | proceed pick =>
      cases hp
      exact (StoreOp.effect_memory task o seen.config.world).trans (List.append_nil _).symm
    | raiseBefore =>
      cases hp
      exact (List.append_nil _).symm
    | raiseAfter pick =>
      cases hp
      exact (hkept _).trans (List.append_nil _).symm

end Moments

section Runs

variable {seen seen' : Seen watcher} {moves : List rooms.Move} {move : rooms.Move}
  {history : List Moment}

/-- What the requests have put in game and saved so far. -/
structure Kept (history : List Moment) (seen : Seen watcher) : Prop where
  /-- The requests. -/
  told : ∀ (task : ℕ) (phase : Phase),seen.phases[task]?=some phase →
    Told phase.stage (transitions task history) (saves task history)
  /-- Those that have not come yet. -/
  fresh : ∀ task,seen.phases.length ≤ task → transitions task history=[] ∧ saves task history=[]
  /-- The sessions are there. -/
  memory : ∀ task session,session∈saves task history → session∈seen.config.world.memory

/-- One more moment. -/
theorem transitions_append (task : ℕ) (history : List Moment) (moment : Moment) :
    transitions task (history++[moment])=
      transitions task history++(transition task moment).toList := by
  rw [transitions,List.filterMap_append]
  cases h : transition task moment <;> simp [h,transitions]

/-- The same for the sessions. -/
theorem saves_append (task : ℕ) (history : List Moment) (moment : Moment) :
    saves task (history++[moment])=saves task history++(saved task moment).toList := by
  rw [saves,List.filterMap_append]
  cases h : saved task moment <;> simp [h,saves]

/-- A new request has something ahead of it only. -/
theorem start_ends (entry : Entry) : (watcher.start entry).stage.Ends := by
  cases entry <;> exact True.intro

/-- Every sound move keeps the account. -/
theorem Kept.step (hregular : Regular seen) (h : Kept history seen)
    (hsound : sound (seen,move)=true) (hs : Seen.Moved seen move seen') :
    Kept (history++[(seen,move)]) seen' := by
  cases hs with
  | opened entry harrives =>
    have hsame : ∀ task,transitions task (history++[(seen,System.Move.open entry)])=
        transitions task history ∧
        saves task (history++[(seen,System.Move.open entry)])=saves task history := by
      intro task
      rw [transitions_append,saves_append]
      exact ⟨List.append_nil _,List.append_nil _⟩
    constructor
    · intro task phase hphase
      rw [(hsame task).1,(hsame task).2]
      obtain hold | ⟨rfl,hnew⟩ := @Seen.getElem?_extended _ _ (some (watcher.start entry)) _ _ hphase
      · exact h.told task phase hold
      · obtain ⟨hnone,hnone'⟩ := h.fresh _ (Nat.le_refl _)
        cases hnew
        rw [hnone,hnone']
        exact told_nil (start_ends entry)
    · intro task hlength
      rw [(hsame task).1,(hsame task).2]
      rw [List.length_append] at hlength
      exact h.fresh task (by omega)
    · intro task session hsession
      rw [(hsame task).2] at hsession
      exact h.memory task session hsession
  | performed task choice phase o rest world r started htask hphase hp =>
    have hmemory := memory_of_perform htask hphase hp
    have hlength := (List.getElem?_eq_some_iff.mp hphase).1
    have hsame : ∀ other,task≠other →
        transitions other (history++[(seen,System.Move.run task choice)])=
          transitions other history ∧
        saves other (history++[(seen,System.Move.run task choice)])=saves other history := by
      intro other hne
      obtain ⟨htransition,hsaved⟩ := @of_other seen task choice other hne
      rw [transitions_append,saves_append,htransition,hsaved]
      exact ⟨List.append_nil _,List.append_nil _⟩
    constructor
    · intro other phase' hphase'
      obtain ⟨rfl,rfl⟩ | ⟨hne,hold⟩ | ⟨rfl,hstarted⟩ := Seen.getElem?_moved hphase'
      · rw [transitions_append,saves_append]
        exact told_next hregular htask hphase hp hsound (h.told other phase hphase)
      · rw [(hsame other (Ne.symm hne)).1,(hsame other (Ne.symm hne)).2]
        exact h.told other phase' hold
      · obtain ⟨entry,-,rfl⟩ := Option.map_eq_some_iff.mp hstarted
        obtain ⟨hnone,hnone'⟩ := h.fresh _ (Nat.le_refl _)
        rw [(hsame _ (Nat.ne_of_lt hlength)).1,(hsame _ (Nat.ne_of_lt hlength)).2,hnone,hnone']
        exact told_nil (start_ends entry)
    · intro other hother
      rw [List.length_append,List.length_set] at hother
      have hne : task≠other := by omega
      rw [(hsame other hne).1,(hsame other hne).2]
      exact h.fresh other (by omega)
    · intro other session hsession
      rw [hmemory]
      by_cases hne : task=other
      · subst hne
        rw [saves_append] at hsession
        obtain hold | hnew := List.mem_append.mp hsession
        · exact List.mem_append_left _ (h.memory task session hold)
        · exact List.mem_append_right _ hnew
      · rw [(hsame other hne).2] at hsession
        exact List.mem_append_left _ (h.memory other session hsession)

/-- In a sound run the account is kept. -/
theorem kept (hrun : (Seen.initial watcher initial).run moves=some seen)
    (hsound : ∀ moment∈momentsOf moves,sound moment=true) : Kept (momentsOf moves) seen := by
  have hall := Seen.along (P := watcher) (F := fun _ moment => sound moment=true)
    (I := fun history seen => Informed (P := watcher) Phase.attempt seen ∧ Kept history seen)
    handler_follows rfl
    (fun _ hconforms hi hf hs => ⟨hi.1.step tracks hs,hi.2.step ⟨hconforms,hi.1⟩ hf hs⟩) hrun
    (Seen.meets_of_forall hsound)
    ⟨(fun _ _ hphase => nomatch hphase),(fun _ _ hphase => nomatch hphase),
      (fun _ _ => ⟨rfl,rfl⟩),(fun _ _ hsession => nomatch hsession)⟩
  exact hall.1.2

/-- In every sound run each request that has returned has saved one session for each of
its transitions, each session is that of a transition of the request that has saved it,
and a request that has failed leaves no game without a session. -/
theorem one_session_each (hrun : (Seen.initial watcher initial).run moves=some seen)
    (hsound : ∀ moment∈momentsOf moves,sound moment=true) (task : ℕ) :
    OneSessionEach (momentsOf moves) seen task := by
  have hkept := kept hrun hsound
  have hconforms := (regular hrun).conforms
  have hstopped : ∀ r,seen.config.tasks[task]?=some (.done r) →
      List.Forall₂ SessionFor (transitions task (momentsOf moves))
        (saves task (momentsOf moves)) := by
    intro r hdone
    have hlt : task<seen.phases.length := by
      rw [show seen.phases.length=seen.config.tasks.length from hconforms.phased]
      exact (List.getElem?_eq_some_iff.mp hdone).1
    have hphase := List.getElem?_eq_getElem hlt
    exact (hkept.told task _ hphase).stopped (hconforms.follows task _ _ hphase hdone)
  have hown : (∀ session∈saves task (momentsOf moves),
      ∃ room∈transitions task (momentsOf moves),SessionFor room session) ∧
        (saves task (momentsOf moves)).length ≤ (transitions task (momentsOf moves)).length := by
    cases hphase : seen.phases[task]? with
    | some phase => exact (hkept.told task phase hphase).own
    | none =>
      obtain ⟨hnone,hnone'⟩ := hkept.fresh task (List.getElem?_eq_none_iff.mp hphase)
      rw [hnone,hnone']
      exact ⟨(fun _ hsession => nomatch hsession),Nat.zero_le _⟩
  refine ⟨hstopped _,hown.1,hown.2,fun exc hfailed room hroom => ?_⟩
  obtain ⟨session,hsession,hfor⟩ := session_of_transition (hstopped _ hfailed) hroom
  exact ⟨session,hkept.memory task session hsession,hfor⟩

end Runs

section Examples

/-- A player starts the game of a lobby in which both are ready. -/
def gameStarts : List rooms.Move := requests 0 (lobby++readies++starts)

/-- His request returns, and it has put the room in game. -/
theorem gameStarts_one_session : ∃ seen,(Seen.initial watcher initial).run gameStarts=some seen ∧
    seen.config.tasks[6]?.any (fun p => match p with | .done (.ok ()) => true | _ => false)=true ∧
    (transitions 6 (momentsOf gameStarts)).length=1 ∧
    ∀ task,OneSessionEach (momentsOf gameStarts) seen task := by
  have hdone : ((Seen.initial watcher initial).run gameStarts).any (fun seen =>
      seen.config.tasks[6]?.any fun p => match p with | .done (.ok ()) => true | _ => false)=true := by
    decide
  have hlength : (transitions 6 (momentsOf gameStarts)).length=1 := by decide
  have hsound : ∀ moment∈momentsOf gameStarts,sound moment=true := by decide
  obtain ⟨seen,hrun,hseen⟩ := (Option.any_eq_true _ _).mp hdone
  exact ⟨seen,hrun,hseen,hlength,fun task => one_session_each hrun hsound task⟩

/-- Player 1's request reads the lobby; player 2's request starts the game and saves its
session; then player 1's transaction is aborted, and the next one finds the room in game. -/
def startsTwice : List rooms.Move :=
  requests 0 (lobby++readies)++.open (.startGame (.small 1) fun _ => .small 8)::proceeds 6 2++
    requests 7 [(.startGame (.small 2) fun _ => .small 9,4)]++proceeds 6 5

/-- He saves the session of a game that no room has. -/
theorem stale_session_saved : ¬∀ (moves : List rooms.Move) (seen : Seen watcher),
    (Seen.initial watcher initial).run moves=some seen →
      ∀ task,OneSessionEach (momentsOf moves) seen task := by
  intro h
  have hrun : ((Seen.initial watcher initial).run startsTwice).isSome=true := by decide
  have hnone : (transitions 6 (momentsOf startsTwice)).length=0 := by decide
  have hsaved : (saves 6 (momentsOf startsTwice)).length=1 := by decide
  obtain ⟨seen,hseen⟩ := Option.isSome_iff_exists.mp hrun
  have honce := (h startsTwice seen hseen 6).once
  rw [hnone,hsaved] at honce
  cases honce

end Examples

end KiClash.RoomGames
