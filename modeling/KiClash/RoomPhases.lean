import KiClash.Rooms
import KiClash.TransactionReads

/-!
# The phases of the room handlers

How far each request has come: what its transaction has read, whether an aborted attempt
of start_game has stashed a state, which session it is about to save, and which room
leave_room has read before it writes.
-/

namespace KiClash.RoomPhases

open EngineTypes Engine AsyncTasks WatchedKey TaskPhases TransactionReads
open GameStore (PvPSessionState)
open Rooms

/-- How far a request has come. -/
inductive Stage
  /-- RoomStore.create. -/
  | creating (code : String) (host : RoomPlayer)
  /-- The transaction of join_room, set_character or set_ready. -/
  | updating (call : Call)
  /-- The transaction of start_game. An aborted attempt may have stashed a state. -/
  | starting (playerId : UUID) (stale : Option GameState)
  /-- start_game has written, and saves this session; the flag says whether what it has
  written has started the game. -/
  | saving (own : Bool) (session : PvPSessionState)
  /-- leave_room has not read the room. -/
  | asking (playerId : UUID)
  /-- leave_room has read this room, of which the player is the guest. -/
  | leaving (playerId : UUID) (loaded : RoomState)
  /-- leave_room has read this room, of which the player is the host. -/
  | destroying (playerId : UUID) (loaded : RoomState)
  /-- Nothing more is written. -/
  | over
  deriving DecidableEq

/-- The phase of a request, with the attempt of its transaction that is under way. -/
structure Phase where
  /-- How far it has come. -/
  stage : Stage
  /-- What its attempt has read. -/
  attempt : Attempt RoomState
  deriving DecidableEq

/-- What the mutator of a call can make of a room. -/
inductive Makes : Call → RoomState → RoomState → Prop
  | join {player : Player} {room room' : RoomState}
      (h : mutateJoin player () room=.ok ((),room')) : Makes (.join player) room room'
  | character {playerId : UUID} {characterId : String} {room room' : RoomState}
      (h : mutateCharacter playerId characterId () room=.ok ((),room')) :
      Makes (.character playerId characterId) room room'
  | ready {playerId : UUID} {ready : Bool} {room room' : RoomState}
      (h : mutateReady playerId ready () room=.ok ((),room')) :
      Makes (.ready playerId ready) room room'
  | start {playerId : UUID} {c c' : StartCaptured} {room room' : RoomState}
      (h : mutateStart playerId c room=.ok (c',room')) : Makes (.start playerId) room room'
  | leave {playerId : UUID} {room room' : RoomState}
      (h : mutateLeave () room=.ok ((),room')) : Makes (.leave playerId) room room'

section Next

variable (attempt : Attempt RoomState)

/-- The attempt has read a room in which no game has been started. -/
def opensGame : Bool := attempt.value.any fun room => room.status≠.inGame

/-- The state that start_game has stashed after an attempt that would write this room. -/
def stashed (stale : Option GameState) (room : RoomState) : Option GameState :=
  if opensGame attempt then room.gameId.map fun gameId => (startMatch gameId .pvp).1 else stale

/-- start_game has written the room. -/
def written (own : Bool) (state : Option GameState) (room : RoomState) : Stage :=
  match state,room.guest with
  | some state,some guest => .saving own (sessionOf state room.host guest)
  | _,_ => .over

/-- What a request does next. -/
def Stage.next : Stage → (o : Op language) → Except Exc o.Res → Stage
  | .creating _ _,.store (.set _ _ _),.ok true => .over
  | .updating _,.store (.exec _ _ _ _),.ok true => .over
  | .leaving _ _,.store (.exec _ _ _ _),.ok true => .over
  | .starting playerId stale,.store (.exec _ _ _ room),.ok committed =>
    if committed then written (opensGame attempt) (stashed attempt stale room) room
    else .starting playerId (stashed attempt stale room)
  | .saving _ _,_,_ => .over
  | .asking playerId,.store .load,.ok (some room) =>
    if room.host.id=playerId then .destroying playerId room
    else if room.isMember playerId then .leaving playerId room
    else .over
  | .destroying _ _,_,_ => .over
  | stage,_,_ => stage

end Next

namespace Stage

/-- The transactions that a request may run. -/
def Runs : Stage → Call → Prop
  | .updating call,call' => call'=call ∧ match call with
    | .join _ | .character _ _ | .ready _ _ => True
    | _ => False
  | .starting playerId _,call' => call'=.start playerId
  | .leaving playerId _,call' => call'=.leave playerId
  | _,_ => False

/-- It has nothing that it still has to save. -/
def Ends : Stage → Prop
  | .saving _ _ => False
  | _ => True

/-- What a request may perform. -/
def Allows (stage : Stage) : Op language → Prop
  | .store (.exec _ _ call _) => stage.Runs call
  | .store (.set onlyIfAbsent call room) => ∃ code host,stage=.creating code host ∧
    onlyIfAbsent=true ∧ call=.create host ∧ room=newRoom code host
  | .store .delete => ∃ playerId loaded,stage=.destroying playerId loaded
  | .store _ => stage.Ends
  | .act (.save session) => ∃ own,stage=.saving own session

/-- Its transaction is under way. -/
def Updates : Stage → Prop
  | .updating _ | .starting _ _ | .leaving _ _ => True
  | _ => False

end Stage

/-- The phases of the requests. -/
abbrev watcher : Watcher runtime where
  Phase := Phase
  start
    | .createRoom player code _ => ⟨.creating code (toPlayer player),.idle⟩
    | .joinRoom player => ⟨.updating (.join player),.idle⟩
    | .setCharacter player characterId => ⟨.updating (.character player.id characterId),.idle⟩
    | .setReady player ready => ⟨.updating (.ready player.id ready),.idle⟩
    | .startGame player _ => ⟨.starting player.id none,.idle⟩
    | .leaveRoom player => ⟨.asking player.id,.idle⟩
  next phase o _ r := ⟨phase.stage.next phase.attempt o r,
    Attempt.next (L := language) phase.attempt o r⟩
  allows phase o := phase.stage.Allows o ∧
    Attempt.Allows (L := language) Makes phase.attempt o
  ends phase := phase.stage.Ends

/-- They tell the attempts. -/
theorem tracks : Tracks watcher Makes Phase.attempt where
  start entry := by cases entry <;> rfl
  next _ _ _ _ := rfl
  allows h := h.2

/-- What is known of a stage when a program has returned or raised. -/
def Stopped {α : Type} (Q : Stage → α → Prop) (stage : Stage) : Except Exc α → Prop
  | .ok a => Q stage a
  | .error _ => stage.Ends

/-- The program goes on in such stages, whatever its attempt has read before; if it
returns, the stage and the value that it returns are related, and if it raises, it has
nothing that it still has to save. -/
def Goes {α : Type} (Q : Stage → α → Prop) (stage : Stage) (p : Coroutine α) : Prop :=
  ∀ attempt,watcher.Follows (fun phase r => Stopped Q phase.stage r) ⟨stage,attempt⟩ p

/-- A request in a transaction has nothing to save. -/
theorem ends_of_updates {stage : Stage} (h : stage.Updates) : stage.Ends := by
  cases stage <;> first | exact True.intro | exact h.elim

/-- Neither has a request after a failure. -/
theorem ends_of_error {stage : Stage} (h : stage.Ends) (attempt : Attempt RoomState)
    (o : Op language) (exc : Exc) : (stage.next attempt o (.error exc)).Ends := by
  unfold Stage.next
  split
  · exact True.intro
  · exact True.intro
  · exact True.intro
  · next hok => cases hok
  · exact h.elim
  · next hok => cases hok
  · exact True.intro
  · exact h

section Parts

variable {α β : Type} {Q : Stage → α → Prop} {B : Stage → β → Prop} {stage : Stage}

theorem goes_pure {a : α} (h : Q stage a) : Goes Q stage (pure a) := fun _ => h

theorem goes_raise {exc : Exc} (h : stage.Ends) : Goes Q stage (.raise exc) := fun _ => h

/-- Sequencing. -/
theorem Goes.bind {p : Coroutine β} {f : β → Coroutine α} (h : Goes B stage p)
    (hf : ∀ stage b,B stage b → Goes Q stage (f b)) : Goes Q stage (p >>= f) := by
  intro attempt
  refine (h attempt).bind ?_ fun _ _ hends => hends
  intro phase b hq
  exact hf phase.stage b hq phase.attempt

/-- An exception may be replaced. -/
theorem Goes.rethrown {p : Coroutine α} (h : Goes Q stage p) (f : Exc → Exc) :
    Goes Q stage (rethrown f p) := by
  intro attempt
  refine (h attempt).andThen ?_
  intro phase r hq
  cases r with
  | ok a => exact hq
  | error exc => exact hq

/-- An operation and what follows it. -/
theorem goes_op {o : Op language} {f : Except Exc o.Res → Coroutine α} (hplain : Plain o)
    (hallows : stage.Allows o)
    (h : ∀ attempt r,Goes Q (stage.next attempt o r) (f r)) : Goes Q stage (.op o f) := by
  intro attempt
  refine ⟨⟨hallows,?_⟩,fun effective r ho => h attempt r _⟩
  match o with
  | .store (.exec _ _ _ _) => exact hplain.elim
  | .store .watch | .store .unwatch | .store .get | .store .load | .store .delete
  | .store (.set _ _ _) | .act _ => exact True.intro

/-- An operation whose result is used. -/
theorem goes_perform {o : Op language} {f : o.Res → Coroutine α} (hplain : Plain o)
    (hends : stage.Ends) (hallows : stage.Allows o)
    (h : ∀ attempt res,Goes Q (stage.next attempt o (.ok res)) (f res)) :
    Goes Q stage (Prog.perform (S := language.sig) o >>= f) := by
  apply goes_op hplain hallows
  intro attempt r
  cases r with
  | error exc => exact goes_raise (ends_of_error hends attempt o exc)
  | ok res => exact h attempt res

/-- Reading leaves the stage. -/
theorem next_read (attempt : Attempt RoomState) (h : stage.Updates) {o : StoreOp RoomState Call}
    (ho : o=.watch ∨ o=.get ∨ o=.unwatch) (r : Except Exc o.Res) :
    stage.next attempt (.store o) r=stage := by
  obtain rfl | rfl | rfl := ho <;> cases stage <;> first | rfl | exact h.elim

/-- So it leaves a transaction with nothing to save. -/
theorem ends_of_read (attempt : Attempt RoomState) (h : stage.Updates) {o : StoreOp RoomState Call}
    (ho : o=.watch ∨ o=.get ∨ o=.unwatch) (r : Except Exc o.Res) :
    (stage.next attempt (.store o) r).Ends := by
  rw [next_read attempt h ho r]
  exact ends_of_updates h

/-- A transaction. The relation says what the stage and the captured variables have to do
with each other. -/
theorem goes_watchAndUpdate {L : Type} {call : Call} {mutator : Mutator L}
    {Q : Stage → L×RoomState → Prop} (I : L → Stage → Prop)
    (hupdates : ∀ c stage,I c stage → stage.Updates ∧ stage.Runs call)
    (hexec : ∀ c stage room c' room',I c stage → mutator c room=.ok (c',room') →
      Makes call room room' ∧ ∀ token n : ℕ,
        I c' (stage.next (.found token room) (.store (.exec token n call room')) (.ok false)) ∧
        Q (stage.next (.found token room) (.store (.exec token n call room')) (.ok true))
          (c',room'))
    {attempts : ℕ} {c : L} (h : I c stage) :
    Goes Q stage (watchAndUpdate call mutator attempts c) := by
  induction attempts generalizing c stage with
  | zero => exact goes_raise (ends_of_updates (hupdates c stage h).1)
  | succ n ih =>
    obtain ⟨hup,hruns⟩ := hupdates c stage h
    have hends := ends_of_updates hup
    intro attempt
    refine ⟨⟨hends,True.intro⟩,fun _ r ho => ?_⟩
    have hwatch := next_read attempt hup (.inl rfl) r
    cases r with
    | error exc => exact ends_of_error hends _ _ exc
    | ok token =>
      refine ⟨⟨ends_of_read attempt hup (.inl rfl) _,True.intro⟩,fun _ r ho => ?_⟩
      dsimp only
      rw [hwatch]
      have hget := next_read (.watched token) hup (.inr (.inl rfl)) r
      rw [show Attempt.next (L := language) attempt (.store .watch) (.ok token)=.watched token by
        cases attempt <;> rfl]
      rw [hget]
      rcases r with exc | _ | room
      · exact hends
      · refine ⟨⟨hends,True.intro⟩,fun _ r ho => ?_⟩
        cases r with
        | error exc => exact ends_of_error hends _ _ exc
        | ok u => exact ends_of_read _ hup (.inr (.inr rfl)) _
      · dsimp only [Prog.bind]
        cases hm : mutator c room with
        | error exc => exact hends
        | ok result =>
          obtain ⟨hmakes,hnext⟩ := hexec c stage room result.1 result.2 h hm
          obtain ⟨hagain,hdone⟩ := hnext token n
          refine ⟨⟨hruns,room,rfl,hmakes⟩,fun _ r ho => ?_⟩
          cases r with
          | error exc => exact ends_of_error hends _ _ exc
          | ok committed =>
            cases committed with
            | true => exact hdone
            | false => exact ih hagain _

end Parts

section Handlers

/-- A program that has nothing to save when it stops. -/
theorem Stopped.ends {α : Type} {stage : Stage} {r : Except Exc α}
    (h : Stopped (fun stage _ => stage.Ends) stage r) : stage.Ends := by
  cases r with
  | ok a => exact h
  | error exc => exact h

/-- join_room, set_character and set_ready. -/
theorem goes_update {call : Call} {mutator : Mutator Unit} (f : Exc → Exc)
    (hcall : (Stage.updating call).Runs call)
    (hmakes : ∀ room room',mutator () room=.ok ((),room') → Makes call room room') {attempts : ℕ} :
    Goes (fun stage _ => stage.Ends) (.updating call)
      (rethrown f (watchAndUpdate call mutator attempts () >>= fun result => pure result.2)) := by
  apply Goes.rethrown
  refine Goes.bind (B := fun stage _ => stage.Ends) ?_ fun _ _ hends => goes_pure hends
  refine goes_watchAndUpdate (fun _ stage => stage=.updating call) ?_ ?_ rfl
  · rintro c stage rfl
    exact ⟨True.intro,hcall⟩
  · rintro c stage room c' room' rfl hm
    exact ⟨hmakes room room' hm,fun token n => ⟨rfl,True.intro⟩⟩

/-- What start_game stashes. -/
theorem stashed_of_mutateStart {playerId : UUID} {c c' : StartCaptured} {room room' : RoomState}
    (h : mutateStart playerId c room=.ok (c',room')) (token : ℕ) :
    stashed (.found token room) c.state room'=c'.state := by
  unfold mutateStart at h
  split at h
  · cases h
  · split at h
    · next hstatus =>
      cases h
      have hopens : opensGame (.found token room)=false := by
        simp [opensGame,Attempt.value,hstatus]
      rw [stashed,hopens]
      rfl
    · next hstatus =>
      split at h
      · cases h
      · dsimp only at h
        split at h
        · cases h
        · cases h
          have hopens : opensGame (.found token room)=true := by
            simp [opensGame,Attempt.value,hstatus]
          rw [stashed,hopens]
          rfl

/-- start_game. -/
theorem goes_startGame (player : Player) (uuid4 : ℕ → UUID) :
    Goes (fun stage _ => stage.Ends) (.starting player.id none) (startGame player uuid4) := by
  refine Goes.bind (B := fun stage result => ∃ own,stage=written own result.1.state result.2)
    ?_ ?_
  · apply Goes.rethrown
    refine goes_watchAndUpdate (fun c stage => stage=.starting player.id c.state) ?_ ?_ rfl
    · rintro c stage rfl
      exact ⟨True.intro,rfl⟩
    · rintro c stage room c' room' rfl hm
      refine ⟨.start hm,fun token n => ⟨?_,opensGame (.found token room),?_⟩⟩
      · exact congrArg (Stage.starting player.id) (stashed_of_mutateStart hm token)
      · exact congrArg (fun state => written (opensGame (.found token room)) state room')
          (stashed_of_mutateStart hm token)
  · rintro stage ⟨captured,room⟩ ⟨own,rfl⟩
    refine Goes.bind (B := fun stage _ => stage.Ends) ?_ ?_
    · unfold saveStarted
      split
      · next hstate =>
        refine goes_pure ?_
        simp only [written,hstate]
        exact True.intro
      · next state hstate =>
        split
        · next hguest =>
          refine goes_raise ?_
          simp only [written,hstate,hguest]
          exact True.intro
        · next guest hguest =>
          refine goes_op (o := .act (.save (sessionOf state room.host guest))) True.intro ?_ ?_
          · refine ⟨own,?_⟩
            simp only [written,hstate,hguest]
          · intro attempt r attempt'
            have hnext : Stage.next attempt (written own captured.state room)
                (.act (.save (sessionOf state room.host guest))) r=.over := by
              simp only [written,hstate,hguest]
              rfl
            rw [hnext]
            cases r <;> exact True.intro
    · intro stage _ hends
      split
      · exact goes_raise hends
      · exact goes_pure hends

/-- leave_room. -/
theorem goes_leaveRoom (player : Player) :
    Goes (fun stage _ => stage.Ends) (.asking player.id) (leaveRoom player) := by
  refine goes_perform (o := .store .load) True.intro True.intro True.intro ?_
  intro attempt found
  cases found with
  | none => exact goes_pure True.intro
  | some room =>
    change Goes _ _ (if !room.isMember player.id then _ else if room.host.id=player.id then _
      else _)
    split
    · refine goes_raise ?_
      change Stage.Ends (if room.host.id=player.id then _ else if room.isMember player.id then _
        else _)
      split
      · exact True.intro
      · split <;> exact True.intro
    · next hmember =>
      rw [Bool.not_eq_true',Bool.not_eq_false] at hmember
      split
      · next hhost =>
        have hstage : Stage.next attempt (.asking player.id) (.store .load) (.ok (some room))=
            .destroying player.id room := if_pos hhost
        rw [hstage]
        refine goes_op (o := .store .delete) True.intro ⟨_,_,rfl⟩ ?_
        intro attempt' r attempt''
        cases r <;> exact True.intro
      · next hhost =>
        have hstage : Stage.next attempt (.asking player.id) (.store .load) (.ok (some room))=
            .leaving player.id room := (if_neg hhost).trans (if_pos hmember)
        rw [hstage]
        have hupdate : Goes (fun stage _ => stage.Ends) (.leaving player.id room)
            (watchAndUpdate (.leave player.id) mutateLeave defaultMaxRetries ()) := by
          refine goes_watchAndUpdate (fun _ stage => stage=.leaving player.id room) ?_ ?_ rfl
          · rintro c stage rfl
            exact ⟨True.intro,rfl⟩
          · rintro c stage before c' after rfl hm
            exact ⟨.leave hm,fun token n => ⟨rfl,True.intro⟩⟩
        intro attempt'
        refine (hupdate attempt').andThen ?_
        intro phase r hstopped
        have hends := hstopped.ends
        split
        · exact hends
        · exact hends
        · exact hends

/-- RoomStore.create. -/
theorem goes_create {code : String} {host : RoomPlayer} (draws : ℕ → Draw) (attempts : ℕ) :
    Goes (fun stage _ => stage.Ends) (.creating code host) (create code host draws attempts) := by
  induction attempts with
  | zero => exact goes_raise True.intro
  | succ n ih =>
    unfold create
    split
    · split
      · exact ih
      · exact goes_pure True.intro
    · refine goes_perform (o := .store (.set true (.create host) (newRoom code host))) True.intro
        True.intro ⟨code,host,rfl,rfl,rfl,rfl⟩ ?_
      intro attempt written
      cases written with
      | true => exact goes_pure True.intro
      | false => exact ih

/-- Every request goes through its stages. -/
theorem handler_follows (entry : Entry) :
    watcher.Follows (fun phase _ => watcher.ends phase) (watcher.start entry) (handler entry) := by
  have hends : ∀ {stage : Stage} {p : Coroutine Unit},Goes (fun stage _ => stage.Ends) stage p →
      watcher.Follows (fun phase _ => watcher.ends phase) ⟨stage,.idle⟩ p :=
    fun h => (h .idle).mono fun _ _ hstopped => hstopped.ends
  have hdiscard : ∀ {α : Type} {stage : Stage} {p : Coroutine α},Goes (fun stage _ => stage.Ends) stage p →
      Goes (fun stage _ => stage.Ends) stage (p >>= fun _ => (pure () : Coroutine Unit)) :=
    fun h => h.bind fun _ _ hends => goes_pure hends
  cases entry with
  | createRoom player code draws => exact hends (goes_create draws _)
  | joinRoom player =>
    exact hends (hdiscard (goes_update joinExc ⟨rfl,True.intro⟩ fun _ _ hm => .join hm))
  | setCharacter player characterId =>
    exact hends (hdiscard (goes_update memberExc ⟨rfl,True.intro⟩ fun _ _ hm => .character hm))
  | setReady player ready =>
    exact hends (hdiscard (goes_update memberExc ⟨rfl,True.intro⟩ fun _ _ hm => .ready hm))
  | startGame player uuid4 => exact hends (hdiscard (goes_startGame player uuid4))
  | leaveRoom player => exact hends (goes_leaveRoom player)

end Handlers

end KiClash.RoomPhases
