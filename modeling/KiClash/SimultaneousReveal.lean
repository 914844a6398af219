import KiClash.HiddenSubmissions

/-!
# The simultaneous reveal

Two runs of the Python workers with the same schedule, in which one frame of
one player's socket holds different actions. As long as the action that has
been accepted from it is pending, and with the move that consumes it, nobody
but the player is sent anything that differs, unless the submission resolves
a pair that an aborted attempt has left behind.
-/

namespace KiClash.SimultaneousReveal

open EngineTypes ServerMessages AsyncTasks WatchedKey VeiledRuns Histories
open GameStore GameSession SessionChronicle SessionTurns SlottedTurns GameHandshake HiddenActions

variable {pairing : Pairing} {seat : Seat}

/-- What is sent to a player: messages for the player, and answers on the player's sockets. -/
def mailbox (player : UUID) : Observer runtime (List TaskId) ServerMessage where
  opened task entry sockets :=
    match entry with
    | .gameWs _ other _ => if other=player then task::sockets else sockets
    | _ => sockets
  sees sockets task
    | .act (.send _ other message) => if other=player then [message] else []
    | .act (.sendJson message) => if task∈sockets then [message] else []
    | _ => []

/-- The messages that a player is sent in a run, in order. -/
def sentTo (player : UUID) (config : workers.Config) (moves : List workers.Move) :
    List ServerMessage :=
  (mailbox player).seen [] config moves

/-- How many frames the handler of a socket has received. -/
def framesReceived (task : TaskId) (trace : List GameStore.Event) : ℕ :=
  trace.countP fun
    | .note (.received other (some _)) => other=task
    | _ => false

/-- The event is the transaction in which a submission is committed that the handler has received
in its frame of this number. -/
def Commits (player : UUID) (task : TaskId) (number : ℕ) (earlier : List GameStore.Event) :
    GameStore.Event → Prop
  | .commit other (.submit player' _ _) _ _ =>
    other=task ∧ player'=player ∧ framesReceived task earlier=number
  | _ => False

instance (player : UUID) (task : TaskId) (number : ℕ) (earlier : List GameStore.Event) :
    ∀ event,Decidable (Commits player task number earlier event)
  | .commit _ (.submit _ _ _) _ _ => inferInstanceAs (Decidable (_ ∧ _ ∧ _))
  | .commit _ (.connect _) _ _ | .commit _ .start _ _ | .commit _ (.resolve _ _) _ _
  | .commit _ (.forfeit _) _ _ | .conflict _ _ _ | .deleted _ | .loaded _ _ | .note _ =>
    instDecidableFalse

/-- The submission has been committed. -/
def Committed (player : UUID) (task : TaskId) (number : ℕ) (trace : List GameStore.Event) : Prop :=
  ¬Meets (fun earlier event => ¬Commits player task number earlier event) trace

instance (player : UUID) (task : TaskId) (number : ℕ) (trace : List GameStore.Event) :
    Decidable (Committed player task number trace) := inferInstanceAs (Decidable (¬_))

/-- What a transaction writes has a pending action of the seat. -/
def Fills (seat : Seat) : GameStore.Event → Prop
  | .commit _ _ _ after => (pending after seat).isSome=true
  | _ => True

instance (seat : Seat) : ∀ event,Decidable (Fills seat event)
  | .commit _ _ _ _ => inferInstanceAs (Decidable (_=_))
  | .conflict _ _ _ | .deleted _ | .loaded _ _ | .note _ => instDecidableTrue

/-- An action of the seat is pending from the commit of the submission on: the pair of the turn
has not been consumed. -/
def StillPending (pairing : Pairing) (seat : Seat) (task : TaskId) (number : ℕ)
    (trace : List GameStore.Event) : Prop :=
  Meets (fun earlier event =>
    Committed (playerOf pairing seat) task number (earlier++[event]) → Fills seat event) trace

instance (task : TaskId) (number : ℕ) (trace : List GameStore.Event) :
    Decidable (StillPending pairing seat task number trace) :=
  inferInstanceAs (Decidable (Meets _ _))

/-- The call of a transaction has no stale pair to resolve. -/
def NoStalePair : GameStore.Event → Prop
  | .commit _ (.submit _ _ stale) _ _ => leavesNoPair stale
  | _ => True

instance : ∀ event,Decidable (NoStalePair event)
  | .commit _ (.submit _ _ stale) _ _ => inferInstanceAs (Decidable (leavesNoPair stale))
  | .commit _ (.connect _) _ _ | .commit _ .start _ _ | .commit _ (.resolve _ _) _ _
  | .commit _ (.forfeit _) _ _ | .conflict _ _ _ | .deleted _ | .loaded _ _ | .note _ =>
    instDecidableTrue

/-- The submission is committed with no pair that an aborted attempt has left to be resolved. -/
def CommitsClean (pairing : Pairing) (seat : Seat) (task : TaskId) (number : ℕ)
    (trace : List GameStore.Event) : Prop :=
  Meets (fun earlier event =>
    Commits (playerOf pairing seat) task number earlier event → NoStalePair event) trace

instance (task : TaskId) (number : ℕ) (trace : List GameStore.Event) :
    Decidable (CommitsClean pairing seat task number trace) :=
  inferInstanceAs (Decidable (Meets _ _))

/-- The socket of a player who is going to send an action after some frames and before others. -/
def socket (pairing : Pairing) (seat : Seat) (worker : Worker) (earlier : List Frame)
    (action : Action) (later : List Frame) : Entry :=
  .gameWs worker (playerOf pairing seat) (earlier++.submitAction action.value::later)

/-- The frames that count. -/
theorem framesReceived_eq (task : TaskId) (number : ℕ) (trace : List GameStore.Event) :
    framesReceived task trace=(frameOf pairing seat task number).taken trace := by
  unfold framesReceived Input.taken
  congr 1
  funext event
  cases event with
  | note note =>
    cases note with
    | received other frame => cases frame <;> rfl
    | started | sent | raised => rfl
  | commit | conflict | deleted | loaded => rfl

/-- A submission that has been committed stays committed. -/
theorem committed_of_commits {player : UUID} {task : TaskId} {number : ℕ}
    {earlier : List GameStore.Event} {event : GameStore.Event}
    (h : Commits player task number earlier event) (later : List GameStore.Event) :
    Committed player task number (earlier++event::later) := fun hmeets => hmeets.at h

/-- What is read off the record is what the two runs need. -/
theorem stays {task : TaskId} {number : ℕ} {trace : List GameStore.Event}
    (hpending : StillPending pairing seat task number trace)
    (hclean : CommitsClean pairing seat task number trace) :
    (frameOf pairing seat task number).Stays trace := by
  rintro earlier event later rfl hwrites
  have hcommits : Commits (playerOf pairing seat) task number earlier event := by
    cases event with
    | commit other call before after =>
      obtain ⟨htask,hcall,htaken⟩ := hwrites
      cases call with
      | submit player action stale => exact ⟨htask,hcall,(framesReceived_eq _ _ _).trans htaken⟩
      | connect | start | resolve | forfeit => exact hcall.elim
    | conflict | deleted | loaded | note => exact hwrites.elim
  have hcovers : ∀ event,Fills seat event → Covers (veil pairing seat) event := by
    intro event hfills
    cases event with
    | commit => exact hfills
    | conflict | deleted | loaded | note => exact True.intro
  refine ⟨?_,hcovers _ (hpending.at (committed_of_commits hcommits [])),fun event' hin => ?_⟩
  · have hstale : NoStalePair event := hclean.at hcommits
    cases event with
    | commit other call before after => cases call <;> exact hstale
    | conflict | deleted | loaded | note => exact True.intro
  · obtain ⟨between,rest,rfl⟩ := List.append_of_mem hin
    have hsplit : earlier++event::(between++event'::rest)=
        (earlier++event::between)++event'::rest := by simp
    unfold StillPending at hpending
    rw [hsplit] at hpending
    refine hcovers _ (hpending.at ?_)
    rw [List.append_assoc]
    exact committed_of_commits hcommits _

section Runs

variable {config config₁ : workers.Config}

/-- The stored session belongs to the pairing. -/
theorem valid_value (hrun : (initial pairing).Reaches config) :
    ∀ session∈config.world.value,BelongsTo pairing session :=
  fun session hs => (chronicle hrun).players session hs

/-- So does every session that a transaction has written. -/
theorem valid_written (hrun : (initial pairing).Reaches config) {task : TaskId} {call : Call}
    {before after : PvPSessionState} (hin : .commit task call before after∈config.world.trace) :
    BelongsTo pairing after := by
  obtain ⟨earlier,-,hbelongs,heffect⟩ := (chronicle hrun).follows.of_mem hin
  exact heffect.belongsTo hbelongs

/-- Every run so far leaves the tasks untouched. -/
theorem untouched (hrun : (initial pairing).Reaches config) :
    Untouched (veil pairing seat) config := by
  have hboth : (initial pairing).Reaches config ∧ Untouched (veil pairing seat) config := by
    refine hrun.keeps (P := fun config => (initial pairing).Reaches config ∧
      Untouched (veil pairing seat) config) ?_ ⟨⟨[],rfl⟩,fun p hp => (nomatch hp),fun _ _ => rfl⟩
    rintro config config' move ⟨⟨moves,hmoves⟩,h⟩ hs
    exact ⟨⟨moves++[move],System.Config.run_concat hmoves hs⟩,
      h.step tame_body (valid_value ⟨moves,hmoves⟩) hs⟩
  exact hboth.2

/-- Nobody but the player can tell apart what looks the same. -/
theorem sees_same {other : UUID} (hother : other≠playerOf pairing seat) (sockets : List TaskId)
    (task : TaskId) (o o' : Op language) (h : SameOp (veil pairing seat) o o') :
    (mailbox other).sees sockets task o=(mailbox other).sees sockets task o' := by
  cases h with
  | same => rfl
  | hidden hidden =>
    cases hidden with
    | send worker message message' =>
      exact (if_neg (Ne.symm hother)).trans (if_neg (Ne.symm hother)).symm
    | receive => rfl
  | exec => rfl

/-- In two runs in which one frame of a player's socket holds different actions, everybody else is
sent the same messages, up to the move that consumes the player's action: as long as the action
that has been accepted is pending in both runs, and in neither it has been committed with a pair
that an aborted attempt of the same call has left to be resolved. -/
theorem sent_alike {before after : List workers.Move} {last : workers.Move} {worker : Worker}
    {earlier later : List Frame} {action action' : Action} {other : UUID}
    (hother : other≠playerOf pairing seat) {opened config config' ended ended' : workers.Config}
    (hopened : (initial pairing).run before=some opened)
    (hrun : (initial pairing).run
      (before++.open (socket pairing seat worker earlier action later)::after)=some config)
    (hrun' : (initial pairing).run
      (before++.open (socket pairing seat worker earlier action' later)::after)=some config')
    (hlast : config.step last=some ended) (hlast' : config'.step last=some ended')
    (hpending : StillPending pairing seat opened.tasks.length (earlier.length+1) config.world.trace)
    (hpending' :
      StillPending pairing seat opened.tasks.length (earlier.length+1) config'.world.trace)
    (hclean : CommitsClean pairing seat opened.tasks.length (earlier.length+1) config.world.trace)
    (hclean' :
      CommitsClean pairing seat opened.tasks.length (earlier.length+1) config'.world.trace) :
    sentTo other (initial pairing)
        (before++.open (socket pairing seat worker earlier action later)::(after++[last]))=
      sentTo other (initial pairing)
        (before++.open (socket pairing seat worker earlier action' later)::(after++[last])) := by
  have hreaches : (initial pairing).Reaches opened := ⟨before,hopened⟩
  have hvalid := valid_value hreaches
  have hpoised : Poised (veil pairing seat)
      (frameOf pairing seat opened.tasks.length (earlier.length+1)).number
      (runtime.body (socket pairing seat worker earlier action later))
      (runtime.body (socket pairing seat worker earlier action' later)) :=
    poised_gameWs earlier later
  have hdiverging := (untouched hreaches).diverging _ rfl hpoised
  refine Observer.seen_append hopened (fun sockets => ?_) []
  have hnext := run_append hrun hopened
  have hnext' := run_append hrun' hopened
  -- both sockets are opened as the same task, and neither belongs to the other player
  have hopens : ∀ action,(mailbox other).opened opened.tasks.length
      (socket pairing seat worker earlier action later) sockets=sockets := by
    intro action
    exact if_neg (Ne.symm hother)
  have hcons : ∀ action,(mailbox other).seen sockets opened
      (.open (socket pairing seat worker earlier action later)::(after++[last]))=
      (mailbox other).seen sockets ⟨opened.world.log (.note (runtime.started opened.tasks.length
          (socket pairing seat worker earlier action later))),
        opened.tasks++[runtime.body (socket pairing seat worker earlier action later)]⟩
        (after++[last]) := by
    intro action
    refine (Observer.seen_cons rfl).trans ?_
    simp only [Observer.seesMove,Observer.knows,hopens,List.nil_append]
  rw [hcons,hcons]
  refine hdiverging.seen conceals tame_body (sees_same hother) hvalid ?_ hnext hnext' hlast hlast'
    (stays hpending hclean) (stays hpending' hclean')
  exact fun _ _ _ _ hin => valid_written ⟨_,hrun⟩ hin

end Runs

/-- The rest of a run of the small pairing: the handler of player 1 submits, the one of player 2
completes the pair and is about to resolve the turn. -/
def bothSubmit : List workers.Move :=
  proceeds 0 8++opens 2 ["block"]::proceeds 1 14++proceeds 0 5++proceeds 1 3

/-- Player 2 is sent the same in both runs, up to the commit that consumes the pair. -/
theorem sent_alike_small :
    sentTo (.small 2) (initial .small) (.open (socket .small .first 0 [] .charge [])::
        (bothSubmit++[.run 1 (.proceed true)]))=
      sentTo (.small 2) (initial .small) (.open (socket .small .first 0 [] .block [])::
        (bothSubmit++[.run 1 (.proceed true)])) := by
  have hcharge : ((initial .small).run
      (.open (socket .small .first 0 [] .charge [])::bothSubmit)).map (fun config =>
        ((config.step (.run 1 (.proceed true))).isSome,
          decide (StillPending .small .first 0 1 config.world.trace),
          decide (CommitsClean .small .first 0 1 config.world.trace)))=some (true,true,true) := by
    decide +kernel
  have hblock : ((initial .small).run
      (.open (socket .small .first 0 [] .block [])::bothSubmit)).map (fun config =>
        ((config.step (.run 1 (.proceed true))).isSome,
          decide (StillPending .small .first 0 1 config.world.trace),
          decide (CommitsClean .small .first 0 1 config.world.trace)))=some (true,true,true) := by
    decide +kernel
  obtain ⟨config,hrun,hview⟩ := Option.map_eq_some_iff.mp hcharge
  obtain ⟨config',hrun',hview'⟩ := Option.map_eq_some_iff.mp hblock
  simp only [Prod.mk.injEq,decide_eq_true_eq] at hview hview'
  obtain ⟨ended,hended⟩ := Option.isSome_iff_exists.mp hview.1
  obtain ⟨ended',hended'⟩ := Option.isSome_iff_exists.mp hview'.1
  have hnothing : (initial .small).run []=some (initial .small) := rfl
  have hother : EngineTypes.UUID.small 2≠playerOf .small .first := by decide
  exact sent_alike hother hnothing hrun hrun' hended hended' hview.2.1 hview'.2.1 hview.2.2
    hview'.2.2

/-- Player 2's action for the first turn is pending when player 1's submission reads the session.
The turn timer submits for player 1 first and resolves the turn, so EXEC fails, and the second
attempt stores the action for the second turn. -/
def overtaken : List workers.Move :=
  proceeds 0 8++opens 2 ["block"]::proceeds 1 19++proceeds 0 3++proceeds 2 9++proceeds 0 11

/-- The pair of the first attempt is resolved as the second turn: player 2, who has not acted in
it, is told player 1's action, while it is pending. -/
theorem stale_pair_reveals : ∃ config config' ended ended' : workers.Config,
    (initial .small).run (.open (socket .small .first 0 [] .charge [])::overtaken)=some config ∧
    (initial .small).run (.open (socket .small .first 0 [] .block [])::overtaken)=some config' ∧
    config.step (.run 0 (.proceed true))=some ended ∧
    config'.step (.run 0 (.proceed true))=some ended' ∧
    StillPending .small .first 0 1 config.world.trace ∧
    StillPending .small .first 0 1 config'.world.trace ∧
    sentTo (.small 2) (initial .small) (.open (socket .small .first 0 [] .charge [])::
        (overtaken++[.run 0 (.proceed true)]))≠
      sentTo (.small 2) (initial .small) (.open (socket .small .first 0 [] .block [])::
        (overtaken++[.run 0 (.proceed true)])) := by
  have hcharge : ((initial .small).run
      (.open (socket .small .first 0 [] .charge [])::overtaken)).map (fun config =>
        ((config.step (.run 0 (.proceed true))).isSome,
          decide (StillPending .small .first 0 1 config.world.trace)))=some (true,true) := by
    decide +kernel
  have hblock : ((initial .small).run
      (.open (socket .small .first 0 [] .block [])::overtaken)).map (fun config =>
        ((config.step (.run 0 (.proceed true))).isSome,
          decide (StillPending .small .first 0 1 config.world.trace)))=some (true,true) := by
    decide +kernel
  obtain ⟨config,hrun,hview⟩ := Option.map_eq_some_iff.mp hcharge
  obtain ⟨config',hrun',hview'⟩ := Option.map_eq_some_iff.mp hblock
  simp only [Prod.mk.injEq,decide_eq_true_eq] at hview hview'
  obtain ⟨ended,hended⟩ := Option.isSome_iff_exists.mp hview.1
  obtain ⟨ended',hended'⟩ := Option.isSome_iff_exists.mp hview'.1
  refine ⟨config,config',ended,ended',hrun,hrun',hended,hended',hview.2,hview'.2,?_⟩
  decide +kernel

end KiClash.SimultaneousReveal
