import KiClash.ConnectionTasks

/-!
# The subscriber task of a connected player

With Redis, whoever has a live socket on a worker should have one subscriber task there,
which passes on what other workers publish for him. connect starts a task only if none is
recorded, but a task that has ended is still recorded until a disconnect, and one that a
disconnect has cancelled takes time to end. If a connect comes to its end only while the
recorded task is in its loop and no other one is left, and Redis does not fail a task whose
player is there, then every live socket is served by exactly one task.
-/

namespace KiClash.Subscribers

open EngineTypes Connections ConnectionTasks

/-- The task has not left its loop. -/
def InLoop (stage : Listening) : Prop := stage≠.unsubscribing ∧ stage≠.ended

instance (stage : Listening) : Decidable (InLoop stage) := inferInstanceAs (Decidable (_ ∧ _))

section States

variable (manager : Manager)

/-- No connect of the player is under way. -/
def Settled (player : UUID) : Prop :=
  ∀ handler∈manager.handlers,handler.player=player → handler.stage≠.accepting ∧ handler.stage≠.closing

/-- Exactly one subscriber task of the player has not ended, and a message that it receives
goes to the socket. -/
def Served (player : UUID) (socket : Socket) : Prop :=
  ∃ task listener,manager.listeners[task]?=some listener ∧ listener.player=player ∧
    listener.stage≠.ended ∧
    (∀ other listener',manager.listeners[other]?=some listener' → listener'.player=player →
      listener'.stage≠.ended → other=task) ∧
    ∀ message,listener.stage=.polling → manager.step true (.listens task (.message message))=
      some {manager with
        listeners := manager.listeners.set task
          {listener with stage := .forwarding socket message}}

/-- Every live socket of a player who is not just connecting is served. -/
def AllServed : Prop :=
  ∀ player socket,manager.route player=some socket → Settled manager player →
    Served manager player socket

/-- The handler whose connect comes to its end with the move. -/
def registering : Move → Option Handler
  | .accepted socket true => (manager.handlers[socket]?).filter fun handler =>
    handler.stage=.accepting ∧ (manager.route handler.player).isSome=false
  | .closed socket => (manager.handlers[socket]?).filter fun handler => handler.stage=.closing
  | _ => none

/-- The tasks of the player that have not ended are recorded, and the recorded one is in its
loop. -/
def Attended (player : UUID) : Prop :=
  ∀ task< manager.listeners.length,∀ listener∈manager.listeners[task]?,listener.player=player →
    (listener.stage≠.ended → manager.subscribers player=some task) ∧
    (manager.subscribers player=some task → InLoop listener.stage)

/-- The move is one that Redis fails in a task whose player has a live socket. -/
def fails : Move → Bool
  | .listens task .raises => (manager.listeners[task]?).any fun listener =>
    (listener.stage=.subscribing ∨ listener.stage=.polling) ∧ listener.cancelled=false ∧
      (manager.route listener.player).isSome=true
  | _ => false

/-- connect comes to its end only while no task but the recorded one is left and that is in
its loop, and Redis does not fail the task of a live socket. -/
def Steady (move : Move) : Prop :=
  (∀ handler∈registering manager move,Attended manager handler.player) ∧ fails manager move=false

instance (player : UUID) : Decidable (Attended manager player) :=
  inferInstanceAs (Decidable (∀ task< manager.listeners.length,_))

instance (move : Move) : Decidable (Steady manager move) := inferInstanceAs (Decidable (_ ∧ _))

end States

variable {manager manager' : Manager} {move : Move} {player : UUID} {socket : Socket}

/-- Where a message for a player is sent. -/
theorem route_eq_some : manager.route player=some socket ↔
    manager.registry.connections player=some socket ∧ manager.connected socket=true := by
  unfold Manager.route
  exact Option.filter_eq_some_iff

/-- What is known of the tasks. -/
structure Watched (manager : Manager) : Prop where
  /-- The registered sockets have come through connect. -/
  registered : ∀ player socket,manager.registry.connections player=some socket →
    ∃ handler,manager.handlers[socket]?=some handler ∧ handler.stage≠.accepting ∧
      handler.stage≠.closing
  /-- The recorded tasks have not been cancelled. -/
  recorded : ∀ player task,manager.subscribers player=some task →
    ∃ listener,manager.listeners[task]?=some listener ∧ listener.player=player ∧
      listener.cancelled=false
  /-- A live socket has a task in its loop, and no other one is left. -/
  watched : ∀ player socket,manager.route player=some socket →
    ∃ task listener,manager.subscribers player=some task ∧
      manager.listeners[task]?=some listener ∧ InLoop listener.stage ∧
      ∀ other listener',manager.listeners[other]?=some listener' → listener'.player=player →
        listener'.stage≠.ended → other=task

/-- Nothing is wrong when nobody is connected. -/
theorem watched_initial : Watched .initial where
  registered _ _ hregistered := nomatch hregistered
  recorded _ _ hrecorded := nomatch hrecorded
  watched _ _ hroute := nomatch hroute

/-- Handlers that go on without touching the maps, where no registered socket comes to
life. -/
theorem Watched.handlers (h : Watched manager) {handlers : List Handler}
    (hkeeps : ∀ (socket : Socket) (handler : Handler),manager.handlers[socket]?=some handler →
      handler.stage≠.accepting → handler.stage≠.closing →
      ∃ handler',handlers[socket]?=some handler' ∧ handler'.stage≠.accepting ∧
        handler'.stage≠.closing ∧ (handler'.client=.connected → handler.client=.connected)) :
    Watched {manager with handlers := handlers} where
  registered player socket hregistered := by
    obtain ⟨handler,hsocket,haccepting,hclosing⟩ := h.registered player socket hregistered
    obtain ⟨handler',hsocket',haccepting',hclosing',-⟩ :=
      hkeeps socket handler hsocket haccepting hclosing
    exact ⟨handler',hsocket',haccepting',hclosing'⟩
  recorded := h.recorded
  watched player socket hroute := by
    obtain ⟨hregistered,hconnected⟩ := route_eq_some.mp hroute
    have hregistered : manager.registry.connections player=some socket := hregistered
    obtain ⟨handler,hsocket,haccepting,hclosing⟩ := h.registered player socket hregistered
    obtain ⟨handler',hsocket',-,-,hclient⟩ := hkeeps socket handler hsocket haccepting hclosing
    have hlive : handler'.client=.connected := by
      simpa [Manager.connected,hsocket'] using hconnected
    have hbefore : manager.connected socket=true := by
      simp [Manager.connected,hsocket,hclient hlive]
    exact h.watched player socket (route_eq_some.mpr ⟨hregistered,hbefore⟩)

/-- One handler goes on so. -/
theorem Watched.moves (h : Watched manager) {handler handler' : Handler}
    (hsocket : manager.handlers[socket]?=some handler)
    (hstage : handler.stage≠.accepting → handler.stage≠.closing →
      handler'.stage≠.accepting ∧ handler'.stage≠.closing ∧
        (handler'.client=.connected → handler.client=.connected)) :
    Watched (manager.moves socket handler') := by
  apply h.handlers
  intro other handler₁ hother haccepting hclosing
  by_cases he : other=socket
  · subst he
    cases hsocket.symm.trans hother
    obtain ⟨haccepting',hclosing',hclient⟩ := hstage haccepting hclosing
    have hlt := (List.getElem?_eq_some_iff.mp hsocket).1
    exact ⟨handler',List.getElem?_set_self hlt,haccepting',hclosing',hclient⟩
  · exact ⟨handler₁,(List.getElem?_set_ne (Ne.symm he)).trans hother,haccepting,hclosing,id⟩

/-- A disconnect leaves the other players alone. -/
theorem Watched.disconnect (h : Watched manager) (player : UUID) :
    Watched (manager.disconnect player) := by
  have hnone : (manager.disconnect player).registry.connections player=none := by
    simp [Manager.disconnect,Registry.disconnect]
  have hconnections : ∀ other,other≠player →
      (manager.disconnect player).registry.connections other=manager.registry.connections other := by
    intro other hne
    simp [Manager.disconnect,Registry.disconnect,hne]
  have hsubscribers : ∀ other task,(manager.disconnect player).subscribers other=some task →
      other≠player ∧ manager.subscribers other=some task := by
    intro other task hother
    by_cases hne : other=player
    · subst hne
      simp [Manager.disconnect] at hother
    · exact ⟨hne,by simpa [Manager.disconnect,hne] using hother⟩
  -- only the recorded task of the player is marked
  have hlisteners : ∀ (task : ℕ) (listener : Listener),
      (manager.disconnect player).listeners[task]?=some listener →
      ∃ before,manager.listeners[task]?=some before ∧ listener.player=before.player ∧
        listener.stage=before.stage ∧
        (before.player≠player → listener=before) := by
    intro task listener hlistener
    unfold Manager.disconnect at hlistener
    dsimp only at hlistener
    split at hlistener
    · exact ⟨listener,hlistener,rfl,rfl,fun _ => rfl⟩
    · next recorded hrecorded =>
      obtain ⟨marked,hmarked,hplayer,-⟩ := h.recorded player recorded hrecorded
      rw [List.getElem?_modify] at hlistener
      obtain ⟨before,hbefore,hafter⟩ := Option.map_eq_some_iff.mp hlistener
      refine ⟨before,hbefore,?_⟩
      split at hafter
      · next hsame =>
        subst hsame
        cases hmarked.symm.trans hbefore
        split at hafter
        · cases hafter
          exact ⟨rfl,rfl,fun _ => rfl⟩
        · cases hafter
          exact ⟨rfl,rfl,fun hne => absurd hplayer hne⟩
      · cases hafter
        exact ⟨rfl,rfl,fun _ => rfl⟩
  have hothers : ∀ (task : ℕ) (listener : Listener),manager.listeners[task]?=some listener →
      listener.player≠player → (manager.disconnect player).listeners[task]?=some listener := by
    intro task listener hlistener hne
    unfold Manager.disconnect
    dsimp only
    split
    · exact hlistener
    · next recorded hrecorded =>
      obtain ⟨marked,hmarked,hplayer,-⟩ := h.recorded player recorded hrecorded
      rw [List.getElem?_modify,hlistener]
      have hother : recorded≠task := by
        rintro rfl
        cases hmarked.symm.trans hlistener
        exact hne hplayer
      simp [hother]
  constructor
  · intro other socket hregistered
    by_cases hne : other=player
    · rw [hne,hnone] at hregistered
      cases hregistered
    · rw [hconnections other hne] at hregistered
      exact h.registered other socket hregistered
  · intro other task hrecorded
    obtain ⟨hne,hrecorded⟩ := hsubscribers other task hrecorded
    obtain ⟨listener,hlistener,hplayer,hcancelled⟩ := h.recorded other task hrecorded
    exact ⟨listener,hothers task listener hlistener (hplayer ▸ hne),hplayer,hcancelled⟩
  · intro other socket hroute
    obtain ⟨hregistered,hconnected⟩ := route_eq_some.mp hroute
    by_cases hne : other=player
    · rw [hne,hnone] at hregistered
      cases hregistered
    · rw [hconnections other hne] at hregistered
      obtain ⟨task,listener,hrecorded,hlistener,hloop,halone⟩ :=
        h.watched other socket (route_eq_some.mpr ⟨hregistered,hconnected⟩)
      obtain ⟨marked,hmarked,hplayer,-⟩ := h.recorded other task hrecorded
      cases hmarked.symm.trans hlistener
      refine ⟨task,listener,?_,hothers task listener hlistener (hplayer ▸ hne),hloop,?_⟩
      · simpa [Manager.disconnect,hne] using hrecorded
      · intro task' listener' hlistener' hplayer' hstage'
        obtain ⟨before,hbefore,hsame,hstage,-⟩ := hlisteners task' listener' hlistener'
        exact halone task' before hbefore (hsame ▸ hplayer') (hstage ▸ hstage')

section Registering

variable {handler' : Handler}

/-- What a connect registers at its end. -/
theorem register_registry : (manager.register true socket handler').registry=
    manager.registry.connect socket handler'.room handler'.player := by
  unfold Manager.register
  split <;> rfl

/-- Its handler comes to serve. -/
theorem register_handlers : (manager.register true socket handler').handlers=
    manager.handlers.set socket {handler' with stage := .serving} := by
  unfold Manager.register
  split <;> rfl

/-- The others keep their sockets. -/
theorem connections_register (hne : player≠handler'.player) :
    (manager.register true socket handler').registry.connections player=
      manager.registry.connections player := by
  simp [register_registry,Registry.connect,hne]

/-- The tasks that have been recorded are still recorded. -/
theorem recorded_register {task : ℕ} (hrecorded : manager.subscribers player=some task) :
    (manager.register true socket handler').subscribers player=some task := by
  unfold Manager.register
  split
  · next hnew =>
    have hne : player≠handler'.player := by
      rintro rfl
      cases hrecorded.symm.trans hnew.2
    simpa [hne] using hrecorded
  · exact hrecorded

/-- They are still there. -/
theorem listener_register {task : ℕ} {listener : Listener}
    (hlistener : manager.listeners[task]?=some listener) :
    (manager.register true socket handler').listeners[task]?=some listener := by
  unfold Manager.register
  split
  · exact (List.getElem?_append_left (List.getElem?_eq_some_iff.mp hlistener).1).trans hlistener
  · exact hlistener

/-- If none is recorded, there is a new one. -/
theorem starts_register (hnone : manager.subscribers handler'.player=none) :
    (manager.register true socket handler').subscribers handler'.player=
        some manager.listeners.length ∧
      (manager.register true socket handler').listeners[manager.listeners.length]?=
        some ⟨handler'.player,.starting,false⟩ := by
  rw [Manager.register,if_pos ⟨rfl,hnone⟩]
  exact ⟨Function.update_self ..,by simp⟩

/-- A task has been there before or is the new one. -/
theorem of_listener_register {task : ℕ} {listener : Listener}
    (hlistener : (manager.register true socket handler').listeners[task]?=some listener) :
    manager.listeners[task]?=some listener ∨
      manager.subscribers handler'.player=none ∧ task=manager.listeners.length ∧
        listener=⟨handler'.player,.starting,false⟩ := by
  unfold Manager.register at hlistener
  split at hlistener
  · next hnone =>
    obtain hlt | hge := lt_or_ge task manager.listeners.length
    · exact .inl ((List.getElem?_append_left hlt).symm.trans hlistener)
    · rw [List.getElem?_append_right hge,List.getElem?_singleton] at hlistener
      split at hlistener
      · cases hlistener
        exact .inr ⟨hnone.2,by omega,rfl⟩
      · cases hlistener
  · exact .inl hlistener

/-- So has a record. -/
theorem of_recorded_register {task : ℕ}
    (hrecorded : (manager.register true socket handler').subscribers player=some task) :
    manager.subscribers player=some task ∨
      player=handler'.player ∧ manager.subscribers handler'.player=none ∧
        task=manager.listeners.length := by
  by_cases hnone : manager.subscribers handler'.player=none
  · by_cases hne : player=handler'.player
    · subst hne
      exact .inr ⟨rfl,hnone,(Option.some.inj ((starts_register hnone).1.symm.trans hrecorded)).symm⟩
    · rw [Manager.register,if_pos ⟨rfl,hnone⟩] at hrecorded
      exact .inl ((Function.update_of_ne hne ..).symm.trans hrecorded)
  · rw [Manager.register,if_neg (fun hcreates => hnone hcreates.2)] at hrecorded
    exact .inl hrecorded

/-- Nobody's registered socket is one that connects. -/
theorem Watched.fresh (h : Watched manager) {handler : Handler}
    (hsocket : manager.handlers[socket]?=some handler)
    (hstage : handler.stage=.accepting ∨ handler.stage=.closing) (player : UUID) :
    manager.registry.connections player≠some socket := by
  intro hregistered
  obtain ⟨before,hbefore,haccepting,hclosing⟩ := h.registered player socket hregistered
  cases hsocket.symm.trans hbefore
  exact hstage.elim haccepting hclosing

/-- The player who connects has a task in its loop, and no other one is left. -/
theorem Watched.connecting (h : Watched manager) (hattended : Attended manager handler'.player) :
    ∃ task listener,
      (manager.register true socket handler').subscribers handler'.player=some task ∧
      (manager.register true socket handler').listeners[task]?=some listener ∧
      InLoop listener.stage ∧
      ∀ other listener',
        (manager.register true socket handler').listeners[other]?=some listener' →
        listener'.player=handler'.player → listener'.stage≠.ended → other=task := by
  have hattend : ∀ (task : ℕ) (listener : Listener),manager.listeners[task]?=some listener →
      listener.player=handler'.player →
      (listener.stage≠.ended → manager.subscribers handler'.player=some task) ∧
      (manager.subscribers handler'.player=some task → InLoop listener.stage) :=
    fun task listener hlistener =>
      hattended task (List.getElem?_eq_some_iff.mp hlistener).1 listener hlistener
  cases hsubscriber : manager.subscribers handler'.player with
  | some task =>
    obtain ⟨listener,hlistener,hlistens,-⟩ := h.recorded _ task hsubscriber
    refine ⟨task,listener,recorded_register hsubscriber,listener_register hlistener,
      (hattend task listener hlistener hlistens).2 hsubscriber,?_⟩
    intro other listener' hother hplayer' hstage'
    obtain hbefore | ⟨hnone,-⟩ := of_listener_register hother
    · cases hsubscriber.symm.trans ((hattend other listener' hbefore hplayer').1 hstage')
      rfl
    · cases hsubscriber.symm.trans hnone
  | none =>
    have hstarts : InLoop .starting := by decide
    refine ⟨manager.listeners.length,_,(starts_register hsubscriber).1,
      (starts_register hsubscriber).2,hstarts,?_⟩
    intro other listener' hother hplayer' hstage'
    obtain hbefore | ⟨-,hlast,-⟩ := of_listener_register hother
    · cases hsubscriber.symm.trans ((hattend other listener' hbefore hplayer').1 hstage')
    · exact hlast

/-- A connect that comes to its end while the player is attended. -/
theorem Watched.register (h : Watched manager) {handler : Handler}
    (hsocket : manager.handlers[socket]?=some handler)
    (hstage : handler.stage=.accepting ∨ handler.stage=.closing)
    (hattended : Attended manager handler'.player) :
    Watched (manager.register true socket handler') := by
  have hlt := (List.getElem?_eq_some_iff.mp hsocket).1
  have hfresh := h.fresh hsocket hstage
  constructor
  · intro player socket' hregistered
    by_cases hplayer : player=handler'.player
    · subst hplayer
      rw [register_registry] at hregistered
      cases (Function.update_self ..).symm.trans hregistered
      rw [register_handlers]
      refine ⟨_,List.getElem?_set_self hlt,?_,?_⟩ <;> simp
    · rw [connections_register hplayer] at hregistered
      obtain ⟨before,hbefore,hpast⟩ := h.registered player socket' hregistered
      have hne : socket≠socket' := by
        rintro rfl
        exact hfresh player hregistered
      rw [register_handlers,List.getElem?_set_ne hne]
      exact ⟨before,hbefore,hpast⟩
  · intro player task hrecorded
    obtain hbefore | ⟨rfl,hnone,rfl⟩ := of_recorded_register hrecorded
    · obtain ⟨listener,hlistener,hrest⟩ := h.recorded player task hbefore
      exact ⟨listener,listener_register hlistener,hrest⟩
    · exact ⟨_,(starts_register hnone).2,rfl,rfl⟩
  · intro player socket' hroute
    obtain ⟨hregistered,hconnected⟩ := route_eq_some.mp hroute
    by_cases hplayer : player=handler'.player
    · subst hplayer
      exact h.connecting hattended
    · rw [connections_register hplayer] at hregistered
      have hne : socket≠socket' := by
        rintro rfl
        exact hfresh player hregistered
      have hlive : manager.connected socket'=true := by
        rw [Manager.connected,register_handlers,List.getElem?_set_ne hne] at hconnected
        exact hconnected
      obtain ⟨task,listener,htask,hlistener,hloop,halone⟩ :=
        h.watched player socket' (route_eq_some.mpr ⟨hregistered,hlive⟩)
      refine ⟨task,listener,recorded_register htask,listener_register hlistener,hloop,?_⟩
      intro other listener' hother hplayer' hstage'
      obtain hbefore | ⟨-,-,rfl⟩ := of_listener_register hother
      · exact halone other listener' hbefore hplayer' hstage'
      · exact absurd hplayer'.symm hplayer

end Registering

/-- The loop goes on while the player has a live socket. -/
theorem loop_polls (h : manager.route player=some socket) : manager.loop player=.polling := by
  rw [Manager.loop,h]

/-- A task in its loop stays there while the player has a live socket and Redis does not
fail it. -/
theorem inLoop_next {listener : Listener} {poll : Poll} (hloop : InLoop listener.stage)
    (hroute : manager.route player=some socket)
    (hpoll : poll=.raises → listener.stage≠.subscribing ∧ listener.stage≠.polling) :
    InLoop (listener.stage.next manager player poll) := by
  have hpolls : InLoop (manager.loop player) := by
    rw [loop_polls hroute]
    exact ⟨nofun,nofun⟩
  cases hstage : listener.stage with
  | starting => exact ⟨nofun,nofun⟩
  | subscribing =>
    change InLoop (if poll=.raises then .unsubscribing else manager.loop player)
    by_cases hraises : poll=.raises
    · exact absurd hstage (hpoll hraises).1
    · rw [if_neg hraises]
      exact hpolls
  | polling =>
    cases poll with
    | raises => exact absurd hstage (hpoll rfl).2
    | nothing => exact hpolls
    | message message =>
      rw [Listening.next,hroute]
      exact ⟨nofun,nofun⟩
  | forwarding socket message => exact hpolls
  | unsubscribing => exact absurd hstage hloop.1
  | ended => exact absurd hstage hloop.2

/-- A task that goes on while Redis does not fail it. -/
theorem Watched.listens (h : Watched manager) {task : ℕ} {poll : Poll} {listener : Listener}
    (htask : manager.listeners[task]?=some listener) (hstage : listener.stage≠.ended)
    (hfails : fails manager (.listens task poll)=false) :
    Watched {manager with
      listeners := manager.listeners.set task
        {listener with
          stage := if listener.cancelled then listener.stage.cancel
            else listener.stage.next manager listener.player poll
          cancelled := false}} := by
  have hlt := (List.getElem?_eq_some_iff.mp htask).1
  constructor
  · exact h.registered
  · intro player task' hrecorded
    obtain ⟨before,hbefore,hplayer,hcancelled⟩ := h.recorded player task' hrecorded
    by_cases he : task=task'
    · subst he
      cases htask.symm.trans hbefore
      exact ⟨_,List.getElem?_set_self hlt,hplayer,rfl⟩
    · exact ⟨before,(List.getElem?_set_ne he).trans hbefore,hplayer,hcancelled⟩
  · intro player socket hafter
    have hroute : manager.route player=some socket := hafter
    obtain ⟨recorded,before,hrecorded,hbefore,hloop,halone⟩ := h.watched player socket hroute
    obtain ⟨before',hbefore',hplayer,hcancelled⟩ := h.recorded player recorded hrecorded
    cases hbefore.symm.trans hbefore'
    have hothers : ∀ (other : ℕ) (listener' : Listener),
        (manager.listeners.set task
          {listener with
            stage := if listener.cancelled then listener.stage.cancel
              else listener.stage.next manager listener.player poll
            cancelled := false})[other]?=some listener' →
        listener'.player=player → listener'.stage≠.ended → other=recorded := by
      intro other listener' hother hplayer' hstage'
      by_cases he : task=other
      · subst he
        cases (List.getElem?_set_self hlt).symm.trans hother
        exact halone task listener htask hplayer' hstage
      · exact halone other listener' ((List.getElem?_set_ne he).symm.trans hother) hplayer' hstage'
    by_cases he : task=recorded
    · subst he
      cases htask.symm.trans hbefore
      refine ⟨task,_,hrecorded,List.getElem?_set_self hlt,?_,hothers⟩
      dsimp only
      rw [hcancelled,if_neg Bool.false_ne_true,hplayer]
      refine inLoop_next hloop hroute ?_
      rintro rfl
      have hlive : (manager.route listener.player).isSome=true := by rw [hplayer,hroute]; rfl
      simp only [fails,htask,Option.any_some,hcancelled,hlive,and_true,decide_eq_false_iff_not,
        not_or] at hfails
      exact hfails
    · exact ⟨recorded,before,hrecorded,(List.getElem?_set_ne he).trans hbefore,hloop,hothers⟩

/-- The step lemma of a steady run. -/
theorem Watched.step (h : Watched manager) (hsteady : Steady manager move)
    (hs : manager.step true move=some manager') : Watched manager' := by
  obtain ⟨hattended,hfails⟩ := hsteady
  cases moved hs with
  | opened player room =>
    apply h.handlers
    intro socket handler hsocket haccepting hclosing
    have hlt := (List.getElem?_eq_some_iff.mp hsocket).1
    exact ⟨handler,(List.getElem?_append_left hlt).trans hsocket,haccepting,hclosing,id⟩
  | refused socket handler hsocket hstage =>
    exact h.moves hsocket fun haccepting => absurd hstage haccepting
  | superseding socket handler hsocket hstage =>
    exact h.moves hsocket fun haccepting => absurd hstage haccepting
  | registered _ socket handler handler' hsocket hplayer hroom hmove =>
    have hattends : Attended manager handler'.player := by
      rw [hplayer]
      obtain ⟨rfl,hstage,hroute⟩ | ⟨rfl,hstage⟩ := hmove
      · have hnone : manager.route handler.player=none := by simpa using hroute
        refine hattended handler ?_
        simp [registering,hsocket,hstage,hnone]
      · refine hattended handler ?_
        simp [registering,hsocket,hstage]
    exact h.register hsocket (hmove.imp (·.2.1) (·.2)) hattends
  | dropped socket handler hsocket =>
    exact h.moves hsocket fun haccepting hclosing => ⟨haccepting,hclosing,nofun⟩
  | left socket handler hsocket hstage =>
    have hends : Watched (manager.moves socket {handler with stage := .ended}) :=
      h.moves hsocket fun _ _ => ⟨nofun,nofun,id⟩
    exact hends.disconnect handler.player
  | crashed socket handler hsocket hstage =>
    exact h.moves hsocket fun _ _ => ⟨nofun,nofun,id⟩
  | given player => exact h.disconnect player
  | listened task poll listener htask hstage => exact h.listens htask hstage hfails

/-- What is known of the tasks serves the live sockets. -/
theorem Watched.served (h : Watched manager) : AllServed manager := by
  intro player socket hroute _
  obtain ⟨task,listener,hrecorded,hlistener,hloop,halone⟩ := h.watched player socket hroute
  obtain ⟨before,hbefore,hplayer,hcancelled⟩ := h.recorded player task hrecorded
  cases hlistener.symm.trans hbefore
  refine ⟨task,listener,hlistener,hplayer,hloop.2,halone,?_⟩
  intro message hpolling
  simp only [Manager.step,hlistener,Option.bind_some,hpolling,reduceCtorEq,hcancelled,
    Bool.false_eq_true,if_false,Listening.next,hplayer,hroute]

/-- In every steady run of a worker with Redis, a live socket is served by exactly one
subscriber task whenever no connect of its player is under way. -/
theorem served_of_steady (moves : List Move) (manager : Manager)
    (hrun : Manager.initial.run true moves=some manager)
    (hsteady : ∀ moment∈Manager.initial.moments true moves,Steady moment.1 moment.2) :
    AllServed manager := by
  have hall : ∀ (moves : List Move) (first : Manager),Watched first →
      first.run true moves=some manager →
      (∀ moment∈first.moments true moves,Steady moment.1 moment.2) → Watched manager := by
    intro moves
    induction moves with
    | nil =>
      intro first h hrun _
      cases hrun
      exact h
    | cons move moves ih =>
      intro first h hrun hsteady
      obtain ⟨second,hs,hrest⟩ := Option.bind_eq_some_iff.mp hrun
      simp only [Manager.moments,hs] at hsteady
      exact ih second (h.step (hsteady _ List.mem_cons_self) hs) hrest
        fun moment hmoment => hsteady moment (List.mem_cons_of_mem _ hmoment)
  exact (hall moves .initial watched_initial hrun hsteady).served

/-- Player 1 connects, and his task comes to poll. -/
def subscribes : List Move :=
  [.opens (.small 1) "game",.accepted 0 true,.listens 0 .nothing,.listens 0 .nothing]

/-- His socket is served then. -/
theorem subscribes_served : ∃ manager,Manager.initial.run true subscribes=some manager ∧
    manager.route (.small 1)=some 0 ∧ AllServed manager := by
  have hrun : (Manager.initial.run true subscribes).map (·.route (.small 1))=some (some 0) := by
    decide
  obtain ⟨manager,hmanager,hroute⟩ := Option.map_eq_some_iff.mp hrun
  have hsteady : ∀ moment∈Manager.initial.moments true subscribes,Steady moment.1 moment.2 := by
    decide
  exact ⟨manager,hmanager,hroute,served_of_steady subscribes manager hmanager hsteady⟩

/-- His peer is gone, and the task ends before his handler comes to its disconnect. He is
back then. -/
def comesBack : List Move :=
  subscribes++[.drops 0,.listens 0 .nothing,.listens 0 .nothing,.opens (.small 1) "game",
    .accepted 1 true]

/-- The task that has ended is still recorded, and nothing serves the new socket. -/
theorem new_socket_unserved : ¬∀ moves manager,
    Manager.initial.run true moves=some manager → AllServed manager := by
  intro h
  have hrun : (Manager.initial.run true comesBack).map (fun manager =>
      (manager.route (.small 1),manager.listeners,
        manager.handlers.all fun handler => handler.stage=.serving))=
      some (some 1,[⟨.small 1,.ended,false⟩],true) := by decide
  obtain ⟨manager,hmanager,hview⟩ := Option.map_eq_some_iff.mp hrun
  obtain ⟨hroute,hview⟩ := Prod.mk.inj hview
  obtain ⟨hlisteners,hserving⟩ := Prod.mk.inj hview
  have hsettled : Settled manager (.small 1) := by
    intro handler hhandler _
    have hstage := of_decide_eq_true (List.all_eq_true.mp hserving handler hhandler)
    rw [hstage]
    exact ⟨nofun,nofun⟩
  obtain ⟨task,listener,hlistener,-,hstage,-⟩ :=
    h comesBack manager hmanager (.small 1) 1 hroute hsettled
  rw [hlisteners] at hlistener
  obtain ⟨hzero,rfl⟩ : task=0 ∧ listener=⟨.small 1,.ended,false⟩ := by
    rw [List.getElem?_singleton] at hlistener
    split at hlistener
    · next hzero =>
      cases hlistener
      exact ⟨hzero,rfl⟩
    · cases hlistener
  exact hstage rfl

end KiClash.Subscribers
