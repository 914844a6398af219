import KiClash.GoPresence

/-!
# The pause while a player is away, in the Go session

A handler that has removed a player cancels the turn timer of its own instance.
The match is paused by this if no other turn timer is armed anywhere, and if
nobody goes on with a session that he has read before the player left: prompts,
new turn timers and the actions that a timer submits all rest on an earlier read,
and nothing looks at the connected players again.
-/

namespace KiClash.GoPauses

open GoTypes ServerMessages AsyncTasks WatchedKey TaskPhases TransactionReads Histories
open GameStore (Pairing)
open GoSessionContracts (p1Of p2Of IsPlayer Belongs)
open GoStore GoSession GoPhases GoTransactions GoPresence

/-- A prompt is sent, a turn timer is armed, or a turn timer submits an action. -/
def continues (performed : Performed watcher) : Bool :=
  match performed.phase,performed.op,performed.effective with
  | _,.act (.send _ _ message),_ => message.isPrompt
  | _,.act (.setTurnTimeout _),_ => true
  | .turnTimer _ _,.store (.exec _ _ (.submit _ _ _) _),true => true
  | _,_,_ => false

/-- A goroutine reads the session; the value says whether both are connected. -/
def loads (task : GoroutineId) (performed : Performed watcher) : Option Bool :=
  if performed.task=task then
    match performed.op,performed.result with
    | .store .load,.ok (some sess) => some (bothConnected sess)
    | _,_ => none
  else none

/-- The session that the goroutine has read last has shown both players, and no
disconnect transaction has committed since. -/
def attentive (task : GoroutineId) (history : List Moment) : Bool :=
  history.foldl (fun attentive moment =>
    match moment.1.performed moment.2 with
    | none => attentive
    | some performed => ((loads task performed).getD attentive) && !removes performed) false

/-- The handler that has removed the player from the session last. -/
def removedBy (player : String) (history : List Moment) : Option GoroutineId :=
  history.foldl (fun handler moment =>
    match moment.1.performed moment.2 with
    | none => handler
    | some performed =>
      if disconnects player performed && connectedIn player moment.1.config then
        some performed.task
      else handler) none

/-- A turn timer is armed: it waits and has not been cancelled. -/
def armed (seen : Seen watcher) (timer : GoroutineId) : Bool :=
  (seen.phases[timer]?.any fun phase => match phase with
    | .turnTimer _ .waiting => true
    | _ => false) && timer∉seen.config.world.memory.cancelled

/-- The match has started and is in progress, and the player is absent. -/
def away (player : String) (config : instances.Config) : Bool :=
  config.world.value.any fun sess =>
    sess.started && sess.gameState.status=matchInProgress && !sess.hasConnected player

/-- The handler has removed its player and is to cancel the turn timer. -/
def pausing (seen : Seen watcher) (handler : GoroutineId) : Bool :=
  seen.phases[handler]?.any fun phase => match phase with
    | .socket _ _ .pausing _ => true
    | _ => false

/-- A player is away, and the handler that has removed him is past the turn timer. -/
def Paused (pairing : Pairing) (history : List Moment) (seen : Seen watcher) : Prop :=
  ∃ player,IsPlayer pairing player ∧ away player seen.config=true ∧
    ∃ handler,removedBy player history=some handler ∧ pausing seen handler=false

/-- The instance on which a handler that has removed its player cancels the turn
timer while the player is away. -/
def pauses (seen : Seen watcher) (performed : Performed watcher) : Option Instance :=
  match performed.phase,performed.op with
  | .socket _ player .pausing _,.act (.cancelTurnTimeout instance') =>
    if away player seen.config then some instance' else none
  | _,_ => none

/-- A handler fails after its disconnect transaction has been written. -/
def fallsShort (performed : Performed watcher) : Bool :=
  match performed.phase,performed.phase.next performed.op performed.effective performed.result with
  | .socket _ _ .leaving _,.socket _ _ (.gone true) _ => true
  | .socket _ _ .pausing _,.socket _ _ (.gone true) _ => true
  | _,_ => false

/-- Whoever goes on has read the session since both players are connected; a
handler that pauses the match finds no turn timer but the one it cancels; and it
does not fail before. -/
def Careful (history : List Moment) (moment : Moment) : Prop :=
  ∀ performed∈moment.1.performed moment.2,
    (continues performed=true → attentive performed.task history=true) ∧
    (∀ instance'∈pauses moment.1 performed,∀ timer < moment.1.phases.length,
      armed moment.1 timer=true →
        moment.1.config.world.memory.timeoutTasks instance'=some timer) ∧
    fallsShort performed=false

instance (history : List Moment) (moment : Moment) : Decidable (Careful history moment) := by
  unfold Careful
  infer_instance

/-- Prompts, turn timers and the actions that a timer submits come only when both
players are connected. -/
def Accompanied (pairing : Pairing) (moment : Moment) : Prop :=
  performs continues moment=true → ∀ player,IsPlayer pairing player →
    connectedIn player moment.1.config=true

section Reads

variable {pairing : Pairing} {history : List Moment} {moment : Moment} {task : GoroutineId}
  {seen seen' : Seen watcher} {move : instances.Move}

/-- What a further operation changes. -/
theorem attentive_append {performed : Performed watcher}
    (h : moment.1.performed moment.2=some performed) : attentive task (history++[moment])=
      ((loads task performed).getD (attentive task history) && !removes performed) := by
  simp [attentive,List.foldl_append,h]

/-- A move that performs nothing changes nothing. -/
theorem attentive_open (h : moment.1.performed moment.2=none) :
    attentive task (history++[moment])=attentive task history := by
  simp [attentive,List.foldl_append,h]

/-- Whoever is attentive is right about the players. -/
def Attends (pairing : Pairing) (task : GoroutineId) (history : List Moment)
    (seen : Seen watcher) : Prop :=
  attentive task history=true → ∀ player,IsPlayer pairing player →
    connectedIn player seen.config=true

/-- What a goroutine reads is the session. -/
theorem both_of_loads (hreach : (initial pairing).Reaches seen.config) {choice : Choice}
    {other : GoroutineId} {phase : Phase} {o : Op language} {effective : Bool}
    {r : Except Failure o.Res} {world : World} {started : Option Entry}
    (hp : WatchedKey.perform (R := runtime) choice other seen.config.tasks.length o
      seen.config.world=some (world,r,started))
    (h : loads task ⟨other,phase,o,effective,r⟩=some true) {player : String}
    (hplayer : IsPlayer pairing player) : connectedIn player seen.config=true := by
  obtain ⟨sess₀,hsess₀,hbelongs⟩ := stored hreach
  unfold loads at h
  split at h
  · split at h
    · next sess hop hresult =>
      dsimp only at hop
      subst hop
      cases hresult
      cases (perform_load hp).trans hsess₀
      rw [connectedIn,hsess₀,Option.any_some]
      exact hasConnected_of_both hbelongs (Option.some.inj h) hplayer
    · cases h
  · cases h

/-- The moves keep this. -/
theorem Attends.step (hreach : (initial pairing).Reaches seen.config) (hconforms : seen.Conforms)
    (h : Attends pairing task history seen) (hs : Seen.Moved seen move seen') :
    Attends pairing task (history++[(seen,move)]) seen' := by
  intro hattentive player hplayer
  cases hs with
  | opened entry harrives =>
    rw [attentive_open rfl] at hattentive
    exact h hattentive player hplayer
  | performed other choice phase o rest world r started htask hphase hp =>
    have hallows : phase.Allows o := hconforms.allows hphase htask
    rw [attentive_append (Seen.performed_eq htask hphase hp),Bool.and_eq_true] at hattentive
    obtain ⟨hloads,hremoves⟩ := hattentive
    obtain ⟨token,retriesLeft,call,before,after,rfl,htook,hruns,hbefore,hafter,hmakes⟩ |
      ⟨hsame,-⟩ := key_cases hreach htask hallows hp
    · have hpresent := h (by simpa [loads] using hloads) player hplayer
      rw [connectedIn,hbefore,Option.any_some] at hpresent
      change world.value.any _=true
      rw [hafter,Option.any_some,hmakes.hasConnected,hpresent]
      cases call with
      | disconnect other' => simp [removes,htook] at hremoves
      | connect | start | submit | resolve | forfeit => rfl
    · change world.value.any _=true
      rw [hsame]
      cases hl : loads task ⟨other,phase,o,took choice o seen.config.world,r⟩ with
      | none =>
        rw [hl] at hloads
        exact h hloads player hplayer
      | some both =>
        rw [hl] at hloads
        cases hloads
        exact both_of_loads hreach hp hl hplayer

end Reads

section Handlers

variable {pairing : Pairing} {history : List Moment} {moment : Moment}
  {player : String} {seen seen' : Seen watcher} {move : instances.Move}

/-- What a further operation changes. -/
theorem removedBy_append {performed : Performed watcher}
    (h : moment.1.performed moment.2=some performed) : removedBy player (history++[moment])=
      if disconnects player performed && connectedIn player moment.1.config then
        some performed.task
      else removedBy player history := by
  simp [removedBy,List.foldl_append,h]

/-- A move that performs nothing changes nothing. -/
theorem removedBy_open (h : moment.1.performed moment.2=none) :
    removedBy player (history++[moment])=removedBy player history := by
  simp [removedBy,List.foldl_append,h]

/-- The handler is that of a socket of the player. -/
def Handles (player : String) (seen : Seen watcher) (handler : GoroutineId) : Prop :=
  ∃ instance' stage marked,seen.phases[handler]?=some (.socket instance' player stage marked)

/-- The handler that has removed a player is that of a socket of his. -/
def Removes (player : String) (history : List Moment) (seen : Seen watcher) : Prop :=
  ∀ handler,removedBy player history=some handler → Handles player seen handler

/-- It stays so. -/
theorem Handles.step {handler : GoroutineId} (h : Handles player seen handler)
    (hs : Seen.Moved seen move seen') : Handles player seen' handler := by
  obtain ⟨instance',stage,marked,hphase⟩ := h
  cases hs with
  | opened entry harrives =>
    have hlt := (List.getElem?_eq_some_iff.mp hphase).1
    exact ⟨instance',stage,marked,(List.getElem?_append_left hlt).trans hphase⟩
  | performed task choice phase o rest world r started htask hphase' hp =>
    by_cases he : handler=task
    · subst he
      cases hphase.symm.trans hphase'
      exact ⟨instance',_,_,Seen.getElem?_moved_self hphase⟩
    · exact ⟨instance',stage,marked,Seen.getElem?_moved_other he hphase⟩

/-- Who removes a player handles a socket of his. -/
theorem handles_of_disconnects {performed : Performed watcher}
    (hphase : seen.phases[performed.task]?=some performed.phase)
    (h : disconnects player performed=true) : Handles player seen performed.task := by
  rw [disconnects,Bool.and_eq_true] at h
  cases hp : performed.phase with
  | turnTimer | forfeitTimer =>
    rw [hp] at h
    cases h.1
  | socket instance' other stage marked =>
    rw [hp] at h hphase
    simp only [socketOf,Bool.and_eq_true,decide_eq_true_eq] at h
    obtain ⟨⟨rfl,-⟩,-⟩ := h
    exact ⟨instance',stage,marked,hphase⟩

/-- The moves keep this. -/
theorem Removes.step (h : Removes player history seen) (hs : Seen.Moved seen move seen') :
    Removes player (history++[(seen,move)]) seen' := by
  intro handler hremoved
  have hmoved := hs
  cases hs with
  | opened entry harrives =>
    rw [removedBy_open rfl] at hremoved
    exact (h handler hremoved).step hmoved
  | performed task choice phase o rest world r started htask hphase hp =>
    have hperformed := Seen.performed_eq htask hphase hp
    rw [removedBy_append hperformed] at hremoved
    split at hremoved
    · next hd =>
      cases hremoved
      rw [Bool.and_eq_true] at hd
      exact (handles_of_disconnects hphase hd.1).step hmoved
    · exact (h handler hremoved).step hmoved

end Handlers

section Timers

variable {pairing : Pairing} {history : List Moment} {seen seen' : Seen watcher}
  {move : instances.Move}

/-- No turn timer is armed. -/
def Unarmed (seen : Seen watcher) : Prop := ∀ timer,armed seen timer=false

/-- Who is armed waits and has not been cancelled. -/
theorem armed_iff {timer : GoroutineId} : armed seen timer=true ↔
    (∃ instance',seen.phases[timer]?=some (.turnTimer instance' .waiting)) ∧
      timer∉seen.config.world.memory.cancelled := by
  unfold armed
  rw [Bool.and_eq_true,decide_eq_true_eq]
  refine and_congr_left' ?_
  constructor
  · intro h
    cases hphase : seen.phases[timer]? with
    | none =>
      rw [hphase] at h
      cases h
    | some phase =>
      rw [hphase,Option.any_some] at h
      split at h
      · exact ⟨_,rfl⟩
      · cases h
  · rintro ⟨instance',hphase⟩
    rw [hphase]
    rfl

/-- An armed turn timer was armed before, or it has just been armed. -/
theorem armed_before (hs : Seen.Moved seen move seen') {timer : GoroutineId}
    (h : armed seen' timer=true) : armed seen timer=true ∨
      performs (fun performed => match performed.op with
        | .act (.setTurnTimeout _) => true
        | _ => false) (seen,move)=true := by
  obtain ⟨⟨instance',hphase'⟩,hcancelled⟩ := armed_iff.mp h
  cases hs with
  | opened entry harrives =>
    obtain hold | ⟨-,hnew⟩ := @Seen.getElem?_extended _ _ (some (watcher.start entry)) _ _ hphase'
    · exact .inl (armed_iff.mpr ⟨⟨instance',hold⟩,hcancelled⟩)
    · cases entry with
      | gameWebsocket | forfeitAfterTimeout => cases hnew
      | turnTimeoutLoop => cases harrives
  | performed task choice phase o rest world r started htask hphase hp =>
    have hkept : timer∉seen.config.world.memory.cancelled :=
      fun hmem => hcancelled (cancelled_grows hp hmem)
    obtain ⟨rfl,hnext⟩ | ⟨hne,hold⟩ | ⟨-,hstarted⟩ := Seen.getElem?_moved hphase'
    · refine .inl (armed_iff.mpr ⟨?_,hkept⟩)
      cases phase with
      | socket | forfeitTimer => cases hnext
      | turnTimer instance₀ stage =>
        refine ⟨instance₀,?_⟩
        rw [hphase]
        obtain ⟨-,hstage⟩ := Phase.turnTimer.inj hnext
        cases stage with
        | waiting => rfl
        | fired | stopped =>
          simp only [TurnStage.next] at hstage
          cases hstage
    · exact .inl (armed_iff.mpr ⟨⟨instance',hold⟩,hkept⟩)
    · right
      rw [performs_run htask hphase hp]
      obtain ⟨entry,rfl,hnew⟩ := Option.map_eq_some_iff.mp hstarted
      cases o with
      | store o => cases (perform_redis hp).2
      | act o =>
        obtain ⟨pick,-,-,hentry⟩ := perform_act hp
        cases o with
        | setTurnTimeout instance₀ => rfl
        | startDisconnect instance₀ player opponent =>
          cases hentry
          cases hnew
        | send | writeJSON | upgrade | readMessage | selectTimer | sleep | cancelTurnTimeout
        | cancelDisconnectTimer => cases hentry

/-- Who is away after a move that has not removed him was away before. -/
theorem away_before {player : String} (hplayer : IsPlayer pairing player)
    (hreach : (initial pairing).Reaches seen.config) {task : GoroutineId} {choice : Choice}
    {phase : Phase} {o : Op language} {rest : Except Failure o.Res → Goroutine Unit}
    {world : World} {r : Except Failure o.Res} {started : Option Entry}
    {tasks : List (Goroutine Unit)} (htask : seen.config.tasks[task]?=some (.op o rest))
    (hallows : phase.Allows o)
    (hp : WatchedKey.perform (R := runtime) choice task seen.config.tasks.length o
      seen.config.world=some (world,r,started))
    (hremoves : ¬(disconnects player ⟨task,phase,o,took choice o seen.config.world,r⟩ &&
      connectedIn player seen.config)=true)
    (h : away player (⟨world,tasks⟩ : instances.Config)=true) : away player seen.config=true := by
  obtain ⟨token,retriesLeft,call,before,after,rfl,htook,hruns,hbefore,hafter,hmakes⟩ |
    ⟨hsame,-⟩ := key_cases hreach htask hallows hp
  · simp only [away,hafter,Option.any_some,Bool.and_eq_true,decide_eq_true_eq,
      Bool.not_eq_true'] at h
    obtain ⟨⟨hstarted,hprogress⟩,habsent⟩ := h
    have habsent₀ : before.hasConnected player=false := by
      apply Bool.eq_false_iff.mpr
      intro hpresent
      rw [hmakes.hasConnected,hpresent] at habsent
      have hcall : call=.disconnect player := by
        cases call with
        | disconnect other => simpa [presentAfter] using habsent
        | connect | start | submit | resolve | forfeit => simp [presentAfter] at habsent
      subst hcall
      obtain ⟨instance',marked,rfl⟩ := leaving_of_runs hruns
      apply hremoves
      rw [htook,Bool.and_eq_true,connectedIn,hbefore,Option.any_some]
      exact ⟨Bool.and_eq_true_iff.mpr ⟨by simp [socketOf],decide_eq_true rfl⟩,hpresent⟩
    have hstarted₀ : before.started=true := by
      obtain hsame | ⟨-,-,hlength,-⟩ := hmakes.started
      · exact hsame ▸ hstarted
      · rw [both_of_length (listed hreach before hbefore) hlength hplayer] at habsent₀
        cases habsent₀
    simp [away,hbefore,hstarted₀,hmakes.inProgress hprogress,habsent₀]
  · have h' : world.value.any _=true := h
    rw [hsame] at h'
    exact h'

/-- A cancelled timer. -/
theorem cancels {choice : Choice} {task fresh : GoroutineId} {instance' : Instance}
    {world world' : World} {r : Except Failure Unit} {started : Option Entry}
    (hp : WatchedKey.perform (R := runtime) choice task fresh (.act (.cancelTurnTimeout instance'))
      world=some (world',r,started)) {timer : GoroutineId}
    (h : world.memory.timeoutTasks instance'=some timer) : timer∈world'.memory.cancelled := by
  obtain ⟨pick,hmemory,-⟩ := perform_act hp
  rw [hmemory]
  simp [LocalOp.effect,Memory.cancelTurnTimeout,h]

end Timers

/-- What holds along a careful run. -/
structure Quiet (pairing : Pairing) (history : List Moment) (seen : Seen watcher) : Prop where
  /-- Whoever is attentive is right about the players. -/
  attends : ∀ task,Attends pairing task history seen
  /-- Whoever has removed a player handles a socket of his. -/
  removes : ∀ player,Removes player history seen
  /-- While the match is paused no turn timer is armed. -/
  unarmed : Paused pairing history seen → Unarmed seen

section Runs

variable {pairing : Pairing} {history : List Moment} {seen seen' : Seen watcher}
  {move : instances.Move}

/-- A handler that is to cancel the turn timer. -/
theorem pausing_iff {handler : GoroutineId} : pausing seen handler=true ↔
    ∃ instance' player marked,
      seen.phases[handler]?=some (.socket instance' player .pausing marked) := by
  unfold pausing
  constructor
  · intro h
    cases hphase : seen.phases[handler]? with
    | none =>
      rw [hphase] at h
      cases h
    | some phase =>
      rw [hphase,Option.any_some] at h
      split at h
      · exact ⟨_,_,_,rfl⟩
      · cases h
  · rintro ⟨instance',player,marked,hphase⟩
    rw [hphase]
    rfl

/-- The step that ends the pausing of a handler cancels the turn timer, or the
handler falls short. -/
theorem paused_cases {instance' : Instance} {player : String} {marked : Bool} {o : Op language}
    {effective : Bool} {r : Except Failure o.Res} {task : GoroutineId}
    (hallows : (Phase.socket instance' player .pausing marked).Allows o) :
    ((Phase.socket instance' player .pausing marked).next o effective r=
      .socket instance' player .pausing marked) ∨
    fallsShort ⟨task,.socket instance' player .pausing marked,o,effective,r⟩=true ∨
    o=.act (.cancelTurnTimeout instance') := by
  unfold fallsShort
  simp only [Phase.next,Stage.next,paused]
  split
  · exact .inl rfl
  · exact .inr (.inl rfl)
  · obtain ⟨rfl,-⟩ := hallows
    exact .inr (.inr rfl)
  · exact .inl rfl

/-- A disconnect transaction that commits leads to the cancellation, or the handler
falls short. -/
theorem pausing_of_disconnects {player : String} {performed : Performed watcher}
    (h : disconnects player performed=true) (hshort : fallsShort performed=false) :
    ∃ instance' marked,performed.phase.next performed.op performed.effective performed.result=
      .socket instance' player .pausing marked := by
  obtain ⟨task,phase,o,effective,r⟩ := performed
  rw [disconnects,Bool.and_eq_true,decide_eq_true_eq] at h
  obtain ⟨hphase,hconcludes⟩ := h
  cases phase with
  | turnTimer | forfeitTimer => cases hphase
  | socket instance' other stage marked =>
    simp only [socketOf,Bool.and_eq_true,decide_eq_true_eq] at hphase
    obtain ⟨rfl,rfl⟩ := hphase
    obtain ⟨token,retriesLeft,call,sess,rfl,rfl⟩ := effective_of_concludes hconcludes
    have hnext := @next_disconnects other instance' marked token retriesLeft call sess r
    dsimp only
    rw [hnext]
    cases hf : fails r with
    | false => exact ⟨instance',false,rfl⟩
    | true =>
      unfold fallsShort at hshort
      dsimp only at hshort
      rw [hnext,hf] at hshort
      cases hshort

/-- A careful move leaves no turn timer armed while the match is paused. -/
theorem Quiet.unarmed_step (h : Quiet pairing history seen)
    (hreach : (initial pairing).Reaches seen.config) (hconforms : seen.Conforms)
    (hcareful : Careful history (seen,move)) (hs : Seen.Moved seen move seen')
    (hpaused : Paused pairing (history++[(seen,move)]) seen') : Unarmed seen' := by
  intro timer
  apply Bool.eq_false_iff.mpr
  intro harmed
  have hbefore := armed_before hs harmed
  obtain ⟨player,hplayer,haway,handler,hremoved,hpausing⟩ := hpaused
  cases hs with
  | opened entry harrives =>
    obtain harmed₀ | hnew := hbefore
    · rw [removedBy_open rfl] at hremoved
      have hpausing₀ : pausing seen handler=false := by
        obtain ⟨instance',stage,marked,hphase⟩ := h.removes player handler hremoved
        have hlt := (List.getElem?_eq_some_iff.mp hphase).1
        rw [pausing,List.getElem?_append_left hlt] at hpausing
        exact hpausing
      have hunarmed := h.unarmed ⟨player,hplayer,haway,handler,hremoved,hpausing₀⟩ timer
      rw [harmed₀] at hunarmed
      cases hunarmed
    · cases hnew
  | performed task choice phase o rest world r started htask hphase hp =>
    have hallows : phase.Allows o := hconforms.allows hphase htask
    have hperformed := Seen.performed_eq htask hphase hp
    obtain ⟨hcontinues,htimers,hshort⟩ := hcareful _ hperformed
    rw [removedBy_append hperformed] at hremoved
    split at hremoved
    · -- the player has just been removed, so his handler is pausing
      next hd =>
      cases hremoved
      obtain ⟨instance',marked,hnext⟩ :=
        pausing_of_disconnects (Bool.and_eq_true_iff.mp hd).1 hshort
      rw [pausing,Seen.getElem?_moved_self hphase] at hpausing
      have hnext' : watcher.next phase o (took choice o seen.config.world) r=
        .socket instance' player .pausing marked := hnext
      rw [hnext'] at hpausing
      cases hpausing
    · next hremoves =>
      have haway₀ := away_before hplayer hreach htask hallows hp hremoves haway
      obtain harmed₀ | hnew := hbefore
      · obtain ⟨instance',stage,marked,hhandler⟩ := h.removes player handler hremoved
        cases hp₀ : pausing seen handler with
        | false =>
          have hunarmed := h.unarmed ⟨player,hplayer,haway₀,handler,hremoved,hp₀⟩ timer
          rw [harmed₀] at hunarmed
          cases hunarmed
        | true =>
          obtain ⟨instance₁,other,marked₁,hphase₁⟩ := pausing_iff.mp hp₀
          by_cases he : handler=task
          · subst he
            cases hphase.symm.trans hphase₁
            cases hphase₁.symm.trans hhandler
            obtain hsame | hfalls | rfl := @paused_cases instance' player marked o
              (took choice o seen.config.world) r handler hallows
            · rw [pausing,Seen.getElem?_moved_self hphase] at hpausing
              have hnext : watcher.next (.socket instance' player .pausing marked) o
                (took choice o seen.config.world) r=.socket instance' player .pausing marked := hsame
              rw [hnext] at hpausing
              cases hpausing
            · rw [hfalls] at hshort
              cases hshort
            · have hlt : timer < seen.phases.length := by
                obtain ⟨⟨_,hwaits⟩,-⟩ := armed_iff.mp harmed₀
                exact (List.getElem?_eq_some_iff.mp hwaits).1
              have htask' := htimers instance' (by simp [pauses,haway₀]) timer hlt harmed₀
              exact (armed_iff.mp harmed).2 (cancels hp htask')
          · rw [pausing,Seen.getElem?_moved_other he hphase₁] at hpausing
            cases hpausing
      · -- a timer is armed only when both players are connected
        rw [performs_run htask hphase hp] at hnew
        have hattentive := hcontinues (by
          cases o with
          | store o => cases hnew
          | act o =>
            cases o with
            | setTurnTimeout instance₀ => simp [continues]
            | _ => cases hnew)
        have hconnected := h.attends task hattentive player hplayer
        obtain ⟨sess,hsess,-⟩ := stored hreach
        rw [connectedIn,hsess,Option.any_some] at hconnected
        simp [away,hsess,hconnected] at haway₀

/-- A careful move keeps all this. -/
theorem Quiet.step (h : Quiet pairing history seen) (hreach : (initial pairing).Reaches seen.config)
    (hconforms : seen.Conforms) (hcareful : Careful history (seen,move))
    (hs : Seen.Moved seen move seen') : Quiet pairing (history++[(seen,move)]) seen' where
  attends task := (h.attends task).step hreach hconforms hs
  removes player := (h.removes player).step hs
  unarmed := h.unarmed_step hreach hconforms hcareful hs

/-- Throughout a careful run. -/
theorem quiet_of_run {moves : List instances.Move}
    (hrun : (Seen.initial watcher (initial pairing)).run moves=some seen)
    (hcareful : Meets Careful (momentsOf pairing moves)) : Quiet pairing (momentsOf pairing moves) seen := by
  refine (Seen.along (F := Careful) body_follows rfl (I := Quiet pairing)
    (fun hreach hconforms h hf hs => h.step hreach hconforms hf hs) hrun hcareful ?_).1
  constructor
  · exact fun _ hattentive => nomatch hattentive
  · exact fun _ _ hremoved => nomatch hremoved
  · rintro ⟨_,_,_,_,hremoved,_⟩
    cases hremoved

/-- In a careful run no turn timer is armed while the match is paused, and prompts,
turn timers and the actions that a timer submits come only when both players are
connected. -/
theorem paused_while_away (pairing : Pairing) {moves : List instances.Move} {seen : Seen watcher}
    (hrun : (Seen.initial watcher (initial pairing)).run moves=some seen)
    (hcareful : Meets Careful (momentsOf pairing moves)) :
    (Paused pairing (momentsOf pairing moves) seen → Unarmed seen) ∧
      ∀ moment∈momentsOf pairing moves,Accompanied pairing moment := by
  refine ⟨(quiet_of_run hrun hcareful).unarmed,?_⟩
  intro moment hmoment
  obtain ⟨earlier,later,hsplit⟩ := List.append_of_mem hmoment
  have hall : Meets (fun _ moment => Accompanied pairing moment) (momentsOf pairing moves) := by
    refine Seen.meets_of_moments (F := Careful) ?_ hrun hcareful
    intro moves₁ seen₁ seen₂ move hrun₁ _ hcareful₁ hnow hcontinues player hplayer
    obtain ⟨performed,hperformed,hc⟩ : ∃ performed,seen₁.performed move=some performed ∧
        continues performed=true := by
      cases hp : seen₁.performed move with
      | none =>
        rw [performs,hp] at hcontinues
        cases hcontinues
      | some performed =>
        rw [performs,hp,Option.any_some] at hcontinues
        exact ⟨performed,rfl,hcontinues⟩
    exact (quiet_of_run hrun₁ hcareful₁).attends performed.task
      ((hnow performed hperformed).1 hc) player hplayer
  rw [hsplit] at hall
  exact hall.at

end Runs

/-- Player 1 connects to the first instance and player 2 to another one or to the
same one; then player 1 drops. -/
def dropsDuringMatch (instance' : Instance) : List instances.Move :=
  opens 1 []::proceeds 0 10++
    .open (.gameWebsocket instance' (p2Of .small) [])::proceeds 1 14++proceeds 0 8

/-- On one instance the match is paused. -/
theorem one_instance_paused : ∃ seen : Seen watcher,
    (Seen.initial watcher (initial .small)).run (dropsDuringMatch 0)=some seen ∧
      Paused .small (momentsOf .small (dropsDuringMatch 0)) seen ∧ Unarmed seen ∧
      ∀ moment∈momentsOf .small (dropsDuringMatch 0),Accompanied .small moment := by
  have hcareful : Meets Careful (momentsOf .small (dropsDuringMatch 0)) := by decide
  have hrun : ((Seen.initial watcher (initial .small)).run (dropsDuringMatch 0)).map (fun seen =>
      (away (p1Of .small) seen.config,pausing seen 0))=some (true,false) := by decide
  have hremoved : removedBy (p1Of .small) (momentsOf .small (dropsDuringMatch 0))=some 0 := by
    decide
  obtain ⟨seen,hseen,hview⟩ := Option.map_eq_some_iff.mp hrun
  obtain ⟨haway,hpausing⟩ := Prod.mk.inj hview
  have hpaused : Paused .small (momentsOf .small (dropsDuringMatch 0)) seen :=
    ⟨p1Of .small,.inl rfl,haway,0,hremoved,hpausing⟩
  obtain ⟨hunarmed,haccompanied⟩ := paused_while_away .small hseen hcareful
  exact ⟨seen,hseen,hpaused,hunarmed hpaused,haccompanied⟩

/-- The goroutine has ended. -/
def ended (seen : Seen watcher) (task : GoroutineId) : Bool :=
  match seen.config.tasks[task]? with
  | some (.done _) => true
  | _ => false

/-- On two instances the turn timer of the second one stays armed after the handler
on the first one has finished. -/
theorem other_instance_armed : ¬∀ (pairing : Pairing) (moves : List instances.Move)
    (seen : Seen watcher),(Seen.initial watcher (initial pairing)).run moves=some seen →
      (∃ player,IsPlayer pairing player ∧ away player seen.config=true ∧
        ∃ handler,removedBy player (momentsOf pairing moves)=some handler ∧
          ended seen handler=true) → Unarmed seen := by
  intro h
  have hrun : ((Seen.initial watcher (initial .small)).run (dropsDuringMatch 1)).map (fun seen =>
      (away (p1Of .small) seen.config,ended seen 0,armed seen 2))=some (true,true,true) := by decide
  have hremoved : removedBy (p1Of .small) (momentsOf .small (dropsDuringMatch 1))=some 0 := by
    decide
  obtain ⟨seen,hseen,hview⟩ := Option.map_eq_some_iff.mp hrun
  obtain ⟨haway,hview⟩ := Prod.mk.inj hview
  obtain ⟨hended,harmed⟩ := Prod.mk.inj hview
  have hunarmed := h .small (dropsDuringMatch 1) seen hseen
    ⟨p1Of .small,.inl rfl,haway,0,hremoved,hended⟩ 2
  rw [harmed] at hunarmed
  cases hunarmed

end KiClash.GoPauses
