import KiClash.GameTransactions

/-!
# Who has joined a match before its first turn

Both players have connected before anything is sent or timed for a turn, in every run
in which a reconnection and a start are committed only when the session has both of
them. Everything later rests on what these two have led to: a turn timer has been
armed by somebody who prompts, a complete pair holds the actions of both players, and
a player who submits actions has connected.
-/

namespace KiClash.GameHandshake

open EngineTypes ServerMessages AsyncTasks WatchedKey TaskPhases TransactionReads Histories
open GameStore GameSession PendingPairs SessionChronicle GamePhases GameTransactions

/-- A connect transaction of the player takes effect. -/
def connects (player : UUID) (performed : Performed watcher) : Bool :=
  performed.effective && match performed.op with
    | .store (.exec _ _ (.connect other) _) => other=player
    | _ => false

/-- The player has connected. -/
def joined (player : UUID) (history : List Moment) : Bool :=
  history.any (performs (connects player))

/-- Both players have connected. -/
def BothJoined (pairing : Pairing) (history : List Moment) : Prop :=
  joined pairing.player1Id history=true ∧ joined pairing.player2Id history=true

instance (pairing : Pairing) (history : List Moment) : Decidable (BothJoined pairing history) :=
  inferInstanceAs (Decidable (_ ∧ _))

/-- A prompt is sent or a turn timer is armed. -/
def opensTurn (performed : Performed watcher) : Bool :=
  performed.effective && match performed.op with
    | .act (.send _ _ message) => message.isPrompt
    | .act (.restartTimeout _) => true
    | _ => false

/-- A turn is prompted and timed only when both players have connected. -/
def AfterBoth (pairing : Pairing) (history : List Moment) (moment : Moment) : Prop :=
  performs opensTurn moment=true → BothJoined pairing history

/-- The transaction has the handler prompt the players: a connect call commits that has
found its player connected, or a start call that has not found the match started. -/
def welcomes (attempt : Attempt PvPSessionState) : Control → (o : Op language) →
    Except Exc o.Res → Bool
  | .socket _ player (.connecting found),.store (.exec _ _ _ _),.ok true =>
    found || reads attempt fun session => session.hasConnected player
  | .socket _ _ (.starting found),.store (.exec _ _ _ _),.ok true =>
    !(found || reads attempt fun session => session.started)
  | _,_,_ => false

/-- The session has both players connected. -/
def bothConnected (session : PvPSessionState) : Bool :=
  session.hasConnected session.player1Id && session.hasConnected session.player2Id

/-- Such a transaction commits only when the stored session has both players
connected. -/
def Complete (moment : Moment) : Prop :=
  performs (fun performed =>
    welcomes performed.phase.attempt performed.phase.control performed.op performed.result)
      moment=true →
    moment.1.config.world.value.any bothConnected=true

instance (pairing : Pairing) (history : List Moment) (moment : Moment) :
    Decidable (AfterBoth pairing history moment) := inferInstanceAs (Decidable (_ → _))

instance (moment : Moment) : Decidable (Complete moment) := inferInstanceAs (Decidable (_ → _))

section Joined

variable {pairing : Pairing} {history : List Moment} {moment : Moment} {player : UUID}

/-- What a further moment changes. -/
theorem joined_append : joined player (history++[moment])=
    (joined player history || performs (connects player) moment) := by
  simp [joined]

/-- Nobody leaves the history. -/
theorem joined_later (h : joined player history=true) (moment : Moment) :
    joined player (history++[moment])=true := by
  rw [joined_append,h,Bool.true_or]

theorem BothJoined.later (h : BothJoined pairing history) (moment : Moment) :
    BothJoined pairing (history++[moment]) := ⟨joined_later h.1 moment,joined_later h.2 moment⟩

end Joined

/-- The handler has connected, and has not left. -/
def involved : Stage → Bool
  | .returning | .counting | .starting _ | .prompting _ _ | .playing _ _ => true
  | _ => false

/-- A task that has to do with the turns. -/
def engaged (control : Control) : Bool :=
  match control with
  | .turnTimer _ _ => true
  | .socket _ _ .returning | .socket _ _ (.prompting _ _) => true
  | .socket _ _ (.playing (.resolved _ _) _) => true
  | .socket _ _ (.playing _ paired) => paired
  | _ => false

/-- The player of a seat. -/
def playerOf (pairing : Pairing) : SlottedTurns.Seat → UUID :=
  SlottedTurns.Seat.pick pairing.player1Id pairing.player2Id

/-- Whoever has left a trace in the session has joined. -/
structure Vouched (pairing : Pairing) (history : List Moment) (session : PvPSessionState) :
    Prop where
  /-- It belongs to the two players. -/
  belongs : BelongsTo pairing session
  /-- Who is connected. -/
  connected : ∀ player,session.hasConnected player=true → joined player history=true
  /-- Whose action is pending. -/
  pending : ∀ seat,(SessionTurns.pending session seat).isSome=true →
    joined (playerOf pairing seat) history=true

/-- What is known of those who have joined. -/
structure Attended (pairing : Pairing) (history : List Moment) (seen : Seen watcher) : Prop where
  /-- The sessions that are stored and read. -/
  sessions : Everywhere (P := watcher) Phase.attempt (Vouched pairing history) seen
  /-- The handlers that have connected, unless they have found no session. -/
  involved : ∀ (task : TaskId) (worker : Worker) (player : UUID) (stage : Stage)
    (attempt : Attempt PvPSessionState),
    seen.phases[task]?=some ⟨.socket worker player stage,attempt⟩ → involved stage=true →
    joined player history=true ∨ seen.config.world.value=none ∧ attempt.value=none
  /-- The tasks that have to do with the turns. -/
  engaged : ∀ (task : TaskId) (phase : Phase),seen.phases[task]?=some phase →
    engaged phase.control=true → BothJoined pairing history

section Attended

variable {pairing : Pairing} {history : List Moment} {seen seen' : Seen watcher}
  {move : workers.Move}

theorem Vouched.later {session : PvPSessionState} (h : Vouched pairing history session)
    (moment : Moment) : Vouched pairing (history++[moment]) session :=
  ⟨h.belongs,fun player hc => joined_later (h.connected player hc) moment,
    fun seat hp => joined_later (h.pending seat hp) moment⟩

theorem idOf_eq {session : PvPSessionState} (h : BelongsTo pairing session) :
    idOf session=playerOf pairing := by
  obtain ⟨h₁,h₂⟩ := h
  unfold idOf playerOf
  rw [h₁,h₂]

/-- Both players have joined. -/
theorem BothJoined.player (h : BothJoined pairing history) (seat : SlottedTurns.Seat) :
    joined (playerOf pairing seat) history=true := by
  cases seat with
  | first => exact h.1
  | second => exact h.2

/-- Who submits an action for a player has to do with the turns, or the player has
joined. -/
theorem Attended.submitter (h : Attended pairing history seen) {task : TaskId} {phase : Phase}
    (hphase : seen.phases[task]?=some phase) {player : UUID} {action : Action}
    {stale : SubmitCaptured} (hruns : phase.control.Runs (.submit player action stale))
    (hsome : seen.config.world.value.isSome=true ∨ phase.attempt.value.isSome=true) :
    joined player history=true ∨ BothJoined pairing history := by
  obtain ⟨control,attempt⟩ := phase
  cases control with
  | forfeitTimer worker disconnected opponent stage =>
    cases stage <;> cases (show False from hruns)
  | turnTimer worker stage => exact .inr (h.engaged task _ hphase rfl)
  | socket worker own stage =>
    cases stage with
    | playing doing paired =>
      have hown : player=own := hruns
      obtain hjoined | ⟨hnone,hnothing⟩ := h.involved task worker own _ attempt hphase rfl
      · rw [hown]
        exact .inl hjoined
      · rw [hnone,hnothing] at hsome
        simp at hsome
    | arriving | accepted | entering | refusing | connecting | returning | counting | starting
    | prompting | leaving | closing | gone => cases (show False from hruns)

/-- The stored session is vouched for after a move. -/
theorem Attended.stored (hregular : Regular pairing seen) (h : Attended pairing history seen)
    (hs : Seen.Moved seen move seen') {session' : PvPSessionState}
    (hsession' : seen'.config.world.value=some session') :
    Vouched pairing (history++[(seen,move)]) session' := by
  cases hs with
  | opened entry harrives => exact (h.sessions.1 session' hsession').later _
  | performed task choice phase o rest world r started htask hphase hp =>
    obtain ⟨token,retriesLeft,call,before,after,rfl,htook,hruns,hbefore,hafter,-,hmakes⟩ |
      ⟨hsame | ⟨hnone,-⟩,-⟩ := hregular.key_cases htask hphase hp
    · cases hafter.symm.trans hsession'
      have hvouched := h.sessions.1 before hbefore
      obtain ⟨hid₁,hid₂⟩ := ids_of_makes hmakes
      refine ⟨⟨hid₁.trans hvouched.belongs.1,hid₂.trans hvouched.belongs.2⟩,?_,?_⟩
      · intro player hconnected
        rw [hasConnected_of_makes hmakes,Bool.or_eq_true] at hconnected
        obtain hold | hcall := hconnected
        · exact joined_later (hvouched.connected player hold) _
        · rw [joined_append,performs_run htask hphase hp,htook,of_decide_eq_true hcall]
          simp [connects]
      · intro seat hpending
        obtain hold | ⟨action,stale,rfl⟩ := pending_of_makes hmakes hpending
        · exact joined_later (hvouched.pending seat hold) _
        · rw [idOf_eq hvouched.belongs] at hruns
          obtain hjoined | hboth := h.submitter hphase hruns (.inl (by rw [hbefore]; rfl))
          · exact joined_later hjoined _
          · exact joined_later (hboth.player seat) _
    · exact (h.sessions.1 session' (hsame.symm.trans hsession')).later _
    · cases hnone.symm.trans hsession'

/-- handle_connect is over with the operation: it has found no session, or it has
committed. -/
inductive EntersMatch : (o : Op language) → Except Exc o.Res → Prop
  | missing : EntersMatch (.store .get) (.ok none)
  | committed (token retriesLeft : ℕ) (call : Call) (session : PvPSessionState) :
      EntersMatch (.store (.exec token retriesLeft call session)) (.ok true)

/-- A handler that has connected has done so before, or its transaction has committed,
or it has found no session. -/
theorem involved_next {attempt : Attempt PvPSessionState} {player : UUID} {stage : Stage}
    {o : Op language} {r : Except Exc o.Res}
    (h : GameHandshake.involved (stage.next attempt player o r)=true) :
    GameHandshake.involved stage=true ∨ ∃ found,stage=.connecting found ∧ EntersMatch o r := by
  have hpasses := passes_next attempt player stage o r
  generalize stage.next attempt player o r=stage' at h hpasses
  cases hpasses with
  | same => exact .inl h
  | dismissed _ _ _ hover => obtain rfl | rfl := hover <;> cases h
  | left _ _ _ _ hleft => obtain rfl | rfl := hleft <;> cases h
  | missing found => exact .inr ⟨found,rfl,.missing⟩
  | connected found | returning found => exact .inr ⟨found,rfl,.committed _ _ _ _⟩
  | full _ hstage | alone _ hstage => obtain rfl | rfl := hstage <;> exact .inl rfl
  | unknown | late | started | restarting | prompted | armed | played => exact .inl rfl
  | accepted | entering | connecting | reconnecting | closing => cases h

/-- Whoever comes to have to do with the turns has had to do with them, or has welcomed
its player, or has found a complete pair. -/
theorem engaged_next {attempt : Attempt PvPSessionState} {control : Control} {o : Op language}
    {r : Except Exc o.Res} (hallows : control.Allows o)
    (h : GameHandshake.engaged (control.next attempt o r)=true) :
    GameHandshake.engaged control=true ∨ welcomes attempt control o r=true ∨
      ∃ player action,(∃ token retriesLeft stale session,
        o=.store (.exec token retriesLeft (.submit player action stale) session)) ∧
        completes attempt player action=true := by
  cases control with
  | turnTimer => exact .inl rfl
  | forfeitTimer => cases h
  | socket worker player stage =>
    have hpasses := passes_next attempt player stage o r
    rw [Control.next] at h
    generalize stage.next attempt player o r=stage' at h hpasses
    cases hpasses with
    | same => exact .inl h
    | dismissed _ _ _ hover => obtain rfl | rfl := hover <;> cases h
    | left _ _ _ _ hleft => obtain rfl | rfl := hleft <;> cases h
    | returning found _ _ _ _ hfound => exact .inr (.inl hfound)
    | started found _ _ _ _ hfound =>
      right
      left
      simp [welcomes,hfound]
    | prompted => exact .inl rfl
    | played doing doing' paired paired' _ _ hturns =>
      cases hturns with
      | same => exact .inl h
      | told =>
        cases doing with
        | resolved => exact .inl rfl
        | idle | submitted => exact .inl h
      | loaded value =>
        cases doing with
        | resolved => exact .inl rfl
        | idle | submitted => exact .inl h
      | aborted token retriesLeft player' action stale session =>
        have hflag : (paired || completes attempt player' action)=true := h
        rw [Bool.or_eq_true] at hflag
        obtain hpaired | hcompletes := hflag
        · left
          cases doing with
          | resolved => rfl
          | idle | submitted => exact hpaired
        · exact .inr (.inr ⟨player',action,⟨_,_,_,_,rfl⟩,hcompletes⟩)
      | submitted token retriesLeft player' action stale session =>
        have hflag : (paired || completes attempt player' action)=true := h
        rw [Bool.or_eq_true] at hflag
        obtain hpaired | hcompletes := hflag
        · left
          cases doing with
          | resolved => rfl
          | idle | submitted => exact hpaired
        · exact .inr (.inr ⟨player',action,⟨_,_,_,_,rfl⟩,hcompletes⟩)
      | resolved =>
        left
        have hpaired : paired=true := hallows
        cases doing with
        | resolved => rfl
        | idle | submitted => exact hpaired
    | accepted | entering | connecting | missing | connected | reconnecting | full | alone
    | unknown | late | restarting | armed | closing => cases h

/-- Who arms a turn timer has to do with the turns. -/
theorem engaged_of_arms {control : Control} (h : control.Arms) :
    GameHandshake.engaged control=true := by
  cases control with
  | turnTimer => rfl
  | forfeitTimer =>
    obtain ⟨turn,upcoming,hdoing⟩ := h
    cases hdoing
  | socket worker player stage =>
    cases stage with
    | returning | prompting => rfl
    | playing doing paired =>
      obtain ⟨turn,upcoming,hdoing⟩ := h
      cases hdoing
      rfl
    | arriving | accepted | entering | refusing | connecting | counting | starting | leaving
    | closing | gone =>
      obtain ⟨turn,upcoming,hdoing⟩ := h
      cases hdoing

/-- So has who prompts a player. -/
theorem engaged_of_prompts {control : Control} {player : UUID} {turn : SessionTurns.TurnKey}
    (h : control.Prompts player turn) : GameHandshake.engaged control=true := by
  cases control with
  | turnTimer => rfl
  | forfeitTimer =>
    obtain ⟨resolved,hdoing⟩ := h
    cases hdoing
  | socket worker own stage =>
    cases stage with
    | returning | prompting => rfl
    | playing doing paired =>
      obtain ⟨resolved,hdoing⟩ := h
      cases hdoing
      rfl
    | arriving | accepted | entering | refusing | connecting | counting | starting | leaving
    | closing | gone =>
      obtain ⟨resolved,hdoing⟩ := h
      cases hdoing

/-- Who finds a complete pair finds the actions of both players. -/
theorem Attended.completes (h : Attended pairing history seen) {task : TaskId} {phase : Phase}
    (hphase : seen.phases[task]?=some phase) {player : UUID} {action : Action}
    {stale : SubmitCaptured} (hruns : phase.control.Runs (.submit player action stale))
    (hcompletes : completes phase.attempt player action=true) : BothJoined pairing history := by
  obtain ⟨session,hfound,hpair⟩ := (Option.any_eq_true _ _).mp hcompletes
  have hvouched := h.sessions.2 task phase hphase session hfound
  obtain hjoined | hboth := h.submitter hphase hruns (.inr (by rw [hfound]; rfl))
  · have hseat : ∀ seat,joined (playerOf pairing seat) history=true := by
      intro seat
      obtain hpending | hplayer := pending_of_completes hpair seat
      · exact hvouched.pending seat hpending
      · rw [← idOf_eq hvouched.belongs,← hplayer]
        exact hjoined
    exact ⟨hseat .first,hseat .second⟩
  · exact hboth

/-- Who is over with handle_connect has joined, or has found no session. -/
theorem joined_of_enters (hregular : Regular pairing seen) {task : TaskId} {choice : Choice}
    {worker : Worker} {player : UUID} {found : Bool} {attempt : Attempt PvPSessionState}
    {o : Op language} {rest : Except Exc o.Res → Coroutine Unit} {world : World}
    {r : Except Exc o.Res} {started : Option Entry}
    (htask : seen.config.tasks[task]?=some (.op o rest))
    (hphase : seen.phases[task]?=some ⟨.socket worker player (.connecting found),attempt⟩)
    (hp : WatchedKey.perform (R := runtime) choice task seen.config.tasks.length o
      seen.config.world=some (world,r,started)) (h : EntersMatch o r) :
    joined player (history++[(seen,.run task choice)])=true ∨
      seen.config.world.value=none ∧ (Attempt.next (L := language) attempt o r).value=none := by
  cases h with
  | missing =>
    refine .inr ⟨(perform_get hp).symm,?_⟩
    cases attempt <;> rfl
  | committed token retriesLeft call session =>
    left
    obtain ⟨htook,_,-,-,-,hruns,-⟩ := hregular.committed htask hphase hp
    have hcall : call=.connect player := by
      cases call with
      | connect player' => exact congrArg Call.connect hruns
      | start | submit | resolve | forfeit => cases (show False from hruns)
    rw [joined_append,performs_run htask hphase hp,htook,hcall]
    simp [connects]

/-- The handlers that have connected have joined, after a move too. -/
theorem Attended.involved_step (hregular : Regular pairing seen)
    (h : Attended pairing history seen) (hs : Seen.Moved seen move seen') {task' : TaskId}
    {worker : Worker} {player : UUID} {stage : Stage} {attempt : Attempt PvPSessionState}
    (hphase' : seen'.phases[task']?=some ⟨.socket worker player stage,attempt⟩)
    (hinvolved : GameHandshake.involved stage=true) :
    joined player (history++[(seen,move)])=true ∨
      seen.config.world.value=none ∧ attempt.value=none := by
  have hkept : ∀ {task : TaskId} {stage : Stage} {attempt : Attempt PvPSessionState},
      seen.phases[task]?=some ⟨.socket worker player stage,attempt⟩ →
      GameHandshake.involved stage=true → joined player (history++[(seen,move)])=true ∨
        seen.config.world.value=none ∧ attempt.value=none := by
    intro task stage attempt hold hinvolved
    obtain hjoined | hgone := h.involved task worker player stage attempt hold hinvolved
    · exact .inl (joined_later hjoined _)
    · exact .inr hgone
  cases hs with
  | opened entry harrives =>
    obtain hold | ⟨-,hnew⟩ := @Seen.getElem?_extended _ _ (some (watcher.start entry)) _ _ hphase'
    · exact hkept hold hinvolved
    · cases entry <;> cases hnew
      cases hinvolved
  | performed task choice phase o rest world r started htask hphase hp =>
    obtain ⟨rfl,hnext⟩ | ⟨-,hold⟩ | ⟨-,hstarted⟩ := Seen.getElem?_moved hphase'
    · obtain ⟨control,attempt₀⟩ := phase
      cases control with
      | turnTimer | forfeitTimer => cases hnext
      | socket worker₀ player₀ stage₀ =>
        cases hnext
        obtain hbefore | ⟨found,rfl,henters⟩ := involved_next hinvolved
        · obtain hjoined | ⟨hgone,hnothing⟩ := hkept hphase hbefore
          · exact .inl hjoined
          · refine .inr ⟨hgone,Option.eq_none_iff_forall_ne_some.mpr fun value hvalue => ?_⟩
            obtain hold | hnew := value_next (R := runtime) hp hvalue
            · rw [hnothing] at hold
              cases hold
            · rw [hgone] at hnew
              cases hnew
        · exact joined_of_enters hregular htask hphase hp henters
    · exact hkept hold hinvolved
    · obtain ⟨entry,hentry,he⟩ := Option.map_eq_some_iff.mp hstarted
      cases entry <;> cases he
      cases hinvolved

/-- Both players have joined when somebody has to do with the turns, after a move too. -/
theorem Attended.engaged_step (hregular : Regular pairing seen) (h : Attended pairing history seen)
    (hcomplete : Complete (seen,move)) (hs : Seen.Moved seen move seen') {task' : TaskId}
    {phase' : Phase} (hphase' : seen'.phases[task']?=some phase')
    (hengaged : GameHandshake.engaged phase'.control=true) : BothJoined pairing history := by
  cases hs with
  | opened entry harrives =>
    obtain hold | ⟨-,hnew⟩ := @Seen.getElem?_extended _ _ (some (watcher.start entry)) _ _ hphase'
    · exact h.engaged task' phase' hold hengaged
    · cases hnew
      cases entry with
      | gameWs | forfeitAfterTimeout => cases hengaged
      | turnTimeout => cases harrives
  | performed task choice phase o rest world r started htask hphase hp =>
    have hallows := (hregular.conforms.allows hphase htask).1
    obtain ⟨rfl,rfl⟩ | ⟨-,hold⟩ | ⟨-,hstarted⟩ := Seen.getElem?_moved hphase'
    · obtain hbefore | hwelcomes | ⟨player,action,⟨_,_,_,_,rfl⟩,hcompletes⟩ :=
        engaged_next hallows hengaged
      · exact h.engaged task' phase hphase hbefore
      · have hboth := hcomplete (by rw [performs_run htask hphase hp]; exact hwelcomes)
        obtain ⟨session,hsession,hconnected⟩ := (Option.any_eq_true _ _).mp hboth
        rw [bothConnected,Bool.and_eq_true] at hconnected
        have hvouched := h.sessions.1 session hsession
        rw [hvouched.belongs.1,hvouched.belongs.2] at hconnected
        exact ⟨hvouched.connected _ hconnected.1,hvouched.connected _ hconnected.2⟩
      · exact h.completes hphase hallows hcompletes
    · exact h.engaged task' phase' hold hengaged
    · obtain ⟨entry,rfl,rfl⟩ := Option.map_eq_some_iff.mp hstarted
      obtain ⟨worker,rfl,rfl⟩ | ⟨_,_,_,-,rfl⟩ := started_cases hp
      · exact h.engaged task phase hphase (engaged_of_arms hallows.2)
      · cases hengaged

/-- The moves keep what is known of those who have joined. -/
theorem Attended.step (hregular : Regular pairing seen) (h : Attended pairing history seen)
    (hcomplete : Complete (seen,move)) (hs : Seen.Moved seen move seen') :
    Attended pairing (history++[(seen,move)]) seen' where
  sessions := h.sessions.step tracks (fun _ hv => hv.later _) hs fun _ hv =>
    h.stored hregular hs hv
  involved := by
    intro task worker player stage attempt hphase hinvolved
    obtain hjoined | ⟨hgone,hnothing⟩ := h.involved_step hregular hs hphase hinvolved
    · exact .inl hjoined
    · exact .inr ⟨hregular.missing hs hgone,hnothing⟩
  engaged := by
    intro task phase hphase hengaged
    exact (h.engaged_step hregular hcomplete hs hphase hengaged).later _

end Attended

section Runs

variable {pairing : Pairing} {moves : List workers.Move} {seen : Seen watcher}

/-- What is known of those who have joined in a run. -/
theorem attended_of_run (hrun : (Seen.initial watcher (initial pairing)).run moves=some seen)
    (hcomplete : Meets (fun _ => Complete) (momentsOf pairing moves)) :
    Attended pairing (momentsOf pairing moves) seen := by
  refine along (I := Attended pairing) (fun hregular h hf hs => h.step hregular hf hs) hrun
    hcomplete ⟨⟨?_,?_⟩,?_,?_⟩
  · intro session hsession
    cases hsession
    refine ⟨⟨rfl,rfl⟩,?_,?_⟩
    · intro player hconnected
      cases hconnected
    · intro seat hpending
      cases seat <;> cases hpending
  · exact fun _ _ hphase => nomatch hphase
  · exact fun _ _ _ _ _ hphase => nomatch hphase
  · exact fun _ _ hphase => nomatch hphase

/-- In a run in which no handler comes to prompt on a session that misses a player, turns are
prompted and timed only after both players have connected. -/
theorem opened_after_both (pairing : Pairing) {moves : List workers.Move} {seen : Seen watcher}
    (hrun : (Seen.initial watcher (initial pairing)).run moves=some seen)
    (hcomplete : Meets (fun _ => Complete) (momentsOf pairing moves)) :
    Meets (AfterBoth pairing) (momentsOf pairing moves) := by
  refine Seen.meets_of_moments (F := fun _ => Complete) ?_ hrun hcomplete
  intro moves₁ seen₁ seen₂ move hrun₁ _ hbefore _ hopens
  obtain ⟨⟨task,phase,o,effective,r⟩,hperformed,hop⟩ := (Option.any_eq_true _ _).mp hopens
  obtain ⟨hphase,rest,htask⟩ := Seen.performed_cases hperformed
  have hallows := ((regular hrun₁).conforms.allows hphase htask).1
  apply (attended_of_run hrun₁ hbefore).engaged task phase hphase
  obtain ⟨-,hturn⟩ := Bool.and_eq_true_iff.mp hop
  cases o with
  | store o => cases hturn
  | act o =>
    cases o with
    | restartTimeout worker => exact engaged_of_arms hallows.2
    | send worker player message =>
      cases message with
      | waitingForAction number limit round => exact engaged_of_prompts hallows.2
      | turnResult | roundResult | matchResult | actionConfirmed | opponentDisconnected
      | opponentReconnected | errorMsg | pong => cases hturn
    | sendJson | accept | safeClose | receive | sleep | register | unregister | isConnected
    | roomSize | cancelTimeout | cancelDisconnect | startDisconnect | cleanup => cases hturn

end Runs

end KiClash.GameHandshake
