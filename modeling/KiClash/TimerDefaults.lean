import KiClash.SessionTurns
import KiClash.TurnTimers

/-!
# When the auto-charge of the Python session is harmless

A turn timer loads the session, sees who has not acted, and then submits a
charge for each of them in transactions of their own, which look neither at the
slot nor at the turn. What it stores is harmless if nothing that matters has
happened since the prompt that armed it and since its look at the session, and if
each call resolves the pair that its own submission has completed.
-/

namespace KiClash.TimerDefaults

open EngineTypes Engine EngineRuns ServerMessages Histories AsyncTasks WatchedKey RecordedTasks
open SlottedTurns TurnTimers GameStore GameSession PendingPairs SessionChronicle SessionTurns

section Programs

/-- The player has no pending action in a match in progress. -/
def Missing (player : UUID) (session : PvPSessionState) : Prop :=
  session.gameState.status=.inProgress ∧
    ((player=session.player1Id ∧ session.p1Action=none) ∨
      (player=session.player2Id ∧ session.p2Action=none))

/-- The operation submits at most a charge for a player who was missing in what
the task has loaded first. -/
def OnlyDefaults (first : Option (Option PvPSessionState)) : Op language → Prop
  | .store (.exec _ _ (.submit player action _) _) =>
    ∃ session,first=some (some session) ∧ action=defaultTimeoutAction ∧ Missing player session
  | .store (.set _ _ _) => False
  | _ => True

variable {first : Option (Option PvPSessionState)} {α : Type}

/-- Who has loaded nothing submits nothing. -/
theorem onlyDefaults_of_none {o : Op language} (h : OnlyDefaults none o) :
    OnlyDefaults first o := by
  unfold OnlyDefaults at h ⊢
  split at h
  · obtain ⟨session,hs,-⟩ := h
    cases hs
  · cases h
  · trivial

/-- A program that submits at most such charges. -/
abbrev Quiet (first : Option (Option PvPSessionState)) (p : Coroutine α) : Prop :=
  p.All (OnlyDefaults first)

theorem quiet_act (o : LocalOp) : Quiet first (act o) := Prog.All.perform True.intro

theorem quiet_send (worker : Worker) (player : UUID) (message : ServerMessage) :
    Quiet first (send worker player message) := quiet_act _

theorem quiet_redis (o : StoreOp PvPSessionState Call) (h : OnlyDefaults first (.store o)) :
    Quiet first (redis o) := Prog.All.perform h

theorem quiet_load : Quiet first load := quiet_redis .load True.intro

/-- Nothing is submitted by a program that has ended. -/
theorem quiet_done (r : Except Exc α) : Quiet first (.done r : Coroutine α) := True.intro

/-- A transaction submits what its call says. -/
theorem quiet_watchAndUpdate {L : Type} (call : L → Call) (mutator : Mutator L) (attempts : ℕ)
    (captured : L)
    (h : ∀ token retriesLeft captured session,
      OnlyDefaults first (.store (.exec token retriesLeft (call captured) session))) :
    Quiet first (watchAndUpdate call mutator attempts captured) := by
  induction attempts generalizing captured with
  | zero => exact quiet_done _
  | succ attempts ih =>
    apply (quiet_redis .watch True.intro).bind
    intro token
    apply (quiet_redis .get True.intro).bind
    intro raw
    cases raw with
    | none => exact (quiet_redis .unwatch True.intro).bind fun _ => quiet_done _
    | some session =>
      dsimp only
      cases mutator captured session with
      | error e => exact quiet_done _
      | ok result =>
        apply (quiet_redis _ (h token attempts captured result.2)).bind
        intro committed
        cases committed with
        | true => exact quiet_done _
        | false => exact ih result.1

/-- Catching exceptions submits nothing. -/
theorem quiet_except {catches : Exc → Bool} {p : Coroutine α} (h : Quiet first p) :
    Quiet first (except catches p) := by
  apply Prog.All.handle
  · change Quiet first (p >>= fun a => pure (some a))
    exact h.bind fun _ => quiet_done _
  · intro e
    split <;> exact quiet_done _

theorem quiet_sendWaitingForAction (worker : Worker) (session : PvPSessionState) :
    Quiet first (sendWaitingForAction worker session) := by
  unfold sendWaitingForAction
  split
  · exact quiet_done _
  · exact (quiet_send _ _ _).bind fun _ => (quiet_send _ _ _).bind fun _ => quiet_act _

theorem quiet_promptNextTurn (worker : Worker) (roundEnded : Bool) :
    Quiet first (promptNextTurn worker roundEnded) := by
  apply (quiet_act _).bind
  intro _
  apply quiet_load.bind
  intro loaded
  cases loaded with
  | none => exact quiet_done _
  | some session =>
    dsimp only
    split
    · exact quiet_sendWaitingForAction worker session
    · exact quiet_done _

theorem quiet_announceTurn (worker : Worker) (turnResult : TurnResult) (captured : ResolveCaptured)
    (p1Id p2Id : UUID) : Quiet first (announceTurn worker turnResult captured p1Id p2Id) := by
  have hround : ∀ result,Quiet first (announceRound worker p1Id p2Id result) := by
    intro result
    cases result with
    | none => exact quiet_done _
    | some result => exact (quiet_send _ _ _).bind fun _ => quiet_send _ _ _
  apply (quiet_send _ _ _).bind
  intro _
  apply (quiet_send _ _ _).bind
  intro _
  apply (hround _).bind
  intro _
  cases captured.matchResult with
  | none => exact quiet_promptNextTurn _ _
  | some result => exact (quiet_send _ _ _).bind fun _ => quiet_send _ _ _

/-- Resolving a turn submits nothing. -/
theorem quiet_resolveTurn (worker : Worker) (p1Action p2Action : Action) :
    Quiet first (resolveTurn worker p1Action p2Action) := by
  apply (quiet_except (quiet_watchAndUpdate (fun _ => .resolve p1Action p2Action) _ _ _
    fun _ _ _ _ => True.intro)).bind
  intro outcome
  cases outcome with
  | none => exact quiet_done _
  | some result =>
    apply (quiet_act _).bind
    intro _
    cases result.1.turnResult with
    | none => exact quiet_done _
    | some turnResult =>
      apply quiet_load.bind
      intro loaded
      cases loaded with
      | none => exact quiet_done _
      | some session => exact quiet_announceTurn _ _ _ _ _

/-- submit_action submits what it is asked to. -/
theorem quiet_submitAction (worker : Worker) {player : UUID} {action : Action}
    (h : ∃ session,first=some (some session) ∧ action=defaultTimeoutAction ∧
      Missing player session) : Quiet first (submitAction worker player action) := by
  apply (quiet_except (quiet_watchAndUpdate (.submit player action) _ _ _ fun _ _ _ _ => h)).bind
  intro outcome
  cases outcome with
  | none => exact quiet_send _ _ _
  | some result =>
    change Quiet first (concludeSubmit worker player action result.1)
    unfold concludeSubmit
    split
    · exact quiet_send _ _ _
    · apply (quiet_send _ _ _).bind
      intro _
      split
      · exact quiet_resolveTurn _ _ _
      · exact quiet_done _

/-- _turn_timeout after its sleep. -/
def wake (worker : Worker) : Coroutine Unit := do
  match ← exceptException load with
  | none => pure ()
  | some none => pure ()
  | some (some session) =>
    if session.gameState.status≠.inProgress then pure ()
    else
      submitDefault worker session.p1Action.isNone session.player1Id
      submitDefault worker session.p2Action.isNone session.player2Id

/-- The rest of _turn_timeout for what it has loaded. -/
theorem quiet_defaults (worker : Worker) (session : PvPSessionState)
    (hstatus : session.gameState.status=.inProgress) :
    Quiet (some (some session)) (do
      submitDefault worker session.p1Action.isNone session.player1Id
      submitDefault worker session.p2Action.isNone session.player2Id) := by
  have hdefault : ∀ (slot : Option Action) (player : UUID),
      (slot=none → Missing player session) →
      Quiet (some (some session)) (submitDefault worker slot.isNone player) := by
    intro slot player hmissing
    cases slot with
    | none => exact quiet_submitAction worker ⟨session,rfl,rfl,hmissing rfl⟩
    | some action => exact quiet_done _
  apply (hdefault _ _ fun h => ⟨hstatus,.inl ⟨rfl,h⟩⟩).bind
  intro _
  exact hdefault _ _ fun h => ⟨hstatus,.inr ⟨rfl,h⟩⟩

/-- What a turn timer has left to do. -/
def TimerProgram : Entry → List (Option PvPSessionState) → Coroutine Unit → Prop
  | .turnTimeout worker,read,p =>
    read=[] ∧ (p=turnTimeout worker ∨ p=wake worker) ∨ Quiet read.head? p
  | _,_,_ => True

/-- The programs of the workers keep it. -/
theorem timerProgram_kept : Kept (R := runtime) TimerProgram where
  starts := by
    intro entry
    cases entry with
    | turnTimeout worker => exact .inl ⟨rfl,.inl rfl⟩
    | gameWs | forfeitAfterTimeout => exact True.intro
  loaded := by
    intro entry read next value h
    cases entry with
    | gameWs | forfeitAfterTimeout => exact True.intro
    | turnTimeout worker =>
      right
      obtain ⟨rfl,hp | hp⟩ | hquiet := h
      · cases hp
      · cases hp
        cases value with
        | none => exact quiet_done _
        | some session =>
          change Quiet (some (some session)) (if session.gameState.status≠.inProgress then _ else _)
          split
          · exact quiet_done _
          · next hstatus => exact quiet_defaults worker session (not_not.mp hstatus)
      · cases read with
        | nil =>
          refine (hquiet.2 (.ok value)).mono fun o ho => ?_
          exact onlyDefaults_of_none ho
        | cons first read => exact hquiet.2 (.ok value)
  raises := by
    intro entry read next exc h
    cases entry with
    | gameWs | forfeitAfterTimeout => exact ⟨True.intro,fun _ => True.intro⟩
    | turnTimeout worker =>
      have hnone : Quiet none (next (.error exc)) ∨ Quiet read.head? (next (.error exc)) := by
        obtain ⟨-,hp | hp⟩ | hquiet := h
        · cases hp
        · cases hp
          left
          cases exc <;> exact True.intro
        · exact .inr (hquiet.2 (.error exc))
      have hall : ∀ {read'},read <+: read' → Quiet read'.head? (next (.error exc)) := by
        rintro read' ⟨more,rfl⟩
        obtain hq | hq := hnone
        · exact hq.mono fun o ho => onlyDefaults_of_none ho
        · cases read with
          | nil => exact hq.mono fun o ho => onlyDefaults_of_none ho
          | cons first read => exact hq
      exact ⟨.inr (hall (List.prefix_refl _)),fun value => .inr (hall (List.prefix_append _ _))⟩
  goesOn := by
    intro entry read o next r ho h
    cases entry with
    | gameWs | forfeitAfterTimeout => exact True.intro
    | turnTimeout worker =>
      obtain ⟨hread,hp | hp⟩ | hquiet := h
      · cases hp
        cases r with
        | ok u => exact .inl ⟨hread,.inr rfl⟩
        | error e => exact .inr (quiet_done _)
      · cases hp
        exact absurd rfl ho
      · exact .inr (hquiet.2 r)

end Programs

section Records

/-- The record of the workers read as slots, a clock and turn timers. A task prompts
with waiting_for_action. -/
def reading (pairing : Pairing) : Reading runtime TurnKey Action where
  step := slotStep pairing
  pending := pending
  openTurn session := (openRound session).map turnOf
  prompted
    | .sent task _ (.waitingForAction turn _ roundNumber _ _) =>
      some (task,toLex (roundNumber,turn))
    | _ => none
  timer
    | .started timer (.turnTimeout _) => some timer
    | _ => none

/-- The turn timers of a run, with the turns for which they are armed. -/
abbrev armings (pairing : Pairing) (moves : List workers.Move) : List (TaskId×TurnKey) :=
  (reading pairing).armings (initial pairing) moves

/-- An event of a record is in time for the timers that are armed. -/
abbrev InTime (pairing : Pairing) (armed : List (TaskId×TurnKey)) :
    List GameStore.Event → GameStore.Event → Prop := (reading pairing).InTime armed

/-- An event of a record does no harm through the timers that are armed. -/
abbrev Harmless (pairing : Pairing) (armed : List (TaskId×TurnKey)) :
    List GameStore.Event → GameStore.Event → Prop := (reading pairing).Harmless armed

variable {pairing : Pairing} {config : workers.Config}

/-- Without a resolution the open round of a match in progress stays. -/
theorem currentRound_spared {earlier later : List GameStore.Event}
    {session session' : PvPSessionState}
    (hfollows : Meets (Follows pairing) (earlier++later))
    (hends : ∀ event∈later,(slotStep pairing event).ends=false)
    (hs : sessionAfter pairing earlier=some session)
    (hs' : sessionAfter pairing (earlier++later)=some session') :
    session'.gameState.currentRound=session.gameState.currentRound := by
  induction later using List.reverseRecOn generalizing session' with
  | nil =>
    rw [List.append_nil,hs] at hs'
    cases hs'
    rfl
  | append_singleton later event ih =>
    rw [← List.append_assoc] at hfollows hs'
    obtain ⟨hbefore,hlast⟩ := meets_append.mp hfollows
    have hih := fun {s} => @ih s hbefore
      fun event' hin => hends event' (List.mem_append_left _ hin)
    have hend := hends event (List.mem_append_right _ (List.mem_singleton_self _))
    rw [sessionAfter,valueAfter_append] at hs'
    cases event with
    | conflict | loaded | note => exact hih hs'
    | deleted => cases hs'
    | commit task call before after =>
      obtain ⟨hv,-,heffect⟩ := hlast
      cases hs'
      rw [← hih hv]
      cases heffect with
      | connect player => rw [markConnected_gameState]
      | start | forfeit => rfl
      | submit _ hstores =>
        cases hstores with
        | rejected => rfl
        | stored => rw [storeInSlot_gameState]
        | completed =>
          exact congrArg GameState.currentRound (storeInSlot_gameState _ _ before)
      | resolve hsubmit =>
        obtain ⟨round,hopen,-,-⟩ := openRound_of_submitTurn hsubmit
        simp only [slotStep,hopen,Step.ends] at hend
        cases hend

/-- The start of a task can be told from all other notes. -/
theorem tellsStarts : TellsStarts runtime where
  injective h := by
    cases h
    exact ⟨rfl,rfl⟩
  raised _ _ _ _ := nofun
  act pick task fresh o memory task' entry hin := by
    cases o with
    | receive frame => cases frame <;> cases List.mem_singleton.mp hin
    | send worker player message => cases List.mem_singleton.mp hin
    | _ => cases hin

/-- What a turn timer submits is a charge for a player who was missing in the
session that it has first loaded. -/
theorem timer_submits (hrun : (initial pairing).Reaches config)
    {task : TaskId} {worker : Worker}
    (htimer : .note (.started task (.turnTimeout worker))∈config.world.trace)
    {earlier later : List GameStore.Event} {player : UUID} {action : Action}
    {stale : SubmitCaptured} {before after : PvPSessionState}
    (hsplit : config.world.trace=
      earlier++.commit task (.submit player action stale) before after::later) :
    ∃ session,(loads (R := runtime) task earlier).head?=some (some session) ∧
      action=defaultTimeoutAction ∧ Missing player session := by
  obtain ⟨entries,hprograms⟩ := programs tellsStarts timerProgram_kept hrun rfl rfl
  have hintended := hprograms.intended
  rw [hsplit] at hintended
  obtain ⟨entry,o,next,hstarted,hprogram,hwrites⟩ := hintended.at
  have hentry : entry=.turnTimeout worker := by
    have h₁ := (hprograms.started task entry).mp (by
      rw [hsplit]
      exact List.mem_append_left _ hstarted)
    have h₂ := (hprograms.started task _).mp htimer
    exact Option.some.inj (h₁.symm.trans h₂)
  subst hentry
  obtain ⟨-,hp | hp⟩ | hquiet := hprogram
  · cases hp
  · cases hp
    cases hwrites
  · cases o with
    | exec token retriesLeft call value =>
      obtain ⟨rfl,-⟩ := hwrites
      exact hquiet.1
    | set onlyIfAbsent call value => exact hquiet.1.elim
    | watch | unwatch | get | load | delete => cases hwrites

/-- What a missing player has no pending action is an empty slot. -/
theorem pending_of_missing {player : UUID} {session : PvPSessionState}
    (h : Missing player session) (hplayers : BelongsTo pairing session) :
    pending session (seatOf pairing player)=none := by
  obtain ⟨-,⟨hp,hnone⟩ | ⟨hp,hnone⟩⟩ := h
  · rw [hp,hplayers.1]
    simp [seatOf,pending,Seat.pick,hnone]
  · have hne : ¬pairing.player2Id=pairing.player1Id := fun he => pairing.distinct he.symm
    rw [hp,hplayers.2]
    simp [seatOf,pending,Seat.pick,hnone,hne]

/-- An action is accepted by a submission. -/
theorem submits_of_accepted {event : GameStore.Event} {seat : Seat}
    {deposit : Deposit TurnKey Action} (h : slotStep pairing event=.accepted seat deposit) :
    ∃ player stale before after round,
      event=.commit deposit.task (.submit player deposit.action stale) before after ∧
      acceptingRound player deposit.action before=some round ∧
      seatOf pairing player=seat ∧ turnOf round=deposit.turn := by
  cases event with
  | conflict | deleted | loaded | note => cases h
  | commit task call before after =>
    cases call with
    | connect | start | forfeit => cases h
    | resolve =>
      simp only [slotStep] at h
      split at h <;> cases h
    | submit player action stale =>
      simp only [slotStep] at h
      split at h
      · next round haccept =>
        cases h
        exact ⟨player,stale,before,after,round,rfl,haccept,rfl,rfl⟩
      · cases h

/-- A turn timer is noted when it is started. -/
theorem started_of_timer {note : Note} {timer : TaskId}
    (h : (reading pairing).timer note=some timer) :
    ∃ worker,note=.started timer (.turnTimeout worker) := by
  cases note with
  | received | sent | raised => cases h
  | started timer' entry =>
    cases entry with
    | gameWs | forfeitAfterTimeout => cases h
    | turnTimeout worker =>
      cases h
      exact ⟨worker,rfl⟩

/-- The records of the workers have the laws of turn timers. -/
theorem lawful (hrun : (initial pairing).Reaches config) :
    (reading pairing).Lawful (some pairing.session) config.world.trace where
  truthful := (faithful hrun rfl).truthful
  clocked := (turns hrun).clocked
  slots := by
    intro earlier session hpart hs
    exact ((turns_of_follows ((chronicle hrun).follows.before hpart)).fits session hs).slots
  accepts := by
    intro earlier event later seat deposit hsplit hstep
    obtain ⟨player,stale,before,after,-,rfl,-⟩ := submits_of_accepted hstep
    have hfollows : Meets (Follows pairing) config.world.trace := (chronicle hrun).follows
    rw [hsplit] at hfollows
    exact ⟨before,rfl,hfollows.at.1⟩
  timers := by
    intro earlier event later seat deposit note hsplit hstep htimer hnote
    obtain ⟨player,stale,before,after,round,rfl,haccept,rfl,hturn⟩ := submits_of_accepted hstep
    obtain ⟨worker,rfl⟩ := started_of_timer htimer
    obtain ⟨session,hfirst,-,hmissing⟩ := timer_submits hrun hnote hsplit
    have hfollows : Meets (Follows pairing) config.world.trace := (chronicle hrun).follows
    have htruthful := (faithful hrun rfl).truthful
    rw [hsplit] at hfollows htruthful
    have hv := hfollows.at.1
    -- the session that it has loaded was the stored one
    obtain ⟨start,hload⟩ := split_load hfirst
    have hbefore : Meets (Follows pairing) earlier := hfollows.before (List.prefix_append _ _)
    have hs : sessionAfter pairing start=some session := by
      have ht := htruthful.before (List.prefix_append earlier _)
      rw [hload] at ht
      exact ht.at.symm
    have hplayers : BelongsTo pairing session := by
      rw [hload] at hbefore
      exact belongsTo_of_follows (hbefore.before (List.prefix_append _ _)) hs
    refine ⟨session,hfirst,pending_of_missing hmissing hplayers,fun hends => ?_⟩
    have hshape : earlier=(start++[.loaded deposit.task (some session)])++
        sinceLoad deposit.task earlier := by
      rw [← List.append_cons]
      exact hload
    have hs' : sessionAfter pairing (start++[.loaded deposit.task (some session)])=
        some session := by
      rw [sessionAfter,valueAfter_append]
      exact hs
    rw [hshape] at hv hbefore
    have hround := currentRound_spared hbefore hends hs' hv
    obtain ⟨hopen,-⟩ := acceptingRound_eq_some.mp haccept
    obtain ⟨-,hcurrent⟩ := openRound_eq_some.mp hopen
    change (openRound session).map turnOf=_
    rw [openRound_eq_some.mpr ⟨hmissing.1,hround.symm.trans hcurrent⟩,← hturn]
    rfl

end Records

/-- In every run whose timers are in time, they do no harm. -/
theorem timers_harmless (pairing : Pairing) {moves : List workers.Move} {config : workers.Config}
    (hrun : (initial pairing).run moves=some config)
    (htime : Meets (InTime pairing (armings pairing moves)) config.world.trace) :
    Meets (Harmless pairing (armings pairing moves)) config.world.trace :=
  (lawful ⟨moves,hrun⟩).harmless (fun _ harmed => (reading pairing).started_of_armings hrun harmed)
    htime

/-- Player 1 charges, player 2 does nothing, and the timer of the first turn
charges for him and resolves the turn. -/
def timerCompletes : List workers.Move :=
  opens 1 ["charge"]::proceeds 0 8++opens 2 []::proceeds 1 14++proceeds 0 5++proceeds 2 9

/-- That timer does no harm. -/
theorem timer_completes_harmlessly : ∃ config,(initial .small).run timerCompletes=some config ∧
    armings .small timerCompletes=[(2,toLex (1,1))] ∧
    appliedPairs config.world.trace=[⟨1,1,.charge,.charge⟩] ∧
    Meets (Harmless .small (armings .small timerCompletes)) config.world.trace := by
  have harmed : armings .small timerCompletes=[(2,toLex (1,1))] := by decide
  have hrun : ((initial .small).run timerCompletes).map (fun config =>
      (appliedPairs config.world.trace,
        decide (Meets (InTime .small [(2,toLex (1,1))]) config.world.trace)))=
      some ([⟨1,1,.charge,.charge⟩],true) := by decide
  obtain ⟨config,hconfig,hview⟩ := Option.map_eq_some_iff.mp hrun
  obtain ⟨happlied,htime⟩ := Prod.mk.inj hview
  refine ⟨config,hconfig,harmed,happlied,timers_harmless .small hconfig ?_⟩
  rw [harmed]
  exact of_decide_eq_true htime

/-- The timer of the first turn sees that player 1 has not acted; then player 1
blocks, and the timer charges for him. -/
def timerOverwrites : List workers.Move :=
  opens 1 ["block"]::proceeds 0 8++opens 2 []::proceeds 1 14++proceeds 2 2++proceeds 0 5++
    proceeds 2 3

/-- The charge replaces the block. -/
theorem timer_overwrites_block :
    ¬∀ pairing moves config,(initial pairing).run moves=some config →
      Meets (Harmless pairing (armings pairing moves)) config.world.trace := by
  intro h
  have harmed : armings .small timerOverwrites=[(2,toLex (1,1))] := by decide
  have hrun : ((initial .small).run timerOverwrites).map (fun config =>
      decide (Meets (Harmless .small [(2,toLex (1,1))]) config.world.trace))=some false := by
    decide
  obtain ⟨config,hconfig,hview⟩ := Option.map_eq_some_iff.mp hrun
  have hharmless := h .small timerOverwrites config hconfig
  rw [harmed] at hharmless
  exact of_decide_eq_false hview hharmless

end KiClash.TimerDefaults
