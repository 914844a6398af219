import KiClash.GoTurns
import KiClash.TurnTimers

/-!
# When the auto-charge of the Go session is harmless

turnTimeoutLoop loads the session once and then submits a charge for each
player who has not acted, like the Python timer; its context is cancelled on
its own instance only, and a cancelled timer whose time has passed goes on.
What it stores is harmless under the same conditions.
-/

namespace KiClash.GoTimerDefaults

open GoTypes GoEngine ServerMessages Histories AsyncTasks WatchedKey RecordedTasks
open SlottedTurns TurnTimers
open GameStore (Pairing)
open GoStore GoSession GoSessionContracts GoSessionSafety GoPendingPairs GoChronicle GoTurns

section Programs

/-- The player has no pending action in a match in progress. -/
def Missing (player : String) (sess : PvPSession) : Prop :=
  sess.gameState.status=matchInProgress ∧
    ((player=sess.player1Id ∧ sess.p1Action=none) ∨
      (player=sess.player2Id ∧ sess.p2Action=none))

/-- The operation submits at most a charge for a player who was missing in what
the goroutine has loaded first. -/
def OnlyDefaults (first : Option (Option PvPSession)) : Op language → Prop
  | .store (.exec _ _ (.submit player action _) _) =>
    ∃ sess,first=some (some sess) ∧ action=defaultTimeoutAction ∧ Missing player sess
  | .store (.set _ _ _) => False
  | _ => True

variable {first : Option (Option PvPSession)} {α : Type}

/-- Who has loaded nothing submits nothing. -/
theorem onlyDefaults_of_none {o : Op language} (h : OnlyDefaults none o) :
    OnlyDefaults first o := by
  unfold OnlyDefaults at h ⊢
  split at h
  · obtain ⟨sess,hs,-⟩ := h
    cases hs
  · cases h
  · trivial

/-- A program that submits at most such charges. -/
abbrev Quiet (first : Option (Option PvPSession)) (p : Goroutine α) : Prop :=
  p.All (OnlyDefaults first)

theorem quiet_act (o : LocalOp) : Quiet first (act o) := Prog.All.perform True.intro

theorem quiet_send (instance' : Instance) (player : String) (message : ServerMessage) :
    Quiet first (send instance' player message) := quiet_act _

theorem quiet_redis (o : StoreOp PvPSession Call) (h : OnlyDefaults first (.store o)) :
    Quiet first (redis o) := Prog.All.perform h

/-- Nothing is submitted by a program that has ended. -/
theorem quiet_done (r : Except Failure α) : Quiet first (.done r : Goroutine α) := True.intro

theorem quiet_loadSession : Quiet first loadSession := by
  apply (quiet_redis .load True.intro).bind
  intro value
  cases value with
  | none => exact quiet_done _
  | some sess => exact quiet_done _

/-- A transaction submits what its call says. -/
theorem quiet_watchAndUpdate {L : Type} (call : L → Call) (mutator : Mutator L) (attempts : ℕ)
    (captured : L)
    (h : ∀ token retriesLeft captured sess,
      OnlyDefaults first (.store (.exec token retriesLeft (call captured) sess))) :
    Quiet first (watchAndUpdate call mutator attempts captured) := by
  induction attempts generalizing captured with
  | zero => exact quiet_done _
  | succ attempts ih =>
    apply (quiet_redis .watch True.intro).bind
    intro token
    apply (quiet_redis .get True.intro).bind
    intro value
    cases value with
    | none => exact quiet_done _
    | some sess =>
      dsimp only
      cases mutator captured sess with
      | error e => exact quiet_done _
      | ok result =>
        apply (quiet_redis _ (h token attempts captured result.2)).bind
        intro committed
        cases committed with
        | true => exact quiet_loadSession.bind fun _ => quiet_done _
        | false => exact ih result.1

/-- Handling errors submits nothing. -/
theorem quiet_returned {p : Goroutine α} (h : Quiet first p) : Quiet first (returned p) :=
  Prog.All.andThen h fun _ => quiet_done _

theorem quiet_sendWaitingForAction (instance' : Instance) (sess : PvPSession) :
    Quiet first (sendWaitingForAction instance' sess) := by
  unfold sendWaitingForAction
  split
  · exact quiet_done _
  · apply (quiet_send _ _ _).bind
    intro _
    apply (quiet_send _ _ _).bind
    intro _
    exact (quiet_act _).bind fun _ => quiet_act _

theorem quiet_promptNextTurn (instance' : Instance) (roundEnded : Bool) :
    Quiet first (promptNextTurn instance' roundEnded) := by
  apply (quiet_act _).bind
  intro _
  apply (quiet_returned quiet_loadSession).bind
  intro result
  cases result with
  | error e => exact quiet_done _
  | ok fresh =>
    dsimp only
    split
    · exact quiet_sendWaitingForAction instance' fresh
    · exact quiet_done _

theorem quiet_concludeResolve (instance' : Instance) (captured : ResolveCaptured)
    (sess : PvPSession) : Quiet first (concludeResolve instance' captured sess) := by
  have hround : ∀ p1id p2id result,Quiet first (sendRoundResult instance' p1id p2id result) := by
    intro p1id p2id result
    cases result with
    | none => exact quiet_done _
    | some rr => exact (quiet_send _ _ _).bind fun _ => quiet_send _ _ _
  apply (quiet_act _).bind
  intro _
  apply (quiet_send _ _ _).bind
  intro _
  apply (quiet_send _ _ _).bind
  intro _
  apply (hround _ _ _).bind
  intro _
  cases captured.matchResult with
  | none => exact quiet_promptNextTurn _ _
  | some mr => exact (quiet_send _ _ _).bind fun _ => quiet_send _ _ _

/-- Resolving a turn submits nothing. -/
theorem quiet_resolveTurn (instance' : Instance) (p1 p2 : Action) :
    Quiet first (GoSession.resolveTurn instance' p1 p2) := by
  apply (quiet_returned (quiet_watchAndUpdate (fun _ => .resolve p1 p2) _ _ _
    fun _ _ _ _ => True.intro)).bind
  intro result
  cases result with
  | error e => exact quiet_done _
  | ok result => exact quiet_concludeResolve instance' result.1 result.2

/-- submitAction submits what it is asked to. -/
theorem quiet_submitAction (instance' : Instance) {player : String} {action : Action}
    (h : ∃ sess,first=some (some sess) ∧ action=defaultTimeoutAction ∧ Missing player sess) :
    Quiet first (submitAction instance' player action) := by
  apply (quiet_returned (quiet_watchAndUpdate (.submit player action) _ _ _
    fun _ _ _ _ => h)).bind
  intro result
  cases result with
  | error e => cases e <;> exact quiet_send _ _ _
  | ok result =>
    change Quiet first (concludeSubmit instance' player action result.1)
    unfold concludeSubmit
    split
    · exact quiet_send _ _ _
    · apply (quiet_send _ _ _).bind
      intro _
      split
      · exact quiet_resolveTurn _ _ _
      · exact quiet_done _

/-- turnTimeoutLoop after its select. -/
def wake (instance' : Instance) : Goroutine Unit := do
  match ← returned loadSession with
  | .error _ => pure ()
  | .ok sess =>
    if sess.gameState.status≠matchInProgress then pure ()
    else
      submitDefault instance' sess.p1Action.isNone sess.player1Id
      submitDefault instance' sess.p2Action.isNone sess.player2Id

/-- The rest of turnTimeoutLoop for what it has loaded. -/
theorem quiet_defaults (instance' : Instance) (sess : PvPSession)
    (hstatus : sess.gameState.status=matchInProgress) :
    Quiet (some (some sess)) (do
      submitDefault instance' sess.p1Action.isNone sess.player1Id
      submitDefault instance' sess.p2Action.isNone sess.player2Id) := by
  have hdefault : ∀ (slot : Option Action) (player : String),(slot=none → Missing player sess) →
      Quiet (some (some sess)) (submitDefault instance' slot.isNone player) := by
    intro slot player hmissing
    cases slot with
    | none => exact quiet_submitAction instance' ⟨sess,rfl,rfl,hmissing rfl⟩
    | some action => exact quiet_done _
  apply (hdefault _ _ fun h => ⟨hstatus,.inl ⟨rfl,h⟩⟩).bind
  intro _
  exact hdefault _ _ fun h => ⟨hstatus,.inr ⟨rfl,h⟩⟩

/-- What a turn timer has left to do. -/
def TimerProgram : Entry → List (Option PvPSession) → Goroutine Unit → Prop
  | .turnTimeoutLoop instance',read,p =>
    read=[] ∧ (p=turnTimeoutLoop instance' ∨ p=wake instance') ∨ Quiet read.head? p
  | _,_,_ => True

/-- The programs of the instances keep it. -/
theorem timerProgram_kept : Kept (R := runtime) TimerProgram where
  starts := by
    intro entry
    cases entry with
    | turnTimeoutLoop instance' => exact .inl ⟨rfl,.inl rfl⟩
    | gameWebsocket | forfeitAfterTimeout => exact True.intro
  loaded := by
    intro entry read next value h
    cases entry with
    | gameWebsocket | forfeitAfterTimeout => exact True.intro
    | turnTimeoutLoop instance' =>
      right
      obtain ⟨rfl,hp | hp⟩ | hquiet := h
      · cases hp
      · cases hp
        cases value with
        | none => exact quiet_done _
        | some sess =>
          change Quiet (some (some sess)) (if sess.gameState.status≠matchInProgress then _ else _)
          split
          · exact quiet_done _
          · next hstatus => exact quiet_defaults instance' sess (not_not.mp hstatus)
      · cases read with
        | nil =>
          refine (hquiet.2 (.ok value)).mono fun o ho => ?_
          exact onlyDefaults_of_none ho
        | cons first read => exact hquiet.2 (.ok value)
  raises := by
    intro entry read next exc h
    cases entry with
    | gameWebsocket | forfeitAfterTimeout => exact ⟨True.intro,fun _ => True.intro⟩
    | turnTimeoutLoop instance' =>
      have hnone : Quiet none (next (.error exc)) ∨ Quiet read.head? (next (.error exc)) := by
        obtain ⟨-,hp | hp⟩ | hquiet := h
        · cases hp
        · cases hp
          exact .inl True.intro
        · exact .inr (hquiet.2 (.error exc))
      have hall : ∀ {read'},read <+: read' → Quiet read'.head? (next (.error exc)) := by
        rintro read' ⟨more,rfl⟩
        obtain hq | hq := hnone
        · exact hq.mono fun o ho => onlyDefaults_of_none ho
        · cases read with
          | nil => exact hq.mono fun o ho => onlyDefaults_of_none ho
          | cons first read => exact hq
      exact ⟨.inr (hall (List.prefix_refl _)),fun value => .inr (hall (List.prefix_append _ _))⟩
  goesOn := by
    intro entry read o next r ho h
    cases entry with
    | gameWebsocket | forfeitAfterTimeout => exact True.intro
    | turnTimeoutLoop instance' =>
      obtain ⟨hread,hp | hp⟩ | hquiet := h
      · cases hp
        cases r with
        | error e => exact .inr (quiet_done _)
        | ok fired =>
          cases fired with
          | true => exact .inl ⟨hread,.inr rfl⟩
          | false => exact .inr (quiet_done _)
      · cases hp
        exact absurd rfl ho
      · exact .inr (hquiet.2 r)

end Programs

section Records

/-- The record of the instances read as slots, a clock and turn timers. A goroutine
prompts with waiting_for_action. -/
def reading (pairing : Pairing) : Reading runtime TurnKey Action where
  step := slotStep pairing
  pending := pending
  openTurn sess := (openRound sess).map turnOf
  prompted
    | .sent task _ (.waitingForAction turn _ roundNumber _ _) =>
      some (task,toLex (roundNumber,turn))
    | _ => none
  timer
    | .started timer (.turnTimeoutLoop _) => some timer
    | _ => none

/-- The timers of a run, with the turns for which they are armed. -/
abbrev armings (pairing : Pairing) (moves : List instances.Move) : List (GoroutineId×TurnKey) :=
  (reading pairing).armings (initial pairing) moves

/-- An event of a record is in time for the timers that are armed. -/
abbrev InTime (pairing : Pairing) (armed : List (GoroutineId×TurnKey)) :
    List GoStore.Event → GoStore.Event → Prop := (reading pairing).InTime armed

/-- An event of a record does no harm through the timers that are armed. -/
abbrev Harmless (pairing : Pairing) (armed : List (GoroutineId×TurnKey)) :
    List GoStore.Event → GoStore.Event → Prop := (reading pairing).Harmless armed

variable {pairing : Pairing} {config : instances.Config}

/-- Without a resolution the open round of a match in progress stays. -/
theorem currentRound_spared {earlier later : List GoStore.Event} {sess sess' : PvPSession}
    (hfollows : Meets (Follows pairing) (earlier++later))
    (hends : ∀ event∈later,(slotStep pairing event).ends=false)
    (hs : sessionAfter pairing earlier=some sess)
    (hs' : sessionAfter pairing (earlier++later)=some sess') :
    sess'.gameState.currentRound=sess.gameState.currentRound := by
  induction later using List.reverseRecOn generalizing sess' with
  | nil =>
    rw [List.append_nil,hs] at hs'
    cases hs'
    rfl
  | append_singleton later event ih =>
    rw [← List.append_assoc] at hfollows hs'
    obtain ⟨hbefore,hlast⟩ := meets_append.mp hfollows
    have hih := fun {s} => @ih s hbefore
      fun event' hin => hends event' (List.mem_append_left _ hin)
    have hend := hends event (List.mem_append_right _ (List.mem_singleton_self _))
    rw [sessionAfter,valueAfter_append] at hs'
    cases event with
    | conflict | loaded | note => exact hih hs'
    | deleted => cases hs'
    | commit task call before after =>
      obtain ⟨hv,-,heffect⟩ := hlast
      cases hs'
      rw [← hih hv]
      cases heffect with
      | keeps _ hkeeps => rw [hkeeps.gameState]
      | submit _ hstores => rw [hstores.unchanged.1]
      | forfeit => rfl
      | resolve hsubmit =>
        obtain ⟨cr,hopen,-,-⟩ := openRound_of_submitTurn hsubmit
        simp only [slotStep,hopen,Step.ends] at hend
        cases hend

/-- The start of a task can be told from all other notes. -/
theorem tellsStarts : TellsStarts runtime where
  injective h := by
    cases h
    exact ⟨rfl,rfl⟩
  raised _ _ _ _ := nofun
  act pick task fresh o memory task' entry hin := by
    cases o with
    | readMessage frame => cases List.mem_singleton.mp hin
    | send instance' player message => cases List.mem_singleton.mp hin
    | _ => cases hin

/-- What a turn timer submits is a charge for a player who was missing in the
session that it has first loaded. -/
theorem timer_submits (hrun : (initial pairing).Reaches config)
    {task : GoroutineId} {instance' : Instance}
    (htimer : .note (.started task (.turnTimeoutLoop instance'))∈config.world.trace)
    {earlier later : List GoStore.Event} {player : String} {action : Action}
    {stale : SubmitCaptured} {before after : PvPSession}
    (hsplit : config.world.trace=
      earlier++.commit task (.submit player action stale) before after::later) :
    ∃ sess,(loads (R := runtime) task earlier).head?=some (some sess) ∧
      action=defaultTimeoutAction ∧ Missing player sess := by
  obtain ⟨entries,hprograms⟩ := programs tellsStarts timerProgram_kept hrun rfl rfl
  have hintended := hprograms.intended
  rw [hsplit] at hintended
  obtain ⟨entry,o,next,hstarted,hprogram,hwrites⟩ := hintended.at
  have hentry : entry=.turnTimeoutLoop instance' := by
    have h₁ := (hprograms.started task entry).mp (by
      rw [hsplit]
      exact List.mem_append_left _ hstarted)
    have h₂ := (hprograms.started task _).mp htimer
    exact Option.some.inj (h₁.symm.trans h₂)
  subst hentry
  obtain ⟨-,hp | hp⟩ | hquiet := hprogram
  · cases hp
  · cases hp
    cases hwrites
  · cases o with
    | exec token retriesLeft call value =>
      obtain ⟨rfl,-⟩ := hwrites
      exact hquiet.1
    | set onlyIfAbsent call value => exact hquiet.1.elim
    | watch | unwatch | get | load | delete => cases hwrites

/-- What a missing player has no pending action is an empty slot. -/
theorem pending_of_missing {player : String} {sess : PvPSession}
    (h : Missing player sess) (hplayers : Belongs pairing sess) :
    pending sess (seatOf pairing player)=none := by
  obtain ⟨-,⟨hp,hnone⟩ | ⟨hp,hnone⟩⟩ := h
  · rw [hp,hplayers.1]
    simp [seatOf,pending,Seat.pick,hnone]
  · have hne : ¬p2Of pairing=p1Of pairing := fun he => players_distinct pairing he.symm
    rw [hp,hplayers.2]
    simp [seatOf,pending,Seat.pick,hnone,hne]

/-- An action is accepted by a submission. -/
theorem submits_of_accepted {event : GoStore.Event} {seat : Seat}
    {deposit : Deposit TurnKey Action} (h : slotStep pairing event=.accepted seat deposit) :
    ∃ player stale before after cr,
      event=.commit deposit.task (.submit player deposit.action stale) before after ∧
      acceptingRound player deposit.action before=some cr ∧
      seatOf pairing player=seat ∧ turnOf cr=deposit.turn := by
  cases event with
  | conflict | deleted | loaded | note => cases h
  | commit task call before after =>
    cases call with
    | connect | start | disconnect | forfeit => cases h
    | resolve =>
      simp only [slotStep] at h
      split at h <;> cases h
    | submit player action stale =>
      simp only [slotStep] at h
      split at h
      · next cr haccept =>
        cases h
        exact ⟨player,stale,before,after,cr,rfl,haccept,rfl,rfl⟩
      · cases h

/-- A timer is noted when it is started. -/
theorem started_of_timer {note : Note} {timer : GoroutineId}
    (h : (reading pairing).timer note=some timer) :
    ∃ instance',note=.started timer (.turnTimeoutLoop instance') := by
  cases note with
  | received | sent | failed => cases h
  | started timer' entry =>
    cases entry with
    | gameWebsocket | forfeitAfterTimeout => cases h
    | turnTimeoutLoop instance' =>
      cases h
      exact ⟨instance',rfl⟩

/-- The records of the instances have the laws of turn timers. -/
theorem lawful (hrun : (initial pairing).Reaches config) :
    (reading pairing).Lawful (some (goSession pairing.session)) config.world.trace where
  truthful := (faithful hrun rfl).truthful
  clocked := (turns hrun).clocked
  slots := by
    intro earlier sess hpart hs
    exact ((turns_of_follows ((chronicle hrun).follows.before hpart)).fits sess hs).slots
  accepts := by
    intro earlier event later seat deposit hsplit hstep
    obtain ⟨player,stale,before,after,-,rfl,-⟩ := submits_of_accepted hstep
    have hfollows : Meets (Follows pairing) config.world.trace := (chronicle hrun).follows
    rw [hsplit] at hfollows
    exact ⟨before,rfl,hfollows.at.1⟩
  timers := by
    intro earlier event later seat deposit note hsplit hstep htimer hnote
    obtain ⟨player,stale,before,after,cr,rfl,haccept,rfl,hturn⟩ := submits_of_accepted hstep
    obtain ⟨instance',rfl⟩ := started_of_timer htimer
    obtain ⟨sess,hfirst,-,hmissing⟩ := timer_submits hrun hnote hsplit
    have hfollows : Meets (Follows pairing) config.world.trace := (chronicle hrun).follows
    have htruthful := (faithful hrun rfl).truthful
    rw [hsplit] at hfollows htruthful
    have hv := hfollows.at.1
    -- the sess that it has loaded was the stored one
    obtain ⟨start,hload⟩ := split_load hfirst
    have hbefore : Meets (Follows pairing) earlier := hfollows.before (List.prefix_append _ _)
    have hs : sessionAfter pairing start=some sess := by
      have ht := htruthful.before (List.prefix_append earlier _)
      rw [hload] at ht
      exact ht.at.symm
    have hplayers : Belongs pairing sess := by
      rw [hload] at hbefore
      exact belongs_of_follows (hbefore.before (List.prefix_append _ _)) hs
    refine ⟨sess,hfirst,pending_of_missing hmissing hplayers,fun hends => ?_⟩
    have hshape : earlier=(start++[.loaded deposit.task (some sess)])++
        sinceLoad deposit.task earlier := by
      rw [← List.append_cons]
      exact hload
    have hs' : sessionAfter pairing (start++[.loaded deposit.task (some sess)])=
        some sess := by
      rw [sessionAfter,valueAfter_append]
      exact hs
    rw [hshape] at hv hbefore
    have hround := currentRound_spared hbefore hends hs' hv
    obtain ⟨hopen,-⟩ := acceptingRound_eq_some.mp haccept
    obtain ⟨-,hcurrent⟩ := openRound_eq_some.mp hopen
    change (openRound sess).map turnOf=_
    rw [openRound_eq_some.mpr ⟨hmissing.1,hround.symm.trans hcurrent⟩,← hturn]
    rfl

end Records

/-- In every run whose timers are in time, they do no harm. -/
theorem go_timers_harmless (pairing : Pairing) {moves : List instances.Move}
    {config : instances.Config}
    (hrun : (initial pairing).run moves=some config)
    (htime : Meets (InTime pairing (armings pairing moves)) config.world.trace) :
    Meets (Harmless pairing (armings pairing moves)) config.world.trace :=
  (lawful ⟨moves,hrun⟩).harmless (fun _ harmed => (reading pairing).started_of_armings hrun harmed)
    htime

/-- Player 1 charges, player 2 does nothing, and the timer of the first turn
charges for him and resolves the turn. -/
def timerCompletes : List instances.Move :=
  opens 1 ["charge"]::proceeds 0 10++opens 2 []::proceeds 1 14++proceeds 0 6++proceeds 2 10

/-- That timer does no harm. -/
theorem go_timer_completes_harmlessly : ∃ config,(initial .small).run timerCompletes=some config ∧
    armings .small timerCompletes=[(2,toLex (1,1))] ∧
    appliedTurns (slotSteps .small config.world.trace)=[toLex (1,1)] ∧
    Meets (Harmless .small (armings .small timerCompletes)) config.world.trace := by
  have harmed : armings .small timerCompletes=[(2,toLex (1,1))] := by decide
  have hrun : ((initial .small).run timerCompletes).map (fun config =>
      (appliedTurns (slotSteps .small config.world.trace),
        decide (Meets (InTime .small [(2,toLex (1,1))]) config.world.trace)))=
      some ([toLex (1,1)],true) := by decide
  obtain ⟨config,hconfig,hview⟩ := Option.map_eq_some_iff.mp hrun
  obtain ⟨happlied,htime⟩ := Prod.mk.inj hview
  refine ⟨config,hconfig,harmed,happlied,go_timers_harmless .small hconfig ?_⟩
  rw [harmed]
  exact of_decide_eq_true htime

/-- The timer of the first turn sees that player 1 has not acted; then player 1
blocks, and the timer charges for him. -/
def timerOverwrites : List instances.Move :=
  opens 1 ["block"]::proceeds 0 10++opens 2 []::proceeds 1 14++proceeds 2 2++proceeds 0 6++
    proceeds 2 3

/-- The charge replaces the block. -/
theorem go_timer_overwrites_block :
    ¬∀ pairing moves config,(initial pairing).run moves=some config →
      Meets (Harmless pairing (armings pairing moves)) config.world.trace := by
  intro h
  have harmed : armings .small timerOverwrites=[(2,toLex (1,1))] := by decide
  have hrun : ((initial .small).run timerOverwrites).map (fun config =>
      decide (Meets (Harmless .small [(2,toLex (1,1))]) config.world.trace))=some false := by
    decide
  obtain ⟨config,hconfig,hview⟩ := Option.map_eq_some_iff.mp hrun
  have hharmless := h .small timerOverwrites config hconfig
  rw [harmed] at hharmless
  exact of_decide_eq_false hview hharmless

end KiClash.GoTimerDefaults
