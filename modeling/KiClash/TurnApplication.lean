import KiClash.PendingPairs

/-!
# Which turns of the Python session are applied exactly once

Consuming a pair and applying it are two transactions. If nothing comes
between them, each consumed pair is applied once, as the turn for which it was
consumed. The condition names what may not come between them; the session does
not exclude any of it.
-/

namespace KiClash.TurnApplication

open EngineTypes OutcomeMatrix Engine EngineRuns Histories AsyncTasks AsyncContracts WatchedKey
open RecordContracts GameStore GameSession SessionContracts SessionSafety PendingPairs

/-- The pairs that have been applied are the consumed ones in the same order,
each applied as the turn for which it was consumed; at most the latest pair is
still to be applied, and then its task is on the way to do so. -/
structure ExactlyOnce (config : workers.Config) : Prop where
  /-- Consumed pairs are applied or wait. -/
  accounted : consumedPairs config.world.trace=appliedPairs config.world.trace++
    ((waiting config.world.trace).map Prod.snd).toList
  /-- A waiting pair is not forgotten. -/
  underWay : ∀ task pair,waiting config.world.trace=some (task,pair) → ¬Rests config task

/-- Both actions can be paid for in the open round. -/
def PairAffordable (session : PvPSessionState) (pair : TurnPair) : Prop :=
  ∃ round∈openRound session,Affordable round pair.p1Action pair.p2Action

instance (session : PvPSessionState) (pair : TurnPair) : Decidable (PairAffordable session pair) :=
  inferInstanceAs (Decidable (∃ round∈openRound session,_))

/-- Nothing disturbs the way from a consumed pair to its turn. A pair is
consumed while none waits, can be paid for, and is not hidden behind an error
that an aborted attempt of the same call has left; a call that consumes nothing
does not resolve what an aborted attempt has left; no forfeit is written while
a pair waits; and the task of a waiting pair is neither interrupted nor out of
attempts. -/
def Undisturbed (earlier : List GameStore.Event) : GameStore.Event → Prop
  | .commit _ (.submit playerId action stale) before _ =>
    match completedPair playerId action before with
    | some pair =>
      waiting earlier=none ∧ PairAffordable before pair ∧ stale.validationError=none
    | none =>
      (acceptingRound playerId action before).isSome → SubmitCaptured.resolves stale=false
  | .commit _ (.forfeit _) _ _ => waiting earlier=none
  | .conflict task (.resolve _ _) 0 => heldBy (earlier.map turnStep) task=false
  | .note (.raised task _) => heldBy (earlier.map turnStep) task=false
  | _ => True

instance (earlier : List GameStore.Event) : ∀ event : GameStore.Event,Decidable (Undisturbed earlier event)
  | .commit _ (.submit playerId action stale) before _ =>
    show Decidable (match completedPair playerId action before with
      | some pair =>
        waiting earlier=none ∧ PairAffordable before pair ∧ stale.validationError=none
      | none =>
        (acceptingRound playerId action before).isSome → SubmitCaptured.resolves stale=false) from
    match completedPair playerId action before with
    | some _ | none => inferInstance
  | .commit _ (.forfeit _) _ _ => inferInstanceAs (Decidable (waiting earlier=none))
  | .conflict task (.resolve _ _) 0 =>
    inferInstanceAs (Decidable (heldBy (earlier.map turnStep) task=false))
  | .note (.raised task _) =>
    inferInstanceAs (Decidable (heldBy (earlier.map turnStep) task=false))
  | .commit _ (.connect _) _ _ | .commit _ .start _ _ | .commit _ (.resolve _ _) _ _
  | .conflict _ (.connect _) _ | .conflict _ .start _ | .conflict _ (.submit _ _ _) _
  | .conflict _ (.forfeit _) _ | .conflict _ (.resolve _ _) (_+1) | .deleted _ | .loaded _ _
  | .note (.started _ _) | .note (.received _ _) | .note (.sent _ _ _) => instDecidableTrue

/-- The invariant: the record is in order, and a waiting pair fits the open round. -/
structure TurnInvariant (pairing : Pairing) (count : ℕ) (record : SessionRecord) : Prop where
  /-- The stored session belongs to the two players. -/
  players : ∀ session,record.value=some session →
    session.player1Id=pairing.player1Id ∧ session.player2Id=pairing.player2Id
  /-- Consumed pairs are applied or wait. -/
  accounted : Accounted (record.trace.map turnStep)
  /-- A waiting pair can be applied now. -/
  applicable : ∀ task pair,waiting record.trace=some (task,pair) → task<count ∧
    ∃ session round,record.value=some session ∧ openRound session=some round ∧
      pair=.now round pair.p1Action pair.p2Action ∧
      Affordable round pair.p1Action pair.p2Action

/-- A task holds a pair between its consumption and its application. -/
def HoldsAs (task : TaskId) (phase : Phase) (record : SessionRecord) : Prop :=
  match phase with
  | .holding p1Action p2Action =>
    ∃ pair,waiting record.trace=some (task,pair) ∧ pair.p1Action=p1Action ∧
      pair.p2Action=p2Action
  | _ => ∀ pair,waiting record.trace≠some (task,pair)

/-- The contract behind exactly-once application. -/
def turnContract (pairing : Pairing) : SessionContract where
  pairing := pairing
  allowed := Meets Undisturbed
  inv := TurnInvariant pairing
  expects := Expects turnStep
  phase := HoldsAs

section Steps

variable {pairing : Pairing} {count : ℕ} {record : SessionRecord} {event : GameStore.Event}
  {task : TaskId}

/-- Changing nothing that matters: the step is none, and the open round stays. -/
theorem TurnInvariant.unchanged (h : TurnInvariant pairing count record)
    (hstep : turnStep event=.other) {value : Option PvPSessionState}
    (hplayers : ∀ session,value=some session →
      session.player1Id=pairing.player1Id ∧ session.player2Id=pairing.player2Id)
    (hround : ∀ session round,record.value=some session → openRound session=some round →
      ∃ session',value=some session' ∧ openRound session'=some round) :
    TurnInvariant pairing count ⟨value,record.trace++[event]⟩ where
  players := hplayers
  accounted := by
    rw [List.map_append,List.map_singleton]
    exact h.accounted.step (by rw [hstep]; exact True.intro)
  applicable := by
    intro task pair hw
    rw [waiting_append,hstep] at hw
    obtain ⟨hlt,session,round,hv,ho,hpair,ha⟩ := h.applicable task pair hw
    obtain ⟨session',hv',ho'⟩ := hround session round hv ho
    exact ⟨hlt,session',round,hv',ho',hpair,ha⟩

/-- An event that touches neither the key nor a pair concerns nobody. -/
theorem neutral_event {P : SessionRecord → Prop} (hstep : turnStep event=.other) :
    (turnContract pairing).Neutral P event := by
  intro count record hinv _ _
  exact ⟨hinv.unchanged hstep hinv.players fun session round hv ho => ⟨session,hv,ho⟩,
    Expects.unchanged hstep fun hover => hover⟩

/-- What a change of the record has to satisfy. -/
def Within (pairing : Pairing) (task : TaskId) (count : ℕ) (record record' : SessionRecord)
    (phase : Phase) : Prop :=
  TurnInvariant pairing count record' ∧ (∀ other,other≠task → Expects turnStep other record record') ∧
    HoldsAs task phase record'

/-- A transaction that changes neither the match nor a pair. -/
theorem commit_unchanged (session : PvPSessionState) {call : Call}
    {session' : PvPSessionState}
    (hstep : turnStep (.commit task call session session')=.other)
    (hgame : session'.gameState=session.gameState) (h₁ : session'.player1Id=session.player1Id)
    (h₂ : session'.player2Id=session.player2Id) (hinv : TurnInvariant pairing count record)
    (hidle : HoldsAs task .idle record) (hv : record.value=some session) :
    Within pairing task count record (record.commit task call session') .idle := by
  rw [record.commit_of_value hv]
  have hsame := Expects.unchanged hstep (over_of_same hv hgame _)
  refine ⟨hinv.unchanged hstep ?_ ?_,fun other _ => hsame other,fun pair hw => ?_⟩
  · intro s hs
    cases hs
    rw [h₁,h₂]
    exact hinv.players session hv
  · intro s round hs ho
    rw [hv] at hs
    cases hs
    exact ⟨session',rfl,by rw [openRound_congr hgame,ho]⟩
  · exact hidle pair (((hsame task).same pair).mp hw)

/-- A submission that completes a pair: the task holds it from now on. -/
theorem commit_consumes {playerId : UUID} {action : Action} {stale : SubmitCaptured}
    {session : PvPSessionState} {round : RoundState} {p1Action p2Action : Action}
    (hlt : task<count) (hopen : openRound session=some round)
    (hpair : completedPair playerId action session=some (.now round p1Action p2Action))
    (hwaiting : waiting record.trace=none) (hafford : Affordable round p1Action p2Action)
    (hinv : TurnInvariant pairing count record) (hv : record.value=some session) :
    Within pairing task count record
      (record.commit task (.submit playerId action stale)
        (cleared (storeInSlot playerId action session)))
      (.holding p1Action p2Action) := by
  rw [record.commit_of_value hv]
  have hgame : (cleared (storeInSlot playerId action session)).gameState=session.gameState :=
    storeInSlot_gameState playerId action session
  have hstep : ∀ after,turnStep (.commit task (.submit playerId action stale) session after)=
      .taken task (.now round p1Action p2Action) := by
    intro after
    simp only [turnStep,hpair]
  refine ⟨⟨?_,?_,?_⟩,fun other hne => ?_,?_⟩
  · intro s hs
    cases hs
    exact ⟨(storeInSlot_player1Id playerId action session).trans (hinv.players session hv).1,
      (storeInSlot_player2Id playerId action session).trans (hinv.players session hv).2⟩
  · rw [List.map_append,List.map_singleton,hstep]
    exact hinv.accounted.step hwaiting
  · intro task' pair hw
    rw [waiting_append,hstep] at hw
    cases hw
    exact ⟨hlt,_,round,rfl,by rw [openRound_congr hgame,hopen],rfl,hafford⟩
  · exact Expects.others (turnStep_by _ _ _ _) (fun _ _ => hwaiting) (over_of_open hv hopen) hne
  · exact ⟨_,by rw [waiting_append,hstep]; rfl,rfl,rfl⟩

/-- A resolution of the task that holds the pair applies just this pair. -/
theorem commit_applies {session : PvPSessionState} {p1Action p2Action : Action}
    {gameState : GameState} {report : TurnReport}
    (hsubmit : submitTurn session.gameState p1Action p2Action=(gameState,.ok report))
    (hinv : TurnInvariant pairing count record)
    (hholds : HoldsAs task (.holding p1Action p2Action) record)
    (hv : record.value=some session) :
    Within pairing task count record
      (record.commit task (.resolve p1Action p2Action) {session with gameState := gameState})
      (.resolved report) := by
  rw [record.commit_of_value hv]
  obtain ⟨round,hopen,-,-⟩ := openRound_of_submitTurn hsubmit
  obtain ⟨pair,hw,rfl,rfl⟩ := hholds
  obtain ⟨-,s,round',hv',hopen',hnow,-⟩ := hinv.applicable task pair hw
  rw [hv] at hv'
  cases hv'
  rw [hopen] at hopen'
  cases hopen'
  have hstep : ∀ after,turnStep (.commit task (.resolve pair.p1Action pair.p2Action) session after)=
      .given task pair := by
    intro after
    simp only [turnStep,hopen]
    rw [← hnow]
  have hnone : ∀ after : GameStore.Event,turnStep after=.given task pair →
      waiting (record.trace++[after])=none := by
    intro after he
    rw [waiting_append,he,hw]
    simp [Step.advance,Option.filter]
  refine ⟨⟨?_,?_,?_⟩,fun other hne => ?_,?_⟩
  · intro s hs
    cases hs
    exact hinv.players session hv
  · rw [List.map_append,List.map_singleton,hstep]
    exact hinv.accounted.step hw
  · intro task' pair' hw'
    rw [hnone _ (hstep _)] at hw'
    cases hw'
  · refine Expects.others (turnStep_by _ _ _ _) (fun _ he => ?_) (over_of_open hv hopen) hne
    rw [hstep] at he
    cases he
  · intro pair' hw'
    rw [hnone _ (hstep _)] at hw'
    cases hw'

/-- A forfeit while no pair waits. -/
theorem commit_forfeits {forfeiting : RoundWinner} {session : PvPSessionState}
    (hwaiting : waiting record.trace=none) (hinv : TurnInvariant pairing count record)
    (hv : record.value=some session) (phase : Phase)
    (hphase : ∀ record' : SessionRecord,waiting record'.trace=none → HoldsAs task phase record') :
    Within pairing task count record
      (record.commit task (.forfeit forfeiting)
        {session with gameState := (Engine.forfeit session.gameState forfeiting).1}) phase := by
  rw [record.commit_of_value hv]
  have hnone : ∀ after,waiting (record.trace++[.commit task (.forfeit forfeiting) session after])=
      none := by
    intro after
    rw [waiting_append,hwaiting]
    rfl
  refine ⟨⟨?_,?_,?_⟩,fun other _ => ?_,hphase _ (hnone _)⟩
  · intro s hs
    cases hs
    exact hinv.players session hv
  · rw [List.map_append,List.map_singleton]
    exact hinv.accounted.step True.intro
  · intro task' pair hw
    rw [hnone] at hw
    cases hw
  · exact Expects.unchanged rfl (fun _ => over_of_forfeit session forfeiting _) other

/-- An event of the task that drops nothing it holds. -/
theorem event_drops (event : GameStore.Event)
    (hstep : turnStep event=.dropped task ∨ turnStep event=.other)
    (hfree : turnStep event=.dropped task → heldBy (record.trace.map turnStep) task=false)
    (hinv : TurnInvariant pairing count record) :
    TurnInvariant pairing count (record.log event) ∧
      ∀ other,Expects turnStep other record (record.log event) := by
  obtain hstep | hstep := hstep
  · have hfree := hfree hstep
    have hne : ∀ pair,waiting record.trace≠some (task,pair) := by
      intro pair hw
      rw [heldBy_iff.mpr ⟨pair,hw⟩] at hfree
      cases hfree
    have hsame : waiting (record.trace++[event])=waiting record.trace := by
      rw [waiting_append,hstep,advance_dropped hne]
    refine ⟨⟨hinv.players,?_,?_⟩,
      fun other => ⟨fun hover => hover,KeepsHeld.dropped hstep hfree other⟩⟩
    · change Accounted ((record.trace++[event]).map turnStep)
      rw [List.map_append,List.map_singleton,hstep]
      exact hinv.accounted.step fun pair hw => hne pair hw
    · intro task' pair hw
      exact hinv.applicable task' pair (hsame.symm.trans hw)
  · exact ⟨hinv.unchanged hstep hinv.players fun session round hv ho => ⟨session,hv,ho⟩,
      Expects.unchanged hstep fun hover => hover⟩

/-- While a pair waits the match is not over. -/
theorem TurnInvariant.not_waiting (hinv : TurnInvariant pairing count record)
    (hover : Over record) : waiting record.trace=none := by
  cases hw : waiting record.trace with
  | none => rfl
  | some holder =>
    obtain ⟨-,session,round,hv,ho,-⟩ := hinv.applicable holder.1 holder.2 hw
    exact absurd (openRound_eq_some.mp ho).1 (hover session hv)

/-- The key is removed when no pair waits. -/
theorem delete_idle (hinv : TurnInvariant pairing count record) (hover : Over record)
    (hidle : HoldsAs task .idle record) :
    Within pairing task count record (record.delete task) .idle := by
  unfold Record.delete
  split
  · exact ⟨hinv,fun other _ => ⟨fun h => h,fun _ => Iff.rfl⟩,hidle⟩
  · have hnone := hinv.not_waiting hover
    have hnone' : waiting (record.trace++[.deleted task])=none := by
      rw [waiting_append,hnone]
      rfl
    refine ⟨⟨?_,?_,?_⟩,fun other _ => Expects.unchanged rfl (fun _ => over_none _) other,?_⟩
    · intro s hs
      cases hs
    · rw [List.map_append,List.map_singleton]
      exact hinv.accounted.step True.intro
    · intro task' pair hw
      rw [hnone'] at hw
      cases hw
    · intro pair hw
      rw [hnone'] at hw
      cases hw

/-- An assertion about the held pair survives what is expected of others. -/
theorem HoldsAs.stable {phase : Phase} {record' : SessionRecord} (he : Expects turnStep task record record')
    (h : HoldsAs task phase record) : HoldsAs task phase record' := by
  cases phase with
  | holding p1Action p2Action =>
    obtain ⟨pair,hw,ha⟩ := h
    exact ⟨pair,(he.same pair).mpr hw,ha⟩
  | idle | resolved | telling | forfeited => exact fun pair hw => h pair ((he.same pair).mp hw)

/-- An event of the task that touches neither the key nor a pair. -/
theorem log_unchanged (phase : Phase) (hstep : turnStep event=.other)
    (hinv : TurnInvariant pairing count record) (hphase : HoldsAs task phase record) :
    Within pairing task count record (record.log event) phase := by
  have he : ∀ other,Expects turnStep other record (record.log event) :=
    Expects.unchanged hstep fun hover => hover
  exact ⟨hinv.unchanged hstep hinv.players fun session round hv ho => ⟨session,hv,ho⟩,
    fun other _ => he other,hphase.stable (he task)⟩

/-- A new task holds nothing. -/
theorem start_idle {entry : Entry} (hinv : TurnInvariant pairing count record) :
    TurnInvariant pairing (count+1) (record.log (.note (.started count entry))) ∧
      (∀ task,Expects turnStep task record (record.log (.note (.started count entry)))) ∧
      HoldsAs count .idle (record.log (.note (.started count entry))) := by
  have hstep : turnStep (.note (.started count entry))=.other := rfl
  have hi : TurnInvariant pairing count (record.log (.note (.started count entry))) :=
    hinv.unchanged hstep hinv.players fun session round hv ho => ⟨session,hv,ho⟩
  refine ⟨⟨hi.players,hi.accounted,?_⟩,Expects.unchanged hstep fun hover => hover,?_⟩
  · intro task pair hw
    obtain ⟨hlt,hrest⟩ := hi.applicable task pair hw
    exact ⟨Nat.lt_succ_of_lt hlt,hrest⟩
  · intro pair hw
    exact absurd (hi.applicable count pair hw).1 (Nat.lt_irrefl count)

/-- An exception reaches a task that holds nothing. -/
theorem raise_idle {exc : Exc}
    (hfree : heldBy (record.trace.map turnStep) task=false)
    (hinv : TurnInvariant pairing count record) :
    Within pairing task count record (record.log (.note (.raised task exc))) .idle := by
  obtain ⟨hi,he⟩ := event_drops (.note (.raised task exc)) (.inl rfl)
    (fun _ => hfree) hinv
  refine ⟨hi,fun other _ => he other,fun pair hw => ?_⟩
  have hw' := ((he task).same pair).mp hw
  rw [heldBy_iff.mpr ⟨pair,hw'⟩] at hfree
  cases hfree

/-- Whatever submit_action writes keeps the contract. -/
theorem commit_submits {playerId : UUID} {action : Action} {stale captured' : SubmitCaptured}
    {session session' : PvPSessionState}
    (hm : storeAction playerId action stale session=.ok (captured',session'))
    (hfits : Undisturbed record.trace
      (.commit task (.submit playerId action stale) session session'))
    (hlt : task<count) (hinv : TurnInvariant pairing count record)
    (hidle : HoldsAs task .idle record) (hv : record.value=some session) :
    Within pairing task count record
      (record.commit task (.submit playerId action stale) session') (concluded captured') := by
  cases storeAction_cases hm with
  | rejected message hreject =>
    have hnone : completedPair playerId action session=none := by
      simp only [completedPair,hreject]
    have hstep : turnStep (.commit task (.submit playerId action stale) session session)=.other := by
      simp only [turnStep,hnone]
    exact commit_unchanged _ hstep rfl rfl rfl hinv hidle hv
  | stored round haccept hnone =>
    have hstep : ∀ after,turnStep (.commit task (.submit playerId action stale) session after)=
        .other := by
      intro after
      simp only [turnStep,hnone]
    have hstale : SubmitCaptured.resolves stale=false := by
      simp only [Undisturbed,hnone,haccept] at hfits
      exact hfits rfl
    have hconcluded : concluded {stale with confirmedTurnNumber := round.turnNumber+1}=.idle :=
      concluded_idle hstale
    rw [hconcluded]
    exact commit_unchanged _ (hstep _) (storeInSlot_gameState playerId action session)
      (storeInSlot_player1Id playerId action session)
      (storeInSlot_player2Id playerId action session) hinv hidle hv
  | completed round p1Action p2Action haccept h₁ h₂ hpair =>
    simp only [Undisturbed,hpair] at hfits
    obtain ⟨hnone,⟨round',ho',hafford⟩,hstale⟩ := hfits
    have hopen := (acceptingRound_eq_some.mp haccept).1
    have hround : round'=round := Option.some.inj (ho'.symm.trans hopen)
    rw [hround] at hafford
    have hconcluded : concluded ⟨stale.validationError,true,some p1Action,some p2Action,
        round.turnNumber+1⟩=.holding p1Action p2Action := by
      rw [hstale]
      rfl
    rw [hconcluded]
    exact commit_consumes hlt hopen hpair hnone hafford hinv hv

/-- The holder of a pair can always apply it. -/
theorem holding_applicable {p1Action p2Action : Action}
    (hinv : TurnInvariant pairing count record)
    (hholds : HoldsAs task (.holding p1Action p2Action) record) :
    ∃ session gameState report,record.value=some session ∧
      submitTurn session.gameState p1Action p2Action=(gameState,.ok report) := by
  obtain ⟨pair,hw,rfl,rfl⟩ := hholds
  obtain ⟨-,session,round,hv,hopen,-,hafford⟩ := hinv.applicable task pair hw
  obtain ⟨gameState,report,hok⟩ := submitTurn_ok hopen hafford
  exact ⟨session,gameState,report,hv,hok⟩

/-- A resolution that conflicts goes on, since it is not at its last attempt. -/
theorem resolve_conflicts {p1Action p2Action : Action} {retriesLeft : ℕ}
    (hfits : Undisturbed record.trace (.conflict task (.resolve p1Action p2Action) retriesLeft))
    (hinv : TurnInvariant pairing count record)
    (hholds : HoldsAs task (.holding p1Action p2Action) record) :
    retriesLeft≠0 ∧ Within pairing task count record
      (record.log (.conflict task (.resolve p1Action p2Action) retriesLeft))
      (.holding p1Action p2Action) := by
  cases retriesLeft with
  | zero =>
    have hfree : heldBy (record.trace.map turnStep) task=false := hfits
    obtain ⟨pair,hw,-⟩ := hholds
    rw [heldBy_iff.mpr ⟨pair,hw⟩] at hfree
    cases hfree
  | succ retriesLeft => exact ⟨Nat.succ_ne_zero _,log_unchanged _ rfl hinv hholds⟩

end Steps

/-- Whatever the code appends to an undisturbed record keeps the contract. -/
theorem upheld (pairing : Pairing) : (turnContract pairing).Upheld where
  expects_refl := Expects.refl turnStep
  expects_trans _ _ _ _ h h' := h.trans h'
  allowed_prefix := Meets.before
  stable _ _ _ _ he h := HoldsAs.stable he h
  over_stable he h := he.isOver h
  told h := h
  untold h := h
  players hinv hv := hinv.players _ hv
  starts hinv _ := start_idle hinv
  loaded _ _ _ _ := neutral_event rfl
  sent _ _ _ _ _ _ := neutral_event rfl
  received _ _ := neutral_event rfl
  deleted _ _ _ _ hinv hp _ := delete_idle hinv hp.2 hp.1
  raised _ _ _ _ _ _ hinv _ ha := raise_idle (meets_append.mp ha).2 hinv
  conflict := by
    intro task call retriesLeft hcall count record _ hinv hidle _
    have hstep : turnStep (.conflict task call retriesLeft)=.other := by
      cases call with
      | resolve p1Action p2Action => exact absurd rfl (hcall p1Action p2Action)
      | connect | start | submit | forfeit => rfl
    exact log_unchanged .idle hstep hinv hidle
  resolveConflict := by
    intro task p1Action p2Action retriesLeft count record _ hinv hholds ha
    obtain ⟨hne,hwithin⟩ := resolve_conflicts (meets_append.mp ha).2 hinv hholds
    rw [if_neg hne]
    exact hwithin
  connect _ player session _ _ _ hinv hp _ :=
    commit_unchanged _ rfl (markConnected_gameState player session)
      (markConnected_player1Id player session) (markConnected_player2Id player session) hinv
      hp.1 hp.2
  start _ session _ _ _ hinv hp _ :=
    commit_unchanged session rfl rfl rfl rfl hinv hp.1 hp.2
  submit _ _ _ _ _ _ _ _ hm _ _ hlt hinv hp ha :=
    commit_submits hm (meets_commit hp.2 ha) hlt hinv hp.1 hp.2
  resolve _ _ _ _ _ _ hsubmit _ _ _ hinv hp _ := commit_applies hsubmit hinv hp.1 hp.2
  refused := by
    intro task count p1Action p2Action record session error hinv hholds hv hrefused
    obtain ⟨session',gameState,report,hv',hok⟩ := holding_applicable hinv hholds
    rw [hv] at hv'
    cases hv'
    rw [hok] at hrefused
    cases hrefused
  missing := by
    intro task count p1Action p2Action record hinv hholds hv
    obtain ⟨session',gameState,report,hv',hok⟩ := holding_applicable hinv hholds
    rw [hv] at hv'
    cases hv'
  forfeit := by
    intro task forfeiting opponent session _ count record _ hinv hp ha
    have hnone : waiting record.trace=none := meets_commit hp.2 ha
    have hphase : ∀ record' : SessionRecord,waiting record'.trace=none →
        HoldsAs task (.forfeited opponent) record' := by
      intro record' hw pair hw'
      rw [hw] at hw'
      cases hw'
    exact commit_forfeits hnone hinv hp.2 _ hphase
  read _ report _ _ _ _ hinv hp _ :=
    log_unchanged (.telling (announcement pairing report) report.matchResult.isNone) rfl hinv hp.1
  unread _ _ _ _ _ hinv hp _ := log_unchanged .idle rfl hinv hp.1
  tell _ _ _ messages prompts _ _ _ hinv hp _ :=
    log_unchanged (.telling messages prompts) rfl hinv hp
  prompt _ session _ _ _ _ hinv hp _ :=
    log_unchanged (.telling (promptFor pairing session) false) rfl hinv hp.1
  unprompted _ _ _ _ _ _ hinv hp _ := log_unchanged .idle rfl hinv hp.1
  informOpponent _ opponent _ _ _ _ _ _ hinv hp _ :=
    log_unchanged (.forfeited opponent) rfl hinv hp

/-- In every run without a disturbance each consumed pair is applied exactly
once, as the turn for which it was consumed. -/
theorem pairs_applied_exactly_once (pairing : Pairing) {config : workers.Config}
    (hrun : (initial pairing).Reaches config) (hu : Meets Undisturbed config.world.trace) :
    ExactlyOnce config := by
  have hinitial : TurnInvariant pairing 0 ⟨some pairing.session,[]⟩ := by
    refine ⟨fun session hs => ?_,rfl,fun task pair hw => ?_⟩
    · cases hs
      exact ⟨rfl,rfl⟩
    · cases hw
  have hgood := good (upheld pairing) hinitial hrun hu
  have hinv : TurnInvariant pairing config.tasks.length config.world.record := hgood.inv
  refine ⟨hinv.accounted,fun task pair hw hrests => ?_⟩
  have hlt := (hinv.applicable task pair hw).1
  exact rests_idle (upheld pairing) hgood hlt hrests pair hw

/-- Both players connect, submit a charge, and the second one's task resolves. -/
def oneTurn : List workers.Move :=
  opens 1 ["charge"]::proceeds 0 8++opens 2 ["charge"]::proceeds 1 14++
    proceeds 0 5++proceeds 1 8

/-- The pair of that run is applied. -/
theorem one_turn_applied : ∃ config,(initial .small).Reaches config ∧
    appliedPairs config.world.trace=[⟨1,1,.charge,.charge⟩] ∧ ExactlyOnce config := by
  have hrun : ((initial .small).run oneTurn).map (fun config =>
      (decide (Meets Undisturbed config.world.trace),appliedPairs config.world.trace))=
      some (true,[⟨1,1,.charge,.charge⟩]) := by decide
  obtain ⟨config,hreach,hview⟩ := System.Config.reaches_of_map hrun
  obtain ⟨hu,happlied⟩ := Prod.mk.inj hview
  exact ⟨config,hreach,happlied,
    pairs_applied_exactly_once .small hreach (of_decide_eq_true hu)⟩

/-- Player 2's submission completes a pair; before it is applied, player 1
submits again and the turn timer submits for player 2, which completes a
second pair for the same turn. Both are then applied. -/
def twoPairsForOneTurn : List workers.Move :=
  opens 1 ["charge","charge"]::proceeds 0 8++opens 2 ["charge"]::proceeds 1 14++
    proceeds 0 5++proceeds 1 4++proceeds 0 5++proceeds 2 5++proceeds 1 4++proceeds 2 4

/-- The second pair is applied as a turn for which it was not consumed. -/
theorem second_pair_applied_late :
    ¬∀ pairing config,(initial pairing).Reaches config → ExactlyOnce config := by
  intro h
  have hrun : ((initial .small).run twoPairsForOneTurn).map (fun config =>
      (consumedPairs config.world.trace,appliedPairs config.world.trace))=
      some ([⟨1,1,.charge,.charge⟩,⟨1,1,.charge,.charge⟩],
        [⟨1,1,.charge,.charge⟩,⟨1,2,.charge,.charge⟩]) := by decide
  obtain ⟨config,hreach,hview⟩ := System.Config.reaches_of_map hrun
  obtain ⟨hconsumed,happlied⟩ := Prod.mk.inj hview
  have haccounted := (h .small config hreach).accounted
  rw [hconsumed,happlied] at haccounted
  simp at haccounted

end KiClash.TurnApplication
