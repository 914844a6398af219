import KiClash.PendingPairs

/-!
# Which pending actions of the Python session can be paid for

An action is checked against the ki of the turn in which it is accepted. Until
it is applied, at most the turn of an already consumed pair may come between,
and the condition asks that the action can be paid for after that turn too.
-/

namespace KiClash.PendingActions

open EngineTypes OutcomeMatrix Engine EngineRuns Histories AsyncTasks AsyncContracts WatchedKey
open RecordContracts GameStore GameSession SessionContracts SessionSafety PendingPairs

/-- The pairs on the way to _resolve_turn: as in the record of turns, except that
an error left by an aborted attempt keeps a pair from being resolved. -/
def pairStep : GameStore.Event → Step TurnPair
  | .commit task (.submit playerId action stale) before after =>
    if stale.validationError.isSome then .other
    else turnStep (.commit task (.submit playerId action stale) before after)
  | event => turnStep event

/-- The open round after the turn of a pair. -/
def roundAfter (session : PvPSessionState) (pair : TurnPair) : Option RoundState :=
  openRound {session with
    gameState := (submitTurn session.gameState pair.p1Action pair.p2Action).1}

/-- The pending actions can be paid for in a round, if there is one. -/
def Payable (session : PvPSessionState) (round : Option RoundState) : Prop :=
  ∀ r∈round,(∀ action∈session.p1Action,validateAction action r.p1Ki=true) ∧
    ∀ action∈session.p2Action,validateAction action r.p2Ki=true

/-- Every pending action can be paid for in the open round, and every pair that
a task is going to resolve is accepted by the engine while the match is in
progress. -/
structure AllPayable (config : workers.Config) : Prop where
  /-- Pending actions. -/
  pending : ∀ session,config.world.value=some session → Payable session (openRound session)
  /-- Consumed pairs. -/
  resolvable : ∀ task pair,(task,pair)∈outstanding (config.world.trace.map pairStep) →
    ∀ session,config.world.value=some session → session.gameState.status=.inProgress →
      ∃ gameState report,
        submitTurn session.gameState pair.p1Action pair.p2Action=(gameState,.ok report)

/-- The player can pay for the action after the turn of the waiting pair. -/
def PayableAfter (playerId : UUID) (action : Action) (session : PvPSessionState)
    (pair : TurnPair) : Prop :=
  ∀ round∈roundAfter session pair,validateAction action (kiOf playerId session round)=true

instance (playerId : UUID) (action : Action) (session : PvPSessionState) (pair : TurnPair) :
    Decidable (PayableAfter playerId action session pair) :=
  inferInstanceAs (Decidable (∀ round∈roundAfter session pair,_))

/-- A pair is consumed only while no other is on its way; an action accepted
while a pair is on its way can also be paid for after its turn; and no call
resolves what an aborted attempt has left. -/
def Foresighted (earlier : List GameStore.Event) : GameStore.Event → Prop
  | .commit _ (.submit playerId action stale) before _ =>
    match completedPair playerId action before with
    | some _ => stale.validationError=none → held (earlier.map pairStep)=none
    | none => (acceptingRound playerId action before).isSome →
      SubmitCaptured.resolves stale=false ∧
        ∀ holder∈held (earlier.map pairStep),PayableAfter playerId action before holder.2
  | _ => True

instance (earlier : List GameStore.Event) (event : GameStore.Event) :
    Decidable (Foresighted earlier event) := by
  unfold Foresighted
  split
  · split <;> infer_instance
  · infer_instance

/-- The invariant: what is pending can be paid for now, and after the pair that
is on its way. -/
structure PayInvariant (pairing : Pairing) (record : SessionRecord) : Prop where
  /-- The stored session belongs to the two players. -/
  players : ∀ session,record.value=some session →
    session.player1Id=pairing.player1Id ∧ session.player2Id=pairing.player2Id
  /-- A match in progress has an open round. -/
  hasRound : ∀ session,record.value=some session → session.gameState.status=.inProgress →
    ∃ round,openRound session=some round
  /-- What is pending can be paid for. -/
  pending : ∀ session,record.value=some session → Payable session (openRound session)
  /-- The pair on its way can be applied, and what is pending can be paid for then. -/
  applicable : ∀ task pair,held (record.trace.map pairStep)=some (task,pair) →
    ∀ session,record.value=some session →
      (∀ round∈openRound session,Affordable round pair.p1Action pair.p2Action) ∧
        Payable session (roundAfter session pair)
  /-- At most one pair is on its way. -/
  single : outstanding (record.trace.map pairStep)=(held (record.trace.map pairStep)).toList

/-- A task on its way to a resolution holds the pair. -/
def Carries (task : TaskId) (phase : Phase) (record : SessionRecord) : Prop :=
  match phase with
  | .holding p1Action p2Action =>
    ∃ pair,held (record.trace.map pairStep)=some (task,pair) ∧ pair.p1Action=p1Action ∧
      pair.p2Action=p2Action
  | _ => True

/-- The contract behind payable actions. -/
def payContract (pairing : Pairing) : SessionContract where
  pairing := pairing
  allowed := Meets Foresighted
  inv _ := PayInvariant pairing
  expects := Expects pairStep
  phase := Carries

section Payable

variable {session : PvPSessionState} {round : Option RoundState}

/-- Without pending actions there is nothing to pay for. -/
theorem payable_cleared : Payable (cleared session) round :=
  fun _ _ => ⟨nofun,nofun⟩

/-- Storing a payable action keeps the others payable. -/
theorem Payable.stored {playerId : UUID} {action : Action} (h : Payable session round)
    (hpay : ∀ r∈round,validateAction action (kiOf playerId session r)=true) :
    Payable (storeInSlot playerId action session) round := by
  intro r hr
  obtain ⟨hp₁,hp₂⟩ := h r hr
  have ha := hpay r hr
  unfold storeInSlot
  unfold kiOf at ha
  split_ifs with h1 h2
  · rw [if_pos h1] at ha
    refine ⟨fun a hmem => ?_,hp₂⟩
    cases hmem
    exact ha
  · rw [if_neg h1] at ha
    refine ⟨hp₁,fun a hmem => ?_⟩
    cases hmem
    exact ha
  · exact ⟨hp₁,hp₂⟩

/-- An accepted action can be paid for in the open round. -/
theorem payable_accepted {playerId : UUID} {action : Action} {r : RoundState}
    (h : acceptingRound playerId action session=some r) :
    ∀ r'∈openRound session,validateAction action (kiOf playerId session r')=true := by
  obtain ⟨hopen,hv⟩ := acceptingRound_eq_some.mp h
  intro r' hr'
  rw [hopen] at hr'
  cases hr'
  exact hv

/-- The round after a pair depends on the match alone. -/
theorem roundAfter_congr {session' : PvPSessionState} (h : session'.gameState=session.gameState)
    (pair : TurnPair) : roundAfter session' pair=roundAfter session pair := by
  unfold roundAfter
  apply openRound_congr
  rw [h]

end Payable

section Steps

variable {pairing : Pairing} {record : SessionRecord} {event : GameStore.Event} {task : TaskId}
  {session session' : PvPSessionState}

/-- An event that neither writes the key nor takes a pair. -/
theorem PayInvariant.logged (hinv : PayInvariant pairing record)
    (hfree : ∀ task pair,pairStep event≠.taken task pair) :
    PayInvariant pairing (record.log event) where
  players := hinv.players
  hasRound := hinv.hasRound
  pending := hinv.pending
  applicable := by
    intro task pair hw
    -- a step that takes nothing leaves at most what was held
    have hkept : held (record.trace.map pairStep)=some (task,pair) := by
      change held ((record.trace++[event]).map pairStep)=_ at hw
      rw [List.map_append,List.map_singleton,held_append] at hw
      exact held_of_advance hfree hw
    exact hinv.applicable task pair hkept
  single := by
    change outstanding ((record.trace++[event]).map pairStep)=
      (held ((record.trace++[event]).map pairStep)).toList
    rw [List.map_append,List.map_singleton]
    exact outstanding_append hinv.single fun task pair he => absurd he (hfree task pair)

/-- A transaction that leaves the match alone. -/
theorem PayInvariant.commitSame (hinv : PayInvariant pairing record)
    (hv : record.value=some session) (hgame : session'.gameState=session.gameState)
    (h₁ : session'.player1Id=session.player1Id) (h₂ : session'.player2Id=session.player2Id)
    (hpending : Payable session' (openRound session))
    (hheld : ∀ task pair,(pairStep event).advance (held (record.trace.map pairStep))=
      some (task,pair) → (∀ round∈openRound session,Affordable round pair.p1Action pair.p2Action) ∧
        Payable session' (roundAfter session pair))
    (hfree : ∀ task pair,pairStep event=.taken task pair →
      held (record.trace.map pairStep)=none) :
    PayInvariant pairing ⟨some session',record.trace++[event]⟩ where
  players s hs := by
    cases hs
    rw [h₁,h₂]
    exact hinv.players session hv
  hasRound s hs hstatus := by
    cases hs
    rw [hgame] at hstatus
    rw [openRound_congr hgame]
    exact hinv.hasRound session hv hstatus
  pending s hs := by
    cases hs
    rw [openRound_congr hgame]
    exact hpending
  applicable task pair hw s hs := by
    cases hs
    rw [List.map_append,List.map_singleton,held_append] at hw
    rw [openRound_congr hgame,roundAfter_congr hgame]
    exact hheld task pair hw
  single := by
    rw [List.map_append,List.map_singleton]
    exact outstanding_append hinv.single hfree

/-- What a change of the record has to satisfy. -/
def Within (pairing : Pairing) (task : TaskId) (record record' : SessionRecord)
    (phase : Phase) : Prop :=
  PayInvariant pairing record' ∧ (∀ other,other≠task → Expects pairStep other record record') ∧
    Carries task phase record'

/-- A transaction that leaves the match, the pending actions and the pairs alone. -/
theorem commit_unchanged (session : PvPSessionState) {call : Call}
    (hstep : pairStep (.commit task call session session')=.other)
    (hgame : session'.gameState=session.gameState) (h₁ : session'.player1Id=session.player1Id)
    (h₂ : session'.player2Id=session.player2Id) (ha₁ : session'.p1Action=session.p1Action)
    (ha₂ : session'.p2Action=session.p2Action) (hinv : PayInvariant pairing record)
    (hv : record.value=some session) :
    Within pairing task record (record.commit task call session') .idle := by
  have hsame : ∀ {round},Payable session round → Payable session' round := by
    intro round h r hr
    rw [ha₁,ha₂]
    exact h r hr
  rw [record.commit_of_value hv]
  refine ⟨hinv.commitSame hv hgame h₁ h₂ (hsame (hinv.pending session hv)) ?_ ?_,
    fun other _ => Expects.unchanged hstep (over_of_same hv hgame _) other,True.intro⟩
  · intro task' pair hw
    rw [hstep] at hw
    obtain ⟨hafford,hpay⟩ := hinv.applicable task' pair hw session hv
    exact ⟨hafford,hsame hpay⟩
  · intro task' pair he
    rw [hstep] at he
    cases he

/-- An action is stored: it can be paid for now and after the pair on its way. -/
theorem commit_stores {playerId : UUID} {action : Action} {stale : SubmitCaptured}
    {round : RoundState}
    (hstep : pairStep (.commit task (.submit playerId action stale) session
      (storeInSlot playerId action session))=.other)
    (haccept : acceptingRound playerId action session=some round)
    (hafter : ∀ holder∈held (record.trace.map pairStep),
      PayableAfter playerId action session holder.2)
    (hinv : PayInvariant pairing record) (hv : record.value=some session) :
    Within pairing task record
      (record.commit task (.submit playerId action stale) (storeInSlot playerId action session))
      .idle := by
  have hgame := storeInSlot_gameState playerId action session
  rw [record.commit_of_value hv]
  refine ⟨hinv.commitSame hv hgame (storeInSlot_player1Id playerId action session)
    (storeInSlot_player2Id playerId action session)
    ((hinv.pending session hv).stored (payable_accepted haccept)) ?_ ?_,
    fun other _ => Expects.unchanged hstep (over_of_same hv hgame _) other,True.intro⟩
  · intro task' pair hw
    rw [hstep] at hw
    obtain ⟨hafford,hpay⟩ := hinv.applicable task' pair hw session hv
    exact ⟨hafford,hpay.stored (hafter (task',pair) hw)⟩
  · intro task' pair he
    rw [hstep] at he
    cases he

/-- The pair that an accepted action completes can be paid for. -/
theorem completed_affordable {playerId : UUID} {action p1Action p2Action : Action}
    {round : RoundState} (haccept : acceptingRound playerId action session=some round)
    (h₁ : (storeInSlot playerId action session).p1Action=some p1Action)
    (h₂ : (storeInSlot playerId action session).p2Action=some p2Action)
    (hpending : Payable session (openRound session)) :
    ∀ round'∈openRound session,Affordable round' p1Action p2Action := by
  intro round' hr
  obtain ⟨hp₁,hp₂⟩ := hpending.stored (payable_accepted haccept) round' hr
  have ha₁ := hp₁ p1Action h₁
  have ha₂ := hp₂ p2Action h₂
  rw [validateAction_iff] at ha₁ ha₂
  exact ⟨ha₁,ha₂⟩

/-- Two pending actions are cleared. -/
theorem commit_clears {playerId : UUID} {action p1Action p2Action : Action}
    {stale : SubmitCaptured} {round : RoundState} {phase : Phase}
    (haccept : acceptingRound playerId action session=some round)
    (h₁ : (storeInSlot playerId action session).p1Action=some p1Action)
    (h₂ : (storeInSlot playerId action session).p2Action=some p2Action)
    (hstep : ∀ after,pairStep (.commit task (.submit playerId action stale) session after)=
      if stale.validationError.isSome then .other else .taken task (.now round p1Action p2Action))
    (hfree : stale.validationError=none → held (record.trace.map pairStep)=none)
    (hphase : phase=if stale.validationError.isSome then .idle else .holding p1Action p2Action)
    (hinv : PayInvariant pairing record) (hv : record.value=some session) :
    Within pairing task record
      (record.commit task (.submit playerId action stale)
        (cleared (storeInSlot playerId action session))) phase := by
  have hgame : (cleared (storeInSlot playerId action session)).gameState=session.gameState :=
    storeInSlot_gameState playerId action session
  have hopen := (acceptingRound_eq_some.mp haccept).1
  rw [record.commit_of_value hv,hphase]
  have hby : ∀ after,
      (pairStep (.commit task (.submit playerId action stale) session after)).By task := by
    intro after
    rw [hstep]
    split
    · trivial
    · rfl
  have htaken : ∀ after task' pair,
      pairStep (.commit task (.submit playerId action stale) session after)=.taken task' pair →
      held (record.trace.map pairStep)=none := by
    intro after task' pair he
    rw [hstep] at he
    cases hs : stale.validationError with
    | none => exact hfree hs
    | some message =>
      rw [hs] at he
      cases he
  refine ⟨hinv.commitSame hv hgame (storeInSlot_player1Id playerId action session)
    (storeInSlot_player2Id playerId action session) payable_cleared ?_ (htaken _),
    fun other hne => Expects.others (hby _) (htaken _ task) (over_of_open hv hopen) hne,?_⟩
  · intro task' pair hw
    rw [hstep] at hw
    cases hs : stale.validationError with
    | none =>
      rw [hs] at hw
      cases hw
      exact ⟨completed_affordable haccept h₁ h₂ (hinv.pending session hv),payable_cleared⟩
    | some message =>
      rw [hs] at hw
      exact ⟨(hinv.applicable task' pair hw session hv).1,payable_cleared⟩
  · cases hs : stale.validationError with
    | none =>
      refine ⟨.now round p1Action p2Action,?_,rfl,rfl⟩
      rw [List.map_append,List.map_singleton,held_append,hstep,hs]
      rfl
    | some message => exact True.intro

/-- A match that goes on after a turn has an open round. -/
theorem openRound_of_accepted {state state' : GameState} {p1Action p2Action : Action}
    {report : TurnReport} (h : Accepted state p1Action p2Action state' report)
    (hs : state'.status=.inProgress) : ∃ round,state'.currentRound=some round := by
  cases h with
  | roundGoesOn round hr hw => exact ⟨_,rfl⟩
  | roundCloses round hr roundResult hw hm => exact ⟨_,rfl⟩
  | matchCloses round hr roundResult hw matchResult hm => cases hs

/-- The resolution of the pair on its way. -/
theorem commit_resolves {p1Action p2Action : Action} {gameState : GameState}
    {report : TurnReport}
    (hsubmit : submitTurn session.gameState p1Action p2Action=(gameState,.ok report))
    (hcarries : Carries task (.holding p1Action p2Action) record)
    (hinv : PayInvariant pairing record) (hv : record.value=some session) :
    Within pairing task record
      (record.commit task (.resolve p1Action p2Action) {session with gameState := gameState})
      (.resolved report) := by
  obtain ⟨round,hopen,-,haccepted⟩ := openRound_of_submitTurn hsubmit
  obtain ⟨pair,hheld,rfl,rfl⟩ := hcarries
  have hafter : openRound {session with gameState := gameState}=roundAfter session pair := by
    simp only [roundAfter,hsubmit]
  have hstep : ∀ after,pairStep (.commit task (.resolve pair.p1Action pair.p2Action) session after)=
      .given task (.now round pair.p1Action pair.p2Action) := by
    intro after
    simp only [pairStep,turnStep,hopen]
  have hnone : ∀ after,held ((record.trace++[Event.commit task
      (Call.resolve pair.p1Action pair.p2Action) session after]).map pairStep)=none := by
    intro after
    rw [List.map_append,List.map_singleton,held_append,hstep,hheld]
    simp [Step.advance,Option.filter]
  rw [record.commit_of_value hv]
  refine ⟨⟨?_,?_,?_,?_,?_⟩,fun other hne => ?_,True.intro⟩
  · intro s hs
    cases hs
    exact hinv.players session hv
  · intro s hs hstatus
    cases hs
    obtain ⟨round',hr'⟩ := openRound_of_accepted haccepted hstatus
    exact ⟨round',openRound_eq_some.mpr ⟨hstatus,hr'⟩⟩
  · intro s hs
    cases hs
    rw [hafter]
    exact (hinv.applicable task pair hheld session hv).2
  · intro task' pair' hw
    rw [hnone] at hw
    cases hw
  · rw [List.map_append,List.map_singleton]
    apply outstanding_append hinv.single
    intro task' pair' he
    rw [hstep] at he
    cases he
  · refine Expects.others ?_ ?_ (over_of_open hv hopen) hne
    · rw [hstep]
      rfl
    · intro pair' he
      rw [hstep] at he
      cases he

/-- After a forfeit there is nothing to pay for. -/
theorem commit_forfeits (opponent : UUID) {forfeiting : RoundWinner}
    (hinv : PayInvariant pairing record) (hv : record.value=some session) :
    Within pairing task record
      (record.commit task (.forfeit forfeiting)
        {session with gameState := (forfeit session.gameState forfeiting).1})
      (.forfeited opponent) := by
  have hclosed : openRound {session with gameState := (forfeit session.gameState forfeiting).1}=
      none := rfl
  rw [record.commit_of_value hv]
  refine ⟨⟨?_,?_,?_,?_,?_⟩,
    fun other _ => Expects.unchanged rfl (fun _ => over_of_forfeit session forfeiting _) other,
    True.intro⟩
  · intro s hs
    cases hs
    exact hinv.players session hv
  · intro s hs hstatus
    cases hs
    cases hstatus
  · intro s hs
    cases hs
    rw [hclosed]
    exact nofun
  · intro task' pair hw s hs
    cases hs
    have hafter : roundAfter {session with gameState := (forfeit session.gameState forfeiting).1}
        pair=none := by
      unfold roundAfter submitTurn
      rfl
    rw [hclosed,hafter]
    exact ⟨nofun,nofun⟩
  · rw [List.map_append,List.map_singleton]
    exact outstanding_append hinv.single nofun

/-- The key is removed. -/
theorem delete_within (hinv : PayInvariant pairing record) :
    Within pairing task record (record.delete task) .idle := by
  unfold Record.delete
  split
  · exact ⟨hinv,fun other _ => Expects.refl pairStep other record,True.intro⟩
  · refine ⟨⟨?_,?_,?_,?_,?_⟩,
      fun other _ => Expects.unchanged rfl (fun _ => over_none _) other,True.intro⟩
    · exact fun s hs => nomatch hs
    · exact fun s hs => nomatch hs
    · exact fun s hs => nomatch hs
    · exact fun _ _ _ s hs => nomatch hs
    · rw [List.map_append,List.map_singleton]
      exact outstanding_append hinv.single nofun

/-- Whatever submit_action writes keeps the contract. -/
theorem commit_submits {playerId : UUID} {action : Action} {stale captured' : SubmitCaptured}
    (hm : storeAction playerId action stale session=.ok (captured',session'))
    (hfits : Foresighted record.trace
      (.commit task (.submit playerId action stale) session session'))
    (hinv : PayInvariant pairing record) (hv : record.value=some session) :
    Within pairing task record
      (record.commit task (.submit playerId action stale) session') (concluded captured') := by
  have hother : completedPair playerId action session=none → ∀ after,
      pairStep (.commit task (.submit playerId action stale) session after)=.other := by
    intro hnone after
    simp only [pairStep,turnStep,hnone,ite_self]
  cases storeAction_cases hm with
  | rejected message hreject =>
    have hnone : completedPair playerId action session=none := by
      simp only [completedPair,hreject]
    exact commit_unchanged _ (hother hnone _) rfl rfl rfl rfl rfl hinv hv
  | stored round haccept hnone =>
    simp only [Foresighted,hnone,haccept] at hfits
    obtain ⟨hstale,hafter⟩ := hfits rfl
    have hconcluded : concluded {stale with confirmedTurnNumber := round.turnNumber+1}=.idle :=
      concluded_idle hstale
    rw [hconcluded]
    exact commit_stores (hother hnone _) haccept hafter hinv hv
  | completed round p1Action p2Action haccept h₁ h₂ hpair =>
    simp only [Foresighted,hpair] at hfits
    apply commit_clears haccept h₁ h₂ _ hfits _ hinv hv
    · intro after
      simp only [pairStep,turnStep,hpair]
    · cases hs : stale.validationError <;> rfl

/-- An event of a task that takes nothing and leaves it idle. -/
theorem log_idle (event : GameStore.Event) (hby : (pairStep event).By task)
    (hfree : ∀ task pair,pairStep event≠.taken task pair) (hinv : PayInvariant pairing record) :
    Within pairing task record (record.log event) .idle :=
  ⟨hinv.logged hfree,fun _ hne =>
    Expects.others hby (fun pair he => absurd he (hfree task pair)) (fun hover => hover) hne,
    True.intro⟩

/-- An event that means nothing takes nothing. -/
theorem takes_nothing (hstep : pairStep event=.other) (task : TaskId) (pair : TurnPair) :
    pairStep event≠.taken task pair := by
  rw [hstep]
  exact nofun

/-- What a task carries survives what is expected of others. -/
theorem Carries.stable {phase : Phase} {record' : SessionRecord}
    (he : Expects pairStep task record record') (h : Carries task phase record) :
    Carries task phase record' := by
  cases phase with
  | holding p1Action p2Action =>
    obtain ⟨pair,hw,ha⟩ := h
    exact ⟨pair,(he.same pair).mpr hw,ha⟩
  | idle | resolved | telling | forfeited => exact True.intro

/-- An event that means nothing. -/
theorem neutral_event {P : SessionRecord → Prop} (hstep : pairStep event=.other) :
    (payContract pairing).Neutral P event := by
  intro count record hinv _ _
  exact ⟨hinv.logged (takes_nothing hstep),Expects.unchanged hstep fun hover => hover⟩

/-- The task keeps what it carries over an event that means nothing. -/
theorem log_unchanged (phase : Phase) (hstep : pairStep event=.other)
    (hinv : PayInvariant pairing record) (hcarries : Carries task phase record) :
    Within pairing task record (record.log event) phase := by
  have he : ∀ other,Expects pairStep other record (record.log event) :=
    Expects.unchanged hstep fun hover => hover
  exact ⟨hinv.logged (takes_nothing hstep),fun other _ => he other,hcarries.stable (he task)⟩

end Steps

/-- Whatever the code appends to a foresighted record keeps the contract. -/
theorem upheld (pairing : Pairing) : (payContract pairing).Upheld where
  expects_refl := Expects.refl pairStep
  expects_trans _ _ _ _ h h' := h.trans h'
  allowed_prefix := Meets.before
  stable _ _ _ _ he h := Carries.stable he h
  over_stable he h := he.isOver h
  told h := h
  untold h := h
  players hinv hv := hinv.players _ hv
  starts hinv _ :=
    ⟨hinv.logged nofun,Expects.unchanged rfl fun hover => hover,True.intro⟩
  loaded _ _ _ _ := neutral_event rfl
  sent _ _ _ _ _ _ := neutral_event rfl
  received _ _ := neutral_event rfl
  deleted _ _ _ _ hinv _ _ := delete_within hinv
  raised task _ exc _ _ _ hinv _ _ :=
    log_idle (.note (.raised task exc)) rfl nofun hinv
  conflict := by
    intro task call retriesLeft hcall count record _ hinv hidle _
    have hstep : pairStep (.conflict task call retriesLeft)=.other := by
      cases call with
      | resolve p1Action p2Action => exact absurd rfl (hcall p1Action p2Action)
      | connect | start | submit | forfeit => rfl
    exact log_unchanged .idle hstep hinv hidle
  resolveConflict := by
    intro task p1Action p2Action retriesLeft count record _ hinv hcarries _
    cases retriesLeft with
    | zero => exact log_idle _ rfl nofun hinv
    | succ retriesLeft => exact log_unchanged (.holding p1Action p2Action) rfl hinv hcarries
  connect _ player session _ _ _ hinv hp _ := by
    have hpending : (session.markConnected player).p1Action=session.p1Action ∧
        (session.markConnected player).p2Action=session.p2Action := by
      unfold PvPSessionState.markConnected
      split_ifs <;> exact ⟨rfl,rfl⟩
    exact commit_unchanged _ rfl (markConnected_gameState player session)
      (markConnected_player1Id player session) (markConnected_player2Id player session)
      hpending.1 hpending.2 hinv hp.2
  start _ session _ _ _ hinv hp _ :=
    commit_unchanged session rfl rfl rfl rfl rfl rfl hinv hp.2
  submit _ _ _ _ _ _ _ _ hm _ _ _ hinv hp ha :=
    commit_submits hm (meets_commit hp.2 ha) hinv hp.2
  resolve _ _ _ _ _ _ hsubmit _ _ _ hinv hp _ := commit_resolves hsubmit hp.1 hinv hp.2
  refused _ _ _ _ := True.intro
  missing _ _ _ := True.intro
  forfeit _ _ opponent _ _ _ _ _ hinv hp _ := commit_forfeits opponent hinv hp.2
  read _ report _ _ _ _ hinv hp _ :=
    log_unchanged (.telling (announcement pairing report) report.matchResult.isNone) rfl hinv hp.1
  unread _ _ _ _ _ hinv hp _ := log_unchanged .idle rfl hinv hp.1
  tell _ _ _ messages prompts _ _ _ hinv hp _ :=
    log_unchanged (.telling messages prompts) rfl hinv hp
  prompt _ session _ _ _ _ hinv hp _ :=
    log_unchanged (.telling (promptFor pairing session) false) rfl hinv hp.1
  unprompted _ _ _ _ _ _ hinv hp _ := log_unchanged .idle rfl hinv hp.1
  informOpponent _ opponent _ _ _ _ _ _ hinv hp _ :=
    log_unchanged (.forfeited opponent) rfl hinv hp

/-- In every run whose submissions are foresighted, pending actions can be paid
for and no consumed pair is refused while the match is in progress. -/
theorem pending_actions_payable (pairing : Pairing) {config : workers.Config}
    (hrun : (initial pairing).Reaches config) (hf : Meets Foresighted config.world.trace) :
    AllPayable config := by
  have hinitial : PayInvariant pairing ⟨some pairing.session,[]⟩ := by
    refine ⟨?_,?_,?_,nofun,rfl⟩
    · intro session hs
      cases hs
      exact ⟨rfl,rfl⟩
    · intro session hs _
      cases hs
      exact ⟨_,rfl⟩
    · intro session hs r _
      cases hs
      exact ⟨nofun,nofun⟩
  have hgood := good (upheld pairing) hinitial hrun hf
  have hinv : PayInvariant pairing config.world.record := hgood.inv
  refine ⟨hinv.pending,fun task pair hmem session hv hstatus => ?_⟩
  have hheld : held (config.world.trace.map pairStep)=some (task,pair) := by
    have hsingle : outstanding (config.world.trace.map pairStep)=_ := hinv.single
    rw [hsingle,Option.mem_toList] at hmem
    exact hmem
  obtain ⟨round,hopen⟩ := hinv.hasRound session hv hstatus
  exact submitTurn_ok hopen ((hinv.applicable task pair hheld session hv).1 round hopen)

/-- Both players charge; the pair of the first turn is on its way to its resolution. -/
def pairOnItsWay : List workers.Move :=
  opens 1 ["charge"]::proceeds 0 8++opens 2 ["charge"]::proceeds 1 14++
    proceeds 0 5++proceeds 1 4

/-- The pair on its way in that run is accepted by the engine. -/
theorem pair_on_its_way_payable : ∃ config,(initial .small).Reaches config ∧
    outstanding (config.world.trace.map pairStep)=[(1,⟨1,1,.charge,.charge⟩)] ∧
    AllPayable config := by
  have hrun : ((initial .small).run pairOnItsWay).map (fun config =>
      (decide (Meets Foresighted config.world.trace),
        outstanding (config.world.trace.map pairStep)))=
      some (true,[(1,⟨1,1,.charge,.charge⟩)]) := by decide
  obtain ⟨config,hreach,hview⟩ := System.Config.reaches_of_map hrun
  obtain ⟨hf,hpair⟩ := Prod.mk.inj hview
  exact ⟨config,hreach,hpair,pending_actions_payable .small hreach (of_decide_eq_true hf)⟩

/-- After a turn of charges, player 1's attack meets player 2's charge. Before
this pair is applied, player 1 submits another attack for his one ki. -/
def attackTwice : List workers.Move :=
  opens 1 ["charge","attack","attack"]::proceeds 0 8++opens 2 ["charge","charge"]::
    proceeds 1 14++proceeds 0 5++proceeds 1 17++proceeds 0 5++proceeds 1 4++proceeds 0 5++
    proceeds 1 4

/-- The second attack is pending in a round in which player 1 has no ki. -/
theorem second_attack_unpayable :
    ¬∀ pairing config,(initial pairing).Reaches config → AllPayable config := by
  intro h
  have hrun : ((initial .small).run attackTwice).map (fun config =>
      config.world.value.map fun session =>
        (session.p1Action,(openRound session).map RoundState.p1Ki))=
      some (some (some .attack,some 0)) := by decide
  obtain ⟨config,hreach,hview⟩ := System.Config.reaches_of_map hrun
  obtain ⟨session,hv,hs⟩ := Option.map_eq_some_iff.mp hview
  obtain ⟨hattack,hround⟩ := Prod.mk.inj hs
  obtain ⟨round,hopen,hki⟩ := Option.map_eq_some_iff.mp hround
  have hpay := ((h .small config hreach).pending session hv round hopen).1 .attack hattack
  rw [hki] at hpay
  cases hpay

end KiClash.PendingActions
