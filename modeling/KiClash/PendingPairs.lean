import KiClash.EngineRuns
import KiClash.Histories
import KiClash.SessionSafety

/-!
# Pending actions and the pairs they complete

submit_action stores an action or, if the other player's action is already
pending, clears both and hands the pair to the resolution that follows in the
same task. One inversion lemma says what the mutator can do; the record then
tells which pairs have been consumed, which have been applied, and which one
is waiting to be applied.
-/

namespace KiClash.PendingPairs

open EngineTypes OutcomeMatrix Engine EngineRuns Histories WatchedKey RecordContracts
open GameStore GameSession SessionContracts

/-- Two actions for a certain turn of a certain round. -/
structure TurnPair where
  /-- The round. -/
  roundNumber : ℤ
  /-- The turn of the round, counted from one. -/
  turnNumber : ℤ
  /-- Player 1's action. -/
  p1Action : Action
  /-- Player 2's action. -/
  p2Action : Action
  deriving DecidableEq, Repr

/-- The pair for the turn that is current in the open round. -/
def TurnPair.now (round : RoundState) (p1Action p2Action : Action) : TurnPair :=
  ⟨round.roundNumber,round.turnNumber+1,p1Action,p2Action⟩

/-- The open round of a match in progress. -/
def openRound (session : PvPSessionState) : Option RoundState :=
  if session.gameState.status=.inProgress then session.gameState.currentRound else none

/-- The player's ki, as _store_action picks it. -/
def kiOf (playerId : UUID) (session : PvPSessionState) (round : RoundState) : ℤ :=
  if playerId=session.player1Id then round.p1Ki else round.p2Ki

/-- The open round of a session that accepts the player's action. -/
def acceptingRound (playerId : UUID) (action : Action) (session : PvPSessionState) :
    Option RoundState :=
  (openRound session).filter fun round => validateAction action (kiOf playerId session round)

/-- The pair that the player's action completes. -/
def completedPair (playerId : UUID) (action : Action) (session : PvPSessionState) :
    Option TurnPair :=
  match acceptingRound playerId action session,
    (storeInSlot playerId action session).p1Action,
    (storeInSlot playerId action session).p2Action with
  | some round,some p1Action,some p2Action => some (.now round p1Action p2Action)
  | _,_,_ => none

/-- The two pending actions taken out. -/
def cleared (session : PvPSessionState) : PvPSessionState :=
  {session with
    p1Action := none
    p2Action := none}

/-- Everything that _store_action can do with captured variables as they are. -/
inductive Stores (playerId : UUID) (action : Action) (stale : SubmitCaptured)
    (session : PvPSessionState) : SubmitCaptured → PvPSessionState → Prop
  | rejected (message : String) (h : acceptingRound playerId action session=none) :
      Stores playerId action stale session {stale with validationError := some message} session
  | stored (round : RoundState) (h : acceptingRound playerId action session=some round)
      (hpair : completedPair playerId action session=none) :
      Stores playerId action stale session
        {stale with confirmedTurnNumber := round.turnNumber+1}
        (storeInSlot playerId action session)
  | completed (round : RoundState) (p1Action p2Action : Action)
      (h : acceptingRound playerId action session=some round)
      (h₁ : (storeInSlot playerId action session).p1Action=some p1Action)
      (h₂ : (storeInSlot playerId action session).p2Action=some p2Action)
      (hpair : completedPair playerId action session=some (.now round p1Action p2Action)) :
      Stores playerId action stale session
        ⟨stale.validationError,true,some p1Action,some p2Action,round.turnNumber+1⟩
        (cleared (storeInSlot playerId action session))

/-- The inversion of _store_action. -/
theorem storeAction_cases {playerId : UUID} {action : Action} {stale captured : SubmitCaptured}
    {session session' : PvPSessionState}
    (h : storeAction playerId action stale session=.ok (captured,session')) :
    Stores playerId action stale session captured session' := by
  unfold storeAction at h
  by_cases hs : session.gameState.status=.inProgress
  · rw [if_neg (by simpa using hs)] at h
    cases hr : session.gameState.currentRound with
    | none =>
      rw [hr] at h
      cases h
      exact .rejected _ (by simp [acceptingRound,openRound,hs,hr])
    | some round =>
      rw [hr] at h
      dsimp only at h
      have hopen : openRound session=some round := by simp [openRound,hs,hr]
      by_cases hv : validateAction action (kiOf playerId session round)
      · rw [if_neg (by simpa [kiOf] using hv)] at h
        have ha : acceptingRound playerId action session=some round := by
          simp [acceptingRound,hopen,hv]
        cases h₁ : (storeInSlot playerId action session).p1Action with
        | none =>
          rw [h₁] at h
          cases h
          exact .stored round ha (by simp [completedPair,ha,h₁])
        | some p1Action =>
          cases h₂ : (storeInSlot playerId action session).p2Action with
          | none =>
            rw [h₁,h₂] at h
            cases h
            exact .stored round ha (by simp [completedPair,ha,h₁,h₂])
          | some p2Action =>
            rw [h₁,h₂] at h
            cases h
            exact .completed round p1Action p2Action ha h₁ h₂ (by simp [completedPair,ha,h₁,h₂])
      · rw [if_pos (by simpa [kiOf] using hv)] at h
        cases h
        exact .rejected _ (by rw [acceptingRound,hopen,Option.filter_some,if_neg hv])
  · rw [if_pos (by simpa using hs)] at h
    cases h
    exact .rejected _ (by simp [acceptingRound,openRound,hs])

/-- An accepting round is the open one, and the action can be paid for. -/
theorem acceptingRound_eq_some {playerId : UUID} {action : Action} {session : PvPSessionState}
    {round : RoundState} :
    acceptingRound playerId action session=some round ↔
      openRound session=some round ∧ validateAction action (kiOf playerId session round)=true := by
  rw [acceptingRound,Option.filter_eq_some_iff]

/-- The open round is that of a match in progress. -/
theorem openRound_eq_some {session : PvPSessionState} {round : RoundState} :
    openRound session=some round ↔
      session.gameState.status=.inProgress ∧ session.gameState.currentRound=some round := by
  unfold openRound
  split <;> simp [*]

/-- The open round depends on the match alone. -/
theorem openRound_congr {session session' : PvPSessionState}
    (h : session'.gameState=session.gameState) : openRound session'=openRound session := by
  unfold openRound
  rw [h]

/-- A completed pair comes from an accepted action. -/
theorem acceptingRound_of_completedPair {playerId : UUID} {action : Action}
    {session : PvPSessionState} {pair : TurnPair}
    (h : completedPair playerId action session=some pair) :
    ∃ round,acceptingRound playerId action session=some round ∧
      pair=.now round pair.p1Action pair.p2Action := by
  unfold completedPair at h
  split at h
  · next round p1Action p2Action hr h₁ h₂ =>
    cases h
    exact ⟨round,hr,rfl⟩
  · cases h

section Sessions

variable (playerId : UUID) (action : Action) (session : PvPSessionState)

@[simp] theorem storeInSlot_gameState :
    (storeInSlot playerId action session).gameState=session.gameState := by
  unfold storeInSlot
  split_ifs <;> rfl

@[simp] theorem storeInSlot_player1Id :
    (storeInSlot playerId action session).player1Id=session.player1Id := by
  unfold storeInSlot
  split_ifs <;> rfl

@[simp] theorem storeInSlot_player2Id :
    (storeInSlot playerId action session).player2Id=session.player2Id := by
  unfold storeInSlot
  split_ifs <;> rfl

@[simp] theorem markConnected_gameState :
    (session.markConnected playerId).gameState=session.gameState := by
  unfold PvPSessionState.markConnected
  split_ifs <;> rfl

@[simp] theorem markConnected_player1Id :
    (session.markConnected playerId).player1Id=session.player1Id := by
  unfold PvPSessionState.markConnected
  split_ifs <;> rfl

@[simp] theorem markConnected_player2Id :
    (session.markConnected playerId).player2Id=session.player2Id := by
  unfold PvPSessionState.markConnected
  split_ifs <;> rfl

end Sessions

/-- The captured variables lead to a resolution. -/
def SubmitCaptured.resolves (captured : SubmitCaptured) : Bool :=
  captured.validationError.isNone && captured.shouldResolve &&
    captured.p1ActionToResolve.isSome && captured.p2ActionToResolve.isSome

/-- Without a resolution nothing is outstanding. -/
theorem concluded_idle {captured : SubmitCaptured}
    (h : SubmitCaptured.resolves captured=false) : concluded captured=.idle := by
  obtain ⟨_ | _,_ | _,_ | _,_ | _,turn⟩ := captured <;>
    first | rfl | simp [SubmitCaptured.resolves] at h

/-- What an event means for the pairs that are handed from submit_action to
_resolve_turn. A pair is dropped when its task ends without applying it. -/
def turnStep : GameStore.Event → Step TurnPair
  | .commit task (.submit playerId action _) before _ =>
    match completedPair playerId action before with
    | some pair => .taken task pair
    | none => .other
  | .commit task (.resolve p1Action p2Action) before _ =>
    match openRound before with
    | some round => .given task (.now round p1Action p2Action)
    | none => .other
  | .conflict task (.resolve _ _) 0 => .dropped task
  | .note (.raised task _) => .dropped task
  | _ => .other

/-- The pairs that committed submissions have consumed. -/
def consumedPairs (trace : List GameStore.Event) : List TurnPair :=
  (trace.map turnStep).filterMap Step.takes

/-- The pairs that committed resolutions have applied, each for its turn. -/
def appliedPairs (trace : List GameStore.Event) : List TurnPair :=
  (trace.map turnStep).filterMap Step.gives

/-- The consumed pair that waits to be applied, with its task. -/
def waiting (trace : List GameStore.Event) : Option (TaskId×TurnPair) := held (trace.map turnStep)

@[simp] theorem waiting_append (trace : List GameStore.Event) (event : GameStore.Event) :
    waiting (trace++[event])=(turnStep event).advance (waiting trace) := by
  simp [waiting]

/-- The condition on the record, for the transaction that has just been written. -/
theorem meets_commit {fits : List GameStore.Event → GameStore.Event → Prop}
    {record : SessionRecord} {session session' : PvPSessionState} {task : TaskId} {call : Call}
    (hv : record.value=some session) (h : Meets fits (record.commit task call session').trace) :
    fits record.trace (.commit task call session session') := by
  rw [record.commit_of_value hv] at h
  exact (meets_append.mp h).2

/-- submit_turn accepts the pair in the open round. -/
theorem submitTurn_ok {session : PvPSessionState} {round : RoundState} {p1Action p2Action : Action}
    (h : openRound session=some round) (ha : Affordable round p1Action p2Action) :
    ∃ gameState report,submitTurn session.gameState p1Action p2Action=(gameState,.ok report) := by
  obtain ⟨hs,hr⟩ := openRound_eq_some.mp h
  obtain ⟨e,-,hne⟩ | ⟨-,_,gameState,report,-,-,he,-⟩ :=
    submitTurn_cases session.gameState p1Action p2Action
  · exact absurd ha (hne hs round hr)
  · exact ⟨gameState,report,he⟩

/-- What submit_turn accepts is affordable in the open round. -/
theorem openRound_of_submitTurn {session : PvPSessionState} {p1Action p2Action : Action}
    {gameState : GameState} {report : TurnReport}
    (h : submitTurn session.gameState p1Action p2Action=(gameState,.ok report)) :
    ∃ round,openRound session=some round ∧ Affordable round p1Action p2Action ∧
      Accepted session.gameState p1Action p2Action gameState report := by
  obtain ⟨e,he,-⟩ | ⟨hs,round,state',report',hr,ha,he,hacc⟩ :=
    submitTurn_cases session.gameState p1Action p2Action
  · rw [h] at he
    cases he
  · rw [h] at he
    cases he
    exact ⟨round,openRound_eq_some.mpr ⟨hs,hr⟩,ha,hacc⟩

/-- Every event means a step of the task that it names. -/
theorem turnStep_by (task : TaskId) (call : Call) (before after : PvPSessionState) :
    (turnStep (.commit task call before after)).By task := by
  cases call with
  | submit playerId action stale =>
    simp only [turnStep]
    split
    · rfl
    · trivial
  | resolve p1Action p2Action =>
    simp only [turnStep]
    split
    · rfl
    · trivial
  | connect | start | forfeit => trivial

section Expectations

variable {classify : GameStore.Event → Step TurnPair} {task other : TaskId}
  {record : SessionRecord} {event : GameStore.Event} {value : Option PvPSessionState}

/-- What a task expects of the others when the record is read as a hand-over of
pairs: they do not touch what it holds, and a match that is over stays over. -/
structure Expects (classify : GameStore.Event → Step TurnPair) (task : TaskId)
    (record record' : SessionRecord) : Prop where
  /-- A match that is over stays over. -/
  isOver : Over record → Over record'
  /-- The task holds what it held. -/
  same : KeepsHeld classify task record.trace record'.trace

theorem Expects.refl (classify : GameStore.Event → Step TurnPair) (task : TaskId)
    (record : SessionRecord) : Expects classify task record record :=
  ⟨fun h => h,KeepsHeld.refl classify task record.trace⟩

theorem Expects.trans {record' record'' : SessionRecord} (h : Expects classify task record record')
    (h' : Expects classify task record' record'') : Expects classify task record record'' :=
  ⟨fun ho => h'.isOver (h.isOver ho),h.same.trans h'.same⟩

/-- An event that means nothing is expected by everyone. -/
theorem Expects.unchanged (hstep : classify event=.other)
    (hover : Over record → Over ⟨value,record.trace++[event]⟩) (task : TaskId) :
    Expects classify task record ⟨value,record.trace++[event]⟩ where
  isOver := hover
  same := KeepsHeld.unchanged hstep task record.trace

/-- An event of one task is expected by the others if it takes nothing while
something is held. -/
theorem Expects.others (hby : (classify event).By task)
    (hfree : ∀ pair,classify event=.taken task pair → held (record.trace.map classify)=none)
    (hover : Over record → Over ⟨value,record.trace++[event]⟩) (hne : other≠task) :
    Expects classify other record ⟨value,record.trace++[event]⟩ where
  isOver := hover
  same := KeepsHeld.others hby hfree hne

/-- A transaction that leaves the match alone leaves it over. -/
theorem over_of_same {session session' : PvPSessionState} (hv : record.value=some session)
    (hgame : session'.gameState=session.gameState) (trace : List GameStore.Event) :
    Over record → Over ⟨some session',trace⟩ := by
  intro ho s hs
  cases hs
  rw [hgame]
  exact ho session hv

/-- A transaction on an open round does not find the match over. -/
theorem over_of_open {session : PvPSessionState} {round : RoundState}
    (hv : record.value=some session) (hopen : openRound session=some round)
    {record' : SessionRecord} : Over record → Over record' :=
  fun ho => absurd (openRound_eq_some.mp hopen).1 (ho session hv)

/-- After a forfeit the match is over. -/
theorem over_of_forfeit (session : PvPSessionState) (forfeiting : RoundWinner)
    (trace : List GameStore.Event) :
    Over ⟨some {session with gameState := (forfeit session.gameState forfeiting).1},trace⟩ := by
  intro s hs
  cases hs
  exact nofun

end Expectations

/-- An accepted turn leaves the match in progress, or completes it with a result. -/
theorem accepted_status {state state' : GameState} {p1Action p2Action : Action}
    {report : TurnReport} (h : Accepted state p1Action p2Action state' report)
    (hs : state.status=.inProgress) :
    (report.matchResult=none ∧ state'.status=.inProgress) ∨
      ∃ result,report.matchResult=some result ∧ state'.status=.completed := by
  cases h with
  | roundGoesOn round hr hw => exact .inl ⟨rfl,hs⟩
  | roundCloses round hr roundResult hw hm =>
    exact .inl ⟨rfl,by simpa using hs⟩
  | matchCloses round hr roundResult hw matchResult hm => exact .inr ⟨matchResult,rfl,rfl⟩

end KiClash.PendingPairs
