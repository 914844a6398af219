import KiClash.EngineRuns
import KiClash.GoEngine

/-!
# The two engines agree

A Python match state is read as the Go struct that stores the same values.
Under that reading the outcome tables, ki updates, round ends and match ends
of the two engines are equal function by function, on arbitrary states and
not only on reachable ones; a run of either engine is then a run of the other.
-/

namespace KiClash.EngineSimulation

/-- The Go struct with the values of a turn result. -/
def goTurnResult (result : EngineTypes.TurnResult) : GoTypes.TurnResult :=
  { turnNumber := result.turnNumber
    p1Action := result.p1Action.value
    p2Action := result.p2Action.value
    outcome := result.outcome.value
    p1KiBefore := result.p1KiBefore
    p2KiBefore := result.p2KiBefore
    p1KiAfter := result.p1KiAfter
    p2KiAfter := result.p2KiAfter }

/-- The Go struct with the values of an open round. -/
def goRoundState (round : EngineTypes.RoundState) : GoTypes.RoundState :=
  { roundNumber := round.roundNumber
    p1Ki := round.p1Ki
    p2Ki := round.p2Ki
    turnNumber := round.turnNumber
    turnHistory := some (round.turnHistory.map goTurnResult) }

/-- The Go struct with the values of a finished round. -/
def goRoundResult (result : EngineTypes.RoundResult) : GoTypes.RoundResult :=
  { roundNumber := result.roundNumber
    winner := result.winner.value
    totalTurns := result.totalTurns
    finalP1Ki := result.finalP1Ki
    finalP2Ki := result.finalP2Ki }

/-- The Go struct with the values of a match state. -/
def goGameState (state : EngineTypes.GameState) : GoTypes.GameState :=
  { gameId := state.gameId.text
    matchType := state.matchType.value
    status := state.status.value
    roundsWonP1 := state.roundsWonP1
    roundsWonP2 := state.roundsWonP2
    currentRound := state.currentRound.map goRoundState
    roundResults := some (state.roundResults.map goRoundResult) }

/-- The Go struct with the values of a match result. -/
def goMatchResult (result : EngineTypes.MatchResult) : GoTypes.MatchResult :=
  { gameId := result.gameId.text
    winner := result.winner.value
    roundsWonP1 := result.roundsWonP1
    roundsWonP2 := result.roundsWonP2
    roundResults := some (result.roundResults.map goRoundResult)
    totalTurns := result.totalTurns }

/-- The Go values of what an accepted call returns. -/
def goReport (report : Engine.TurnReport) : GoEngine.TurnReport :=
  { turnResult := goTurnResult report.turnResult
    roundResult := report.roundResult.map goRoundResult
    matchResult := report.matchResult.map goMatchResult }

@[simp] theorem actionKiCost_value (action : EngineTypes.Action) :
    GoTypes.actionKiCost action.value=EngineTypes.actionKiCost action := by
  cases action <;> decide

@[simp] theorem actionKiGain_value (action : EngineTypes.Action) :
    GoTypes.actionKiGain action.value=EngineTypes.actionKiGain action := by
  cases action <;> decide

/-- The two tables agree in every cell. -/
@[simp] theorem lookupOutcome_value (p1 p2 : EngineTypes.Action) :
    GoEngine.lookupOutcome p1.value p2.value=(OutcomeMatrix.resolveActions p1 p2).value := by
  cases p1 <;> cases p2 <;> decide

@[simp] theorem validateAction_value (action : EngineTypes.Action) (ki : ℤ) :
    GoEngine.validateAction action.value ki=OutcomeMatrix.validateAction action ki := by
  simp [GoEngine.validateAction,OutcomeMatrix.validateAction]

/-- Two clamps in a row are the clamp to an interval. -/
@[simp] theorem calcKiAfter_value (action opponent : EngineTypes.Action) (ki : ℤ)
    (outcome : EngineTypes.TurnOutcome) :
    GoEngine.calcKiAfter action.value ki=
      OutcomeMatrix.calculateKiAfter action opponent ki outcome := by
  simp only [GoEngine.calcKiAfter,OutcomeMatrix.calculateKiAfter,actionKiCost_value,
    actionKiGain_value,GoTypes.kiCap,EngineTypes.kiCap]
  split_ifs <;> omega

/-- One turn resolves alike. -/
theorem resolveTurn_value (turnNumber : ℤ) (p1 p2 : EngineTypes.Action) (p1Ki p2Ki : ℤ) :
    GoEngine.resolveTurn turnNumber p1.value p2.value p1Ki p2Ki=
      goTurnResult (OutcomeMatrix.resolveTurn turnNumber p1 p2 p1Ki p2Ki) := by
  simp only [GoEngine.resolveTurn,goTurnResult,OutcomeMatrix.resolveTurn,lookupOutcome_value,
    ←calcKiAfter_value]

/-- The round winner agrees; "" stands for none. -/
theorem roundWinner_value (tr : EngineTypes.TurnResult) (round : EngineTypes.RoundState) :
    GoEngine.roundWinner (goTurnResult tr) (goRoundState round)=
      ((Engine.roundWinner tr round).map EngineTypes.RoundWinner.value).getD "" := by
  have h1 : (tr.outcome.value=GoTypes.outcomeP1WinsRound) ↔ tr.outcome=.p1WinsRound := by
    cases tr.outcome <;> decide
  have h2 : (tr.outcome.value=GoTypes.outcomeP2WinsRound) ↔ tr.outcome=.p2WinsRound := by
    cases tr.outcome <;> decide
  simp only [GoEngine.roundWinner,Engine.roundWinner,goTurnResult,goRoundState,h1,h2,
    GoTypes.turnLimit,EngineTypes.turnLimit]
  simp only [apply_ite (Option.map EngineTypes.RoundWinner.value),
    apply_ite fun winner : Option String => winner.getD "",Option.map_some,Option.map_none,
    Option.getD_some,Option.getD_none]
  rfl

/-- A winner's text is never empty. -/
theorem winner_value_ne (winner : EngineTypes.RoundWinner) : winner.value≠"" := by
  cases winner <;> decide

/-- The round ends alike. -/
theorem checkRoundEnd_value (tr : EngineTypes.TurnResult) (round : EngineTypes.RoundState) :
    GoEngine.checkRoundEnd (goTurnResult tr) (goRoundState round)=
      (Engine.checkRoundEnd tr round).map goRoundResult := by
  unfold GoEngine.checkRoundEnd Engine.checkRoundEnd
  rw [roundWinner_value]
  cases Engine.roundWinner tr round with
  | none => rfl
  | some winner =>
    dsimp only [Option.map_some,Option.getD_some]
    rw [if_neg (winner_value_ne winner)]
    rfl

/-- The Go loop computes the Python sum. -/
theorem sumTurns_value (results : List EngineTypes.RoundResult) :
    GoEngine.sumTurns (results.map goRoundResult)=
      (results.map EngineTypes.RoundResult.totalTurns).sum := by
  induction results with
  | nil => rfl
  | cons result results ih =>
    simp only [List.map_cons,GoEngine.sumTurns,List.sum_cons,ih]
    rfl

/-- The match result for a winner has the same values. -/
theorem matchResultFor_value (state : EngineTypes.GameState) (winner : EngineTypes.RoundWinner) :
    GoEngine.matchResultFor (goGameState state) winner.value=
      goMatchResult (Engine.matchResultFor state winner) := by
  simp only [GoEngine.matchResultFor,goGameState,goMatchResult,Engine.matchResultFor,
    Engine.finishedTurns,GoTypes.Slice.elements,Option.getD_some,sumTurns_value]

/-- The match ends alike. -/
theorem checkMatchEnd_value (state : EngineTypes.GameState) :
    GoEngine.checkMatchEnd (goGameState state)=
      (Engine.checkMatchEnd state).map goMatchResult := by
  have hl : (goGameState state).roundResults.length=(state.roundResults.length : ℤ) := by
    simp [goGameState,GoTypes.Slice.length,GoTypes.Slice.elements]
  simp only [GoEngine.checkMatchEnd,Engine.checkMatchEnd,hl,
    apply_ite (Option.map goMatchResult),Option.map_some,Option.map_none,←matchResultFor_value]
  rfl

/-- A finished round is scored and recorded alike. -/
theorem closedState_value (state : EngineTypes.GameState)
    (roundResult : EngineTypes.RoundResult) :
    {GoEngine.scoreRound (goGameState state) (goRoundResult roundResult).winner with
      roundResults := (goGameState state).roundResults.append (goRoundResult roundResult)
      currentRound := none}=
      goGameState (EngineRuns.closedState state roundResult) := by
  obtain ⟨number,winner,turns,ki1,ki2⟩ := roundResult
  cases winner <;>
    simp [GoEngine.scoreRound,goGameState,goRoundResult,GoTypes.Slice.append,
      GoTypes.Slice.elements,Engine.scoreRound,EngineTypes.RoundWinner.value,GoTypes.winnerP1,
      GoTypes.winnerP2]

/-- The Go scoring step leaves the result list as it is. -/
theorem scoreRound_roundResults (gs : GoTypes.GameState) (winner : String) :
    (GoEngine.scoreRound gs winner).roundResults=gs.roundResults := by
  unfold GoEngine.scoreRound
  split_ifs <;> rfl

/-- The Go scoring step commutes with replacing the open round. -/
theorem scoreRound_currentRound (gs : GoTypes.GameState) (round : Option GoTypes.RoundState)
    (winner : String) :
    GoEngine.scoreRound {gs with currentRound := round} winner=
      {GoEngine.scoreRound gs winner with currentRound := round} := by
  unfold GoEngine.scoreRound
  split_ifs <;> rfl

/-- A new round opens with the same values. -/
theorem startNewRound_value (state : EngineTypes.GameState) :
    GoEngine.startNewRound (goGameState state)=
      goGameState {state with
        currentRound := some ⟨state.roundResults.length+1,0,0,0,[]⟩} := by
  simp [GoEngine.startNewRound,goGameState,goRoundState,GoTypes.Slice.length,
    GoTypes.Slice.elements]

/-- The round after a turn has the same values. -/
theorem advanceRound_value (round : EngineTypes.RoundState) (tr : EngineTypes.TurnResult) :
    {goRoundState round with
      turnNumber := tr.turnNumber
      p1Ki := (goTurnResult tr).p1KiAfter
      p2Ki := (goTurnResult tr).p2KiAfter
      turnHistory := (goRoundState round).turnHistory.append (goTurnResult tr)}=
      goRoundState (Engine.advanceRound round tr) := by
  simp [goRoundState,Engine.advanceRound,goTurnResult,GoTypes.Slice.append,
    GoTypes.Slice.elements]

/-- The step lemma: whatever an accepted Python call does, the Go call does. -/
theorem applyTurn_value {state state' : EngineTypes.GameState} {p1 p2 : EngineTypes.Action}
    {report : Engine.TurnReport} (ha : EngineRuns.Accepted state p1 p2 state' report)
    {round : EngineTypes.RoundState} (hr : state.currentRound=some round) :
    GoEngine.applyTurn (goGameState state) (goRoundState round) p1.value p2.value=
      (goGameState state',goReport report) := by
  have hturn := resolveTurn_value (round.turnNumber+1) p1 p2 round.p1Ki round.p2Ki
  have hadvance := advanceRound_value round (EngineRuns.nextTurn round p1 p2)
  have hend := checkRoundEnd_value (EngineRuns.nextTurn round p1 p2)
    (EngineRuns.nextRound round p1 p2)
  rw [←hadvance] at hend
  change GoEngine.resolveTurn ((goRoundState round).turnNumber+1) p1.value p2.value
    (goRoundState round).p1Ki (goRoundState round).p2Ki=_ at hturn
  unfold GoEngine.applyTurn
  dsimp only
  rw [hturn]
  change GoEngine.checkRoundEnd (goTurnResult (EngineRuns.nextTurn round p1 p2))
    {goRoundState round with
      turnNumber := (goRoundState round).turnNumber+1
      p1Ki := (goTurnResult (EngineRuns.nextTurn round p1 p2)).p1KiAfter
      p2Ki := (goTurnResult (EngineRuns.nextTurn round p1 p2)).p2KiAfter
      turnHistory := (goRoundState round).turnHistory.append
        (goTurnResult (EngineRuns.nextTurn round p1 p2))}=_ at hend
  change {goRoundState round with
      turnNumber := (goRoundState round).turnNumber+1
      p1Ki := (goTurnResult (EngineRuns.nextTurn round p1 p2)).p1KiAfter
      p2Ki := (goTurnResult (EngineRuns.nextTurn round p1 p2)).p2KiAfter
      turnHistory := (goRoundState round).turnHistory.append
        (goTurnResult (EngineRuns.nextTurn round p1 p2))}=_ at hadvance
  rw [hend]
  cases ha with
  | roundGoesOn r h hw =>
    cases hr.symm.trans h
    rw [hw,hadvance]
    rfl
  | roundCloses r h roundResult hw hm =>
    cases hr.symm.trans h
    have hclosed := closedState_value state roundResult
    have hmatch := checkMatchEnd_value (EngineRuns.closedState state roundResult)
    have hopen := startNewRound_value (EngineRuns.closedState state roundResult)
    rw [hw]
    simp only [Option.map_some,scoreRound_currentRound,scoreRound_roundResults]
    rw [hclosed,hmatch,hm]
    simp only [Option.map_none,hopen,goReport]
    simp [add_assoc]
  | matchCloses r h roundResult hw matchResult hm =>
    cases hr.symm.trans h
    have hclosed := closedState_value state roundResult
    have hmatch := checkMatchEnd_value (EngineRuns.closedState state roundResult)
    rw [hw]
    simp only [Option.map_some,scoreRound_currentRound,scoreRound_roundResults]
    rw [hclosed,hmatch,hm]
    exact Prod.ext (congrArg (fun gs => {gs with status := GoTypes.matchCompleted}) hclosed) rfl

/-- The same call: both accept with the same values, or both reject. -/
def ResultsAgree : Except EngineTypes.EngineError Engine.TurnReport →
    Except String GoEngine.TurnReport → Prop
  | .ok report,.ok goResult => goResult=goReport report
  | .error _,.error _ => True
  | _,_ => False

/-- A text is a status text only for its own status. -/
theorem status_value_eq (status : EngineTypes.MatchStatus) :
    status.value=GoTypes.matchInProgress ↔ status=.inProgress := by
  cases status <;> decide

/-- One call of submitTurn on the same values agrees in state and result. -/
theorem submitTurn_value (state : EngineTypes.GameState) (p1 p2 : EngineTypes.Action) :
    (GoEngine.submitTurn (goGameState state) p1.value p2.value).1=
        goGameState (Engine.submitTurn state p1 p2).1 ∧
      ResultsAgree (Engine.submitTurn state p1 p2).2
        (GoEngine.submitTurn (goGameState state) p1.value p2.value).2 := by
  have hstatus : (goGameState state).status=GoTypes.matchInProgress ↔ state.status=.inProgress :=
    status_value_eq state.status
  obtain ⟨e,he,hn⟩ | ⟨hs,round,state',report,hr,⟨h1,h2⟩,he,hacc⟩ :=
    EngineRuns.submitTurn_cases state p1 p2
  · rw [he]
    unfold GoEngine.submitTurn
    by_cases hs : state.status=.inProgress
    · rw [if_neg (by simpa [hstatus] using hs)]
      cases hr : state.currentRound with
      | none => simp [goGameState,hr,ResultsAgree]
      | some round =>
        have hround : (goGameState state).currentRound=some (goRoundState round) := by
          simp [goGameState,hr]
        have ha : ¬(EngineTypes.actionKiCost p1≤round.p1Ki ∧
            EngineTypes.actionKiCost p2≤round.p2Ki) := hn hs round hr
        rw [hround]
        dsimp only [goRoundState]
        simp only [validateAction_value,OutcomeMatrix.validateAction_iff]
        by_cases h1 : EngineTypes.actionKiCost p1≤round.p1Ki
        · have h2 : ¬EngineTypes.actionKiCost p2≤round.p2Ki := fun h2 => ha ⟨h1,h2⟩
          rw [if_neg (not_not.mpr h1),if_pos h2]
          exact ⟨rfl,trivial⟩
        · rw [if_pos h1]
          exact ⟨rfl,trivial⟩
    · rw [if_pos (by simpa [hstatus] using hs)]
      exact ⟨rfl,trivial⟩
  · have hround : (goGameState state).currentRound=some (goRoundState round) := by
      simp [goGameState,hr]
    rw [he]
    unfold GoEngine.submitTurn
    rw [if_neg (by simpa [hstatus] using hs),hround]
    dsimp only
    rw [show (goRoundState round).p1Ki=round.p1Ki from rfl,
      show (goRoundState round).p2Ki=round.p2Ki from rfl]
    simp only [validateAction_value,OutcomeMatrix.validateAction_iff]
    rw [if_neg (not_not.mpr h1),if_neg (not_not.mpr h2),applyTurn_value hacc hr]
    exact ⟨rfl,rfl⟩

/-- A fresh match has the same values on both sides. -/
theorem newMatch_value (gameId : EngineTypes.UUID) (matchType : EngineTypes.MatchType) :
    GoEngine.newMatch gameId.text matchType.value=
      goGameState (Engine.startMatch gameId matchType).1 := by
  rw [Engine.startMatch_eq]
  rfl

section Runs

variable {State Action Report Error : Type}

/-- One call of a run: the state before it, the state after it and its result. -/
structure Step (State Report Error : Type) where
  /-- State that the call was given. -/
  before : State
  /-- State that the call left. -/
  after : State
  /-- What the call returned or raised. -/
  result : Except Error Report

/-- The steps of playing a sequence of action pairs with a submit function. -/
def steps (submit : State → Action → Action → State × Except Error Report) (state : State) :
    List (Action×Action) → List (Step State Report Error)
  | [] => []
  | (p1,p2)::pairs =>
    let (after,result) := submit state p1 p2
    ⟨state,after,result⟩::steps submit after pairs

end Runs

/-- Two steps agree: equal states before and after, the same verdict, equal
results, and on a rejection neither side has changed its state. -/
structure StepsAgree
    (py : Step EngineTypes.GameState Engine.TurnReport EngineTypes.EngineError)
    (go : Step GoTypes.GameState GoEngine.TurnReport String) : Prop where
  /-- The states before the call are equal field by field. -/
  before : go.before=goGameState py.before
  /-- The states after the call are equal field by field. -/
  after : go.after=goGameState py.after
  /-- The verdicts and the returned values agree. -/
  result : ResultsAgree py.result go.result
  /-- A rejected call leaves both states as they were. -/
  rejected : ∀ e, py.result=.error e → py.after=py.before ∧ go.after=go.before

/-- The run lemma: from equal states every sequence of pairs runs alike. -/
theorem steps_agree (state : EngineTypes.GameState)
    (pairs : List (EngineTypes.Action×EngineTypes.Action)) :
    List.Forall₂ StepsAgree (steps Engine.submitTurn state pairs)
      (steps GoEngine.submitTurn (goGameState state)
        (pairs.map fun pair => (pair.1.value,pair.2.value))) := by
  induction pairs generalizing state with
  | nil => exact .nil
  | cons pair pairs ih =>
    obtain ⟨p1,p2⟩ := pair
    obtain ⟨hstate,hresult⟩ := submitTurn_value state p1 p2
    simp only [steps,List.map_cons]
    refine .cons ⟨rfl,hstate,hresult,fun e he => ?_⟩ ?_
    · have hs := EngineRuns.submitTurn_error_state he
      exact ⟨hs,hstate.trans (congrArg goGameState hs)⟩
    · rw [hstate]
      exact ih _

/-- The Go engine and the Python engine play every sequence of action pairs
from a fresh match alike. -/
theorem engines_bisimilar (gameId : EngineTypes.UUID) (matchType : EngineTypes.MatchType)
    (pairs : List (EngineTypes.Action×EngineTypes.Action)) :
    ∃ fresh, Engine.startMatch gameId matchType=(fresh,.ok ()) ∧
      GoEngine.newMatch gameId.text matchType.value=goGameState fresh ∧
      List.Forall₂ StepsAgree (steps Engine.submitTurn fresh pairs)
        (steps GoEngine.submitTurn (GoEngine.newMatch gameId.text matchType.value)
          (pairs.map fun pair => (pair.1.value,pair.2.value))) := by
  refine ⟨_,Engine.startMatch_eq gameId matchType,newMatch_value gameId matchType,?_⟩
  rw [newMatch_value]
  exact steps_agree _ pairs

end KiClash.EngineSimulation
