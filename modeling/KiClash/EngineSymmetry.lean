import KiClash.EngineRuns

/-!
# The engine treats both players alike

The mirror image of a record exchanges what it says about player 1 and about player 2.
Every rule of the engine commutes with it: the outcome table, both ki updates, the
round-end branches, the score and, as long as at most one player has won two rounds,
the match-end comparison. A run with every pair of actions swapped is then the mirror
image of the run, step by step.
-/

namespace KiClash.EngineSymmetry

open EngineTypes OutcomeMatrix Engine EngineRuns

/-- The outcome from the other player's side. -/
def mirrorOutcome : TurnOutcome → TurnOutcome
  | .p1WinsRound => .p2WinsRound
  | .p2WinsRound => .p1WinsRound
  | .clash => .clash
  | .blocked => .blocked
  | .dodged => .dodged
  | .neutral => .neutral

/-- The winner from the other player's side. -/
def mirrorWinner : RoundWinner → RoundWinner
  | .p1 => .p2
  | .p2 => .p1
  | .draw => .draw

/-- A turn with the players exchanged. -/
def mirrorTurn (turn : TurnResult) : TurnResult :=
  { turnNumber := turn.turnNumber
    p1Action := turn.p2Action
    p2Action := turn.p1Action
    outcome := mirrorOutcome turn.outcome
    p1KiBefore := turn.p2KiBefore
    p2KiBefore := turn.p1KiBefore
    p1KiAfter := turn.p2KiAfter
    p2KiAfter := turn.p1KiAfter }

/-- An open round with the players exchanged. -/
def mirrorRound (round : RoundState) : RoundState :=
  { roundNumber := round.roundNumber
    p1Ki := round.p2Ki
    p2Ki := round.p1Ki
    turnNumber := round.turnNumber
    turnHistory := round.turnHistory.map mirrorTurn }

/-- A finished round with the players exchanged. -/
def mirrorRoundResult (result : RoundResult) : RoundResult :=
  { roundNumber := result.roundNumber
    winner := mirrorWinner result.winner
    totalTurns := result.totalTurns
    finalP1Ki := result.finalP2Ki
    finalP2Ki := result.finalP1Ki }

/-- A match with the players exchanged. -/
def mirrorState (state : GameState) : GameState :=
  { gameId := state.gameId
    matchType := state.matchType
    status := state.status
    roundsWonP1 := state.roundsWonP2
    roundsWonP2 := state.roundsWonP1
    currentRound := state.currentRound.map mirrorRound
    roundResults := state.roundResults.map mirrorRoundResult }

/-- A match result with the players exchanged. -/
def mirrorMatchResult (result : MatchResult) : MatchResult :=
  { gameId := result.gameId
    winner := mirrorWinner result.winner
    roundsWonP1 := result.roundsWonP2
    roundsWonP2 := result.roundsWonP1
    roundResults := result.roundResults.map mirrorRoundResult
    totalTurns := result.totalTurns }

/-- What a call returns, with the players exchanged. -/
def mirrorReport (report : TurnReport) : TurnReport :=
  { turnResult := mirrorTurn report.turnResult
    roundResult := report.roundResult.map mirrorRoundResult
    matchResult := report.matchResult.map mirrorMatchResult }

section Rules

/-- The outcome table is symmetric. -/
theorem resolveActions_mirror (p1Action p2Action : Action) :
    resolveActions p2Action p1Action=mirrorOutcome (resolveActions p1Action p2Action) := by
  cases p1Action <;> cases p2Action <;> rfl

/-- A turn is resolved alike for both players. -/
theorem resolveTurn_mirror (turnNumber : ℤ) (p1Action p2Action : Action) (p1Ki p2Ki : ℤ) :
    resolveTurn turnNumber p2Action p1Action p2Ki p1Ki=
      mirrorTurn (resolveTurn turnNumber p1Action p2Action p1Ki p2Ki) := by
  have houtcome := resolveActions_mirror p1Action p2Action
  simp only [resolveTurn,mirrorTurn,houtcome,calculateKiAfter]

/-- So is the round after it. -/
theorem advanceRound_mirror (round : RoundState) (turn : TurnResult) :
    advanceRound (mirrorRound round) (mirrorTurn turn)=mirrorRound (advanceRound round turn) := by
  simp [advanceRound,mirrorRound,mirrorTurn]

/-- The winner of a round is determined alike. -/
theorem roundWinner_mirror (turn : TurnResult) (round : RoundState) :
    roundWinner (mirrorTurn turn) (mirrorRound round)=
      (roundWinner turn round).map mirrorWinner := by
  unfold roundWinner mirrorTurn mirrorRound
  cases turn.outcome with
  | p1WinsRound | p2WinsRound => rfl
  | clash | blocked | dodged | neutral =>
    simp only [mirrorOutcome,reduceCtorEq,if_false]
    split_ifs <;> first | rfl | omega

/-- So is the result of a round. -/
theorem checkRoundEnd_mirror (turn : TurnResult) (round : RoundState) :
    checkRoundEnd (mirrorTurn turn) (mirrorRound round)=
      (checkRoundEnd turn round).map mirrorRoundResult := by
  unfold checkRoundEnd
  rw [roundWinner_mirror,Option.map_map,Option.map_map]
  rfl

/-- The mirror image has as many turns. -/
theorem finishedTurns_mirror (state : GameState) :
    finishedTurns (mirrorState state)=finishedTurns state := by
  unfold finishedTurns mirrorState
  rw [List.map_map]
  rfl

theorem matchResultFor_mirror (state : GameState) (winner : RoundWinner) :
    matchResultFor (mirrorState state) (mirrorWinner winner)=
      mirrorMatchResult (matchResultFor state winner) := by
  simp only [matchResultFor,finishedTurns_mirror]
  rfl

/-- The match end is determined alike, as long as at most one player has won two
rounds: the source asks for player 1 first. -/
theorem checkMatchEnd_mirror {state : GameState}
    (h : state.roundsWonP1<roundsToWin ∨ state.roundsWonP2<roundsToWin) :
    checkMatchEnd (mirrorState state)=(checkMatchEnd state).map mirrorMatchResult := by
  have hlength : (mirrorState state).roundResults.length=state.roundResults.length :=
    List.length_map _
  unfold checkMatchEnd
  rw [hlength]
  change (if state.roundsWonP2≥roundsToWin then some (matchResultFor (mirrorState state) .p1)
    else if state.roundsWonP1≥roundsToWin then some (matchResultFor (mirrorState state) .p2)
    else if _ then some (matchResultFor (mirrorState state) .draw) else none)=_
  have hfirst := matchResultFor_mirror state .p2
  have hsecond := matchResultFor_mirror state .p1
  have hdraw := matchResultFor_mirror state .draw
  dsimp only [mirrorWinner] at hfirst hsecond hdraw
  rw [hfirst,hsecond,hdraw]
  split_ifs <;> first | rfl | omega

/-- The score is kept alike. -/
theorem scoreRound_mirror (state : GameState) (winner : RoundWinner) :
    scoreRound (mirrorState state) (mirrorWinner winner)=mirrorState (scoreRound state winner) := by
  cases winner <;> rfl

/-- A new round opens alike: its mirror image is itself. -/
theorem startNewRound_mirror (state : GameState) :
    startNewRound (mirrorState state)=
      (mirrorState (startNewRound state).1,(startNewRound state).2) := by
  have hlength : (mirrorState state).roundResults.length=state.roundResults.length :=
    List.length_map _
  unfold startNewRound
  rw [hlength]
  unfold RoundState.create
  dsimp only
  split_ifs <;> rfl

end Rules

section Calls

/-- closeRound over the closed state. -/
theorem closeRound_eq (state : GameState) (turn : TurnResult) (result : RoundResult) :
    closeRound state turn result=
      match checkMatchEnd (closedState state result) with
      | some matchResult => ({closedState state result with status := .completed},
          .ok ⟨turn,some result,some matchResult⟩)
      | none => ((startNewRound (closedState state result)).1,
          (startNewRound (closedState state result)).2.map fun _ => ⟨turn,some result,none⟩) := by
  have hclosed : {scoreRound state result.winner with
      roundResults := (scoreRound state result.winner).roundResults++[result]
      currentRound := none}=closedState state result := by
    rw [scoreRound_roundResults]
  unfold closeRound
  exact congrArg (fun closed : GameState => show GameState×Except EngineError TurnReport from
    match checkMatchEnd closed with
    | some matchResult => ({closed with status := .completed},
        .ok ⟨turn,some result,some matchResult⟩)
    | none => ((startNewRound closed).1,
        (startNewRound closed).2.map fun _ => ⟨turn,some result,none⟩)) hclosed

/-- The closed state is scored alike. -/
theorem closedState_mirror (state : GameState) (result : RoundResult) :
    closedState (mirrorState state) (mirrorRoundResult result)=
      mirrorState (closedState state result) := by
  unfold closedState
  have hscored := scoreRound_mirror state result.winner
  change {scoreRound (mirrorState state) (mirrorWinner result.winner) with
    roundResults := (mirrorState state).roundResults++[mirrorRoundResult result]
    currentRound := none}=_
  rw [hscored]
  simp [mirrorState]

/-- A round gives only one player a further win. -/
theorem closedState_score {state : GameState} (h : Undecided state) (result : RoundResult) :
    (closedState state result).roundsWonP1<roundsToWin ∨
      (closedState state result).roundsWonP2<roundsToWin := by
  have hbefore := h.1
  have hbefore' := h.2.1
  unfold closedState
  dsimp only
  cases hwinner : result.winner with
  | p1 =>
    right
    simpa [hwinner,scoreRound] using hbefore'
  | p2 | draw =>
    left
    simpa [hwinner,scoreRound] using hbefore

/-- A round closes alike while the match is undecided. -/
theorem closeRound_mirror {state : GameState} (h : Undecided state) (turn : TurnResult)
    (result : RoundResult) :
    closeRound (mirrorState state) (mirrorTurn turn) (mirrorRoundResult result)=
      (mirrorState (closeRound state turn result).1,
        (closeRound state turn result).2.map mirrorReport) := by
  have hend := checkMatchEnd_mirror (closedState_score h result)
  rw [closeRound_eq,closeRound_eq,closedState_mirror,hend,startNewRound_mirror]
  cases checkMatchEnd (closedState state result) with
  | some matchResult => rfl
  | none =>
    dsimp only [Option.map_none]
    cases (startNewRound (closedState state result)).2 <;> rfl

/-- The turn in an open round. -/
theorem nextTurn_mirror (round : RoundState) (p1Action p2Action : Action) :
    nextTurn (mirrorRound round) p2Action p1Action=mirrorTurn (nextTurn round p1Action p2Action) :=
  resolveTurn_mirror ..

/-- The open round after it. -/
theorem nextRound_mirror (round : RoundState) (p1Action p2Action : Action) :
    nextRound (mirrorRound round) p2Action p1Action=
      mirrorRound (nextRound round p1Action p2Action) := by
  unfold nextRound
  rw [nextTurn_mirror,advanceRound_mirror]

/-- applyTurn over the next turn and the next round. -/
theorem applyTurn_eq (state : GameState) (round : RoundState) (p1Action p2Action : Action) :
    applyTurn state round p1Action p2Action=
      match checkRoundEnd (nextTurn round p1Action p2Action)
        (nextRound round p1Action p2Action) with
      | none => ({state with currentRound := some (nextRound round p1Action p2Action)},
          .ok ⟨nextTurn round p1Action p2Action,none,none⟩)
      | some result => closeRound state (nextTurn round p1Action p2Action) result := by
  unfold applyTurn
  dsimp only
  cases checkRoundEnd (nextTurn round p1Action p2Action)
      (nextRound round p1Action p2Action) with
  | none => rfl
  | some result => exact closeRound_open state _ _ result

/-- A turn is applied alike. -/
theorem applyTurn_mirror {state : GameState} (h : Undecided state) (round : RoundState)
    (p1Action p2Action : Action) :
    applyTurn (mirrorState state) (mirrorRound round) p2Action p1Action=
      (mirrorState (applyTurn state round p1Action p2Action).1,
        (applyTurn state round p1Action p2Action).2.map mirrorReport) := by
  have hend := checkRoundEnd_mirror (nextTurn round p1Action p2Action)
    (nextRound round p1Action p2Action)
  rw [applyTurn_eq,applyTurn_eq,nextTurn_mirror,nextRound_mirror,hend]
  cases checkRoundEnd (nextTurn round p1Action p2Action)
      (nextRound round p1Action p2Action) with
  | none => rfl
  | some result => exact closeRound_mirror h (nextTurn round p1Action p2Action) result

/-- A call is accepted for the mirror image when it is accepted, and comes out alike; the
error may name the other player when neither can pay. -/
theorem submitTurn_mirror {state : GameState} (h : state.status=.inProgress → Undecided state)
    (p1Action p2Action : Action) :
    (submitTurn (mirrorState state) p2Action p1Action).1=
        mirrorState (submitTurn state p1Action p2Action).1 ∧
      (submitTurn (mirrorState state) p2Action p1Action).2.toOption=
        (submitTurn state p1Action p2Action).2.toOption.map mirrorReport := by
  have hstatus : (mirrorState state).status=state.status := rfl
  have hround : (mirrorState state).currentRound=state.currentRound.map mirrorRound := rfl
  unfold submitTurn
  rw [hstatus,hround]
  by_cases hs : state.status=.inProgress
  · rw [if_neg (not_not.mpr hs),if_neg (not_not.mpr hs)]
    cases state.currentRound with
    | none => exact ⟨rfl,rfl⟩
    | some round =>
      dsimp only [Option.map_some,mirrorRound]
      by_cases h1 : validateAction p1Action round.p1Ki
      · by_cases h2 : validateAction p2Action round.p2Ki
        · have happly := applyTurn_mirror (h hs) round p1Action p2Action
          rw [if_neg (not_not.mpr h1),if_neg (not_not.mpr h1),if_neg (not_not.mpr h2),
            if_neg (not_not.mpr h2)]
          dsimp only [mirrorRound] at happly
          rw [happly]
          refine ⟨rfl,?_⟩
          cases (applyTurn state round p1Action p2Action).2 <;> rfl
        · rw [if_pos h2,if_neg (not_not.mpr h1),if_pos h2]
          exact ⟨rfl,rfl⟩
      · rw [if_pos h1]
        split_ifs <;> exact ⟨rfl,rfl⟩
  · rw [if_pos hs,if_pos hs]
    exact ⟨rfl,rfl⟩

end Calls

/-- A run, step by step: the state after each call and what the call returns, if it is
accepted. -/
def steps (state : GameState) : List (Action×Action) → List (GameState×Option TurnReport)
  | [] => []
  | (p1Action,p2Action)::calls =>
    ((submitTurn state p1Action p2Action).1,(submitTurn state p1Action p2Action).2.toOption)::
      steps (submitTurn state p1Action p2Action).1 calls

/-- A step with the players exchanged. -/
def mirrorStep (step : GameState×Option TurnReport) : GameState×Option TurnReport :=
  (mirrorState step.1,step.2.map mirrorReport)

section Runs

/-- From a state that the invariant describes, the swapped run mirrors the run. -/
theorem steps_mirror {state : GameState} {accepted : ℕ} (h : MatchInvariant state accepted)
    (calls : List (Action×Action)) :
    steps (mirrorState state) (calls.map Prod.swap)=(steps state calls).map mirrorStep := by
  induction calls generalizing state accepted with
  | nil => rfl
  | cons call calls ih =>
    obtain ⟨p1Action,p2Action⟩ := call
    have hstep := submitTurn_mirror h.undecided p1Action p2Action
    have hnext := play_invariant h [(p1Action,p2Action)]
    have hrest := ih hnext
    simp only [play] at hrest
    simp only [List.map_cons,Prod.swap_prod_mk,steps]
    rw [hstep.1,hstep.2,hrest]
    rfl

/-- The engine is fair: in a run from a fresh match in which every pair of actions is
swapped, the same calls are accepted, and each step is the mirror image of the step of
the run. -/
theorem startMatch_fair (gameId : UUID) (matchType : MatchType) (calls : List (Action×Action)) :
    ∃ fresh,startMatch gameId matchType=(fresh,.ok ()) ∧
      steps fresh (calls.map Prod.swap)=(steps fresh calls).map mirrorStep := by
  have hinvariant := startMatch_invariant gameId matchType
  rw [startMatch_eq] at hinvariant
  exact ⟨_,startMatch_eq gameId matchType,steps_mirror hinvariant calls⟩

end Runs

end KiClash.EngineSymmetry
