import KiClash.OutcomeMatrix
import Mathlib.Algebra.Ring.Int.Defs

/-!
# The match engine

GameEngine of app/core/game_engine/engine.py. The source mutates the state it
is given, so every method that can raise is read as a function that returns
the state next to its result: a raise after a partial mutation would be
visible. Rounds and matches close in the stages and in the order of the source.
-/

namespace KiClash.Engine

open EngineTypes OutcomeMatrix

/-- What a successful submit_turn returns besides the state. -/
structure TurnReport where
  /-- The resolved turn. -/
  turnResult : TurnResult
  /-- The round result, if the turn ended the round. -/
  roundResult : Option RoundResult
  /-- The match result, if the turn ended the match. -/
  matchResult : Option MatchResult
  deriving DecidableEq, Repr

/-- _start_new_round; only the validating constructor can raise. -/
def startNewRound (state : GameState) : GameState × Except EngineError Unit :=
  match RoundState.create (state.roundResults.length+1) 0 0 0 with
  | .ok round => ({state with currentRound := some round},.ok ())
  | .error e => (state,.error e)

/-- start_match, with the generated game id as a parameter. -/
def startMatch (gameId : UUID) (matchType : MatchType) : GameState × Except EngineError Unit :=
  startNewRound ⟨gameId,matchType,.inProgress,0,0,none,[]⟩

/-- The winner that _check_round_end determines, if the round has ended: a
decisive outcome first, the ki comparison only at the turn limit. -/
def roundWinner (turnResult : TurnResult) (round : RoundState) : Option RoundWinner :=
  if turnResult.outcome=.p1WinsRound then some .p1
  else if turnResult.outcome=.p2WinsRound then some .p2
  else if round.turnNumber≥turnLimit then
    if round.p1Ki>round.p2Ki then some .p1
    else if round.p2Ki>round.p1Ki then some .p2
    else some .draw
  else none

/-- _check_round_end. -/
def checkRoundEnd (turnResult : TurnResult) (round : RoundState) : Option RoundResult :=
  (roundWinner turnResult round).map fun winner =>
    { roundNumber := round.roundNumber
      winner := winner
      totalTurns := round.turnNumber
      finalP1Ki := round.p1Ki
      finalP2Ki := round.p2Ki }

/-- Turns of the finished rounds: sum(r.total_turns for r in round_results). -/
def finishedTurns (state : GameState) : ℤ := (state.roundResults.map RoundResult.totalTurns).sum

/-- The match result that _check_match_end builds for a winner. -/
def matchResultFor (state : GameState) (winner : RoundWinner) : MatchResult :=
  { gameId := state.gameId
    winner := winner
    roundsWonP1 := state.roundsWonP1
    roundsWonP2 := state.roundsWonP2
    roundResults := state.roundResults
    totalTurns := finishedTurns state }

/-- _check_match_end: two round wins, or three rounds without them. -/
def checkMatchEnd (state : GameState) : Option MatchResult :=
  if state.roundsWonP1≥roundsToWin then some (matchResultFor state .p1)
  else if state.roundsWonP2≥roundsToWin then some (matchResultFor state .p2)
  else if (state.roundResults.length : ℤ)≥3 then some (matchResultFor state .draw)
  else none

/-- The score update of submit_turn for a finished round. -/
def scoreRound (state : GameState) (winner : RoundWinner) : GameState :=
  match winner with
  | .p1 => {state with roundsWonP1 := state.roundsWonP1+1}
  | .p2 => {state with roundsWonP2 := state.roundsWonP2+1}
  | .draw => state

/-- submit_turn from the point where the round has ended: the score, the
result list, the closed round, then either the match end or a new round. -/
def closeRound (state : GameState) (turnResult : TurnResult) (roundResult : RoundResult) :
    GameState × Except EngineError TurnReport :=
  let scored := scoreRound state roundResult.winner
  let closed : GameState :=
    {scored with roundResults := scored.roundResults++[roundResult],currentRound := none}
  match checkMatchEnd closed with
  | some matchResult =>
    ({closed with status := .completed},.ok ⟨turnResult,some roundResult,some matchResult⟩)
  | none =>
    let (opened,result) := startNewRound closed
    (opened,result.map fun _ => ⟨turnResult,some roundResult,none⟩)

/-- The round after the turn: number, both ki values and the history. -/
def advanceRound (round : RoundState) (turnResult : TurnResult) : RoundState :=
  {round with
    turnNumber := turnResult.turnNumber
    p1Ki := turnResult.p1KiAfter
    p2Ki := turnResult.p2KiAfter
    turnHistory := round.turnHistory++[turnResult]}

/-- submit_turn once its four checks have passed. -/
def applyTurn (state : GameState) (round : RoundState) (p1Action p2Action : Action) :
    GameState × Except EngineError TurnReport :=
  let turnResult := resolveTurn (round.turnNumber+1) p1Action p2Action round.p1Ki round.p2Ki
  let advanced := advanceRound round turnResult
  let state := {state with currentRound := some advanced}
  match checkRoundEnd turnResult advanced with
  | none => (state,.ok ⟨turnResult,none,none⟩)
  | some roundResult => closeRound state turnResult roundResult

/-- submit_turn: the status, the open round and both costs are checked, in
this order, before the state is touched. -/
def submitTurn (state : GameState) (p1Action p2Action : Action) :
    GameState × Except EngineError TurnReport :=
  if state.status≠.inProgress then (state,.error (.notInProgress state.status))
  else match state.currentRound with
  | none => (state,.error .noActiveRound)
  | some round =>
    if ¬validateAction p1Action round.p1Ki then
      (state,.error (.p1CannotAfford p1Action round.p1Ki))
    else if ¬validateAction p2Action round.p2Ki then
      (state,.error (.p2CannotAfford p2Action round.p2Ki))
    else applyTurn state round p1Action p2Action

/-- The winner that forfeit reports. -/
def forfeitWinner (forfeitingPlayer : RoundWinner) : RoundWinner :=
  if forfeitingPlayer=.p1 then .p2 else .p1

/-- forfeit: the status is overwritten without a check. -/
def forfeit (state : GameState) (forfeitingPlayer : RoundWinner) : GameState × MatchResult :=
  let openTurns := match state.currentRound with
    | some round => round.turnNumber
    | none => 0
  ({state with status := .abandoned},
    {matchResultFor state (forfeitWinner forfeitingPlayer) with
      totalTurns := finishedTurns state+openTurns})

/-- A fresh match: round 1 is open and nothing has been played. -/
theorem startMatch_eq (gameId : UUID) (matchType : MatchType) :
    startMatch gameId matchType=
      (⟨gameId,matchType,.inProgress,0,0,some ⟨1,0,0,0,[]⟩,[]⟩,.ok ()) := rfl

end KiClash.Engine
