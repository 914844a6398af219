import Mathlib.Data.Int.Notation
import Mathlib.Data.List.Basic

/-!
# Core types of the turn-based engine

The enumerations, records and constants of app/core/game_engine/types.py.
Python integers are unbounded and are read as ℤ. The bounds that pydantic
checks when a record is constructed are kept as a checked constructor, since
the engine constructs a round at run time; assignment is never validated.
-/

namespace KiClash.EngineTypes

/-- A 128-bit identifier, kept as its 32 hexadecimal digits. -/
structure UUID where
  /-- Digits from the most significant one. -/
  digits : List (Fin 16)
  /-- A UUID always has 32 digits. -/
  length_digits : digits.length=32
  deriving DecidableEq, Repr

/-- There are hexadecimal digits. -/
instance sixteen_neZero : @NeZero ℕ Zero.ofOfNat0 16 := ⟨by decide⟩

/-- The UUID whose last digit is given and whose other digits are zero. -/
def UUID.small (digit : Fin 16) : UUID := ⟨List.replicate 31 0++[digit],by simp⟩

/-- The text str(uuid): lower-case digits in groups of 8, 4, 4, 4 and 12. -/
def UUID.text (id : UUID) : String :=
  let digits := id.digits.map fun digit => Nat.digitChar digit.val
  String.ofList (digits.take 8++ '-'::(digits.drop 8).take 4++ '-'::(digits.drop 12).take 4++
    '-'::(digits.drop 16).take 4++ '-'::digits.drop 20)

/-- Player actions of one turn. -/
inductive Action
  | charge | block | attack | energyWave | teleport
  deriving DecidableEq, Repr

/-- The text of an action in messages and in the stored session. -/
def Action.value : Action → String
  | .charge => "charge"
  | .block => "block"
  | .attack => "attack"
  | .energyWave => "energy_wave"
  | .teleport => "teleport"

/-- The enum lookup Action(text), which raises on an unknown text. -/
def Action.ofValue? (text : String) : Option Action :=
  [Action.charge,.block,.attack,.energyWave,.teleport].find? fun action => action.value=text

@[simp] theorem Action.ofValue?_value (action : Action) :
    Action.ofValue? action.value=some action := by
  cases action <;> decide

/-- An accepted text is the text of the action it is read as. -/
theorem Action.value_of_ofValue? {text : String} {action : Action}
    (h : Action.ofValue? text=some action) : action.value=text := by
  simpa using List.find?_some h

/-- ACTION_KI_COST. -/
def actionKiCost : Action → ℤ
  | .charge => 0
  | .block => 0
  | .attack => 1
  | .energyWave => 3
  | .teleport => 1

/-- ACTION_KI_GAIN. -/
def actionKiGain : Action → ℤ
  | .charge => 1
  | .block => 0
  | .attack => 0
  | .energyWave => 0
  | .teleport => 0

/-- KI_CAP. -/
abbrev kiCap : ℤ := 10

/-- TURN_LIMIT. -/
abbrev turnLimit : ℤ := 20

/-- ROUNDS_TO_WIN. -/
abbrev roundsToWin : ℤ := 2

/-- TURN_TIME_LIMIT_SECONDS. -/
abbrev turnTimeLimitSeconds : ℤ := 5

/-- DEFAULT_TIMEOUT_ACTION, the move made for a player who did not act. -/
def defaultTimeoutAction : Action := .charge

/-- How one turn came out, from player 1's side. -/
inductive TurnOutcome
  | p1WinsRound | p2WinsRound | clash | blocked | dodged | neutral
  deriving DecidableEq, Repr

/-- The text of an outcome. -/
def TurnOutcome.value : TurnOutcome → String
  | .p1WinsRound => "p1_wins_round"
  | .p2WinsRound => "p2_wins_round"
  | .clash => "clash"
  | .blocked => "blocked"
  | .dodged => "dodged"
  | .neutral => "neutral"

/-- Against whom a match is played. -/
inductive MatchType
  | aiNovice | aiEasy | aiMedium | aiHard | aiExpert | aiGrandmaster | pvp
  deriving DecidableEq, Repr

/-- The text of a match type. -/
def MatchType.value : MatchType → String
  | .aiNovice => "ai_novice"
  | .aiEasy => "ai_easy"
  | .aiMedium => "ai_medium"
  | .aiHard => "ai_hard"
  | .aiExpert => "ai_expert"
  | .aiGrandmaster => "ai_grandmaster"
  | .pvp => "pvp"

/-- Where a match stands. -/
inductive MatchStatus
  | inProgress | completed | abandoned
  deriving DecidableEq, Repr

/-- The text of a match status. -/
def MatchStatus.value : MatchStatus → String
  | .inProgress => "in_progress"
  | .completed => "completed"
  | .abandoned => "abandoned"

/-- The Python name of a status, which an f-string shows from Python 3.11 on. -/
def MatchStatus.name : MatchStatus → String
  | .inProgress => "MatchStatus.IN_PROGRESS"
  | .completed => "MatchStatus.COMPLETED"
  | .abandoned => "MatchStatus.ABANDONED"

/-- Winner of a round or of a match. -/
inductive RoundWinner
  | p1 | p2 | draw
  deriving DecidableEq, Repr

/-- The text of a winner. -/
def RoundWinner.value : RoundWinner → String
  | .p1 => "p1"
  | .p2 => "p2"
  | .draw => "draw"

/-- One resolved turn. -/
structure TurnResult where
  /-- Position of the turn in its round, from 1. -/
  turnNumber : ℤ
  /-- Player 1's action. -/
  p1Action : Action
  /-- Player 2's action. -/
  p2Action : Action
  /-- Outcome from player 1's side. -/
  outcome : TurnOutcome
  /-- Player 1's ki before the turn. -/
  p1KiBefore : ℤ
  /-- Player 2's ki before the turn. -/
  p2KiBefore : ℤ
  /-- Player 1's ki after the turn. -/
  p1KiAfter : ℤ
  /-- Player 2's ki after the turn. -/
  p2KiAfter : ℤ
  deriving DecidableEq, Repr

/-- A round in progress. -/
structure RoundState where
  /-- Position of the round in its match, from 1. -/
  roundNumber : ℤ
  /-- Player 1's ki. -/
  p1Ki : ℤ
  /-- Player 2's ki. -/
  p2Ki : ℤ
  /-- Number of resolved turns. -/
  turnNumber : ℤ
  /-- The resolved turns, oldest first. -/
  turnHistory : List TurnResult
  deriving DecidableEq, Repr

/-- A finished round. -/
structure RoundResult where
  /-- Position of the round in its match. -/
  roundNumber : ℤ
  /-- Who won it. -/
  winner : RoundWinner
  /-- Number of turns it took. -/
  totalTurns : ℤ
  /-- Player 1's ki at its end. -/
  finalP1Ki : ℤ
  /-- Player 2's ki at its end. -/
  finalP2Ki : ℤ
  deriving DecidableEq, Repr

/-- A best-of-3 match. -/
structure GameState where
  /-- Identifier of the game. -/
  gameId : UUID
  /-- Kind of match. -/
  matchType : MatchType
  /-- Where the match stands. -/
  status : MatchStatus
  /-- Rounds won by player 1. -/
  roundsWonP1 : ℤ
  /-- Rounds won by player 2. -/
  roundsWonP2 : ℤ
  /-- The open round, if any. -/
  currentRound : Option RoundState
  /-- The finished rounds, oldest first. -/
  roundResults : List RoundResult
  deriving DecidableEq, Repr

/-- Final result of a match. -/
structure MatchResult where
  /-- Identifier of the game. -/
  gameId : UUID
  /-- Winner of the match. -/
  winner : RoundWinner
  /-- Rounds won by player 1. -/
  roundsWonP1 : ℤ
  /-- Rounds won by player 2. -/
  roundsWonP2 : ℤ
  /-- The finished rounds. -/
  roundResults : List RoundResult
  /-- Number of turns of the match. -/
  totalTurns : ℤ
  deriving DecidableEq, Repr

/-- Everything the engine raises. A pydantic ValidationError is a ValueError,
as the four explicit raises are. -/
inductive EngineError
  | notInProgress (status : MatchStatus)
  | noActiveRound
  | p1CannotAfford (action : Action) (ki : ℤ)
  | p2CannotAfford (action : Action) (ki : ℤ)
  | invalidRound (roundNumber p1Ki p2Ki turnNumber : ℤ)
  deriving DecidableEq, Repr

/-- The text of an engine error; pydantic's report is reduced to its title. -/
def EngineError.message : EngineError → String
  | .notInProgress status => "Match is not in progress (status="++status.name++")"
  | .noActiveRound => "No active round"
  | .p1CannotAfford action ki => "P1 cannot afford "++action.value++" (ki="++toString ki++")"
  | .p2CannotAfford action ki => "P2 cannot afford "++action.value++" (ki="++toString ki++")"
  | .invalidRound .. => "validation error for RoundState"

/-- The field constraints of RoundState: ge=1, le=3 on the round number,
ge=0, le=KI_CAP on both ki values and ge=0 on the turn number. -/
def RoundState.Valid (round : RoundState) : Prop :=
  (1≤round.roundNumber ∧ round.roundNumber≤3) ∧ (0≤round.p1Ki ∧ round.p1Ki≤kiCap) ∧
    (0≤round.p2Ki ∧ round.p2Ki≤kiCap) ∧ 0≤round.turnNumber

instance (round : RoundState) : Decidable round.Valid :=
  inferInstanceAs (Decidable ((_ ∧ _) ∧ (_ ∧ _) ∧ (_ ∧ _) ∧ _))

/-- The validating constructor RoundState(...), with an empty history. -/
def RoundState.create (roundNumber p1Ki p2Ki turnNumber : ℤ) : Except EngineError RoundState :=
  let round : RoundState := ⟨roundNumber,p1Ki,p2Ki,turnNumber,[]⟩
  if round.Valid then .ok round else .error (.invalidRound roundNumber p1Ki p2Ki turnNumber)

end KiClash.EngineTypes
