import KiClash.EngineTypes

/-!
# Types of the Go server

The string-backed enumerations, constants and structs of go-server/types.go.
A Go enumeration is a named string, so any text is a value of it; a map
lookup of a missing key gives the zero value. Slices keep the difference
between nil and empty, which encoding/json shows. The counters of a match
never leave the range of a Go int and are read as ℤ.
-/

namespace KiClash.GoTypes

/-- A Go slice; none is nil. -/
abbrev Slice (α : Type) := Option (List α)

/-- The elements that range visits. -/
def Slice.elements {α : Type} (slice : Slice α) : List α := slice.getD []

/-- len(slice). -/
def Slice.length {α : Type} (slice : Slice α) : ℤ := slice.elements.length

/-- append(slice, value); appending to nil allocates. -/
def Slice.append {α : Type} (slice : Slice α) (value : α) : Slice α :=
  some (slice.elements++[value])

/-- Lookup in a map[string]V, with the zero value for a missing key. -/
def mapGet {β : Type} (zero : β) (entries : List (String×β)) (key : String) : β :=
  (entries.lookup key).getD zero

/-- type Action string. -/
abbrev Action := String

/-- type TurnOutcome string. -/
abbrev TurnOutcome := String

/-- type MatchStatus string. -/
abbrev MatchStatus := String

/-- type RoundWinner string. -/
abbrev RoundWinner := String

/-- type MatchType string. -/
abbrev MatchType := String

/-- ActionCharge. -/
def actionCharge : Action := "charge"

/-- ActionBlock. -/
def actionBlock : Action := "block"

/-- ActionAttack. -/
def actionAttack : Action := "attack"

/-- ActionEnergyWave. -/
def actionEnergyWave : Action := "energy_wave"

/-- ActionTeleport. -/
def actionTeleport : Action := "teleport"

/-- OutcomeP1WinsRound. -/
def outcomeP1WinsRound : TurnOutcome := "p1_wins_round"

/-- OutcomeP2WinsRound. -/
def outcomeP2WinsRound : TurnOutcome := "p2_wins_round"

/-- OutcomeClash. -/
def outcomeClash : TurnOutcome := "clash"

/-- OutcomeBlocked. -/
def outcomeBlocked : TurnOutcome := "blocked"

/-- OutcomeDodged. -/
def outcomeDodged : TurnOutcome := "dodged"

/-- OutcomeNeutral. -/
def outcomeNeutral : TurnOutcome := "neutral"

/-- MatchInProgress. -/
def matchInProgress : MatchStatus := "in_progress"

/-- MatchCompleted. -/
def matchCompleted : MatchStatus := "completed"

/-- MatchAbandoned. -/
def matchAbandoned : MatchStatus := "abandoned"

/-- WinnerP1. -/
def winnerP1 : RoundWinner := "p1"

/-- WinnerP2. -/
def winnerP2 : RoundWinner := "p2"

/-- WinnerDraw. -/
def winnerDraw : RoundWinner := "draw"

/-- KiCap. -/
abbrev kiCap : ℤ := 10

/-- TurnLimit. -/
abbrev turnLimit : ℤ := 20

/-- RoundsToWin. -/
abbrev roundsToWin : ℤ := 2

/-- TurnTimeLimitSeconds. -/
abbrev turnTimeLimitSeconds : ℤ := 5

/-- DisconnectTimeoutSec. -/
abbrev disconnectTimeoutSec : ℤ := 30

/-- DefaultTimeoutAction. -/
def defaultTimeoutAction : Action := actionCharge

/-- DefaultMaxWatchRetries. -/
abbrev defaultMaxWatchRetries : ℕ := 3

/-- The map actionKiCost. -/
def actionKiCost : Action → ℤ :=
  mapGet 0 [(actionCharge,0),(actionBlock,0),(actionAttack,1),(actionEnergyWave,3),
    (actionTeleport,1)]

/-- The map actionKiGain. -/
def actionKiGain : Action → ℤ :=
  mapGet 0 [(actionCharge,1),(actionBlock,0),(actionAttack,0),(actionEnergyWave,0),
    (actionTeleport,0)]

/-- One resolved turn. -/
structure TurnResult where
  /-- Position of the turn in its round. -/
  turnNumber : ℤ
  /-- Player 1's action. -/
  p1Action : Action
  /-- Player 2's action. -/
  p2Action : Action
  /-- Outcome from player 1's side. -/
  outcome : TurnOutcome
  /-- Player 1's ki before the turn. -/
  p1KiBefore : ℤ
  /-- Player 2's ki before the turn. -/
  p2KiBefore : ℤ
  /-- Player 1's ki after the turn. -/
  p1KiAfter : ℤ
  /-- Player 2's ki after the turn. -/
  p2KiAfter : ℤ
  deriving DecidableEq, Repr

/-- A round in progress. -/
structure RoundState where
  /-- Position of the round in its match. -/
  roundNumber : ℤ
  /-- Player 1's ki. -/
  p1Ki : ℤ
  /-- Player 2's ki. -/
  p2Ki : ℤ
  /-- Number of resolved turns. -/
  turnNumber : ℤ
  /-- The resolved turns. -/
  turnHistory : Slice TurnResult
  deriving DecidableEq, Repr

/-- A finished round. -/
structure RoundResult where
  /-- Position of the round in its match. -/
  roundNumber : ℤ
  /-- Who won it. -/
  winner : RoundWinner
  /-- Number of turns it took. -/
  totalTurns : ℤ
  /-- Player 1's ki at its end. -/
  finalP1Ki : ℤ
  /-- Player 2's ki at its end. -/
  finalP2Ki : ℤ
  deriving DecidableEq, Repr

/-- A match; the open round is a pointer that may be nil. -/
structure GameState where
  /-- Identifier of the game. -/
  gameId : String
  /-- Kind of match. -/
  matchType : MatchType
  /-- Where the match stands. -/
  status : MatchStatus
  /-- Rounds won by player 1. -/
  roundsWonP1 : ℤ
  /-- Rounds won by player 2. -/
  roundsWonP2 : ℤ
  /-- The open round. -/
  currentRound : Option RoundState
  /-- The finished rounds. -/
  roundResults : Slice RoundResult
  deriving DecidableEq, Repr

/-- Final result of a match. -/
structure MatchResult where
  /-- Identifier of the game. -/
  gameId : String
  /-- Winner of the match. -/
  winner : RoundWinner
  /-- Rounds won by player 1. -/
  roundsWonP1 : ℤ
  /-- Rounds won by player 2. -/
  roundsWonP2 : ℤ
  /-- The finished rounds. -/
  roundResults : Slice RoundResult
  /-- Number of turns of the match. -/
  totalTurns : ℤ
  deriving DecidableEq, Repr

/-- The stored session of one PvP game. -/
structure PvPSession where
  /-- The match. -/
  gameState : GameState
  /-- Identifier of player 1. -/
  player1Id : String
  /-- Identifier of player 2. -/
  player2Id : String
  /-- Players that are present. -/
  connectedPlayers : Slice String
  /-- The first prompt has been sent. -/
  started : Bool
  /-- Player 1's pending action; a nil pointer when there is none. -/
  p1Action : Option Action
  /-- Player 2's pending action. -/
  p2Action : Option Action
  deriving DecidableEq, Repr

/-- HasConnected. -/
def PvPSession.hasConnected (session : PvPSession) (playerId : String) : Bool :=
  session.connectedPlayers.elements.any fun connected => connected=playerId

/-- MarkConnected. -/
def PvPSession.markConnected (session : PvPSession) (playerId : String) : PvPSession :=
  if session.hasConnected playerId then session
  else {session with connectedPlayers := session.connectedPlayers.append playerId}

/-- IsPlayer. -/
def PvPSession.isPlayer (session : PvPSession) (playerId : String) : Bool :=
  playerId=session.player1Id || playerId=session.player2Id

end KiClash.GoTypes
