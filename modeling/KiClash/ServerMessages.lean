import KiClash.EngineTypes

/-!
# Messages to the players

The message shapes of app/schemas/ws.py and go-server/messages.go, which both
servers send, and the two functions that put a result into the words of the
player who reads it.
-/

namespace KiClash.ServerMessages

open EngineTypes

/-- A server message with its data fields. -/
inductive ServerMessage
  | waitingForAction (turn timeLimit roundNumber p1Ki p2Ki : ℤ)
  | turnResult (turnNumber : ℤ) (yourAction opponentAction outcome : String)
      (yourKi opponentKi : ℤ)
  | roundResult (roundNumber : ℤ) (winner : String) (totalTurns : ℤ)
  | matchResult (winner : String) (roundsWonP1 roundsWonP2 totalTurns : ℤ)
  | actionConfirmed (turnNumber : ℤ) (action : String)
  | opponentDisconnected (reconnectTimeout : ℤ)
  | opponentReconnected
  | errorMsg (message : String)
  | pong
  deriving DecidableEq, Repr

/-- A match result, whatever it says. -/
def ServerMessage.isMatchResult : ServerMessage → Bool
  | .matchResult .. => true
  | _ => false

/-- A prompt for an action. -/
def ServerMessage.isPrompt : ServerMessage → Bool
  | .waitingForAction .. => true
  | _ => false

/-- _winner_for_player: the winner in the words of the given player. -/
def winnerForPlayer (winner : RoundWinner) (playerId p1Id : UUID) : String :=
  if winner=.draw then "draw"
  else
    let isP1 : Bool := playerId=p1Id
    let winnerIsP1 : Bool := winner=.p1
    if isP1=winnerIsP1 then "you" else "opponent"

/-- The side for which _flip_outcome_for words an outcome. -/
inductive Perspective
  | p1 | p2
  deriving DecidableEq, Repr

/-- _flip_outcome_for: both replacements of the source match a whole text only. -/
def flipOutcomeFor (outcome : TurnOutcome) (perspective : Perspective) : String :=
  match perspective,outcome with
  | .p1,.p1WinsRound => "you_win"
  | .p1,.p2WinsRound => "you_lose"
  | .p2,.p2WinsRound => "you_win"
  | .p2,.p1WinsRound => "you_lose"
  | _,outcome => outcome.value

/-- Player 1 reads a round or match winner from the first side. -/
theorem winnerForPlayer_p1 (winner : RoundWinner) (p1Id : UUID) :
    winnerForPlayer winner p1Id p1Id=
      match winner with
      | .p1 => "you"
      | .p2 => "opponent"
      | .draw => "draw" := by
  cases winner <;> simp [winnerForPlayer]

/-- Player 2 reads it from the other side. -/
theorem winnerForPlayer_p2 (winner : RoundWinner) {p1Id p2Id : UUID} (h : p1Id≠p2Id) :
    winnerForPlayer winner p2Id p1Id=
      match winner with
      | .p1 => "opponent"
      | .p2 => "you"
      | .draw => "draw" := by
  have hne : ¬p2Id=p1Id := fun e => h e.symm
  cases winner <;> simp [winnerForPlayer,hne]

/-- Two match results that do not contradict each other. -/
def Agree (winner₁ winner₂ : String) : Prop :=
  (winner₁="you" ∧ winner₂="opponent") ∨ (winner₁="opponent" ∧ winner₂="you") ∨
    (winner₁="draw" ∧ winner₂="draw")

end KiClash.ServerMessages
