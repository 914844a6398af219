import KiClash.EngineTypes

/-!
# Outcome matrix

The rules of one turn, from app/core/game_engine/outcome_matrix.py: the
five-by-five table of simultaneous actions, affordability and the clamped ki
update.
-/

namespace KiClash.OutcomeMatrix

open EngineTypes

/-- resolve_actions: _MATRIX[p1_action][p2_action]. -/
def resolveActions : Action → Action → TurnOutcome
  | .charge,.charge => .neutral
  | .charge,.block => .neutral
  | .charge,.attack => .p2WinsRound
  | .charge,.energyWave => .p2WinsRound
  | .charge,.teleport => .neutral
  | .block,.charge => .neutral
  | .block,.block => .neutral
  | .block,.attack => .blocked
  | .block,.energyWave => .p2WinsRound
  | .block,.teleport => .neutral
  | .attack,.charge => .p1WinsRound
  | .attack,.block => .blocked
  | .attack,.attack => .clash
  | .attack,.energyWave => .p2WinsRound
  | .attack,.teleport => .dodged
  | .energyWave,.charge => .p1WinsRound
  | .energyWave,.block => .p1WinsRound
  | .energyWave,.attack => .p1WinsRound
  | .energyWave,.energyWave => .clash
  | .energyWave,.teleport => .dodged
  | .teleport,.charge => .neutral
  | .teleport,.block => .neutral
  | .teleport,.attack => .dodged
  | .teleport,.energyWave => .dodged
  | .teleport,.teleport => .neutral

/-- validate_action: the player has the ki that the action costs. -/
def validateAction (action : Action) (playerKi : ℤ) : Bool := playerKi≥actionKiCost action

@[simp] theorem validateAction_iff (action : Action) (ki : ℤ) :
    validateAction action ki=true ↔ actionKiCost action≤ki := by
  simp [validateAction]

/-- calculate_ki_after: cost, then gain, then the clamp to [0, KI_CAP]. The
opponent's action and the outcome are parameters of the source that it
never reads. -/
def calculateKiAfter (action _opponentAction : Action) (currentKi : ℤ)
    (_outcome : TurnOutcome) : ℤ :=
  max 0 (min (currentKi-actionKiCost action+actionKiGain action) kiCap)

/-- The clamp keeps every ki value within its field bounds. -/
theorem calculateKiAfter_bounds (action opponent : Action) (ki : ℤ) (outcome : TurnOutcome) :
    0≤calculateKiAfter action opponent ki outcome ∧
      calculateKiAfter action opponent ki outcome≤kiCap := by
  unfold calculateKiAfter kiCap
  omega

/-- resolve_turn: the outcome and both ki updates of one turn. -/
def resolveTurn (turnNumber : ℤ) (p1Action p2Action : Action) (p1Ki p2Ki : ℤ) : TurnResult :=
  let outcome := resolveActions p1Action p2Action
  { turnNumber := turnNumber
    p1Action := p1Action
    p2Action := p2Action
    outcome := outcome
    p1KiBefore := p1Ki
    p2KiBefore := p2Ki
    p1KiAfter := calculateKiAfter p1Action p2Action p1Ki outcome
    p2KiAfter := calculateKiAfter p2Action p1Action p2Ki outcome }

end KiClash.OutcomeMatrix
