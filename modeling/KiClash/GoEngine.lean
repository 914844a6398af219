import KiClash.GoTypes

/-!
# The Go match engine

The functions of go-server/engine.go. They mutate the game state behind a
pointer, so the state is returned next to the result; an error is its text.
-/

namespace KiClash.GoEngine

open GoTypes

/-- The map of maps outcomeMatrix. -/
def outcomeMatrix : List (Action×List (Action×TurnOutcome)) :=
  [(actionCharge,
    [(actionCharge,outcomeNeutral),
     (actionBlock,outcomeNeutral),
     (actionAttack,outcomeP2WinsRound),
     (actionEnergyWave,outcomeP2WinsRound),
     (actionTeleport,outcomeNeutral)]),
   (actionBlock,
    [(actionCharge,outcomeNeutral),
     (actionBlock,outcomeNeutral),
     (actionAttack,outcomeBlocked),
     (actionEnergyWave,outcomeP2WinsRound),
     (actionTeleport,outcomeNeutral)]),
   (actionAttack,
    [(actionCharge,outcomeP1WinsRound),
     (actionBlock,outcomeBlocked),
     (actionAttack,outcomeClash),
     (actionEnergyWave,outcomeP2WinsRound),
     (actionTeleport,outcomeDodged)]),
   (actionEnergyWave,
    [(actionCharge,outcomeP1WinsRound),
     (actionBlock,outcomeP1WinsRound),
     (actionAttack,outcomeP1WinsRound),
     (actionEnergyWave,outcomeClash),
     (actionTeleport,outcomeDodged)]),
   (actionTeleport,
    [(actionCharge,outcomeNeutral),
     (actionBlock,outcomeNeutral),
     (actionAttack,outcomeDodged),
     (actionEnergyWave,outcomeDodged),
     (actionTeleport,outcomeNeutral)])]

/-- outcomeMatrix[p1][p2]: a missing row is a nil map, a missing cell is "". -/
def lookupOutcome (p1 p2 : Action) : TurnOutcome :=
  mapGet "" (mapGet [] outcomeMatrix p1) p2

/-- validateAction; an unknown action costs the zero value. -/
def validateAction (action : Action) (ki : ℤ) : Bool := ki≥actionKiCost action

/-- calcKiAfter: the two clamps one after the other. -/
def calcKiAfter (action : Action) (currentKi : ℤ) : ℤ :=
  let ki := currentKi-actionKiCost action+actionKiGain action
  let ki := if ki<0 then 0 else ki
  if ki>kiCap then kiCap else ki

/-- resolveTurn. -/
def resolveTurn (turnNumber : ℤ) (p1 p2 : Action) (p1Ki p2Ki : ℤ) : TurnResult :=
  { turnNumber := turnNumber
    p1Action := p1
    p2Action := p2
    outcome := lookupOutcome p1 p2
    p1KiBefore := p1Ki
    p2KiBefore := p2Ki
    p1KiAfter := calcKiAfter p1 p1Ki
    p2KiAfter := calcKiAfter p2 p2Ki }

/-- startNewRound; the literal is not validated. -/
def startNewRound (gs : GameState) : GameState :=
  let round : RoundState :=
    { roundNumber := gs.roundResults.length+1
      p1Ki := 0
      p2Ki := 0
      turnNumber := 0
      turnHistory := some [] }
  {gs with currentRound := some round}

/-- A fresh match as the engine's own tests build it. -/
def newMatch (gameId : String) (matchType : MatchType) : GameState :=
  startNewRound ⟨gameId,matchType,matchInProgress,0,0,none,some []⟩

/-- What a successful submitTurn returns besides the state. -/
structure TurnReport where
  /-- The resolved turn. -/
  turnResult : TurnResult
  /-- The round result, or nil. -/
  roundResult : Option RoundResult
  /-- The match result, or nil. -/
  matchResult : Option MatchResult
  deriving DecidableEq, Repr

/-- The winner that checkRoundEnd determines; "" when the round goes on. -/
def roundWinner (tr : TurnResult) (rs : RoundState) : RoundWinner :=
  if tr.outcome=outcomeP1WinsRound then winnerP1
  else if tr.outcome=outcomeP2WinsRound then winnerP2
  else if rs.turnNumber≥turnLimit then
    if rs.p1Ki>rs.p2Ki then winnerP1
    else if rs.p2Ki>rs.p1Ki then winnerP2
    else winnerDraw
  else ""

/-- checkRoundEnd. -/
def checkRoundEnd (tr : TurnResult) (rs : RoundState) : Option RoundResult :=
  let winner := roundWinner tr rs
  if winner="" then none
  else some
    { roundNumber := rs.roundNumber
      winner := winner
      totalTurns := rs.turnNumber
      finalP1Ki := rs.p1Ki
      finalP2Ki := rs.p2Ki }

/-- The loop of checkMatchEnd that adds up the turns of the finished rounds. -/
def sumTurns : List RoundResult → ℤ
  | [] => 0
  | result::results => result.totalTurns+sumTurns results

/-- The match result that checkMatchEnd builds for a winner. -/
def matchResultFor (gs : GameState) (winner : RoundWinner) : MatchResult :=
  { gameId := gs.gameId
    winner := winner
    roundsWonP1 := gs.roundsWonP1
    roundsWonP2 := gs.roundsWonP2
    roundResults := gs.roundResults
    totalTurns := sumTurns gs.roundResults.elements }

/-- checkMatchEnd. -/
def checkMatchEnd (gs : GameState) : Option MatchResult :=
  if gs.roundsWonP1≥roundsToWin then some (matchResultFor gs winnerP1)
  else if gs.roundsWonP2≥roundsToWin then some (matchResultFor gs winnerP2)
  else if gs.roundResults.length≥3 then some (matchResultFor gs winnerDraw)
  else none

/-- The switch of submitTurn on the winner of a finished round. -/
def scoreRound (gs : GameState) (winner : RoundWinner) : GameState :=
  if winner=winnerP1 then {gs with roundsWonP1 := gs.roundsWonP1+1}
  else if winner=winnerP2 then {gs with roundsWonP2 := gs.roundsWonP2+1}
  else gs

/-- submitTurn once its four checks have passed. -/
def applyTurn (gs : GameState) (cr : RoundState) (p1 p2 : Action) : GameState×TurnReport :=
  let turnNum := cr.turnNumber+1
  let tr := resolveTurn turnNum p1 p2 cr.p1Ki cr.p2Ki
  let cr : RoundState :=
    {cr with
      turnNumber := turnNum
      p1Ki := tr.p1KiAfter
      p2Ki := tr.p2KiAfter
      turnHistory := cr.turnHistory.append tr}
  let gs := {gs with currentRound := some cr}
  match checkRoundEnd tr cr with
  | none => (gs,⟨tr,none,none⟩)
  | some rr =>
    let gs := scoreRound gs rr.winner
    let gs := {gs with roundResults := gs.roundResults.append rr,currentRound := none}
    match checkMatchEnd gs with
    | some mr => ({gs with status := matchCompleted},⟨tr,some rr,some mr⟩)
    | none => (startNewRound gs,⟨tr,some rr,none⟩)

/-- submitTurn. -/
def submitTurn (gs : GameState) (p1 p2 : Action) : GameState × Except String TurnReport :=
  if gs.status≠matchInProgress then
    (gs,.error ("match not in progress (status="++gs.status++")"))
  else match gs.currentRound with
  | none => (gs,.error "no active round")
  | some cr =>
    if ¬validateAction p1 cr.p1Ki then
      (gs,.error ("p1 cannot afford "++p1++" (ki="++toString cr.p1Ki++")"))
    else if ¬validateAction p2 cr.p2Ki then
      (gs,.error ("p2 cannot afford "++p2++" (ki="++toString cr.p2Ki++")"))
    else
      let (gs,report) := applyTurn gs cr p1 p2
      (gs,.ok report)

end KiClash.GoEngine
