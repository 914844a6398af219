import KiClash.RoundGames

/-!
# The exploitation layer

exploit.py of the grandmaster AI, the pipeline final_distribution of policy.py
and the lookups of table.py that they use. The round table of the current match
state and the bias score, which the source computes from an entropy, are
parameters; everything else is computed exactly.
-/

namespace KiClash.Exploitation

open EngineTypes Transition Solver SolvedTables

/-- _clamp_turn. -/
def clampTurn (turn : ℤ) : ℤ := if turn<1 then 1 else if turn>turnLimit then turnLimit else turn

/-- _clamp_ki. -/
def clampKi (ki : ℤ) : ℤ := if ki<0 then 0 else if ki>kiCap then kiCap else ki

/-- get_sigma, for the round table of the match state. -/
def getSigma (table : RoundTable) (myKi oppKi turn : ℤ) : List ℚ :=
  table.sigma (clampKi myKi) (clampKi oppKi) (clampTurn turn-1)

/-- get_value. -/
def getValue (table : RoundTable) (myKi oppKi turn : ℤ) : ℚ :=
  table.v (clampKi myKi) (clampKi oppKi) (clampTurn turn-1)

/-- Recency-weighted frequencies of the opponent's actions in some turns, latest
first, and the total weight; only affordable actions are counted. -/
def recencyWeights (affordable : List Action) (turns : List TurnResult) : (Action → ℚ)×ℚ :=
  turns.zipIdx.foldl (fun counted entry =>
    let weight : ℚ := (4/5)^entry.2
    let action := entry.1.p1Action
    (if action∈affordable then Function.update counted.1 action (counted.1 action+weight)
      else counted.1,counted.2+weight)) (fun _ => 0,0)

/-- model_opponent with its default parameters: window 10, decay 0.8, blend 0.7,
cond_min 1 and cond_confidence_at 3. -/
def modelOpponent (history : List TurnResult) (oppKi : ℤ) : Action → ℚ :=
  let affordable := affordableActions oppKi
  let prior : ℚ := 1/affordable.length
  if history=[] then fun action => if action∈affordable then prior else 0 else
    let dist := fun (freq : (Action → ℚ)×ℚ) (action : Action) =>
      if freq.2≤0 then prior else freq.1 action/freq.2
    let marginal := dist (recencyWeights affordable (history.drop (history.length-10)).reverse)
    let matching := history.reverse.filter fun turn => turn.p1KiBefore=oppKi
    let conditional := recencyWeights affordable matching
    let observed := fun action =>
      if matching.length≥1 ∧ conditional.2>0 then
        let conf : ℚ := min 1 ((matching.length-1+1)/2)
        conf*dist conditional action+(1-conf)*marginal action
      else marginal action
    let probs := fun action => 7/10*observed action+(1-7/10)*prior
    let total := (affordable.map probs).sum
    fun action => if action∈affordable then probs action/total else 0

/-- ev in best_response: the expected payoff of an action against the model. -/
def expectedPayoff (oppProbs : Action → ℚ) (table : RoundTable) (myKi oppKi turn : ℤ) (lam : ℚ)
    (action : Action) : ℚ :=
  (((affordableActions oppKi).filter fun opp => ¬oppProbs opp≤0).map fun opp =>
    oppProbs opp*stagePayoff action opp myKi oppKi turn lam (getValue table)).sum

/-- best_response. -/
def bestResponse (oppProbs : Action → ℚ) (table : RoundTable) (myKi oppKi turn : ℤ) (lam : ℚ) :
    List ℚ :=
  let evs := (affordableActions myKi).map fun action =>
    (action,expectedPayoff oppProbs table myKi oppKi turn lam action)
  let bestEv := (evs.map Prod.snd).max?.getD 0
  let winners := (evs.filter fun ev => ev.2≥bestEv-1/10^9).map Prod.fst
  let share : ℚ := 1/winners.length
  storeRow winners (winners.map fun _ => share) (List.replicate actionOrder.length 0)

/-- blend. -/
def blend (gto br : List ℚ) (eps : ℚ) : List ℚ :=
  List.zipWith (fun g b => (1-eps)*g+eps*b) gto br

/-- adaptive_eps with its default parameters: base_eps 0.05, bias_gain 0.8 and
eps_max 0.85. -/
def adaptiveEps (history : List TurnResult) (gameState : GameState) (bias : ℚ) : ℚ :=
  let confidence : ℚ := min 1 (history.length/3)
  let eps : ℚ := 5/100+8/10*bias*confidence
  let myRounds := gameState.roundsWonP2
  let oppRounds := gameState.roundsWonP1
  let eps := if myRounds<oppRounds then eps+1/10
    else if myRounds>oppRounds then eps-1/10 else eps
  let eps := if myRounds≥roundsToWin-1 ∨ oppRounds≥roundsToWin-1 then eps-5/100 else eps
  if eps<0 then 0 else if eps>85/100 then 85/100 else eps

/-- add_noise with its default floor of 0.02. -/
def addNoise (dist : List ℚ) (affordable : List Action) : List ℚ :=
  let floor : ℚ := 2/100
  if affordable.length=0 then dist else
    let floorTotal := min (floor*affordable.length) (1/2)
    let out := affordable.foldl (fun out action => out.modify (actionIndex action) (·+floor))
      (dist.map fun p => (1-floorTotal)*p)
    let total := out.sum
    if total≤0 then
      storeRow affordable (affordable.map fun _ => 1/(affordable.length : ℚ))
        (List.replicate actionOrder.length 0)
    else out.map fun p => p/total

/-- exploitability_bound. -/
def exploitabilityBound (eps : ℚ) : ℚ := eps

/-- final_distribution. -/
def finalDistribution (table : RoundTable) (myKi oppKi turn : ℤ) (history : List TurnResult)
    (gameState : GameState) (bias : ℚ) : List ℚ :=
  let gto := getSigma table myKi oppKi turn
  let oppProbs := modelOpponent history oppKi
  let eps := adaptiveEps history gameState bias
  let br := bestResponse oppProbs table myKi oppKi turn table.lam
  addNoise (blend gto br eps) (affordableActions myKi)

end KiClash.Exploitation
