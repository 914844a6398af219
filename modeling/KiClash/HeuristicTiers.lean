import KiClash.EngineRuns
import KiClash.GameService
import KiClash.Transition
import KiClash.WeightedChoice
import Mathlib.Data.Finset.Max

/-!
# The heuristic tiers

The opponents of app/core/ai_opponent other than the grandmaster: novice, easy, medium,
hard and expert. The numbers are floating-point numbers, and the random draws are an
argument. A dictionary of the source is the list of its entries in the order of insertion.
-/

namespace KiClash.HeuristicTiers

open EngineTypes OutcomeMatrix Engine EngineRuns Transition WeightedChoice

section Tables

/-- AIOpponent. -/
abbrev AIOpponent := GameState → List TurnResult → Draws Action

/-- Numbers by action, in the order of insertion. -/
abbrev Weights := List (Action×ℚ)

/-- get, with a default. -/
def Weights.get (w : Weights) (action : Action) : ℚ :=
  ((w.find? fun entry => entry.1=action).map Prod.snd).getD 0

/-- An assignment: the place of a key that is there stays. -/
def Weights.set (w : Weights) (action : Action) (value : ℚ) : Weights :=
  if action∈w.map Prod.fst then
    w.map fun entry => if entry.1=action then (action,value) else entry
  else w++[(action,value)]

/-- current_round.p2_ki if current_round else 0. -/
def aiKiOf (gameState : GameState) : ℤ :=
  match gameState.currentRound with
  | some round => round.p2Ki
  | none => 0

/-- current_round.p1_ki if current_round else 0. -/
def oppKiOf (gameState : GameState) : ℤ :=
  match gameState.currentRound with
  | some round => round.p1Ki
  | none => 0

variable (floats : Floats)

/-- An entry is increased. -/
def Weights.add (w : Weights) (action : Action) (shift : ℚ) : Weights :=
  w.set action (floats.round (w.get action+shift))

/-- A condition and random.random() below a number; nothing is drawn without it. -/
def drawnBelow (asked : Prop) [Decidable asked] (bound : ℚ) : Draws Bool :=
  if asked then random >>= fun draw => pure (decide (draw<bound)) else pure false

/-- _random_affordable, with the weights of a tier. -/
def randomAffordable (weights : Action → ℚ) (aiKi : ℤ) : Draws Action := do
  let affordable := affordableActions aiKi
  let weights := affordable.map weights
  let total := floats.sum weights
  let shares ← normalized floats weights total
  choices floats affordable shares

end Tables

section Novice

variable (floats : Floats)

/-- _SIMPLE_COUNTER. -/
def simpleCounter : Action → Action
  | .charge => .attack
  | .block => .charge
  | .attack => .block
  | .energyWave => .teleport
  | .teleport => .charge

/-- _RANDOM_WEIGHTS of novice.py. -/
def noviceWeights : Action → ℚ
  | .charge => floats.round 0.35
  | .block => floats.round 0.25
  | .attack => floats.round 0.25
  | .energyWave => floats.round 0.05
  | .teleport => floats.round 0.10

/-- NoviceAI. -/
def noviceAI : AIOpponent := fun gameState history => do
  let aiKi := aiKiOf gameState
  match history.getLast? with
  | none => randomAffordable floats (noviceWeights floats) aiKi
  | some last =>
    let draw ← random
    let counter := simpleCounter last.p1Action
    if draw<floats.round 0.50 ∧ actionKiCost counter≤aiKi then pure counter
    else randomAffordable floats (noviceWeights floats) aiKi

end Novice

section Easy

variable (floats : Floats)

/-- _WEIGHTS of easy.py. -/
def easyWeights : Action → ℚ
  | .charge => floats.round 0.45
  | .block => floats.round 0.20
  | .attack => floats.round 0.20
  | .energyWave => floats.round 0.05
  | .teleport => floats.round 0.10

/-- EasyAI. -/
def easyAI : AIOpponent := fun gameState _ =>
  randomAffordable floats (easyWeights floats) (aiKiOf gameState)

end Easy

section Medium

variable (floats : Floats)

/-- _COUNTER. -/
def counterOf : Action → Action
  | .charge => .attack
  | .block => .energyWave
  | .attack => .block
  | .energyWave => .teleport
  | .teleport => .charge

/-- _COUNTER_FALLBACK. -/
def counterFallback : Action → List Action
  | .charge => [.attack,.charge]
  | .block => [.charge,.attack]
  | .attack => [.block,.teleport]
  | .energyWave => [.teleport,.block]
  | .teleport => [.charge,.block]

/-- _RANDOM_WEIGHTS of medium.py. -/
def mediumWeights : Action → ℚ
  | .charge => floats.round 0.30
  | .block => floats.round 0.20
  | .attack => floats.round 0.30
  | .energyWave => floats.round 0.10
  | .teleport => floats.round 0.10

/-- Counter(actions).most_common(1): the first action with the highest count. -/
def mostCommon (actions : List Action) : Option Action :=
  let counts := actions.eraseDups
  counts.find? fun action => counts.all fun other => actions.count other≤actions.count action

/-- MediumAI, from the frequency analysis on. -/
def counterFrequent (aiKi : ℤ) (history : List TurnResult) : Draws Action :=
  let recentP1 := (history.drop (history.length-5)).map TurnResult.p1Action
  match mostCommon recentP1 with
  | none => raise .indexError
  | some common =>
    let counter := counterOf common
    if actionKiCost counter≤aiKi then pure counter
    else
      match (counterFallback common).find? fun fallback => actionKiCost fallback≤aiKi with
      | some fallback => pure fallback
      | none => pure .charge

/-- The dodge of MediumAI and what follows it. -/
def anticipate (aiKi oppKi : ℤ) (history : List TurnResult) : Draws Action := do
  let dodges ← drawnBelow (oppKi≥3) (floats.round 0.25)
  if dodges ∧ actionKiCost .teleport≤aiKi then pure .teleport
  else if history=[] then randomAffordable floats (mediumWeights floats) aiKi
  else counterFrequent aiKi history

/-- MediumAI. -/
def mediumAI : AIOpponent := fun gameState history => do
  let aiKi := aiKiOf gameState
  let oppKi := oppKiOf gameState
  let noise ← random
  if noise<floats.round 0.20 then randomAffordable floats (mediumWeights floats) aiKi
  else
    let bursts ← drawnBelow (aiKi≥6) (floats.round 0.45)
    if bursts then pure .energyWave
    else anticipate floats aiKi oppKi history

end Medium

section Hard

variable (floats : Floats)

/-- _NASH_WEIGHTS. -/
def nashWeights : Weights :=
  [(.charge,floats.round 0.28),(.block,floats.round 0.15),(.attack,floats.round 0.32),
    (.energyWave,floats.round 0.10),(.teleport,floats.round 0.15)]

/-- _EXPLOIT. -/
def exploit : Action → List (Action×ℚ)
  | .charge => [(.attack,floats.round 0.25),(.energyWave,floats.round 0.15)]
  | .block => [(.energyWave,floats.round 0.20),(.charge,floats.round 0.15)]
  | .attack => [(.block,floats.round 0.20),(.teleport,floats.round 0.15)]
  | .energyWave => [(.teleport,floats.round 0.30)]
  | .teleport => [(.charge,floats.round 0.15),(.attack,floats.round 0.15)]

/-- _adjust_for_ki. -/
def adjustForKi (weights : Weights) (aiKi oppKi : ℤ) : Weights :=
  if aiKi=0 then [(.charge,floats.round 0.65),(.block,floats.round 0.35)]
  else
    let w := weights
    let w := if aiKi≥5 then w.add floats .energyWave (floats.round 0.20) else w
    let w := if oppKi=0 then w.add floats .attack (floats.round 0.20) else w
    if oppKi≥3 then w.add floats .teleport (floats.round 0.12) else w

/-- _adjust_for_round_pressure. -/
def adjustForRoundPressure (weights : Weights) (gameState : GameState) : Weights :=
  let aiRounds := gameState.roundsWonP2
  let oppRounds := gameState.roundsWonP1
  if aiRounds<oppRounds then
    (weights.add floats .attack (floats.round 0.10)).add floats .energyWave (floats.round 0.10)
  else if aiRounds>oppRounds then
    (weights.add floats .block (floats.round 0.08)).add floats .teleport (floats.round 0.08)
  else weights

/-- The recency-weighted counts of some turns, the latest first, and the total weight. -/
def weightedCounts (decay : ℚ) (counted : Action → Prop) [DecidablePred counted]
    (turns : List TurnResult) : Weights×ℚ :=
  turns.zipIdx.foldl (fun found entry =>
    let weight := floats.pow decay entry.2
    let action := entry.1.p1Action
    (if counted action then found.1.add floats action weight else found.1,
      floats.round (found.2+weight))) ([],0)

/-- The shifts against one action of the opponent. -/
def shifted (w : Weights) (action : Action) (freq : ℚ) : Weights :=
  (exploit floats action).foldl (fun w shift =>
    w.add floats shift.1 (floats.round (floats.round (shift.2*floats.round 0.6)*freq))) w

/-- _adapt_weights. -/
def adaptWeights (baseWeights : Weights) (history : List TurnResult) : Except Exc Weights :=
  let recent := (history.drop (history.length-7)).reverse
  let (weightedFreq,totalWeight) :=
    weightedCounts floats (floats.round 0.82) (fun _ => True) recent
  weightedFreq.foldlM (fun w entry => do
    let freq ← floats.divide entry.2 totalWeight
    pure (if freq>floats.round 0.25 then shifted floats w entry.1 freq else w)) baseWeights

/-- HardAI, from the choice of the affordable actions on. -/
def chooseWeighted (weights : Weights) (aiKi : ℤ) : Draws Action := do
  let affordable := affordableActions aiKi
  let finalWeights := affordable.map fun action => max (weights.get action) 0
  let total := floats.sum finalWeights
  if total=0 then pure .charge
  else
    let shares ← normalized floats finalWeights total
    choices floats affordable shares

/-- HardAI. -/
def hardAI : AIOpponent := fun gameState history => do
  let aiKi := aiKiOf gameState
  let oppKi := oppKiOf gameState
  let weights := adjustForKi floats (nashWeights floats) aiKi oppKi
  let weights := adjustForRoundPressure floats weights gameState
  if history.length≥3 then
    let weights ← adaptWeights floats weights history
    chooseWeighted floats weights aiKi
  else chooseWeighted floats weights aiKi

end Hard

section Expert

variable (floats : Floats)

/-- _EV. -/
def ev : Action → Action → ℚ
  | .charge,.charge => 0.5
  | .charge,.block => 0.5
  | .charge,.attack => -20
  | .charge,.energyWave => -20
  | .charge,.teleport => 1
  | .block,.charge => 0
  | .block,.block => 0
  | .block,.attack => 3
  | .block,.energyWave => -20
  | .block,.teleport => 0
  | .attack,.charge => 20
  | .attack,.block => -2
  | .attack,.attack => -2
  | .attack,.energyWave => -21
  | .attack,.teleport => -2
  | .energyWave,.charge => 20
  | .energyWave,.block => 20
  | .energyWave,.attack => 20
  | .energyWave,.energyWave => -6
  | .energyWave,.teleport => -6
  | .teleport,.charge => -1
  | .teleport,.block => -1
  | .teleport,.attack => 3
  | .teleport,.energyWave => 9
  | .teleport,.teleport => -1

/-- The loop of _model_opponent that blends the counts into the probabilities. -/
def blended (affordable : List Action) (prior totalW : ℚ) (freq probs : Weights) :
    Except Exc Weights :=
  affordable.foldlM (fun probs action => do
    let histProb ← floats.divide (freq.get action) totalW
    pure (probs.set action (floats.round (floats.round (floats.round 0.70*histProb)+
      floats.round (floats.round (1-floats.round 0.70)*prior))))) probs

/-- The probabilities divided by their total. -/
def renormalized (probs : Weights) : Except Exc Weights :=
  let total := floats.sum (probs.map Prod.snd)
  probs.mapM fun entry => do pure (entry.1,← floats.divide entry.2 total)

/-- _model_opponent. -/
def modelOpponent (history : List TurnResult) (oppKi : ℤ) : Except Exc Weights := do
  let affordable := affordableActions oppKi
  let prior ← floats.divide 1 affordable.length
  let probs : Weights := affordable.map fun action => (action,prior)
  if history=[] then pure probs
  else
    let recent := (history.drop (history.length-10)).reverse
    let (freq,totalW) := weightedCounts floats (floats.round 0.80) (·∈affordable) recent
    if totalW=0 then pure probs
    else
      let probs ← blended floats affordable prior totalW freq probs
      renormalized floats probs

/-- _pressure_bonus; its sums are exact. -/
def pressureBonus (action : Action) (aiKi oppKi : ℤ) (gameState : GameState) : ℚ :=
  let aiRounds := gameState.roundsWonP2
  let oppRounds := gameState.roundsWonP1
  let bonus : ℚ :=
    if aiRounds<oppRounds then if action=.attack ∨ action=.energyWave then 1.5 else 0
    else if aiRounds>oppRounds then if action=.block ∨ action=.charge then 0.5 else 0
    else 0
  let bonus := if oppKi=0 ∧ action=.attack then bonus+2 else bonus
  if aiKi≥5 ∧ action=.energyWave then bonus+1 else bonus

/-- math.exp, which raises when it overflows. -/
def mathExp (x : ℚ) : Except Exc ℚ :=
  match floats.exp x with
  | some y => .ok y
  | none => .error .overflowError

/-- exp_evs, the weights of a softmax. -/
def exponentials (evs : Weights) (maxEv : ℚ) : Except Exc (List ℚ) :=
  evs.mapM fun entry =>
    mathExp floats (floats.round (floats.round 0.15*floats.round (entry.2-maxEv)))

/-- _softmax_sample. -/
def softmaxSample (evs : Weights) : Draws Action := do
  match (evs.map Prod.snd).max? with
  | none => raise .valueError
  | some maxEv =>
    let expEvs ← exponentials floats evs maxEv
    let total := floats.sum expEvs
    let actions := evs.map Prod.fst
    let shares ← normalized floats expEvs total
    choices floats actions shares

/-- ExpertAI. -/
def expertAI : AIOpponent := fun gameState history => do
  let aiKi := aiKiOf gameState
  let oppKi := oppKiOf gameState
  let oppProbs ← modelOpponent floats history oppKi
  let affordable := affordableActions aiKi
  let evs : Weights := affordable.map fun action =>
    (action,floats.round (floats.sum (oppProbs.map fun entry =>
      floats.round (entry.2*ev action entry.1))+pressureBonus action aiKi oppKi gameState))
  softmaxSample floats evs

end Expert

/-- create_ai_opponent, with the grandmaster as a parameter. -/
def createAiOpponent (floats : Floats) (grandmaster : AIOpponent) :
    GameService.Difficulty → AIOpponent
  | .novice => noviceAI floats
  | .easy => easyAI floats
  | .medium => mediumAI floats
  | .hard => hardAI floats
  | .expert => expertAI floats
  | .grandmaster => grandmaster

section Choosing

variable {floats : Floats}

/-- An action that the ki pays for. -/
def Affords (ki : ℤ) (action : Action) : Prop := actionKiCost action≤ki

theorem affordable_length (ki : ℤ) : (affordableActions ki).length≤5 :=
  List.length_filter_le _ _

/-- Charging is free. -/
theorem charge_affordable {ki : ℤ} (h : 0≤ki) : Action.charge∈affordableActions ki :=
  mem_affordableActions.mpr h

/-- A quotient by a positive number. -/
theorem divide_pos (floats : Floats) (x : ℚ) {y : ℚ} (h : 0<y) :
    floats.divide x y=.ok (floats.round (x/y)) := if_neg h.ne'

/-- A number is drawn only under its condition. -/
theorem returns_drawnBelow (asked : Prop) [Decidable asked] (bound : ℚ) :
    Returns (drawnBelow asked bound) fun drawn => drawn=true → asked := by
  unfold drawnBelow
  split
  · next h => exact returns_random_bind fun draw => returns_pure fun _ => h
  · exact returns_pure fun h => nomatch h

/-- A random affordable action, if the weights are positive. -/
theorem returns_randomAffordable {weights : Action → ℚ} {aiKi : ℤ} (hki : 0≤aiKi)
    (hpos : ∀ action,0<weights action) :
    Returns (randomAffordable floats weights aiKi) (Affords aiKi) := by
  have hnonneg : ∀ w∈(affordableActions aiKi).map weights,0≤w := by
    intro w hw
    obtain ⟨action,-,rfl⟩ := List.mem_map.mp hw
    exact (hpos action).le
  have hcharge : weights .charge∈(affordableActions aiKi).map weights :=
    List.mem_map_of_mem (charge_affordable hki)
  unfold randomAffordable
  refine returns_normalized (List.length_map _) (affordable_length aiKi) hnonneg
    ⟨_,hcharge,hpos .charge⟩ fun shares hshares => ?_
  exact hshares.weaken fun action haction => mem_affordableActions.mp haction

theorem noviceWeights_pos (action : Action) : 0<noviceWeights floats action := by
  cases action <;> exact floats.pos (by norm_num)

theorem easyWeights_pos (action : Action) : 0<easyWeights floats action := by
  cases action <;> exact floats.pos (by norm_num)

theorem mediumWeights_pos (action : Action) : 0< mediumWeights floats action := by
  cases action <;> exact floats.pos (by norm_num)

theorem returns_noviceAI {gameState : GameState} (history : List TurnResult)
    (hki : 0≤aiKiOf gameState) :
    Returns (noviceAI floats gameState history) (Affords (aiKiOf gameState)) := by
  have hrandom : Returns (randomAffordable floats (noviceWeights floats) (aiKiOf gameState))
      (Affords (aiKiOf gameState)) := returns_randomAffordable hki noviceWeights_pos
  unfold noviceAI
  dsimp only
  split
  · exact hrandom
  · refine returns_random_bind fun draw => ?_
    split
    · next h => exact returns_pure h.2
    · exact hrandom

theorem returns_easyAI {gameState : GameState} (history : List TurnResult)
    (hki : 0≤aiKiOf gameState) :
    Returns (easyAI floats gameState history) (Affords (aiKiOf gameState)) :=
  returns_randomAffordable hki easyWeights_pos

/-- Some action is the most common one. -/
theorem mostCommon_isSome {actions : List Action} (h : actions≠[]) :
    ∃ action,mostCommon actions=some action := by
  have hne : actions.toFinset.Nonempty := List.toFinset_nonempty_iff _ |>.mpr h
  obtain ⟨action,hmem,hmax⟩ := actions.toFinset.exists_max_image actions.count hne
  have hsome : (mostCommon actions).isSome := by
    unfold mostCommon
    rw [List.find?_isSome]
    refine ⟨action,List.mem_eraseDups.mpr (List.mem_toFinset.mp hmem),?_⟩
    rw [List.all_eq_true]
    intro other hother
    have hle := hmax other (List.mem_toFinset.mpr (List.mem_eraseDups.mp hother))
    exact decide_eq_true hle
  exact Option.isSome_iff_exists.mp hsome

theorem returns_counterFrequent {aiKi : ℤ} {history : List TurnResult} (hki : 0≤aiKi)
    (h : history≠[]) : Returns (counterFrequent aiKi history) (Affords aiKi) := by
  have hrecent : (history.drop (history.length-5)).map TurnResult.p1Action≠[] := by
    have hpos := List.length_pos_of_ne_nil h
    intro hnil
    have hlength := congrArg List.length hnil
    rw [List.length_map,List.length_drop,List.length_nil] at hlength
    omega
  obtain ⟨common,hcommon⟩ := mostCommon_isSome hrecent
  unfold counterFrequent
  dsimp only
  rw [hcommon]
  dsimp only
  split
  · next hcounter => exact returns_pure hcounter
  · split
    · next fallback hfallback =>
      have hcost := List.find?_some hfallback
      exact returns_pure (show actionKiCost fallback≤aiKi from of_decide_eq_true hcost)
    · exact returns_pure hki

theorem returns_anticipate {aiKi : ℤ} (oppKi : ℤ) (history : List TurnResult) (hki : 0≤aiKi) :
    Returns (anticipate floats aiKi oppKi history) (Affords aiKi) := by
  unfold anticipate
  refine (returns_drawnBelow _ _).bind fun dodges _ => ?_
  split
  · next h => exact returns_pure h.2
  · split
    · exact returns_randomAffordable hki mediumWeights_pos
    · next h => exact returns_counterFrequent hki h

theorem returns_mediumAI {gameState : GameState} (history : List TurnResult)
    (hki : 0≤aiKiOf gameState) :
    Returns (mediumAI floats gameState history) (Affords (aiKiOf gameState)) := by
  unfold mediumAI
  refine returns_random_bind fun noise => ?_
  split
  · exact returns_randomAffordable hki mediumWeights_pos
  · refine (returns_drawnBelow _ _).bind fun bursts hbursts => ?_
    split
    · next h =>
      have hsix : 6≤aiKiOf gameState := hbursts h
      have hcost : actionKiCost .energyWave≤aiKiOf gameState := le_trans (by decide) hsix
      exact returns_pure hcost
    · exact returns_anticipate _ history hki

end Choosing

section Weighing

variable {floats : Floats}

/-- No entry is negative. -/
def Weights.Nonneg (w : Weights) : Prop := ∀ entry∈w,0≤entry.2

/-- Every entry is positive, and there is one. -/
def Weights.Positive (w : Weights) : Prop := w≠[] ∧ ∀ entry∈w,0<entry.2

theorem Weights.Nonneg.get {w : Weights} (h : w.Nonneg) (action : Action) : 0≤w.get action := by
  unfold Weights.get
  cases hfind : w.find? fun entry => entry.1=action with
  | none => exact le_rfl
  | some entry => exact h entry (List.mem_of_find?_eq_some hfind)

/-- The entries after an assignment. -/
theorem Weights.mem_set {w : Weights} {action : Action} {value : ℚ} {entry : Action×ℚ}
    (h : entry∈w.set action value) : entry∈w ∨ entry=(action,value) := by
  unfold Weights.set at h
  split at h
  · obtain ⟨entry',hentry',rfl⟩ := List.mem_map.mp h
    split
    · exact .inr rfl
    · exact .inl hentry'
  · obtain hmem | hmem := List.mem_append.mp h
    · exact .inl hmem
    · exact .inr (List.mem_singleton.mp hmem)

theorem Weights.Nonneg.add {w : Weights} (h : w.Nonneg) (action : Action) {shift : ℚ}
    (hshift : 0≤ shift) : (w.add floats action shift).Nonneg := by
  intro entry hentry
  obtain hmem | rfl := Weights.mem_set hentry
  · exact h entry hmem
  · exact floats.nonneg (add_nonneg (h.get action) hshift)

theorem Weights.Positive.set {w : Weights} (h : w.Positive) (action : Action) {value : ℚ}
    (hvalue : 0<value) : (w.set action value).Positive := by
  refine ⟨fun hnil => ?_,fun entry hentry => ?_⟩
  · unfold Weights.set at hnil
    split at hnil
    · exact h.1 (List.map_eq_nil_iff.mp hnil)
    · exact List.append_ne_nil_of_right_ne_nil w (by simp) hnil
  · obtain hmem | rfl := Weights.mem_set hentry
    · exact h.2 entry hmem
    · exact hvalue

/-- One turn is counted: the counts stay nonnegative, and a total that is at least 1 stays
so. -/
theorem weightedCounts_from {decay : ℚ} (hdecay : 0≤decay) (counted : Action → Prop)
    [DecidablePred counted] (turns : List TurnResult) (start : ℕ) {found : Weights×ℚ}
    (hnonneg : found.1.Nonneg) (htotal : 1≤found.2) :
    let after := (turns.zipIdx start).foldl (fun found entry =>
      let weight := floats.pow decay entry.2
      let action := entry.1.p1Action
      (if counted action then found.1.add floats action weight else found.1,
        floats.round (found.2+weight))) found
    after.1.Nonneg ∧ 1≤after.2 := by
  induction turns generalizing start found with
  | nil => exact ⟨hnonneg,htotal⟩
  | cons turn turns ih =>
    have hweight := floats.pow_nonneg decay start hdecay
    have hround : 1≤floats.round (found.2+floats.pow decay start) := by
      have hge := @Floats.ge_dyadic floats 1 0 (found.2+floats.pow decay start) (by norm_num)
        (by norm_num) (by norm_num; linarith)
      simpa using hge
    rw [List.zipIdx_cons,List.foldl_cons]
    refine ih (start+1) ?_ hround
    dsimp only
    split
    · exact hnonneg.add _ hweight
    · exact hnonneg

/-- Of the turns of a nonempty history the counts are nonnegative and the total weight is at
least that of the latest turn. -/
theorem weightedCounts_bounds {decay : ℚ} (hdecay : 0≤decay) (counted : Action → Prop)
    [DecidablePred counted] {turns : List TurnResult} (h : turns≠[]) :
    (weightedCounts floats decay counted turns).1.Nonneg ∧
      1≤(weightedCounts floats decay counted turns).2 := by
  cases turns with
  | nil => exact absurd rfl h
  | cons turn turns =>
    have hone : floats.round (0+floats.pow decay 0)=1 := by
      have hdyadic := floats.dyadic 1 0 (by norm_num) (by norm_num)
      rw [floats.pow_zero,zero_add]
      simpa using hdyadic
    unfold weightedCounts
    rw [List.zipIdx_cons,List.foldl_cons]
    refine weightedCounts_from hdecay counted turns 1 ?_ hone.ge
    dsimp only
    split
    · refine Weights.Nonneg.add (fun _ hentry => absurd hentry List.not_mem_nil) _ ?_
      rw [floats.pow_zero]
      exact zero_le_one
    · exact fun _ hentry => absurd hentry List.not_mem_nil

/-- The last turns of a nonempty history, the latest first. -/
theorem recent_ne_nil {history : List TurnResult} (h : history≠[]) (n : ℕ) (hn : 0<n) :
    (history.drop (history.length-n)).reverse≠[] := by
  have hpos := List.length_pos_of_ne_nil h
  intro hnil
  have hlength := congrArg List.length hnil
  rw [List.length_reverse,List.length_drop,List.length_nil] at hlength
  omega

/-- The adaptation does not raise. -/
theorem adaptWeights_ok (weights : Weights) {history : List TurnResult} (h : history≠[]) :
    ∃ adapted,adaptWeights floats weights history=.ok adapted := by
  have hdecay : 0≤floats.round 0.82 := floats.nonneg (by norm_num)
  have htotal := (@weightedCounts_bounds floats _ hdecay (fun _ => True) _ _
    (recent_ne_nil h 7 (by norm_num))).2
  unfold adaptWeights
  dsimp only
  refine (foldlM_ok (Q := fun _ => True) True.intro fun w entry _ _ => ?_).imp fun _ => And.left
  rw [divide_pos floats entry.2 (zero_lt_one.trans_le htotal)]
  exact ⟨_,rfl,True.intro⟩

/-- Whatever the weights are, an affordable action is chosen. -/
theorem returns_chooseWeighted (weights : Weights) {aiKi : ℤ} (hki : 0≤aiKi) :
    Returns (chooseWeighted floats weights aiKi) (Affords aiKi) := by
  have hnonneg : ∀ w∈(affordableActions aiKi).map fun action => max (weights.get action) 0,0≤w := by
    intro w hw
    obtain ⟨action,-,rfl⟩ := List.mem_map.mp hw
    exact le_max_right _ _
  unfold chooseWeighted
  dsimp only
  split
  · exact returns_pure hki
  · next htotal =>
    have hpos : ∃ w∈(affordableActions aiKi).map fun action => max (weights.get action) 0,0<w := by
      by_contra hnone
      push Not at hnone
      exact htotal (floats.sum_zero _ fun w hw => le_antisymm (hnone w hw) (hnonneg w hw))
    refine returns_normalized (List.length_map _) (affordable_length aiKi) hnonneg hpos
      fun shares hshares => ?_
    exact hshares.weaken fun action haction => mem_affordableActions.mp haction

theorem returns_hardAI {gameState : GameState} (history : List TurnResult)
    (hki : 0≤aiKiOf gameState) :
    Returns (hardAI floats gameState history) (Affords (aiKiOf gameState)) := by
  unfold hardAI
  dsimp only
  split
  · next hlong =>
    have hne : history≠[] := by
      rintro rfl
      cases hlong
    obtain ⟨adapted,hadapted⟩ := adaptWeights_ok (adjustForRoundPressure floats
      (adjustForKi floats (nashWeights floats) (aiKiOf gameState) (oppKiOf gameState)) gameState) hne
    exact returns_lift_bind hadapted (returns_chooseWeighted adapted hki)
  · exact returns_chooseWeighted _ hki

/-- The blended probability of an action is positive. -/
theorem blended_pos {histProb prior : ℚ} (hhist : 0≤histProb) (hprior : 1/8≤prior) :
    0<floats.round (floats.round (floats.round 0.70*histProb)+
      floats.round (floats.round (1-floats.round 0.70)*prior)) := by
  have hblend : floats.round 0.70≤3/4 := by
    have hle := @Floats.le_dyadic floats 3 2 0.70 (by norm_num) (by norm_num) (by norm_num)
    norm_num at hle ⊢
    exact hle
  have hrest : 1/4≤floats.round (1-floats.round 0.70) := by
    have hge := @Floats.ge_dyadic floats 1 2 (1-floats.round 0.70) (by norm_num) (by norm_num)
      (by norm_num at hblend ⊢; linarith)
    norm_num at hge ⊢
    exact hge
  have hshare : 1/32≤floats.round (floats.round (1-floats.round 0.70)*prior) := by
    have hge := @Floats.ge_dyadic floats 1 5 (floats.round (1-floats.round 0.70)*prior)
      (by norm_num) (by norm_num) (by norm_num at hrest ⊢; nlinarith)
    norm_num at hge ⊢
    exact hge
  have hobserved : 0≤floats.round (floats.round 0.70*histProb) :=
    floats.nonneg (mul_nonneg (floats.nonneg (by norm_num)) hhist)
  exact floats.pos (by linarith)

/-- The blended probabilities are positive. -/
theorem blended_ok (affordable : List Action) {prior totalW : ℚ} {freq probs : Weights}
    (hprior : 1/8≤prior) (htotal : 0<totalW) (hfreq : freq.Nonneg) (hprobs : probs.Positive) :
    ∃ probs',blended floats affordable prior totalW freq probs=.ok probs' ∧ probs'.Positive := by
  refine foldlM_ok hprobs fun probs action _ hpositive => ?_
  rw [divide_pos floats _ htotal]
  have hhist : 0≤floats.round (freq.get action/totalW) :=
    floats.nonneg (div_nonneg (hfreq.get action) htotal.le)
  exact ⟨_,rfl,hpositive.set action (blended_pos hhist hprior)⟩

/-- Positive probabilities are renormalized. -/
theorem renormalized_ok {probs : Weights} (h : probs.Positive) :
    ∃ probs',renormalized floats probs=.ok probs' := by
  obtain ⟨hne,hpos⟩ := h
  have htotal : 0<floats.sum (probs.map Prod.snd) := by
    obtain ⟨entry,hentry⟩ := List.exists_mem_of_ne_nil probs hne
    refine floats.sum_pos _ (fun x hx => ?_) ⟨entry.2,List.mem_map_of_mem hentry,hpos entry hentry⟩
    obtain ⟨entry',hentry',rfl⟩ := List.mem_map.mp hx
    exact (hpos entry' hentry').le
  have hdivides : ∀ entry∈probs,∃ share,(do
      pure (entry.1,← floats.divide entry.2 (floats.sum (probs.map Prod.snd))))=
        (.ok share : Except Exc (Action×ℚ)) := by
    intro entry _
    rw [divide_pos floats entry.2 htotal]
    exact ⟨_,rfl⟩
  exact (mapM_ok hdivides).imp fun _ => And.left

/-- The opponent's model is computed. -/
theorem modelOpponent_ok (history : List TurnResult) {oppKi : ℤ} (hki : 0≤oppKi) :
    ∃ probs,modelOpponent floats history oppKi=.ok probs := by
  have hcharge := charge_affordable hki
  have hlength : 0<((affordableActions oppKi).length : ℚ) := by
    exact_mod_cast List.length_pos_of_mem hcharge
  have hfive : ((affordableActions oppKi).length : ℚ)≤5 := by
    exact_mod_cast affordable_length oppKi
  have hprior : 1/8≤floats.round (1/(affordableActions oppKi).length) := by
    have hle : (1 : ℚ)/8≤1/(affordableActions oppKi).length :=
      one_div_le_one_div_of_le hlength (by linarith)
    have hge := @Floats.ge_dyadic floats 1 3 _ (by norm_num) (by norm_num)
      (by norm_num at hle ⊢; exact hle)
    norm_num at hge ⊢
    exact hge
  have hprobs : Weights.Positive ((affordableActions oppKi).map fun action =>
      (action,floats.round (1/(affordableActions oppKi).length))) := by
    refine ⟨fun hnil => ?_,fun entry hentry => ?_⟩
    · rw [List.map_eq_nil_iff.mp hnil] at hcharge
      cases hcharge
    · obtain ⟨action,-,rfl⟩ := List.mem_map.mp hentry
      exact lt_of_lt_of_le (by norm_num) hprior
  unfold modelOpponent
  dsimp only
  rw [divide_pos floats 1 hlength]
  by_cases hhistory : history=[]
  · exact ⟨_,if_pos hhistory⟩
  · have hdecay : 0≤floats.round 0.80 := floats.nonneg (by norm_num)
    obtain ⟨hfreq,htotal⟩ := @weightedCounts_bounds floats _ hdecay
      (·∈affordableActions oppKi) _ _ (recent_ne_nil hhistory 10 (by norm_num))
    have hpos := zero_lt_one.trans_le htotal
    obtain ⟨probs,hblended,hpositive⟩ := blended_ok (affordableActions oppKi) hprior hpos hfreq hprobs
    obtain ⟨probs',hprobs'⟩ := renormalized_ok hpositive
    refine ⟨probs',?_⟩
    refine (if_neg hhistory).trans ((if_neg hpos.ne').trans ?_)
    rw [hblended]
    exact hprobs'

/-- The largest of some numbers. -/
theorem exists_max {xs : List ℚ} (h : xs≠[]) : ∃ x∈xs,xs.max?=some x ∧ ∀ y∈xs,y≤x := by
  cases hmax : xs.max? with
  | none => exact absurd (List.max?_eq_none_iff.mp hmax) h
  | some x =>
    obtain ⟨hmem,hle⟩ := List.max?_eq_some_iff.mp hmax
    exact ⟨x,hmem,rfl,hle⟩

/-- The softmax of at most five numbers is sampled. -/
theorem returns_softmaxSample {evs : Weights} (hne : evs≠[]) (hfive : evs.length≤5) :
    Returns (softmaxSample floats evs) fun action => action∈evs.map Prod.fst := by
  have hvalues : evs.map Prod.snd≠[] := fun hnil => hne (List.map_eq_nil_iff.mp hnil)
  obtain ⟨maxEv,hmem,hmax,hle⟩ := exists_max hvalues
  have htemp : 0≤floats.round 0.15 := floats.nonneg (by norm_num)
  have hexp : ∀ entry∈evs,∃ y,mathExp floats
      (floats.round (floats.round 0.15*floats.round (entry.2-maxEv)))=.ok y ∧ 0≤y := by
    intro entry hentry
    have hentryle := hle entry.2 (List.mem_map_of_mem hentry)
    have hdiff : floats.round (entry.2-maxEv)≤0 := by
      have hmono := floats.mono (by linarith : entry.2-maxEv≤0)
      rwa [floats.zero] at hmono
    have hproduct : floats.round (floats.round 0.15*floats.round (entry.2-maxEv))≤0 := by
      have hmono := floats.mono (mul_nonpos_of_nonneg_of_nonpos htemp hdiff)
      rwa [floats.zero] at hmono
    obtain ⟨y,hy,hnonneg⟩ := floats.exp_nonpos _ hproduct
    exact ⟨y,by rw [mathExp,hy],hnonneg⟩
  obtain ⟨expEvs,hexpEvs,hlength,hto,hfrom⟩ :=
    mapM_ok fun entry hentry => (hexp entry hentry).imp fun _ => And.left
  have hnonneg : ∀ w∈expEvs,0≤w := by
    intro w hw
    obtain ⟨entry,hentry,hw'⟩ := hfrom w hw
    obtain ⟨y,hy,hypos⟩ := hexp entry hentry
    rw [hw'] at hy
    cases hy
    exact hypos
  -- the largest number has the weight 1
  have hpos : ∃ w∈expEvs,0<w := by
    obtain ⟨entry,hentry,hvalue⟩ := List.mem_map.mp hmem
    obtain ⟨w,hw,hexpw⟩ := hto entry hentry
    rw [hvalue,sub_self,floats.zero,mul_zero,floats.zero,mathExp,floats.exp_zero] at hexpw
    cases hexpw
    exact ⟨1,hw,zero_lt_one⟩
  unfold softmaxSample
  rw [hmax]
  refine returns_lift_bind hexpEvs ?_
  refine returns_normalized (hlength.trans (List.length_map _).symm) ?_ hnonneg hpos
    fun shares hshares => hshares
  rw [List.length_map]
  exact hfive

theorem returns_expertAI {gameState : GameState} (history : List TurnResult)
    (hki : 0≤aiKiOf gameState) (hopp : 0≤oppKiOf gameState) :
    Returns (expertAI floats gameState history) (Affords (aiKiOf gameState)) := by
  obtain ⟨probs,hprobs⟩ := @modelOpponent_ok floats history _ hopp
  have hne := List.ne_nil_of_mem (charge_affordable hki)
  unfold expertAI
  refine returns_lift_bind hprobs ?_
  refine (returns_softmaxSample (fun hnil => hne (List.map_eq_nil_iff.mp hnil)) ?_).weaken
    fun action haction => ?_
  · rw [List.length_map]
    exact affordable_length _
  · rw [List.map_map] at haction
    obtain ⟨action',hmem,rfl⟩ := List.mem_map.mp haction
    exact mem_affordableActions.mp hmem

end Weighing

section Legality

/-- Every heuristic tier chooses an action that the AI's ki pays for. -/
theorem returns_createAiOpponent (floats : Floats) (grandmaster : AIOpponent)
    {difficulty : GameService.Difficulty} (h : difficulty≠.grandmaster) {gameState : GameState}
    (history : List TurnResult) (hki : 0≤aiKiOf gameState) (hopp : 0≤oppKiOf gameState) :
    Returns (createAiOpponent floats grandmaster difficulty gameState history)
      (Affords (aiKiOf gameState)) := by
  cases difficulty with
  | novice => exact returns_noviceAI history hki
  | easy => exact returns_easyAI history hki
  | medium => exact returns_mediumAI history hki
  | hard => exact returns_hardAI history hki
  | expert => exact returns_expertAI history hki hopp
  | grandmaster => exact absurd rfl h

/-- In every reachable state of a match in progress every heuristic tier returns, whatever is
drawn, an action that the AI can afford, so that a turn with it is refused only because of
player 1's action. -/
theorem moves_legally (floats : Floats) (grandmaster : AIOpponent)
    (difficulty : GameService.Difficulty) (h : difficulty≠.grandmaster) (gameId : UUID)
    (matchType : MatchType) (calls : List (Action×Action)) (draws : List Draw)
    (hstatus : (play (startMatch gameId matchType).1 calls).status=.inProgress) :
    let state := play (startMatch gameId matchType).1 calls
    ∃ round,state.currentRound=some round ∧ ∃ action rest,
      createAiOpponent floats grandmaster difficulty state round.turnHistory draws=
        .ok (action,rest) ∧ validateAction action round.p2Ki=true ∧
      ∀ p1Action e,(submitTurn state p1Action action).2=.error e →
        e=.p1CannotAfford p1Action round.p1Ki := by
  dsimp only
  obtain ⟨fresh,hfresh,hruns⟩ := startMatch_runs gameId matchType calls
  rw [hfresh] at hstatus ⊢
  have hinvariant := hruns.1
  generalize play fresh calls=state at hstatus hinvariant ⊢
  obtain ⟨round,hround⟩ := Option.isSome_iff_exists.mp (hinvariant.openIff.mp hstatus)
  have hwell := hinvariant.openRound round hround
  have hai : aiKiOf state=round.p2Ki := by rw [aiKiOf,hround]
  have hopp : oppKiOf state=round.p1Ki := by rw [oppKiOf,hround]
  obtain ⟨action,rest,hchoice,hafford⟩ := returns_createAiOpponent floats grandmaster h
    round.turnHistory (hai ▸ hwell.p2Ki.1) (hopp ▸ hwell.p1Ki.1) draws
  rw [hai] at hafford
  have hvalid : validateAction action round.p2Ki=true := (validateAction_iff _ _).mpr hafford
  refine ⟨round,hround,action,rest,hchoice,hvalid,fun p1Action e he => ?_⟩
  unfold submitTurn at he
  rw [if_neg (not_not.mpr hstatus),hround] at he
  dsimp only at he
  split at he
  · cases he
    rfl
  · obtain ⟨state',report,happly,-⟩ := applyTurn_accepted hround p1Action action
    rw [happly] at he
    cases he

theorem hard_opens_legally :
    ∃ action rest,createAiOpponent exact (easyAI exact) .hard
      (startMatch (UUID.small 1) .aiHard).1 [] []=.ok (action,rest) ∧
      validateAction action 0=true := by
  obtain ⟨round,hround,action,rest,hchoice,hvalid,-⟩ :=
    moves_legally exact (easyAI exact) .hard (by decide) (UUID.small 1) .aiHard [] [] rfl
  cases hround
  exact ⟨action,rest,hchoice,hvalid⟩

end Legality

end KiClash.HeuristicTiers
