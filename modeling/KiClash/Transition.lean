import KiClash.Engine
import Mathlib.Data.Rat.Defs
import Mathlib.Data.Int.Order.Basic

/-!
# The solver's model of the rules

transition.py of the grandmaster AI: what a turn does to one player's ki, the
actions that he can pay for, the payoff of a pair of actions, and the score at
which a round is played. Everything is seen from the acting player, who is
player 2 of the engine. Payoffs and values are exact rationals.
-/

namespace KiClash.Transition

open EngineTypes OutcomeMatrix

/-- ACTION_ORDER. -/
def actionOrder : List Action := [.charge,.block,.attack,.energyWave,.teleport]

/-- action_index. -/
def actionIndex (action : Action) : ℕ := actionOrder.idxOf action

/-- ki_after. -/
def kiAfter (ki : ℤ) (action : Action) : ℤ :=
  let next := ki-actionKiCost action+actionKiGain action
  max 0 (min next kiCap)

/-- affordable_actions. -/
def affordableActions (ki : ℤ) : List Action :=
  actionOrder.filter fun action => actionKiCost action≤ki

/-- immediate_outcome. -/
def immediateOutcome (me opp : Action) : ℤ :=
  let outcome := resolveActions me opp
  if outcome=.p1WinsRound then 1
  else if outcome=.p2WinsRound then -1
  else 0

/-- is_immediate_win. -/
def isImmediateWin (me opp : Action) : Bool := immediateOutcome me opp=1

/-- A lookup of continuation values by my ki, the opponent's ki and the turn. -/
abbrev ValueFn := ℤ → ℤ → ℤ → ℚ

/-- stage_payoff. -/
def stagePayoff (me opp : Action) (myKi oppKi turn : ℤ) (lam : ℚ) (valueFn : ValueFn) : ℚ :=
  let outcome := immediateOutcome me opp
  if outcome=1 then 1
  else if outcome=-1 then 0
  else
    let myNext := kiAfter myKi me
    let oppNext := kiAfter oppKi opp
    if turn≥turnLimit then
      if myNext>oppNext then 1
      else if myNext<oppNext then 0
      else lam
    else valueFn myNext oppNext (turn+1)

/-- build_stage_matrix. -/
def buildStageMatrix (myKi oppKi turn : ℤ) (lam : ℚ) (valueFn : ValueFn) :
    List Action × List Action × List (List ℚ) :=
  let rows := affordableActions myKi
  let cols := affordableActions oppKi
  (rows,cols,rows.map fun me => cols.map fun opp =>
    stagePayoff me opp myKi oppKi turn lam valueFn)

/-- range(n). -/
def pyRange (n : ℤ) : List ℤ := (List.range n.toNat).map Int.ofNat

/-- match_state_key. -/
def matchStateKey (myRoundWins oppRoundWins roundsPlayed : ℤ) : String :=
  toString myRoundWins++"-"++toString oppRoundWins++"-"++toString roundsPlayed

/-- resolve_match_state. -/
def resolveMatchState (gameState : GameState) : String :=
  matchStateKey gameState.roundsWonP2 gameState.roundsWonP1 gameState.roundResults.length

/-- reachable_match_states. -/
def reachableMatchStates : List (ℤ×ℤ×ℤ) :=
  (pyRange 3).flatMap fun roundsPlayed =>
    (pyRange (roundsPlayed+1)).flatMap fun myWins =>
      (pyRange (roundsPlayed+1-myWins)).filterMap fun oppWins =>
        if myWins≥roundsToWin ∨ oppWins≥roundsToWin then none
        else some (myWins,oppWins,roundsPlayed)

/-- The turn that decide derives from an open round. -/
def upcomingTurn (round : RoundState) : ℤ := min (round.turnNumber+1) turnLimit

theorem mem_pyRange {n k : ℤ} : k∈pyRange n ↔ 0≤k ∧ k<n := by
  unfold pyRange
  rw [List.mem_map]
  constructor
  · rintro ⟨m,hm,rfl⟩
    have := List.mem_range.mp hm
    simp only [Int.ofNat_eq_natCast]
    omega
  · intro h
    refine ⟨k.toNat,List.mem_range.mpr (by omega),?_⟩
    simp only [Int.ofNat_eq_natCast]
    omega

/-- The scores before a round: nobody has two wins, a round is left, and every
win belongs to a round played. -/
theorem mem_reachableMatchStates {my opp played : ℤ} :
    (my,opp,played)∈reachableMatchStates ↔
      0≤ my ∧ 0≤opp ∧ my+opp≤played ∧ played<3 ∧ my< roundsToWin ∧ opp< roundsToWin := by
  unfold reachableMatchStates roundsToWin
  simp only [List.mem_flatMap,List.mem_filterMap,mem_pyRange]
  constructor
  · rintro ⟨played',hp,my',hm,opp',ho,he⟩
    split at he
    · cases he
    · cases he
      omega
  · rintro ⟨hmy,hopp,hsum,hplayed,hmy',hopp'⟩
    refine ⟨played,⟨by omega,hplayed⟩,my,⟨hmy,by omega⟩,opp,⟨hopp,by omega⟩,?_⟩
    rw [if_neg (by omega)]

theorem mem_actionOrder (action : Action) : action∈actionOrder := by
  cases action <;> decide

/-- The affordable actions are those whose cost the ki covers. -/
theorem mem_affordableActions {ki : ℤ} {action : Action} :
    action∈affordableActions ki ↔ actionKiCost action≤ki := by
  simp [affordableActions,mem_actionOrder]

/-- The ki after a turn is within its bounds. -/
theorem kiAfter_bounds (ki : ℤ) (action : Action) : 0≤kiAfter ki action ∧ kiAfter ki action≤kiCap := by
  unfold kiAfter kiCap
  dsimp only
  omega

/-- What I win at once the opponent loses at once. -/
theorem immediateOutcome_swap (me opp : Action) :
    immediateOutcome opp me=-immediateOutcome me opp := by
  cases me <;> cases opp <;> decide

/-- The ways in which a pair of actions is resolved: at once, by the ki
comparison of the last turn, or by what the next turn is worth. -/
theorem stagePayoff_cases (me opp : Action) (myKi oppKi turn : ℤ) (lam : ℚ) (valueFn : ValueFn) :
    (immediateOutcome me opp=1 ∧ stagePayoff me opp myKi oppKi turn lam valueFn=1) ∨
    (immediateOutcome me opp=-1 ∧ stagePayoff me opp myKi oppKi turn lam valueFn=0) ∨
    (immediateOutcome me opp=0 ∧ turn≥turnLimit ∧
      stagePayoff me opp myKi oppKi turn lam valueFn=
        if kiAfter myKi me>kiAfter oppKi opp then 1
        else if kiAfter myKi me<kiAfter oppKi opp then 0 else lam) ∨
    (immediateOutcome me opp=0 ∧ turn<turnLimit ∧
      stagePayoff me opp myKi oppKi turn lam valueFn=
        valueFn (kiAfter myKi me) (kiAfter oppKi opp) (turn+1)) := by
  have htri : immediateOutcome me opp=1 ∨ immediateOutcome me opp=-1 ∨
      immediateOutcome me opp=0 := by
    cases me <;> cases opp <;> decide
  obtain h | h | h := htri
  · left
    simp [stagePayoff,h]
  · right; left
    simp [stagePayoff,h]
  · right; right
    rcases lt_or_ge turn turnLimit with hlt | hge
    · right
      simp [stagePayoff,h,hlt,not_le.mpr hlt]
    · left
      simp [stagePayoff,h,hge]

end KiClash.Transition
