import KiClash.Transition
import Mathlib.Algebra.BigOperators.Group.List.Basic
import Mathlib.Algebra.Field.Rat

/-!
# The solver's tables

solver.py of the grandmaster AI and the facade solve_zero_sum of
matrix_game.py: the backward induction over the turns of a round, and the
induction over the scores of a best-of-3. Tables are read as functions of their
indices, zero where nothing was written, and arithmetic is exact. The solver of
stage games is a parameter; what it has to return is a maximin row.
-/

namespace KiClash.Solver

open EngineTypes Transition

/-- What solve_zero_sum returns for a payoff matrix: a row strategy and a value. -/
abbrev StageSolver := List (List ℚ) → List ℚ×ℚ

/-- Entries of a column, one for each row. -/
def column (payoff : List (List ℚ)) (j : ℕ) : List ℚ := payoff.map fun entries => entries.getD j 0

/-- sum(row[i]*column[i] for i in range(n)). -/
def expectation (row entries : List ℚ) : ℚ := (List.zipWith (·*·) row entries).sum

/-- A probability for each of n rows. -/
structure Distribution (n : ℕ) (row : List ℚ) : Prop where
  /-- One weight a row. -/
  length : row.length=n
  /-- Weights are not negative. -/
  nonneg : ∀ weight∈row,0≤weight
  /-- They add up to one. -/
  total : row.sum=1

/-- A maximin row strategy of a matrix with m columns, and what it gets. -/
structure MaximinRow (payoff : List (List ℚ)) (m : ℕ) (row : List ℚ) (value : ℚ) : Prop where
  /-- It is a strategy over the rows. -/
  distribution : Distribution payoff.length row
  /-- It gets the value against every column. -/
  secures : ∀ j< m,value≤expectation row (column payoff j)
  /-- No strategy gets more against every column. -/
  best : ∀ row',Distribution payoff.length row' → ∃ j< m,expectation row' (column payoff j)≤value

/-- An exact stage solver: a maximin row for every matrix with rows and columns. -/
def ExactSolver (solve : StageSolver) : Prop :=
  ∀ payoff m,payoff≠[] → 0< m → (∀ entries∈payoff,entries.length=m) →
    MaximinRow payoff m (solve payoff).1 (solve payoff).2

/-- A table indexed by my ki, the opponent's ki and the turn index. -/
abbrev Table (α : Type) := ℤ → ℤ → ℤ → α

/-- The assignment table[my_ki][opp_ki][turn_idx] = x. -/
def Table.write {α : Type} (table : Table α) (myKi oppKi turnIndex : ℤ) (x : α) : Table α :=
  fun a b t => if a=myKi ∧ b=oppKi ∧ t=turnIndex then x else table a b t

/-- RoundTable. -/
structure RoundTable where
  /-- Draw weight that the table was solved for. -/
  lam : ℚ
  /-- Values. -/
  v : Table ℚ
  /-- Strategies, as five weights in the order of the actions. -/
  sigma : Table (List ℚ)

/-- The tables before the first turn is solved. -/
def emptyTable (lam : ℚ) : RoundTable :=
  ⟨lam,fun _ _ _ => 0,fun _ _ _ => List.replicate actionOrder.length 0⟩

/-- value_fn: the turn counts from 1 and its index from 0. -/
def RoundTable.valueFn (table : RoundTable) : ValueFn :=
  fun myKi oppKi turn => table.v myKi oppKi (turn-1)

/-- The loop that stores a row strategy in a cell. -/
def storeRow (rows : List Action) (rowStrat cell : List ℚ) : List ℚ :=
  (rows.zip rowStrat).foldl (fun cell entry => cell.set (actionIndex entry.1) entry.2) cell

/-- Body of the three loops of solve_round_table. -/
def solveCell (solve : StageSolver) (turn myKi oppKi : ℤ) (table : RoundTable) : RoundTable :=
  let stage := buildStageMatrix myKi oppKi turn table.lam table.valueFn
  let solved := solve stage.2.2
  {table with
    v := table.v.write myKi oppKi (turn-1) solved.2
    sigma := table.sigma.write myKi oppKi (turn-1)
      (storeRow stage.1 solved.1 (table.sigma myKi oppKi (turn-1)))}

/-- range(TURN_LIMIT,0,-1). -/
def turnsBackwards : List ℤ := (pyRange turnLimit).reverse.map (·+1)

/-- solve_round_table. -/
def solveRoundTable (solve : StageSolver) (lam : ℚ) : RoundTable :=
  turnsBackwards.foldl (fun table turn =>
    (pyRange (kiCap+1)).foldl (fun table myKi =>
      (pyRange (kiCap+1)).foldl (fun table oppKi =>
        solveCell solve turn myKi oppKi table) table) table) (emptyTable lam)

/-- round_start_value. -/
def roundStartValue (table : RoundTable) : ℚ := table.v 0 0 0

section Matches

variable {K : Type} [Field K]

/-- _terminal_match_value. -/
def terminalMatchValue (my opp roundsPlayed : ℤ) : Option K :=
  if my≥roundsToWin then some 1
  else if opp≥roundsToWin then some 0
  else if roundsPlayed≥3 then some (1/2)
  else none

/-- The dictionaries of _match_induction. -/
structure MatchMaps (K : Type) where
  /-- lambdas: the draw weight of the round at each score. -/
  lambdas : String → Option K
  /-- values: what each score is worth. -/
  values : String → Option K
  /-- memo. -/
  memo : ℤ×ℤ×ℤ → Option K

/-- A score that is not terminal has a round left. -/
theorem roundsPlayed_lt {my opp roundsPlayed : ℤ}
    (h : (terminalMatchValue my opp roundsPlayed : Option K)=none) : roundsPlayed<3 := by
  unfold terminalMatchValue at h
  split_ifs at h
  omega

/-- The literal 2 of every field. -/
instance two_atLeastTwo : Nat.AtLeastTwo 2 := ⟨le_rfl⟩

variable [DecidableEq K]

/-- u of _match_induction: what a score is worth, next to the dictionaries. -/
def u (rValue : K → K) (my opp roundsPlayed : ℤ) (maps : MatchMaps K) : K×MatchMaps K :=
  match _h : (terminalMatchValue my opp roundsPlayed : Option K) with
  | some terminal => (terminal,maps)
  | none =>
    match maps.memo (my,opp,roundsPlayed) with
    | some value => (value,maps)
    | none =>
      let win := u rValue (my+1) opp (roundsPlayed+1) maps
      let loss := u rValue my (opp+1) (roundsPlayed+1) win.2
      let draw := u rValue my opp (roundsPlayed+1) loss.2
      let solved := if win.1=loss.1 then (1/2,loss.1) else
        let lam := (draw.1-loss.1)/(win.1-loss.1)
        (lam,loss.1+(win.1-loss.1)*rValue lam)
      let skey := matchStateKey my opp roundsPlayed
      (solved.2,
        { lambdas := Function.update draw.2.lambdas skey (some solved.1)
          values := Function.update draw.2.values skey (some solved.2)
          memo := Function.update draw.2.memo (my,opp,roundsPlayed) (some solved.2) })
termination_by (3-roundsPlayed).toNat
decreasing_by all_goals have := roundsPlayed_lt _h; omega

/-- _match_induction. -/
def matchInduction (rValue : K → K) : MatchMaps K :=
  reachableMatchStates.foldl
    (fun maps score => (u rValue score.1 score.2.1 score.2.2 maps).2)
    ⟨fun _ => none,fun _ => none,fun _ => none⟩

end Matches

end KiClash.Solver
