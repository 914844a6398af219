import KiClash.Approachability

/-!
# Regret matching

solve_regret_matching and maxmin_gap of matrix_game.py, in exact arithmetic over an ordered
field. A matrix has at least one row and its rows have the same number of entries, at
least one. Both players play in proportion to their positive regrets, and what is returned
are the averages of their strategies.
-/

namespace KiClash.RegretMatching

open MatrixGames Approachability

section Lists

variable {𝕜 : Type} [Field 𝕜]

/-- A payoff matrix. -/
structure Payoff (𝕜 : Type) where
  /-- The rows. -/
  entries : List (List 𝕜)
  /-- len(payoff[0]). -/
  m : ℕ
  /-- There is a row. -/
  nonempty : entries≠[]
  /-- There is a column. -/
  columns : 0< m
  /-- The rows have the same length. -/
  rectangular : ∀ row∈entries,row.length=m

/-- len(payoff). -/
def Payoff.n (payoff : Payoff 𝕜) : ℕ := payoff.entries.length

/-- payoff[i][j]. -/
def Payoff.get (payoff : Payoff 𝕜) (i j : ℕ) : 𝕜 := (payoff.entries.getD i []).getD j 0

/-- The entry at an index. -/
def entry (xs : List 𝕜) (i : ℕ) : 𝕜 := xs.getD i 0

/-- sum(f(i) for i in range(n)). -/
def sumOver (n : ℕ) (f : ℕ → 𝕜) : 𝕜 := ((List.range n).map f).sum

/-- [f(i) for i in range(n)]. -/
def tabulate (n : ℕ) (f : ℕ → 𝕜) : List 𝕜 := (List.range n).map f

variable [LinearOrder 𝕜]

/-- The positive parts divided by their total; uniform if there are none. -/
def scaled (weights : List 𝕜) (size : ℕ) : List 𝕜 :=
  let pos := weights.map fun w => if w>0 then w else 0
  let total := pos.sum
  if total≤0 then List.replicate size (1/(size : 𝕜)) else pos.map fun w => w/total

/-- _normalize. -/
def normalize (weights : List 𝕜) : List 𝕜 := scaled weights weights.length

/-- strategy_from_regret. -/
def strategyFromRegret (regret : List 𝕜) (size : ℕ) : List 𝕜 := scaled regret size

/-- The variables of the loop. -/
structure Sums (𝕜 : Type) where
  /-- row_regret. -/
  rowRegret : List 𝕜
  /-- col_regret. -/
  colRegret : List 𝕜
  /-- row_sum. -/
  rowSum : List 𝕜
  /-- col_sum. -/
  colSum : List 𝕜

/-- The variables before the loop. -/
def initial (payoff : Payoff 𝕜) : Sums 𝕜 :=
  { rowRegret := List.replicate payoff.n 0
    colRegret := List.replicate payoff.m 0
    rowSum := List.replicate payoff.n 0
    colSum := List.replicate payoff.m 0 }

/-- The body of the loop. -/
def iteration (payoff : Payoff 𝕜) (sums : Sums 𝕜) : Sums 𝕜 :=
  let x := strategyFromRegret sums.rowRegret payoff.n
  let y := strategyFromRegret sums.colRegret payoff.m
  let rowUtil := tabulate payoff.n fun i => sumOver payoff.m fun j => payoff.get i j*entry y j
  let rowValue := sumOver payoff.n fun i => entry x i*entry rowUtil i
  let colUtil := tabulate payoff.m fun j => -sumOver payoff.n fun i => payoff.get i j*entry x i
  let colValue := sumOver payoff.m fun j => entry y j*entry colUtil j
  { rowSum := tabulate payoff.n fun i => entry sums.rowSum i+entry x i
    colSum := tabulate payoff.m fun j => entry sums.colSum j+entry y j
    rowRegret := tabulate payoff.n fun i =>
      entry sums.rowRegret i+(entry rowUtil i-rowValue)
    colRegret := tabulate payoff.m fun j =>
      entry sums.colRegret j+(entry colUtil j-colValue) }

/-- The variables after so many iterations. -/
def iterations (payoff : Payoff 𝕜) : ℕ → Sums 𝕜
  | 0 => initial payoff
  | iters+1 => iteration payoff (iterations payoff iters)

/-- solve_regret_matching: the two averaged strategies and the value. -/
def solveRegretMatching (payoff : Payoff 𝕜) (iters : ℕ) : List 𝕜×List 𝕜×𝕜 :=
  let sums := iterations payoff iters
  let row := normalize sums.rowSum
  let col := normalize sums.colSum
  (row,col,sumOver payoff.n fun i => sumOver payoff.m fun j =>
    entry row i*payoff.get i j*entry col j)

/-- maxmin_gap. -/
def maxminGap (payoff : Payoff 𝕜) (row col : List 𝕜) : 𝕜 :=
  let lower := (tabulate payoff.m fun j =>
    sumOver payoff.n fun i => entry row i*payoff.get i j).min?.getD 0
  let upper := (tabulate payoff.n fun i =>
    sumOver payoff.m fun j => payoff.get i j*entry col j).max?.getD 0
  upper-lower

/-- A probability for each of n actions. -/
structure ProbabilityVector (n : ℕ) (x : List 𝕜) : Prop where
  /-- One weight an action. -/
  length : x.length=n
  /-- Weights are not negative. -/
  nonneg : ∀ w∈x,0≤w
  /-- They add up to one. -/
  total : x.sum=1

end Lists

section Indices

variable {𝕜 : Type} [Field 𝕜]

theorem sumOver_eq (n : ℕ) (f : ℕ → 𝕜) : sumOver n f=∑ i∈Finset.range n,f i := rfl

omit [Field 𝕜] in
@[simp] theorem length_tabulate (n : ℕ) (f : ℕ → 𝕜) : (tabulate n f).length=n := by
  simp [tabulate]

theorem entry_tabulate {n i : ℕ} (f : ℕ → 𝕜) (h : i<n) : entry (tabulate n f) i=f i := by
  simp [entry,tabulate,h]

/-- There is nothing beyond the end. -/
theorem entry_of_le {xs : List 𝕜} {i : ℕ} (h : xs.length≤ i) : entry xs i=0 := by
  simp [entry,h]

theorem entry_mem {xs : List 𝕜} {i : ℕ} (h : i<xs.length) : entry xs i∈xs := by
  simp [entry,h]

theorem entry_map {f : 𝕜 → 𝕜} (hf : f 0=0) (xs : List 𝕜) (i : ℕ) :
    entry (xs.map f) i=f (entry xs i) := by
  rcases lt_or_ge i xs.length with hlt | hge
  · simp [entry,hlt]
  · rw [entry_of_le hge,entry_of_le (by simpa using hge),hf]

/-- The sum of a list over its indices. -/
theorem sum_eq (xs : List 𝕜) : xs.sum=∑ i∈Finset.range xs.length,entry xs i := by
  induction xs with
  | nil => rfl
  | cons x xs ih =>
    rw [List.sum_cons,List.length_cons,Finset.sum_range_succ',ih,add_comm]
    rfl

variable [LinearOrder 𝕜]

/-- A nonnegative list that adds up to one. -/
theorem probabilityVector_of_mixed {n : ℕ} {x : List 𝕜} (hlength : x.length=n)
    (h : Mixed (Finset.range n) (entry x)) : ProbabilityVector n x where
  length := hlength
  nonneg w hw := by
    obtain ⟨i,hi,rfl⟩ := List.getElem_of_mem hw
    have hnonneg := h.nonneg i
    simpa [entry,hi] using hnonneg
  total := by rw [sum_eq,hlength,h.sum]

theorem posPart_eq (w : 𝕜) : (if w>0 then w else 0)=max w 0 := by
  split
  · next h => exact (max_eq_left h.le).symm
  · next h => exact (max_eq_right (not_lt.mp h)).symm

theorem length_scaled {weights : List 𝕜} {size : ℕ} (h : weights.length=size) :
    (scaled weights size).length=size := by
  unfold scaled
  dsimp only
  split
  · exact List.length_replicate
  · rw [List.length_map,List.length_map,h]

end Indices

section Strategies

variable {𝕜 : Type} [Field 𝕜] [LinearOrder 𝕜] [IsStrictOrderedRing 𝕜]

omit [IsStrictOrderedRing 𝕜] in
/-- The positive parts over the indices. -/
theorem sum_positive (weights : List 𝕜) :
    (weights.map fun w => if w>0 then w else 0).sum=
      ∑ i∈Finset.range weights.length,max (entry weights i) 0 := by
  rw [sum_eq,List.length_map]
  refine Finset.sum_congr rfl fun i _ => ?_
  rw [entry_map (by simp),posPart_eq]

/-- What is scaled is a mixed strategy, proportional to the positive parts. -/
theorem scaled_matched {weights : List 𝕜} {size : ℕ} (h : weights.length=size) (hsize : 0< size) :
    Mixed (Finset.range size) (entry (scaled weights size)) ∧
      Matched (Finset.range size) (entry weights) (entry (scaled weights size)) := by
  have htotal := sum_positive weights
  have hnonneg : ∀ i∈Finset.range size,0≤ max (entry weights i) 0 := fun i _ => le_max_right _ _
  rw [h] at htotal
  have hbeyond : ∀ i,i∉Finset.range size → entry (scaled weights size) i=0 := by
    intro i hi
    have hi := not_lt.mp fun hlt => hi (Finset.mem_range.mpr hlt)
    exact entry_of_le ((length_scaled h).le.trans hi)
  rcases le_or_gt (∑ i∈Finset.range size,max (entry weights i) 0) 0 with hnone | hpos
  · have huniform : scaled weights size=List.replicate size (1/(size : 𝕜)) := by
      unfold scaled
      exact if_pos (htotal.trans_le hnone)
    have hentry : ∀ i∈Finset.range size,entry (scaled weights size) i=1/(size : 𝕜) := by
      intro i hi
      rw [huniform]
      simp [entry,Finset.mem_range.mp hi]
    have hzero := le_antisymm hnone (Finset.sum_nonneg hnonneg)
    have hcast : (size : 𝕜)≠0 := by exact_mod_cast hsize.ne'
    refine ⟨⟨fun i => ?_,hbeyond,?_⟩,fun i hi => ?_⟩
    · by_cases hi : i∈Finset.range size
      · rw [hentry i hi]
        positivity
      · rw [hbeyond i hi]
    · rw [Finset.sum_congr rfl hentry]
      simp [hcast]
    · rw [hzero,mul_zero]
      exact ((Finset.sum_eq_zero_iff_of_nonneg hnonneg).mp hzero i hi).symm
  · have hscaled : ∀ i,entry (scaled weights size) i=
        max (entry weights i) 0/∑ i∈Finset.range size,max (entry weights i) 0 := by
      intro i
      unfold scaled
      dsimp only
      rw [htotal,if_neg (not_le.mpr hpos),entry_map (zero_div _),entry_map (by simp),posPart_eq]
    refine ⟨⟨fun i => ?_,hbeyond,?_⟩,fun i hi => ?_⟩
    · rw [hscaled]
      exact div_nonneg (le_max_right _ _) hpos.le
    · simp only [hscaled]
      rw [← Finset.sum_div,div_self hpos.ne']
    · rw [hscaled,div_mul_cancel₀ _ hpos.ne']

end Strategies

section Rate

variable {𝕜 : Type} [Field 𝕜] [LinearOrder 𝕜]

/-- Every payoff is between 0 and 1. -/
def Payoff.Unit (payoff : Payoff 𝕜) : Prop := ∀ row∈payoff.entries,∀ p∈row,0≤p ∧ p≤1

theorem Payoff.Unit.get {payoff : Payoff 𝕜} (h : payoff.Unit) {i j : ℕ} (hi : i<payoff.n)
    (hj : j<payoff.m) : 0≤payoff.get i j ∧ payoff.get i j≤1 := by
  have hrow : payoff.entries.getD i []∈payoff.entries := by
    unfold Payoff.n at hi
    simp [hi]
  have hwidth := payoff.rectangular _ hrow
  exact h _ hrow _ (entry_mem (hj.trans_eq hwidth.symm))

omit [Field 𝕜] [LinearOrder 𝕜] in
theorem Payoff.n_pos (payoff : Payoff 𝕜) : 0<payoff.n := List.length_pos_of_ne_nil payoff.nonempty

/-- row_util, against a strategy of the column player. -/
def rowUtility (payoff : Payoff 𝕜) (y : ℕ → 𝕜) (i : ℕ) : 𝕜 :=
  ∑ j∈Finset.range payoff.m,payoff.get i j*y j

/-- col_util, against a strategy of the row player. -/
def colUtility (payoff : Payoff 𝕜) (x : ℕ → 𝕜) (j : ℕ) : 𝕜 :=
  -∑ i∈Finset.range payoff.n,payoff.get i j*x i

/-- What two strategies win for the row player. -/
def won (payoff : Payoff 𝕜) (x y : ℕ → 𝕜) : 𝕜 :=
  ∑ i∈Finset.range payoff.n,x i*rowUtility payoff y i

omit [LinearOrder 𝕜] in
/-- The column player loses what the row player wins. -/
theorem sum_colUtility (payoff : Payoff 𝕜) (x y : ℕ → 𝕜) :
    ∑ j∈Finset.range payoff.m,y j*colUtility payoff x j=-won payoff x y := by
  unfold won rowUtility colUtility
  simp only [mul_neg,Finset.sum_neg_distrib,Finset.mul_sum]
  rw [Finset.sum_comm]
  refine congrArg _ (Finset.sum_congr rfl fun i _ => Finset.sum_congr rfl fun j _ => ?_)
  ring

section Iterations

variable (payoff : Payoff 𝕜) (sums : Sums 𝕜)

/-- x, the row player's strategy of an iteration. -/
def playedRow : ℕ → 𝕜 := entry (strategyFromRegret sums.rowRegret payoff.n)

/-- y, the column player's strategy of an iteration. -/
def playedCol : ℕ → 𝕜 := entry (strategyFromRegret sums.colRegret payoff.m)

theorem iteration_rowRegret {i : ℕ} (hi : i<payoff.n) :
    entry (iteration payoff sums).rowRegret i=entry sums.rowRegret i+
      (rowUtility payoff (playedCol payoff sums) i-
        won payoff (playedRow payoff sums) (playedCol payoff sums)) := by
  unfold iteration
  dsimp only
  rw [entry_tabulate _ hi,entry_tabulate _ hi,sumOver_eq,sumOver_eq]
  have hvalue : ∀ k∈Finset.range payoff.n,
      entry (strategyFromRegret sums.rowRegret payoff.n) k*
        entry (tabulate payoff.n fun i => sumOver payoff.m fun j =>
          payoff.get i j*entry (strategyFromRegret sums.colRegret payoff.m) j) k=
      playedRow payoff sums k*rowUtility payoff (playedCol payoff sums) k := by
    intro k hk
    rw [entry_tabulate _ (Finset.mem_range.mp hk)]
    rfl
  rw [Finset.sum_congr rfl hvalue]
  rfl

theorem iteration_colRegret {j : ℕ} (hj : j<payoff.m) :
    entry (iteration payoff sums).colRegret j=entry sums.colRegret j+
      (colUtility payoff (playedRow payoff sums) j+
        won payoff (playedRow payoff sums) (playedCol payoff sums)) := by
  unfold iteration
  dsimp only
  rw [entry_tabulate _ hj,entry_tabulate _ hj,sumOver_eq,sumOver_eq]
  have hvalue : ∀ k∈Finset.range payoff.m,
      entry (strategyFromRegret sums.colRegret payoff.m) k*
        entry (tabulate payoff.m fun j => -sumOver payoff.n fun i =>
          payoff.get i j*entry (strategyFromRegret sums.rowRegret payoff.n) i) k=
      playedCol payoff sums k*colUtility payoff (playedRow payoff sums) k := by
    intro k hk
    rw [entry_tabulate _ (Finset.mem_range.mp hk)]
    rfl
  rw [Finset.sum_congr rfl hvalue,sum_colUtility,sub_neg_eq_add]
  rfl

theorem iteration_rowSum {i : ℕ} (hi : i<payoff.n) :
    entry (iteration payoff sums).rowSum i=entry sums.rowSum i+playedRow payoff sums i :=
  entry_tabulate _ hi

theorem iteration_colSum {j : ℕ} (hj : j<payoff.m) :
    entry (iteration payoff sums).colSum j=entry sums.colSum j+playedCol payoff sums j :=
  entry_tabulate _ hj

end Iterations

/-- What holds after so many iterations. -/
structure Converging (payoff : Payoff 𝕜) (iters : ℕ) (sums : Sums 𝕜) : Prop where
  /-- One regret a row. -/
  rowLength : sums.rowRegret.length=payoff.n
  /-- One regret a column. -/
  colLength : sums.colRegret.length=payoff.m
  /-- The row player's regrets are small. -/
  rowPotential : potential (Finset.range payoff.n) (entry sums.rowRegret)≤payoff.n*iters
  /-- The column player's regrets are small. -/
  colPotential : potential (Finset.range payoff.m) (entry sums.colRegret)≤payoff.m*iters
  /-- One sum a row. -/
  rowSumLength : sums.rowSum.length=payoff.n
  /-- One sum a column. -/
  colSumLength : sums.colSum.length=payoff.m
  /-- Sums of weights are not negative. -/
  rowNonneg : ∀ i,0≤entry sums.rowSum i
  /-- Sums of weights are not negative. -/
  colNonneg : ∀ j,0≤entry sums.colSum j
  /-- Every iteration adds a strategy. -/
  rowTotal : ∑ i∈Finset.range payoff.n,entry sums.rowSum i=iters
  /-- Every iteration adds a strategy. -/
  colTotal : ∑ j∈Finset.range payoff.m,entry sums.colSum j=iters
  /-- The regrets compare the payoffs against the summed strategies with one number, what
  was won in all. -/
  compared : ∃ won,
    (∀ i∈Finset.range payoff.n,entry sums.rowRegret i=
      (∑ j∈Finset.range payoff.m,payoff.get i j*entry sums.colSum j)-won) ∧
    ∀ j∈Finset.range payoff.m,entry sums.colRegret j=
      won-∑ i∈Finset.range payoff.n,entry sums.rowSum i*payoff.get i j

variable [IsStrictOrderedRing 𝕜]

omit [LinearOrder 𝕜] [IsStrictOrderedRing 𝕜] in
theorem entry_replicate_zero (n i : ℕ) : entry (List.replicate n (0 : 𝕜)) i=0 := by
  rcases lt_or_ge i n with hlt | hge
  · simp [entry,hlt]
  · exact entry_of_le (by simpa using hge)

theorem initial_converging (payoff : Payoff 𝕜) : Converging payoff 0 (initial payoff) where
  rowLength := List.length_replicate
  colLength := List.length_replicate
  rowPotential := by simp [potential,initial,entry_replicate_zero]
  colPotential := by simp [potential,initial,entry_replicate_zero]
  rowSumLength := List.length_replicate
  colSumLength := List.length_replicate
  rowNonneg i := (entry_replicate_zero _ i).ge
  colNonneg j := (entry_replicate_zero _ j).ge
  rowTotal := by simp [initial,entry_replicate_zero]
  colTotal := by simp [initial,entry_replicate_zero]
  compared := ⟨0,by simp [initial,entry_replicate_zero],by simp [initial,entry_replicate_zero]⟩

omit [IsStrictOrderedRing 𝕜] in
/-- Entries that are the same have the same potential. -/
theorem potential_congr {n : ℕ} {r r' : ℕ → 𝕜} (h : ∀ i∈Finset.range n,r i=r' i) :
    potential (Finset.range n) r=potential (Finset.range n) r' :=
  Finset.sum_congr rfl fun i hi => by rw [h i hi]

/-- Sums of nonnegative entries stay nonnegative. -/
theorem nonneg_of_added {n : ℕ} {xs xs' : List 𝕜} {x : ℕ → 𝕜} (hlength : xs'.length=n)
    (hadded : ∀ i<n,entry xs' i=entry xs i+x i) (hxs : ∀ i,0≤entry xs i) (hx : ∀ i,0≤x i) (i : ℕ) :
    0≤entry xs' i := by
  rcases lt_or_ge i n with hlt | hge
  · rw [hadded i hlt]
    exact add_nonneg (hxs i) (hx i)
  · exact (entry_of_le (hlength.trans_le hge)).ge

omit [IsStrictOrderedRing 𝕜] in
/-- A strategy is added to the sums. -/
theorem total_of_added {n iters : ℕ} {xs xs' : List 𝕜} {x : ℕ → 𝕜}
    (hadded : ∀ i<n,entry xs' i=entry xs i+x i) (hx : Mixed (Finset.range n) x)
    (htotal : ∑ i∈Finset.range n,entry xs i=iters) :
    ∑ i∈Finset.range n,entry xs' i=((iters+1 : ℕ) : 𝕜) := by
  rw [Finset.sum_congr rfl fun i hi => hadded i (Finset.mem_range.mp hi),Finset.sum_add_distrib,
    htotal,hx.sum,Nat.cast_succ]

/-- The row player's utilities are averages of payoffs. -/
theorem rowUtility_bounds {payoff : Payoff 𝕜} (hunit : payoff.Unit) {y : ℕ → 𝕜}
    (hy : Mixed (Finset.range payoff.m) y) {i : ℕ} (hi : i∈Finset.range payoff.n) :
    0≤rowUtility payoff y i ∧ rowUtility payoff y i≤0+1 := by
  have hcomm : rowUtility payoff y i=∑ j∈Finset.range payoff.m,y j*payoff.get i j :=
    Finset.sum_congr rfl fun j _ => mul_comm _ _
  have hget := fun j (hj : j∈Finset.range payoff.m) =>
    hunit.get (Finset.mem_range.mp hi) (Finset.mem_range.mp hj)
  rw [hcomm,zero_add]
  exact ⟨hy.le_sum fun j hj => (hget j hj).1,hy.sum_le fun j hj => (hget j hj).2⟩

/-- The column player's utilities are averages of payoffs, negated. -/
theorem colUtility_bounds {payoff : Payoff 𝕜} (hunit : payoff.Unit) {x : ℕ → 𝕜}
    (hx : Mixed (Finset.range payoff.n) x) {j : ℕ} (hj : j∈Finset.range payoff.m) :
    -1≤colUtility payoff x j ∧ colUtility payoff x j≤-1+1 := by
  have hcomm : colUtility payoff x j=-∑ i∈Finset.range payoff.n,x i*payoff.get i j :=
    congrArg _ (Finset.sum_congr rfl fun i _ => mul_comm _ _)
  have hget := fun i (hi : i∈Finset.range payoff.n) =>
    hunit.get (Finset.mem_range.mp hi) (Finset.mem_range.mp hj)
  have hlo := hx.le_sum fun i hi => (hget i hi).1
  have hhi := hx.sum_le fun i hi => (hget i hi).2
  rw [hcomm]
  constructor <;> linarith

/-- The row player's regrets after an iteration. -/
theorem Converging.rowPotential_iteration {payoff : Payoff 𝕜} {iters : ℕ} {sums : Sums 𝕜}
    (h : Converging payoff iters sums) (hunit : payoff.Unit) :
    potential (Finset.range payoff.n) (entry (iteration payoff sums).rowRegret)≤
      payoff.n*((iters+1 : ℕ) : 𝕜) := by
  obtain ⟨hx,hmatched⟩ := scaled_matched h.rowLength payoff.n_pos
  have hy := (scaled_matched h.colLength payoff.columns).1
  have hbounds := fun i => rowUtility_bounds (i := i) hunit hy
  have hstep := hmatched.potential_le hx rfl
    (unit_deviation hx rfl (fun i hi => (hbounds i hi).1) fun i hi => (hbounds i hi).2)
  rw [Finset.card_range] at hstep
  rw [potential_congr fun i hi => iteration_rowRegret payoff sums (Finset.mem_range.mp hi)]
  calc _≤potential (Finset.range payoff.n) (entry sums.rowRegret)+payoff.n := hstep
    _≤payoff.n*iters+payoff.n := add_le_add_left h.rowPotential _
    _=payoff.n*((iters+1 : ℕ) : 𝕜) := by
      rw [Nat.cast_succ]
      ring

/-- The column player's regrets after an iteration. -/
theorem Converging.colPotential_iteration {payoff : Payoff 𝕜} {iters : ℕ} {sums : Sums 𝕜}
    (h : Converging payoff iters sums) (hunit : payoff.Unit) :
    potential (Finset.range payoff.m) (entry (iteration payoff sums).colRegret)≤
      payoff.m*((iters+1 : ℕ) : 𝕜) := by
  have hx := (scaled_matched h.rowLength payoff.n_pos).1
  obtain ⟨hy,hmatched⟩ := scaled_matched h.colLength payoff.columns
  have hbounds := fun j => colUtility_bounds (j := j) hunit hx
  have hvalue := (sum_colUtility payoff (playedRow payoff sums) (playedCol payoff sums)).symm
  have hstep := hmatched.potential_le hy hvalue
    (unit_deviation hy hvalue (fun j hj => (hbounds j hj).1) fun j hj => (hbounds j hj).2)
  rw [Finset.card_range] at hstep
  simp only [sub_neg_eq_add] at hstep
  rw [potential_congr fun j hj => iteration_colRegret payoff sums (Finset.mem_range.mp hj)]
  calc _≤potential (Finset.range payoff.m) (entry sums.colRegret)+payoff.m := hstep
    _≤payoff.m*iters+payoff.m := add_le_add_left h.colPotential _
    _=payoff.m*((iters+1 : ℕ) : 𝕜) := by
      rw [Nat.cast_succ]
      ring

omit [IsStrictOrderedRing 𝕜] in
/-- The regrets still compare the payoffs against the summed strategies with one number. -/
theorem Converging.compared_iteration {payoff : Payoff 𝕜} {iters : ℕ} {sums : Sums 𝕜}
    (h : Converging payoff iters sums) : ∃ won,
    (∀ i∈Finset.range payoff.n,entry (iteration payoff sums).rowRegret i=
      (∑ j∈Finset.range payoff.m,payoff.get i j*entry (iteration payoff sums).colSum j)-won) ∧
    ∀ j∈Finset.range payoff.m,entry (iteration payoff sums).colRegret j=
      won-∑ i∈Finset.range payoff.n,entry (iteration payoff sums).rowSum i*payoff.get i j := by
  obtain ⟨total,hrow,hcol⟩ := h.compared
  refine ⟨total+won payoff (playedRow payoff sums) (playedCol payoff sums),fun i hi => ?_,
    fun j hj => ?_⟩
  · have hsums : ∑ j∈Finset.range payoff.m,payoff.get i j*entry (iteration payoff sums).colSum j=
        (∑ j∈Finset.range payoff.m,payoff.get i j*entry sums.colSum j)+
          rowUtility payoff (playedCol payoff sums) i := by
      unfold rowUtility
      rw [← Finset.sum_add_distrib]
      refine Finset.sum_congr rfl fun j hj => ?_
      rw [iteration_colSum payoff sums (Finset.mem_range.mp hj)]
      ring
    rw [iteration_rowRegret payoff sums (Finset.mem_range.mp hi),hrow i hi,hsums]
    ring
  · have hsums : ∑ i∈Finset.range payoff.n,entry (iteration payoff sums).rowSum i*payoff.get i j=
        (∑ i∈Finset.range payoff.n,entry sums.rowSum i*payoff.get i j)-
          colUtility payoff (playedRow payoff sums) j := by
      unfold colUtility
      rw [sub_neg_eq_add,← Finset.sum_add_distrib]
      refine Finset.sum_congr rfl fun i hi => ?_
      rw [iteration_rowSum payoff sums (Finset.mem_range.mp hi)]
      ring
    rw [iteration_colRegret payoff sums (Finset.mem_range.mp hj),hcol j hj,hsums]
    ring

/-- One iteration. -/
theorem Converging.iteration {payoff : Payoff 𝕜} {iters : ℕ} {sums : Sums 𝕜}
    (h : Converging payoff iters sums) (hunit : payoff.Unit) :
    Converging payoff (iters+1) (iteration payoff sums) := by
  have hx := (scaled_matched h.rowLength payoff.n_pos).1
  have hy := (scaled_matched h.colLength payoff.columns).1
  have hrowSum := fun i => iteration_rowSum payoff sums (i := i)
  have hcolSum := fun j => iteration_colSum payoff sums (j := j)
  exact
    { rowLength := length_tabulate _ _
      colLength := length_tabulate _ _
      rowPotential := h.rowPotential_iteration hunit
      colPotential := h.colPotential_iteration hunit
      rowSumLength := length_tabulate _ _
      colSumLength := length_tabulate _ _
      rowNonneg := nonneg_of_added (length_tabulate _ _) hrowSum h.rowNonneg hx.nonneg
      colNonneg := nonneg_of_added (length_tabulate _ _) hcolSum h.colNonneg hy.nonneg
      rowTotal := total_of_added hrowSum hx h.rowTotal
      colTotal := total_of_added hcolSum hy h.colTotal
      compared := h.compared_iteration }

/-- The run lemma: after any number of iterations. -/
theorem iterations_converging {payoff : Payoff 𝕜} (hunit : payoff.Unit) (iters : ℕ) :
    Converging payoff iters (iterations payoff iters) := by
  induction iters with
  | zero =>
    have hinitial := initial_converging payoff
    exact hinitial
  | succ iters ih => exact ih.iteration hunit

/-- Nonnegative sums of so many strategies are divided by their number. -/
theorem normalize_entry {n iters : ℕ} {xs : List 𝕜} (hlength : xs.length=n)
    (hnonneg : ∀ i,0≤entry xs i) (htotal : ∑ i∈Finset.range n,entry xs i=iters) (hiters : 1≤ iters)
    (i : ℕ) : entry (normalize xs) i=entry xs i/iters := by
  have hpos : 0<(iters : 𝕜) := by exact_mod_cast hiters
  have hparts : ∑ i∈Finset.range n,max (entry xs i) 0=iters := by
    rw [← htotal]
    exact Finset.sum_congr rfl fun i _ => max_eq_left (hnonneg i)
  have hsum := sum_positive xs
  rw [hlength,hparts] at hsum
  unfold normalize scaled
  dsimp only
  rw [hsum,if_neg (not_le.mpr hpos),entry_map (zero_div _),entry_map (by simp),posPart_eq,
    max_eq_left (hnonneg i)]

/-- The averaged strategies are probability vectors. -/
theorem normalize_vector {n : ℕ} {xs : List 𝕜} (hlength : xs.length=n) (hn : 0<n) :
    ProbabilityVector n (normalize xs) := by
  have hmixed := (scaled_matched hlength hn).1
  rw [← hlength] at hmixed
  rw [← hlength]
  exact probabilityVector_of_mixed (length_scaled rfl) hmixed

/-- The gap is at most the largest regret of each player, on average. -/
theorem maxminGap_le {payoff : Payoff 𝕜} {row col : List 𝕜} (won : 𝕜) {r c : 𝕜}
    (hupper : ∀ i∈Finset.range payoff.n,
      ∑ j∈Finset.range payoff.m,payoff.get i j*entry col j≤r+won)
    (hlower : ∀ j∈Finset.range payoff.m,
      won-c≤∑ i∈Finset.range payoff.n,entry row i*payoff.get i j) :
    maxminGap payoff row col≤r+c := by
  have hmax : ((tabulate payoff.n fun i =>
      sumOver payoff.m fun j => payoff.get i j*entry col j).max?.getD 0)≤r+won := by
    cases hbest : (tabulate payoff.n fun i =>
      sumOver payoff.m fun j => payoff.get i j*entry col j).max? with
    | none =>
      have hlength := congrArg List.length (List.max?_eq_none_iff.mp hbest)
      rw [length_tabulate] at hlength
      exact absurd hlength payoff.n_pos.ne'
    | some best =>
      obtain ⟨i,hi,hvalue⟩ := List.mem_map.mp (List.max?_mem hbest)
      have hle := hupper i (Finset.mem_range.mpr (List.mem_range.mp hi))
      exact hvalue.symm.trans_le hle
  have hmin : won-c≤((tabulate payoff.m fun j =>
      sumOver payoff.n fun i => entry row i*payoff.get i j).min?.getD 0) := by
    cases hworst : (tabulate payoff.m fun j =>
      sumOver payoff.n fun i => entry row i*payoff.get i j).min? with
    | none =>
      have hlength := congrArg List.length (List.min?_eq_none_iff.mp hworst)
      rw [length_tabulate] at hlength
      exact absurd hlength payoff.columns.ne'
    | some worst =>
      obtain ⟨j,hj,hvalue⟩ := List.mem_map.mp (List.min?_mem hworst)
      have hle := hlower j (Finset.mem_range.mpr (List.mem_range.mp hj))
      exact hle.trans_eq hvalue
  unfold maxminGap
  dsimp only
  linarith

end Rate

section Convergence

/-- With payoffs between 0 and 1, after any number of iterations the squares of the positive
regrets add up to at most the number of actions for each iteration, and the averaged
strategies are probability vectors whose gap falls with the root of the number of
iterations. -/
theorem regrets_converge (payoff : Payoff ℝ) (hunit : payoff.Unit) (iters : ℕ) (h : 1≤ iters) :
    let sums := iterations payoff iters
    let solved := solveRegretMatching payoff iters
    (∑ i∈Finset.range payoff.n,max (entry sums.rowRegret i) 0^2≤payoff.n*iters) ∧
    (∑ j∈Finset.range payoff.m,max (entry sums.colRegret j) 0^2≤payoff.m*iters) ∧
    ProbabilityVector payoff.n solved.1 ∧ ProbabilityVector payoff.m solved.2.1 ∧
    maxminGap payoff solved.1 solved.2.1≤(√payoff.n+√payoff.m)/√iters := by
  have hconverging := iterations_converging hunit iters
  refine ⟨hconverging.rowPotential,hconverging.colPotential,
    normalize_vector hconverging.rowSumLength payoff.n_pos,
    normalize_vector hconverging.colSumLength payoff.columns,?_⟩
  obtain ⟨won,hrow,hcol⟩ := hconverging.compared
  have hiters : 0<(iters : ℝ) := by exact_mod_cast h
  rw [← average_rate payoff.n payoff.m h,add_div]
  have hrowEntry := normalize_entry hconverging.rowSumLength hconverging.rowNonneg
    hconverging.rowTotal h
  have hcolEntry := normalize_entry hconverging.colSumLength hconverging.colNonneg
    hconverging.colTotal h
  refine maxminGap_le (won/iters) (fun i hi => ?_) fun j hj => ?_
  · have hregret := regret_le_sqrt hconverging.rowPotential hi
    have haverage : ∑ j∈Finset.range payoff.m,
        payoff.get i j*entry (solveRegretMatching payoff iters).2.1 j=
        (entry (iterations payoff iters).rowRegret i+won)/iters := by
      rw [hrow i hi,sub_add_cancel,Finset.sum_div]
      refine Finset.sum_congr rfl fun j _ => ?_
      rw [mul_div_assoc,← hcolEntry j]
      rfl
    rw [haverage,← add_div]
    exact div_le_div_of_nonneg_right (by linarith) hiters.le
  · have hregret := regret_le_sqrt hconverging.colPotential hj
    have haverage : ∑ i∈Finset.range payoff.n,
        entry (solveRegretMatching payoff iters).1 i*payoff.get i j=
        (won-entry (iterations payoff iters).colRegret j)/iters := by
      rw [hcol j hj,sub_sub_cancel,Finset.sum_div]
      refine Finset.sum_congr rfl fun i _ => ?_
      rw [mul_div_right_comm,← hrowEntry i]
      rfl
    rw [haverage,← sub_div]
    exact div_le_div_of_nonneg_right (by linarith) hiters.le

/-- Matching pennies. -/
def pennies : Payoff ℝ where
  entries := [[1,0],[0,1]]
  m := 2
  nonempty := List.cons_ne_nil _ _
  columns := Nat.zero_lt_two
  rectangular := by simp

theorem pennies_converge :
    maxminGap pennies (solveRegretMatching pennies 8).1 (solveRegretMatching pennies 8).2.1≤1 := by
  have hunit : pennies.Unit := by simp [Payoff.Unit,pennies]
  have hgap := (regrets_converge pennies hunit 8 (by norm_num)).2.2.2.2
  have hroot : (√(2 : ℝ)+√2)/√8=1 := by
    have height : √(8 : ℝ)=2*√2 := by
      rw [show (8 : ℝ)=2^2*2 by norm_num,Real.sqrt_mul (by norm_num),Real.sqrt_sq (by norm_num)]
    rw [height,← two_mul,div_self (by positivity)]
  exact hgap.trans_eq hroot

end Convergence

end KiClash.RegretMatching
