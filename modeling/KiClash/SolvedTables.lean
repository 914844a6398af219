import KiClash.MatrixGames
import KiClash.Solver
import Mathlib.Algebra.BigOperators.Fin
import Mathlib.Data.List.Nodup
import Mathlib.Data.List.ProdSigma

/-!
# What the round tables contain

The three nested loops of solve_round_table visit every state of a round once,
later turns first, and a cell only reads the turn after its own. So the final
table satisfies one equation at every state, which an exact stage solver turns
into a statement about matrix games: the stored strategy secures the stored
value, and the stored value is the value of the stage.
-/

namespace KiClash.SolvedTables

open EngineTypes Transition Solver MatrixGames

/-- A state of a round: the turn and both ki values. -/
abbrev Cell := ℤ×ℤ×ℤ

/-- The states in the order of the loops. -/
def cells : List Cell := turnsBackwards.product ((pyRange (kiCap+1)).product (pyRange (kiCap+1)))

/-- Body of the loops at a state. -/
def visit (solve : StageSolver) (table : RoundTable) (cell : Cell) : RoundTable :=
  solveCell solve cell.1 cell.2.1 cell.2.2 table

/-- The nested loops are one loop over the states. -/
theorem solveRoundTable_eq (solve : StageSolver) (lam : ℚ) :
    solveRoundTable solve lam=cells.foldl (visit solve) (emptyTable lam) := by
  simp only [solveRoundTable,cells,List.product,List.foldl_flatMap,List.foldl_map,visit]

/-- The turns, last one first. -/
theorem mem_turnsBackwards {turn : ℤ} : turn∈turnsBackwards ↔ 1≤turn ∧ turn≤turnLimit := by
  unfold turnsBackwards
  simp only [List.mem_map,List.mem_reverse,mem_pyRange]
  constructor
  · rintro ⟨turn',h,rfl⟩
    unfold turnLimit at *
    omega
  · intro h
    refine ⟨turn-1,?_,by omega⟩
    unfold turnLimit at *
    omega

theorem turnsBackwards_pairwise : turnsBackwards.Pairwise (·>·) := by decide

/-- Ki values within their bounds. -/
def KiBounds (ki : ℤ) : Prop := 0≤ki ∧ ki≤kiCap

instance (ki : ℤ) : Decidable (KiBounds ki) := inferInstanceAs (Decidable (_ ∧ _))

theorem mem_kis {ki : ℤ} : ki∈pyRange (kiCap+1) ↔ KiBounds ki := by
  rw [mem_pyRange]
  unfold KiBounds kiCap
  omega

/-- All states of a round. -/
theorem mem_cells {turn myKi oppKi : ℤ} :
    (turn,myKi,oppKi)∈cells ↔ (1≤turn ∧ turn≤turnLimit) ∧ KiBounds myKi ∧ KiBounds oppKi := by
  unfold cells
  simp only [List.pair_mem_product,mem_turnsBackwards,mem_kis]

/-- No state is visited twice, and no turn before a later one. -/
theorem cells_pairwise : cells.Pairwise fun cell cell' => cell≠cell' ∧ cell'.1≤cell.1 := by
  have hkis : (pyRange (kiCap+1)).Nodup := by decide
  have hturns : turnsBackwards.Nodup := turnsBackwards_pairwise.imp fun h => h.ne'
  refine List.Pairwise.and (hturns.product (hkis.product hkis)) ?_
  unfold cells List.product
  rw [List.pairwise_flatMap]
  constructor
  · intro turn _
    rw [List.pairwise_map]
    exact List.pairwise_of_forall fun _ _ => le_rfl
  · refine turnsBackwards_pairwise.imp fun {turn turn'} hlt cell hcell cell' hcell' => ?_
    obtain ⟨kis,-,rfl⟩ := List.mem_map.mp hcell
    obtain ⟨kis',-,rfl⟩ := List.mem_map.mp hcell'
    exact hlt.le

/-- A stage only asks for the values of the next turn. -/
theorem buildStageMatrix_congr {myKi oppKi turn : ℤ} {lam : ℚ} {valueFn valueFn' : ValueFn}
    (h : ∀ a b,valueFn a b (turn+1)=valueFn' a b (turn+1)) :
    buildStageMatrix myKi oppKi turn lam valueFn=buildStageMatrix myKi oppKi turn lam valueFn' := by
  have hentry : ∀ me opp,stagePayoff me opp myKi oppKi turn lam valueFn=
      stagePayoff me opp myKi oppKi turn lam valueFn' := by
    intro me opp
    simp only [stagePayoff,h]
  simp only [buildStageMatrix,hentry]

/-- A cell holds what the stage solver returns for its stage, given the values
of the same table. -/
structure CellSolved (solve : StageSolver) (table : RoundTable) (turn myKi oppKi : ℤ) : Prop where
  /-- The value. -/
  value : table.v myKi oppKi (turn-1)=
    (solve (buildStageMatrix myKi oppKi turn table.lam table.valueFn).2.2).2
  /-- The strategy, over the affordable actions. -/
  strategy : table.sigma myKi oppKi (turn-1)=storeRow (affordableActions myKi)
    (solve (buildStageMatrix myKi oppKi turn table.lam table.valueFn).2.2).1
    (List.replicate actionOrder.length 0)

/-- What holds after the loops have visited some states. -/
structure Progress (solve : StageSolver) (lam : ℚ) (visited : List Cell) (table : RoundTable) :
    Prop where
  /-- The draw weight stays. -/
  weight : table.lam=lam
  /-- Visited states are solved. -/
  solved : ∀ cell∈visited,CellSolved solve table cell.1 cell.2.1 cell.2.2
  /-- The others hold zeros. -/
  untouched : ∀ turn myKi oppKi,(turn,myKi,oppKi)∉visited →
    table.sigma myKi oppKi (turn-1)=List.replicate actionOrder.length 0

/-- Visiting a state whose turn has its continuation values solves it and
leaves the other states as they are. -/
theorem Progress.visit {solve : StageSolver} {lam : ℚ} {visited : List Cell} {table : RoundTable}
    (h : Progress solve lam visited table) (cell : Cell) (hnew : cell∉visited)
    (hturns : ∀ cell'∈visited,cell.1≤cell'.1) :
    Progress solve lam (visited++[cell]) (visit solve table cell) := by
  obtain ⟨turn,myKi,oppKi⟩ := cell
  have hread : ∀ turn' a b c,turn≤turn' →
      buildStageMatrix a b turn' c (SolvedTables.visit solve table (turn,myKi,oppKi)).valueFn=
        buildStageMatrix a b turn' c table.valueFn := by
    intro turn' a b c hle
    refine buildStageMatrix_congr fun myNext oppNext => if_neg ?_
    rintro ⟨-,-,hindex⟩
    omega
  refine ⟨h.weight,fun cell' hcell' => ?_,fun turn' a b hout => ?_⟩
  · obtain ⟨turn',a,b⟩ := cell'
    rcases List.mem_append.mp hcell' with hold | hsame
    · have hle : turn≤turn' := hturns _ hold
      have hother : ¬(a=myKi ∧ b=oppKi ∧ turn'-1=turn-1) := by
        rintro ⟨rfl,rfl,hindex⟩
        obtain rfl : turn=turn' := by omega
        exact hnew hold
      obtain ⟨hvalue,hstrategy⟩ := h.solved _ hold
      constructor
      · rw [hread turn' a b _ hle]
        exact (if_neg hother).trans hvalue
      · rw [hread turn' a b _ hle]
        exact (if_neg hother).trans hstrategy
    · cases List.mem_singleton.mp hsame
      constructor
      · rw [hread _ _ _ _ le_rfl]
        exact if_pos ⟨rfl,rfl,rfl⟩
      · rw [hread _ _ _ _ le_rfl,← h.untouched _ _ _ hnew]
        exact if_pos ⟨rfl,rfl,rfl⟩
  · rw [List.mem_append,List.mem_singleton,not_or] at hout
    refine (if_neg ?_).trans (h.untouched turn' a b hout.1)
    rintro ⟨rfl,rfl,hindex⟩
    obtain rfl : turn=turn' := by omega
    exact hout.2 rfl

/-- The run of the loops. -/
theorem Progress.run {solve : StageSolver} {lam : ℚ} {visited rest : List Cell} {table : RoundTable}
    (h : Progress solve lam visited table)
    (horder : (visited++rest).Pairwise fun cell cell' => cell≠cell' ∧ cell'.1≤cell.1) :
    Progress solve lam (visited++rest) (rest.foldl (SolvedTables.visit solve) table) := by
  induction rest generalizing visited table with
  | nil => simpa using h
  | cons cell rest ih =>
    have hcell : ∀ cell'∈visited,cell'≠cell ∧ cell.1≤cell'.1 := by
      intro cell' hcell'
      exact (List.pairwise_append.mp horder).2.2 cell' hcell' cell List.mem_cons_self
    have hvisit := h.visit cell (fun hmem => (hcell cell hmem).1 rfl)
      fun cell' hcell' => (hcell cell' hcell').2
    have hsplit : visited++cell::rest=visited++[cell]++rest := by simp
    rw [hsplit] at horder ⊢
    exact ih hvisit horder

/-- The table that solve_round_table returns is solved at every state. -/
theorem solveRoundTable_solved (solve : StageSolver) (lam : ℚ) :
    Progress solve lam cells (solveRoundTable solve lam) := by
  have hempty : Progress solve lam [] (emptyTable lam) :=
    ⟨rfl,fun _ hmem => absurd hmem List.not_mem_nil,fun _ _ _ _ => rfl⟩
  have hrun := hempty.run cells_pairwise
  rw [solveRoundTable_eq]
  exact hrun

section Stages

variable {A B : Type} [DecidableEq A] [DecidableEq B]

/-- An expectation over a list of actions is one over their set. -/
theorem expectation_map {actions : List A} (hnodup : actions.Nodup) (x f : A → ℚ) :
    expectation (actions.map x) (actions.map f)=∑ a∈actions.toFinset,x a*f a := by
  rw [expectation,List.zipWith_map,List.zipWith_self,List.sum_toFinset _ hnodup]

omit [DecidableEq A] [DecidableEq B] in
/-- The column of an action. -/
theorem column_map {rows : List A} {cols : List B} (M : A → B → ℚ) {j : ℕ} (hj : j<cols.length) :
    column (rows.map fun a => cols.map (M a)) j=rows.map fun a => M a cols[j] := by
  simp only [column,List.map_map]
  refine List.map_congr_left fun a _ => ?_
  simp [List.getD,hj]

/-- Weights over a set of actions are a distribution over a list of them. -/
theorem distribution_map {actions : List A} (hnodup : actions.Nodup) {x : A → ℚ}
    (hx : Mixed actions.toFinset x) : Distribution actions.length (actions.map x) where
  length := List.length_map _
  nonneg := by
    intro weight hweight
    obtain ⟨a,-,rfl⟩ := List.mem_map.mp hweight
    exact hx.nonneg a
  total := by rw [← List.sum_toFinset _ hnodup,hx.sum]

/-- A maximin row of the matrix of a stage, as weights over the actions: it is
a mixed strategy, it secures what the solver returned, and that is the value. -/
theorem maximinRow_value {rows : List A} {cols : List B} (hrows : rows.Nodup)
    (hne : cols≠[]) {M : A → B → ℚ} {x : A → ℚ} (hzero : ∀ a,a∉rows → x a=0) {v : ℚ}
    (h : MaximinRow (rows.map fun a => cols.map (M a)) cols.length (rows.map x) v) :
    Mixed rows.toFinset x ∧ (∀ b∈cols.toFinset,v≤∑ a∈rows.toFinset,x a*M a b) ∧
      IsValue rows.toFinset cols.toFinset M v := by
  have hmixed : Mixed rows.toFinset x := by
    refine ⟨fun a => ?_,fun a ha => hzero a (by simpa using ha),?_⟩
    · by_cases ha : a∈rows
      · exact h.distribution.nonneg _ (List.mem_map_of_mem ha)
      · exact (hzero a ha).ge
    · rw [List.sum_toFinset _ hrows,h.distribution.total]
  have hsecures : ∀ b∈cols.toFinset,v≤∑ a∈rows.toFinset,x a*M a b := by
    intro b hb
    obtain ⟨j,hj,rfl⟩ := List.mem_iff_getElem.mp (List.mem_toFinset.mp hb)
    have hcolumn := h.secures j hj
    rwa [column_map M hj,expectation_map hrows] at hcolumn
  refine ⟨hmixed,hsecures,isValue_of_maximin ?_ hmixed hsecures fun x' hx' => ?_⟩
  · obtain ⟨b,hb⟩ := List.exists_mem_of_ne_nil cols hne
    exact ⟨b,List.mem_toFinset.mpr hb⟩
  · have hlength : (rows.map fun a => cols.map (M a)).length=rows.length := List.length_map _
    obtain ⟨j,hj,hle⟩ := h.best (rows.map x') (hlength ▸ distribution_map hrows hx')
    rw [column_map M hj,expectation_map hrows] at hle
    exact ⟨cols[j],List.mem_toFinset.mpr (List.getElem_mem hj),hle⟩

end Stages

/-- An expectation over the positions of two lists. -/
theorem expectation_ofFn {n : ℕ} (x f : Fin n → ℚ) :
    expectation (List.ofFn x) (List.ofFn f)=∑ i,x i*f i := by
  rw [expectation,List.ofFn_eq_map,List.ofFn_eq_map,List.zipWith_map,List.zipWith_self,
    ← List.ofFn_eq_map,List.sum_ofFn]

/-- Every matrix has a maximin row. -/
theorem exists_maximinRow {payoff : List (List ℚ)} {m : ℕ} (hne : payoff≠[]) (hm : 0< m) :
    ∃ solved : List ℚ×ℚ,MaximinRow payoff m solved.1 solved.2 := by
  let M : Fin payoff.length → Fin m → ℚ := fun i j => payoff[i].getD j 0
  have hcolumn : ∀ j : Fin m,column payoff j=List.ofFn fun i => M i j := by
    intro j
    apply List.ext_getElem <;> simp [column,M]
  have hcols : (Finset.univ : Finset (Fin m)).Nonempty := ⟨⟨0,hm⟩,Finset.mem_univ _⟩
  have hrows : (Finset.univ : Finset (Fin payoff.length)).Nonempty :=
    ⟨⟨0,List.length_pos_of_ne_nil hne⟩,Finset.mem_univ _⟩
  obtain ⟨v,⟨x,hx,hv⟩,⟨y,hy,hw⟩⟩ := exists_value hrows hcols M
  refine ⟨(List.ofFn x,v),⟨List.length_ofFn,?_,?_⟩,fun j hj => ?_,fun row' hrow' => ?_⟩
  · intro weight hweight
    obtain ⟨i,rfl⟩ := (List.mem_ofFn' _ _).mp hweight
    exact hx.nonneg i
  · rw [List.sum_ofFn,hx.sum]
  · rw [hcolumn ⟨j,hj⟩,expectation_ofFn]
    exact hv ⟨j,hj⟩ (Finset.mem_univ _)
  · obtain ⟨x',rfl⟩ : ∃ x' : Fin payoff.length → ℚ,row'=List.ofFn x' := by
      refine ⟨fun i => row'.get (Fin.cast hrow'.length.symm i),?_⟩
      apply List.ext_getElem <;> simp [hrow'.length]
    have hx' : Mixed Finset.univ x' := by
      refine ⟨fun i => hrow'.nonneg _ (List.mem_ofFn.mpr ⟨i,rfl⟩),fun i hi => ?_,?_⟩
      · exact absurd (Finset.mem_univ i) hi
      · rw [← List.sum_ofFn,hrow'.total]
    -- the column against which the strategy does worst
    obtain ⟨j,-,hleast⟩ := Finset.exists_min_image _ (fun j => ∑ i,x' i*M i j) hcols
    refine ⟨j,j.isLt,?_⟩
    rw [hcolumn j,expectation_ofFn]
    exact secured_le hx' hy hleast hw

open Classical in
/-- A stage solver that finds a maximin row wherever there is one. -/
noncomputable def exactSolver : StageSolver := fun payoff =>
  if h : ∃ solved : List ℚ×ℚ,MaximinRow payoff (payoff.headD []).length solved.1 solved.2
    then h.choose else ([],0)

/-- Exact stage solvers exist. -/
theorem exactSolver_exact : ExactSolver exactSolver := by
  intro payoff m hne hm hlength
  obtain rfl : (payoff.headD []).length=m := by
    cases payoff with
    | nil => exact absurd rfl hne
    | cons entries payoff => exact hlength entries List.mem_cons_self
  have hexists := exists_maximinRow hne hm
  have hchosen := hexists.choose_spec
  rw [exactSolver,dif_pos hexists]
  exact hchosen

/-- No action has a number of another one. -/
theorem actionIndex_injective {a b : Action} (h : actionIndex a=actionIndex b) : a=b := by
  cases a <;> cases b <;> first | rfl | exact absurd h (by decide)

theorem actionIndex_lt (action : Action) : actionIndex action<actionOrder.length := by
  cases action <;> decide

/-- The weight that a cell holds for an action. -/
def weight (cell : List ℚ) (action : Action) : ℚ := cell.getD (actionIndex action) 0

/-- Storing a row strategy leaves the weights of other actions. -/
theorem weight_storeRow_of_notMem {rows : List Action} {action : Action} (h : action∉rows)
    (rowStrat cell : List ℚ) : weight (storeRow rows rowStrat cell) action=weight cell action := by
  unfold storeRow
  induction rows generalizing rowStrat cell with
  | nil => rfl
  | cons row rows ih =>
    cases rowStrat with
    | nil => rfl
    | cons first rowStrat =>
      rw [List.mem_cons,not_or] at h
      rw [List.zip_cons_cons,List.foldl_cons,ih h.2]
      have hne : actionIndex row≠actionIndex action := fun he => h.1 (actionIndex_injective he).symm
      simp [weight,List.getD,List.getElem?_set_ne hne]

/-- After storing, the rows have the weights of the strategy. -/
theorem map_weight_storeRow {rows : List Action} (hrows : rows.Nodup) {rowStrat cell : List ℚ}
    (hlength : rowStrat.length=rows.length) (hcell : cell.length=actionOrder.length) :
    rows.map (weight (storeRow rows rowStrat cell))=rowStrat := by
  induction rows generalizing rowStrat cell with
  | nil => exact (List.length_eq_zero_iff.mp hlength).symm
  | cons row rows ih =>
    cases rowStrat with
    | nil => simp at hlength
    | cons first rowStrat =>
      obtain ⟨hrow,hrows⟩ := List.nodup_cons.mp hrows
      have hstore : storeRow (row::rows) (first::rowStrat) cell=
          storeRow rows rowStrat (cell.set (actionIndex row) first) := rfl
      have hfirst : weight (storeRow rows rowStrat (cell.set (actionIndex row) first)) row=first := by
        rw [weight_storeRow_of_notMem hrow]
        simp [weight,List.getD,hcell,actionIndex_lt]
      rw [hstore,List.map_cons,hfirst,ih hrows (by simpa using hlength) (by simpa using hcell)]

theorem nodup_affordableActions (ki : ℤ) : (affordableActions ki).Nodup :=
  List.Nodup.filter _ (by decide)

/-- Charging is always affordable. -/
theorem affordableActions_ne_nil {ki : ℤ} (h : 0≤ki) : affordableActions ki≠[] :=
  List.ne_nil_of_mem (mem_affordableActions.mpr h : Action.charge∈affordableActions ki)

/-- The strategy that a table stores for a state. -/
def storedStrategy (table : RoundTable) (turn myKi oppKi : ℤ) : Action → ℚ :=
  weight (table.sigma myKi oppKi (turn-1))

/-- What an exact stage solver leaves at every state of the round. -/
theorem solved_stage {solve : StageSolver} (hexact : ExactSolver solve) (lam : ℚ)
    {turn myKi oppKi : ℤ} (hturn : 1≤turn ∧ turn≤turnLimit) (hmy : KiBounds myKi)
    (hopp : KiBounds oppKi) :
    let table := solveRoundTable solve lam
    let rows := (affordableActions myKi).toFinset
    let cols := (affordableActions oppKi).toFinset
    let x := storedStrategy table turn myKi oppKi
    let payoff := fun me opp => stagePayoff me opp myKi oppKi turn lam table.valueFn
    Mixed rows x ∧ (∀ b∈cols,table.valueFn myKi oppKi turn≤∑ a∈rows,x a*payoff a b) ∧
      IsValue rows cols payoff (table.valueFn myKi oppKi turn) := by
  intro table rows cols x payoff
  have hprogress := solveRoundTable_solved solve lam
  obtain ⟨hvalue,hstrategy⟩ := hprogress.solved _ (mem_cells.mpr ⟨hturn,hmy,hopp⟩)
  rw [hprogress.weight] at hvalue hstrategy
  have hrow := affordableActions_ne_nil hmy.1
  have hcol := affordableActions_ne_nil hopp.1
  have hmaximin := hexact (buildStageMatrix myKi oppKi turn lam table.valueFn).2.2
    (affordableActions oppKi).length (by simpa [buildStageMatrix] using hrow)
    (List.length_pos_of_ne_nil hcol) (by simp [buildStageMatrix])
  have hx : (affordableActions myKi).map x=
      (solve (buildStageMatrix myKi oppKi turn lam table.valueFn).2.2).1 := by
    have hlength := hmaximin.distribution.length
    simp only [buildStageMatrix,List.length_map] at hlength
    change (affordableActions myKi).map (weight _)=_
    rw [hstrategy]
    exact map_weight_storeRow (nodup_affordableActions myKi) hlength (List.length_replicate)
  have hzero : ∀ a,a∉affordableActions myKi → x a=0 := by
    intro a ha
    change weight _ a=0
    rw [hstrategy,weight_storeRow_of_notMem ha]
    simp [weight,List.getD,actionIndex_lt]
  rw [← hx,← hvalue] at hmaximin
  exact maximinRow_value (nodup_affordableActions myKi) hcol hzero hmaximin

end KiClash.SolvedTables
