import KiClash.DecimalRounding
import KiClash.GrandmasterPolicy
import KiClash.MatchSymmetry
import KiClash.OrderedDicts

/-!
# The strategy table that is shipped

build_full_strategy, serialize and _assert_invariants of solver.py. The match induction
asks for the value of a round at a rounded draw weight, and keeps the tables that it solves;
the tables of all scores are then put into dictionaries, whose floats are rounded. Numbers
are exact. Whatever exact stage solver is used, the built table passes its checks, before
and after it is rounded, and a match always finds the entries of its own score in it.
-/

namespace KiClash.StrategyBuild

open EngineTypes Engine EngineRuns Transition RoundSimulation Solver SolvedTables RoundGames
  MatchDecomposition MatchSymmetry ExploitabilityBound GrandmasterPolicy DecimalRounding OrderedDicts

section Build

/-- _LAMBDA_DECIMALS. -/
def lambdaDecimals : ℕ := 6

/-- round(x, _LAMBDA_DECIMALS). -/
def roundFloat (x : ℚ) : ℚ := roundDecimals lambdaDecimals x

/-- _lambda_key. -/
def lambdaKey (lam : ℚ) : String := "lam_"++formatDecimals lambdaDecimals (roundFloat lam)

/-- cache.get(key), or else the table is solved and cached. -/
def cachedTable (solve : StageSolver) (key : ℚ) (cache : Dict ℚ RoundTable) :
    RoundTable×Dict ℚ RoundTable :=
  match cache.get key with
  | some table => (table,cache)
  | none => (solveRoundTable solve key,cache.set key (solveRoundTable solve key))

/-- r_value of _table_cache_r_value. -/
def rValue (solve : StageSolver) (lam : ℚ) (cache : Dict ℚ RoundTable) : ℚ×Dict ℚ RoundTable :=
  let (table,cache) := cachedTable solve (roundFloat lam) cache
  (roundStartValue table,cache)

/-- The dictionaries of _match_induction, and the cache of its oracle. -/
structure Induction where
  /-- lambdas. -/
  lambdas : Dict String ℚ
  /-- values. -/
  values : Dict String ℚ
  /-- memo. -/
  memo : Dict Score ℚ
  /-- cache. -/
  cache : Dict ℚ RoundTable

/-- What u enters for a score. -/
def Induction.enter (state : Induction) (score : Score) (lam result : ℚ) : Induction where
  lambdas := state.lambdas.set (scoreKey score) lam
  values := state.values.set (scoreKey score) result
  memo := state.memo.set score result
  cache := state.cache

/-- The draw weight and the value of a round whose results are worth so much. -/
def solveRound (solve : StageSolver) (win loss draw : ℚ) (state : Induction) : (ℚ×ℚ)×Induction :=
  if win=loss then ((1/2,loss),state)
  else
    let lam := (draw-loss)/(win-loss)
    let (r,cache) := rValue solve lam state.cache
    ((lam,loss+(win-loss)*r),{state with cache := cache})

/-- u of _match_induction, with the oracle that caches its tables. -/
def uCached (solve : StageSolver) (my opp roundsPlayed : ℤ) (state : Induction) : ℚ×Induction :=
  match _h : (terminalMatchValue my opp roundsPlayed : Option ℚ) with
  | some terminal => (terminal,state)
  | none =>
    match state.memo.get (my,opp,roundsPlayed) with
    | some value => (value,state)
    | none =>
      let win := uCached solve (my+1) opp (roundsPlayed+1) state
      let loss := uCached solve my (opp+1) (roundsPlayed+1) win.2
      let draw := uCached solve my opp (roundsPlayed+1) loss.2
      let solved := solveRound solve win.1 loss.1 draw.1 draw.2
      (solved.1.2,solved.2.enter (my,opp,roundsPlayed) solved.1.1 solved.1.2)
termination_by (3-roundsPlayed).toNat
decreasing_by all_goals have := roundsPlayed_lt _h; omega

/-- _match_induction with that oracle. -/
def matchInductionCached (solve : StageSolver) : Induction :=
  reachableMatchStates.foldl
    (fun state score => (uCached solve score.1 score.2.1 score.2.2 state).2)
    ⟨.empty,.empty,.empty,.empty⟩

/-- The dictionary that build_full_strategy returns. -/
structure Strategy where
  /-- match_state_to_lambda. -/
  matchStateToLambda : Dict String ℚ
  /-- match_state_to_table. -/
  matchStateToTable : Dict String String
  /-- match_state_to_value. -/
  matchStateToValue : Dict String ℚ
  /-- round_tables. -/
  roundTables : Dict String RoundTable

/-- Body of the loop of build_full_strategy, with the cache. -/
def addMatchState (solve : StageSolver) (built : Strategy×Dict ℚ RoundTable)
    (item : String×ℚ) : Strategy×Dict ℚ RoundTable :=
  let (strategy,cache) := built
  let (skey,lam) := item
  let rounded := roundFloat lam
  let (table,cache) := cachedTable solve rounded cache
  let lkey := lambdaKey lam
  ({ strategy with
      matchStateToLambda := strategy.matchStateToLambda.set skey rounded
      matchStateToTable := strategy.matchStateToTable.set skey lkey
      roundTables :=
        match strategy.roundTables.get lkey with
        | some _ => strategy.roundTables
        | none => strategy.roundTables.set lkey ⟨rounded,table.v,table.sigma⟩ },cache)

/-- build_full_strategy. -/
def buildFullStrategy (solve : StageSolver) : Strategy :=
  let state := matchInductionCached solve
  (state.lambdas.items.foldl (addMatchState solve)
    (⟨.empty,.empty,state.values,.empty⟩,state.cache)).1

/-- _round_floats of a round table. -/
def roundCells (table : RoundTable) : RoundTable where
  lam := roundFloat table.lam
  v myKi oppKi turnIndex := roundFloat (table.v myKi oppKi turnIndex)
  sigma myKi oppKi turnIndex := (table.sigma myKi oppKi turnIndex).map roundFloat

/-- serialize. -/
def serialize (strategy : Strategy) : Strategy where
  matchStateToLambda := strategy.matchStateToLambda.mapValues roundFloat
  matchStateToTable := strategy.matchStateToTable
  matchStateToValue := strategy.matchStateToValue.mapValues roundFloat
  roundTables := strategy.roundTables.mapValues roundCells

/-- What the game reads of it. -/
def Strategy.tables (strategy : Strategy) : StrategyTable :=
  ⟨strategy.matchStateToTable.get,strategy.matchStateToLambda.get,strategy.roundTables.get⟩

end Build

section Checks

variable (tol : ℚ)

/-- affordable_mask. -/
def affordableMask (ki : ℤ) : List Bool := actionOrder.map fun action => actionKiCost action≤ki

/-- The assertions about one cell of a round table. -/
def cellHolds (table : RoundTable) (myKi oppKi turnIndex : ℤ) : Bool :=
  let value := table.v myKi oppKi turnIndex
  let vec := table.sigma myKi oppKi turnIndex
  (-tol≤value && value≤1+tol) && (vec.all fun p => p≥-tol) && (|vec.sum-1|≤tol : Bool) &&
    (affordableMask myKi).zipIdx.all fun entry => entry.1 || vec.getD entry.2 0≤tol

/-- The loops over both ki values and the turns. -/
def everyCell (holds : ℤ → ℤ → ℤ → Bool) : Bool :=
  (pyRange (kiCap+1)).all fun myKi => (pyRange (kiCap+1)).all fun oppKi =>
    (pyRange turnLimit).all fun turnIndex => holds myKi oppKi turnIndex

/-- by_lambda. -/
def byLambda (strategy : Strategy) : Dict ℚ RoundTable :=
  .comprehension (fun table : RoundTable => roundFloat table.lam) id
    (strategy.roundTables.items.map Prod.snd)

/-- The assertions about mirrored tables. -/
def mirrorsHold (strategy : Strategy) : Bool :=
  (byLambda strategy).items.all fun entry =>
    match (byLambda strategy).get (roundFloat (1-entry.1)) with
    | none => true
    | some mirror => everyCell fun myKi oppKi turnIndex =>
      |entry.2.v myKi oppKi turnIndex+mirror.v oppKi myKi turnIndex-1|≤tol

/-- The assertions about the values of scores; a missing key raises as well. -/
def valuesHold (values : Dict String ℚ) : Bool :=
  let near (value : Option ℚ) (x : ℚ) : Bool := value.any fun value => |value-x|≤tol
  near (values.get "0-0-0") (1/2) && near (values.get "0-0-1") (1/2) &&
    near (values.get "1-1-2") (1/2) &&
    near ((values.get "1-0-2").bind fun ahead => (values.get "0-1-2").map (ahead+·)) 1

/-- _assert_invariants does not raise. -/
def assertInvariants (strategy : Strategy) : Bool :=
  (strategy.roundTables.items.all fun entry => everyCell (cellHolds tol entry.2)) &&
    mirrorsHold tol strategy && valuesHold tol strategy.matchStateToValue

end Checks

section Caching

variable {solve : StageSolver}

/-- The value of a round at a rounded draw weight. -/
def tableValue (solve : StageSolver) (lam : ℚ) : ℚ :=
  roundStartValue (solveRoundTable solve (roundFloat lam))

/-- Every cached table is the one of its key. -/
def CacheHolds (solve : StageSolver) (cache : Dict ℚ RoundTable) : Prop :=
  ∀ key table,cache.get key=some table → table=solveRoundTable solve key

/-- A cached table is as good as a solved one. -/
theorem cachedTable_holds {cache : Dict ℚ RoundTable} (h : CacheHolds solve cache) (key : ℚ) :
    (cachedTable solve key cache).1=solveRoundTable solve key ∧
      CacheHolds solve (cachedTable solve key cache).2 := by
  unfold cachedTable
  cases hget : cache.get key with
  | some table => exact ⟨h key table hget,h⟩
  | none =>
    refine ⟨rfl,fun key' table' htable => ?_⟩
    rw [Dict.get_set] at htable
    split_ifs at htable with hkey
    · rw [← Option.some.inj htable,hkey]
    · exact h key' table' htable

/-- The induction with a cache stands where the plain one does. -/
structure Follows (solve : StageSolver) (state : Induction) (maps : MatchMaps ℚ) : Prop where
  /-- The weights. -/
  lambdas : ∀ key,state.lambdas.get key=maps.lambdas key
  /-- The values. -/
  values : ∀ key,state.values.get key=maps.values key
  /-- The memo. -/
  memo : ∀ score,state.memo.get score=maps.memo score
  /-- The cache. -/
  cache : CacheHolds solve state.cache
  /-- Only scores before a round are entered. -/
  entered : ∀ key,maps.lambdas key≠none → ∃ score∈reachableMatchStates,key=scoreKey score

/-- A round is solved with its cache as without it. -/
theorem solveRound_follows {state : Induction} {maps : MatchMaps ℚ} (h : Follows solve state maps)
    (win loss draw : ℚ) :
    (solveRound solve win loss draw state).1=solveScore (tableValue solve) win loss draw ∧
      Follows solve (solveRound solve win loss draw state).2 maps := by
  unfold solveRound solveScore
  by_cases hsame : win=loss
  · rw [if_pos hsame,if_pos hsame]
    exact ⟨rfl,h⟩
  · obtain ⟨htable,hcache⟩ := cachedTable_holds h.cache (roundFloat ((draw-loss)/(win-loss)))
    rw [if_neg hsame,if_neg hsame]
    refine ⟨?_,h.lambdas,h.values,h.memo,hcache,h.entered⟩
    simp only [rValue,htable]
    rfl

/-- A score is entered with the cache as without it. -/
theorem Follows.enter {state : Induction} {maps : MatchMaps ℚ} (h : Follows solve state maps)
    {score : Score} (hmem : score∈reachableMatchStates) (lam result : ℚ) :
    Follows solve (state.enter score lam result)
      { lambdas := Function.update maps.lambdas (scoreKey score) (some lam)
        values := Function.update maps.values (scoreKey score) (some result)
        memo := Function.update maps.memo score (some result) } := by
  refine ⟨fun key => ?_,fun key => ?_,fun other => ?_,h.cache,fun key hkey => ?_⟩
  · simp only [Induction.enter,Dict.get_set,Function.update_apply,h.lambdas]
  · simp only [Induction.enter,Dict.get_set,Function.update_apply,h.values]
  · simp only [Induction.enter,Dict.get_set,Function.update_apply,h.memo]
  · simp only [Function.update_apply] at hkey
    by_cases hsame : key=scoreKey score
    · exact ⟨score,hmem,hsame⟩
    · rw [if_neg hsame] at hkey
      exact h.entered key hkey

theorem uCached_terminal {my opp played : ℤ} {state : Induction} {value : ℚ}
    (h : terminalMatchValue my opp played=some value) :
    uCached solve my opp played state=(value,state) := by
  rw [uCached]
  split <;> simp_all

theorem uCached_known {my opp played : ℤ} {state : Induction} {value : ℚ}
    (h : (terminalMatchValue my opp played : Option ℚ)=none)
    (hmemo : state.memo.get (my,opp,played)=some value) :
    uCached solve my opp played state=(value,state) := by
  rw [uCached]
  split
  · simp_all
  · rw [hmemo]

theorem uCached_solves {my opp played : ℤ} {state : Induction}
    (h : (terminalMatchValue my opp played : Option ℚ)=none)
    (hmemo : state.memo.get (my,opp,played)=none) :
    let win := uCached solve (my+1) opp (played+1) state
    let loss := uCached solve my (opp+1) (played+1) win.2
    let draw := uCached solve my opp (played+1) loss.2
    let solved := solveRound solve win.1 loss.1 draw.1 draw.2
    uCached solve my opp played state=
      (solved.1.2,solved.2.enter (my,opp,played) solved.1.1 solved.1.2) := by
  intro win loss draw solved
  rw [uCached]
  split
  · simp_all
  · rw [hmemo]

/-- The recursion with its cache does what the plain one does, with the value of a round at a
rounded weight; by induction on the rounds left. -/
theorem uCached_follows {score : Score} (hc : Counted score) {state : Induction}
    {maps : MatchMaps ℚ} (h : Follows solve state maps) :
    (uCached solve score.1 score.2.1 score.2.2 state).1=
        (u (tableValue solve) score.1 score.2.1 score.2.2 maps).1 ∧
      Follows solve (uCached solve score.1 score.2.1 score.2.2 state).2
        (u (tableValue solve) score.1 score.2.1 score.2.2 maps).2 := by
  induction hn : (3-score.2.2).toNat using Nat.strong_induction_on generalizing score state maps with
  | _ n ih =>
    cases hw : scoreWinner score with
    | some winner =>
      obtain ⟨value,hterminal⟩ := terminalMatchValue_some (K := ℚ) hw
      rw [uCached_terminal hterminal,u_terminal hterminal]
      exact ⟨rfl,h⟩
    | none =>
      have hterminal := terminalMatchValue_none (K := ℚ) hw
      cases hmemo : maps.memo score with
      | some value =>
        rw [uCached_known hterminal ((h.memo score).trans hmemo),u_known hterminal hmemo]
        exact ⟨rfl,h⟩
      | none =>
        have hlt := played_lt hw
        have hfewer : ∀ winner,(3-(afterRound score winner).2.2).toNat<n := by
          intro winner
          simp only [afterRound]
          omega
        have hcached := @uCached_solves solve _ _ _ _ hterminal ((h.memo score).trans hmemo)
        have hplain := u_solves (r := tableValue solve) hterminal hmemo
        dsimp only at hcached hplain
        rw [hcached,hplain]
        -- the three calls, each from where the one before has come to
        obtain ⟨hwin,hstate⟩ := ih _ (hfewer .p2) (hc.next hw .p2) h rfl
        simp only [afterRound,if_true,if_false,add_zero,reduceCtorEq] at hwin hstate
        rw [hwin]
        generalize uCached solve (score.1+1) score.2.1 (score.2.2+1) state=win at hstate ⊢
        generalize u (tableValue solve) (score.1+1) score.2.1 (score.2.2+1) maps=win' at hstate ⊢
        obtain ⟨hloss,hstate'⟩ := ih _ (hfewer .p1) (hc.next hw .p1) hstate rfl
        simp only [afterRound,if_true,if_false,add_zero,reduceCtorEq] at hloss hstate'
        rw [hloss]
        generalize uCached solve score.1 (score.2.1+1) (score.2.2+1) win.2=loss at hstate' ⊢
        generalize u (tableValue solve) score.1 (score.2.1+1) (score.2.2+1) win'.2=loss'
          at hstate' ⊢
        obtain ⟨hdraw,hstate''⟩ := ih _ (hfewer .draw) (hc.next hw .draw) hstate' rfl
        simp only [afterRound,if_false,add_zero,reduceCtorEq] at hdraw hstate''
        rw [hdraw]
        obtain ⟨hsolved,hkept⟩ := solveRound_follows hstate'' win'.1 loss'.1
          (u (tableValue solve) score.1 score.2.1 (score.2.2+1) loss'.2).1
        rw [hsolved]
        exact ⟨rfl,hkept.enter (hc.mem hw) _ _⟩

/-- So does the whole induction. -/
theorem matchInductionCached_follows (solve : StageSolver) :
    Follows solve (matchInductionCached solve) (matchInduction (tableValue solve)) := by
  have hrun : ∀ (scores : List Score) (state : Induction) (maps : MatchMaps ℚ),
      (∀ score∈scores,score∈reachableMatchStates) → Follows solve state maps →
      Follows solve
        (scores.foldl (fun state score => (uCached solve score.1 score.2.1 score.2.2 state).2) state)
        (scores.foldl
          (fun maps score => (u (tableValue solve) score.1 score.2.1 score.2.2 maps).2) maps) := by
    intro scores
    induction scores with
    | nil => exact fun state maps _ h => h
    | cons score scores ih =>
      intro state maps hscores h
      have hc := (counted_of_mem (hscores score List.mem_cons_self)).1
      exact ih _ _ (fun score hs => hscores score (List.mem_cons_of_mem _ hs))
        (uCached_follows hc h).2
  refine hrun _ _ _ (fun _ hs => hs) ⟨fun _ => rfl,fun _ => rfl,fun _ => rfl,?_,?_⟩
  · intro key table h
    cases h
  · intro key h
    exact absurd rfl h

end Caching

section Entries

variable {solve : StageSolver}

/-- The key of a weight that is not negative determines the rounded weight. -/
theorem lambdaKey_inj {lam lam' : ℚ} (hlam : 0≤lam) (hlam' : 0≤lam')
    (h : lambdaKey lam=lambdaKey lam') : roundFloat lam=roundFloat lam' := by
  have hunits : ∀ x : ℚ,0≤x → 0≤roundHalfEven (roundFloat x*10^lambdaDecimals) := by
    intro x hx
    have hrounded : 0≤roundFloat x*10^lambdaDecimals := by
      have h := roundDecimals_mono lambdaDecimals hx
      rw [roundDecimals_zero] at h
      exact mul_nonneg h (by positivity)
    have hmono := roundHalfEven_mono hrounded
    have hzero := roundHalfEven_intCast (K := ℚ) 0
    rw [Int.cast_zero] at hzero
    rwa [hzero] at hmono
  have htext : formatDecimals lambdaDecimals (roundFloat lam)=
      formatDecimals lambdaDecimals (roundFloat lam') := by
    have hlist := congrArg String.toList h
    simp only [lambdaKey,String.toList_append] at hlist
    exact String.toList_inj.mp (List.append_cancel_left hlist)
  have hsame := fixedPoint_inj (hunits lam hlam) (hunits lam' hlam') htext
  have hidem : ∀ x,roundFloat x=(roundHalfEven (roundFloat x*10^lambdaDecimals) : ℤ)/
      10^lambdaDecimals := fun x => (roundDecimals_idem lambdaDecimals x).symm
  rw [hidem lam,hidem lam',hsame]

/-- The opening values of the tables for rounded weights are an oracle of round values. -/
theorem tableValue_oracle (hexact : ExactSolver solve) : RoundOracle (tableValue solve) where
  bounds lam hzero hone := by
    obtain ⟨hlow,hhigh⟩ := roundDecimals_bounds lambdaDecimals hzero hone
    exact (tables_oracle hexact).bounds _ hlow hhigh
  mirror lam hzero hone := by
    obtain ⟨hlow,hhigh⟩ := roundDecimals_bounds lambdaDecimals hzero hone
    have hsix : lambdaDecimals≠0 := by decide
    have hmirror := (tables_oracle hexact).mirror _ hlow hhigh
    have hround : roundFloat (1-lam)=1-roundDecimals lambdaDecimals lam :=
      roundDecimals_one_sub hsix lam
    rw [tableValue,tableValue,hround]
    exact hmirror

/-- The weight of a score is a share. -/
theorem solvedScore_weight (hexact : ExactSolver solve) {score : Score}
    (hmem : score∈reachableMatchStates) :
    0≤(solvedScore (tableValue solve) score).1 ∧ (solvedScore (tableValue solve) score).1≤1 := by
  obtain ⟨hc,hgoes⟩ := counted_of_mem hmem
  have horacle := tableValue_oracle hexact
  exact (fair_of_balanced horacle hc hgoes fun winner =>
    balanced horacle (hc.next hgoes winner)).weight

/-- What the loop of build_full_strategy has made of some items. -/
structure Added (solve : StageSolver) (items : List (String×ℚ))
    (built : Strategy×Dict ℚ RoundTable) : Prop where
  /-- The rounded weights. -/
  lambdas : ∀ item∈items,built.1.matchStateToLambda.get item.1=some (roundFloat item.2)
  /-- The keys of their tables. -/
  tables : ∀ item∈items,built.1.matchStateToTable.get item.1=some (lambdaKey item.2)
  /-- The tables. -/
  named : ∀ item∈items,built.1.roundTables.get (lambdaKey item.2)=
    some (solveRoundTable solve (roundFloat item.2))
  /-- There are no others. -/
  origin : ∀ lkey table,built.1.roundTables.get lkey=some table → ∃ item∈items,
    lkey=lambdaKey item.2 ∧ table=solveRoundTable solve (roundFloat item.2)
  /-- The cache. -/
  cache : CacheHolds solve built.2

/-- Another item, whose key is new. -/
theorem Added.step {items : List (String×ℚ)} {built : Strategy×Dict ℚ RoundTable}
    (h : Added solve items built) {item : String×ℚ} (hnew : ∀ old∈items,old.1≠item.1)
    (hold : ∀ old∈items,0≤old.2) (hitem : 0≤ item.2) :
    Added solve (items++[item]) (addMatchState solve built item) ∧
      (addMatchState solve built item).1.matchStateToValue=built.1.matchStateToValue := by
  obtain ⟨strategy,cache⟩ := built
  obtain ⟨skey,lam⟩ := item
  obtain ⟨htable,hcache⟩ := cachedTable_holds h.cache (roundFloat lam)
  have hweight : (solveRoundTable solve (roundFloat lam)).lam=roundFloat lam :=
    (solveRoundTable_solved solve (roundFloat lam)).weight
  have hentry : (⟨roundFloat lam,(cachedTable solve (roundFloat lam) cache).1.v,
      (cachedTable solve (roundFloat lam) cache).1.sigma⟩ : RoundTable)=
      solveRoundTable solve (roundFloat lam) := by
    have hrebuild : ∀ table : RoundTable,table.lam=roundFloat lam →
        (⟨roundFloat lam,table.v,table.sigma⟩ : RoundTable)=table := by
      rintro ⟨weight,v,sigma⟩ rfl
      rfl
    rw [htable,hrebuild _ hweight]
  -- a table that is there already is the same one
  have htables : ∀ lkey,(match strategy.roundTables.get (lambdaKey lam) with
      | some _ => strategy.roundTables
      | none => strategy.roundTables.set (lambdaKey lam)
        ⟨roundFloat lam,(cachedTable solve (roundFloat lam) cache).1.v,
          (cachedTable solve (roundFloat lam) cache).1.sigma⟩).get lkey=
      if lkey=lambdaKey lam then some (solveRoundTable solve (roundFloat lam))
      else strategy.roundTables.get lkey := by
    intro lkey
    cases hget : strategy.roundTables.get (lambdaKey lam) with
    | none => simp only [Dict.get_set,hentry]
    | some table =>
      obtain ⟨old,hmem,hkey,htable'⟩ := h.origin _ _ hget
      dsimp only
      split_ifs with hlkey
      · rw [hlkey,hget,htable',lambdaKey_inj hitem (hold old hmem) hkey]
      · rfl
  refine ⟨⟨?_,?_,?_,?_,hcache⟩,rfl⟩
  · intro old hmem
    simp only [addMatchState,Dict.get_set]
    rcases List.mem_append.mp hmem with hmem | hmem
    · rw [if_neg (hnew old hmem),h.lambdas old hmem]
    · rw [List.mem_singleton.mp hmem,if_pos rfl]
  · intro old hmem
    simp only [addMatchState,Dict.get_set]
    rcases List.mem_append.mp hmem with hmem | hmem
    · rw [if_neg (hnew old hmem),h.tables old hmem]
    · rw [List.mem_singleton.mp hmem,if_pos rfl]
  · intro old hmem
    simp only [addMatchState]
    rw [htables]
    rcases List.mem_append.mp hmem with hmem | hmem
    · split_ifs with hkey
      · rw [lambdaKey_inj (hold old hmem) hitem hkey]
      · exact h.named old hmem
    · rw [List.mem_singleton.mp hmem,if_pos rfl]
  · intro lkey table hget
    simp only [addMatchState] at hget
    rw [htables] at hget
    split_ifs at hget with hkey
    · exact ⟨(skey,lam),by simp,hkey,(Option.some.inj hget).symm⟩
    · obtain ⟨old,hmem,hold⟩ := h.origin lkey table hget
      exact ⟨old,List.mem_append_left _ hmem,hold⟩

/-- The run of the loop. -/
theorem Added.run {items rest : List (String×ℚ)} {built : Strategy×Dict ℚ RoundTable}
    (h : Added solve items built) (hnodup : ((items++rest).map Prod.fst).Nodup)
    (hweights : ∀ item∈items++rest,0≤ item.2) :
    Added solve (items++rest) (rest.foldl (addMatchState solve) built) ∧
      (rest.foldl (addMatchState solve) built).1.matchStateToValue=built.1.matchStateToValue := by
  induction rest generalizing items built with
  | nil => exact ⟨by simpa using h,rfl⟩
  | cons item rest ih =>
    have hnew : ∀ old∈items,old.1≠item.1 := by
      intro old hmem he
      rw [List.map_append,List.map_cons] at hnodup
      exact (List.nodup_append.mp hnodup).2.2 old.1 (List.mem_map_of_mem hmem) item.1
        List.mem_cons_self he
    obtain ⟨hstep,hvalue⟩ := h.step hnew (fun old hmem => hweights old (by simp [hmem]))
      (hweights item (by simp))
    have hsplit : items++item::rest=items++[item]++rest := by simp
    rw [hsplit] at hnodup hweights ⊢
    obtain ⟨hrun,hvalue'⟩ := ih hstep hnodup hweights
    exact ⟨hrun,hvalue'.trans hvalue⟩

/-- What is built for a score before a round. -/
structure Entry (solve : StageSolver) (strategy : Strategy) (score : Score) (lam : ℚ) : Prop where
  /-- The weight that the induction finds is a share. -/
  share : 0≤lam ∧ lam≤1
  /-- Rounded, it is entered. -/
  lambdas : strategy.matchStateToLambda.get (scoreKey score)=some (roundFloat lam)
  /-- So is the key of its table. -/
  tables : strategy.matchStateToTable.get (scoreKey score)=some (lambdaKey lam)
  /-- The table is the one of the rounded weight. -/
  named : strategy.roundTables.get (lambdaKey lam)=some (solveRoundTable solve (roundFloat lam))
  /-- The value is what the induction finds. -/
  values : strategy.matchStateToValue.get (scoreKey score)=
    some (solvedScore (tableValue solve) score).2

/-- No key of a table is empty. -/
theorem lambdaKey_ne_empty (lam : ℚ) : lambdaKey lam≠"" := by
  intro h
  have hlist := congrArg String.toList h
  simp [lambdaKey] at hlist

/-- The lookups of the game for a key whose entries are there. -/
theorem stateTable_of_entries {strategy : Strategy} {key lkey : String} {lam : ℚ}
    {table : RoundTable} (hne : lkey≠"") (hlambda : strategy.matchStateToLambda.get key=some lam)
    (htable : strategy.matchStateToTable.get key=some lkey)
    (hnamed : strategy.roundTables.get lkey=some table) (hweight : table.lam=lam) :
    getLambda strategy.tables key=some lam ∧ roundTableFor strategy.tables key=some table ∧
      stateTable strategy.tables key=some table := by
  have hget : getLambda strategy.tables key=some lam := by
    simp only [getLambda,Strategy.tables,hlambda]
  have hround : roundTableFor strategy.tables key=some table := by
    simp only [roundTableFor,Strategy.tables,htable,if_neg hne,hnamed]
  refine ⟨hget,hround,?_⟩
  rw [stateTable,hround,hget,Option.bind_some,Option.map_some,← hweight]

/-- Every score is built, and there are no other tables. -/
theorem build_entries (hexact : ExactSolver solve) :
    (∀ score∈reachableMatchStates,
      Entry solve (buildFullStrategy solve) score (solvedScore (tableValue solve) score).1) ∧
    ∀ lkey table,(buildFullStrategy solve).roundTables.get lkey=some table →
      ∃ lam,(0≤lam ∧ lam≤1) ∧ table=solveRoundTable solve (roundFloat lam) := by
  have hfollows := matchInductionCached_follows solve
  have hbuild : buildFullStrategy solve=
      ((matchInductionCached solve).lambdas.items.foldl (addMatchState solve)
        (⟨.empty,.empty,(matchInductionCached solve).values,.empty⟩,
          (matchInductionCached solve).cache)).1 := rfl
  rw [hbuild]
  generalize matchInductionCached solve=state at hfollows ⊢
  have hsolved := @matchInduction_solved ℚ _ _ (tableValue solve)
  -- an item is the weight of a score
  have hitems : ∀ item∈state.lambdas.items,∃ score∈reachableMatchStates,
      item=(scoreKey score,(solvedScore (tableValue solve) score).1) := by
    rintro ⟨skey,lam⟩ hmem
    have hget := (hfollows.lambdas skey).symm.trans (Dict.mem_items.mp hmem)
    obtain ⟨score,hscore,rfl⟩ := hfollows.entered skey (by rw [hget]; exact Option.some_ne_none lam)
    rw [(hsolved hscore).1] at hget
    exact ⟨score,hscore,by rw [Option.some.inj hget]⟩
  have hweights : ∀ item∈state.lambdas.items,0≤ item.2 := by
    intro item hitem
    obtain ⟨score,hscore,rfl⟩ := hitems item hitem
    exact (solvedScore_weight hexact hscore).1
  have hempty : Added solve [] (⟨.empty,.empty,state.values,.empty⟩,state.cache) := by
    refine ⟨?_,?_,?_,fun lkey table h => ?_,hfollows.cache⟩
    · exact fun _ h => absurd h List.not_mem_nil
    · exact fun _ h => absurd h List.not_mem_nil
    · exact fun _ h => absurd h List.not_mem_nil
    · exact absurd h (Option.some_ne_none table).symm
  obtain ⟨hadded,hvalue⟩ := hempty.run state.lambdas.nodup hweights
  rw [List.nil_append] at hadded
  generalize state.lambdas.items.foldl (addMatchState solve)
    (⟨.empty,.empty,state.values,.empty⟩,state.cache)=built at hadded hvalue ⊢
  refine ⟨fun score hscore => ?_,fun lkey table hget => ?_⟩
  · have hin : (scoreKey score,(solvedScore (tableValue solve) score).1)∈state.lambdas.items := by
      rw [Dict.mem_items,hfollows.lambdas]
      exact (hsolved hscore).1
    have hvalues : built.1.matchStateToValue.get (scoreKey score)=
        some (solvedScore (tableValue solve) score).2 := by
      rw [hvalue,hfollows.values]
      exact (hsolved hscore).2
    have hshare := solvedScore_weight hexact hscore
    generalize (solvedScore (tableValue solve) score).1=lam at hin hshare ⊢
    have hlambdas := hadded.lambdas _ hin
    have htables := hadded.tables _ hin
    have hnamed := hadded.named _ hin
    exact ⟨hshare,hlambdas,htables,hnamed,hvalues⟩
  · obtain ⟨item,hitem,-,htable⟩ := hadded.origin lkey table hget
    obtain ⟨score,hscore,rfl⟩ := hitems item hitem
    exact ⟨_,solvedScore_weight hexact hscore,htable⟩

end Entries

section Checking

variable {solve : StageSolver}

/-- A table whose cells are near those of another one. -/
structure Near (δ : ℚ) (table exact : RoundTable) : Prop where
  /-- The draw weight is the same. -/
  weight : roundFloat table.lam=roundFloat exact.lam
  /-- The values are near. -/
  values : ∀ myKi oppKi turnIndex,
    |table.v myKi oppKi turnIndex-exact.v myKi oppKi turnIndex|≤δ
  /-- So are the weights. -/
  weights : ∀ myKi oppKi turnIndex,List.Forall₂ (fun p q : ℚ => |p-q|≤δ)
    (table.sigma myKi oppKi turnIndex) (exact.sigma myKi oppKi turnIndex)

/-- Every table is near itself. -/
theorem near_self (table : RoundTable) : Near 0 table table where
  weight := rfl
  values _ _ _ := by simp
  weights _ _ _ := by simp [List.forall₂_same]

/-- What rounding can do to a number. -/
def roundError : ℚ := 1/2/10^lambdaDecimals

theorem roundFloat_near (x : ℚ) : |roundFloat x-x|≤roundError :=
  abs_roundDecimals_sub_le lambdaDecimals x

/-- A rounded table is near the one that it has been. -/
theorem near_roundCells (table : RoundTable) : Near roundError (roundCells table) table where
  weight := roundDecimals_idem lambdaDecimals table.lam
  values _ _ _ := roundFloat_near _
  weights _ _ _ := by
    rw [roundCells,List.forall₂_map_left_iff,List.forall₂_same]
    exact fun x _ => roundFloat_near x

/-- Near weights have near sums. -/
theorem sum_near {δ : ℚ} {ps qs : List ℚ} (h : List.Forall₂ (fun p q : ℚ => |p-q|≤δ) ps qs) :
    |ps.sum-qs.sum|≤ps.length*δ := by
  induction h with
  | nil => simp
  | @cons p q ps qs hpq _ ih =>
    have hsplit : p+ps.sum-(q+qs.sum)=(p-q)+(ps.sum-qs.sum) := by ring
    rw [List.sum_cons,List.sum_cons,hsplit,List.length_cons]
    push_cast
    linarith [abs_add_le (p-q) (ps.sum-qs.sum)]

/-- Weights at the same place are near. -/
theorem getD_near {δ : ℚ} (hδ : 0≤δ) {ps qs : List ℚ}
    (h : List.Forall₂ (fun p q : ℚ => |p-q|≤δ) ps qs) (i : ℕ) :
    |ps.getD i 0-qs.getD i 0|≤δ := by
  induction h generalizing i with
  | nil => simpa using hδ
  | cons hpq _ ih =>
    cases i with
    | zero => simpa using hpq
    | succ i => simpa using ih i

/-- The loops go through every cell. -/
theorem everyCell_eq_true {holds : ℤ → ℤ → ℤ → Bool} :
    everyCell holds=true ↔ ∀ myKi oppKi turnIndex,KiBounds myKi → KiBounds oppKi →
      0≤turnIndex → turnIndex<turnLimit → holds myKi oppKi turnIndex=true := by
  simp only [everyCell,List.all_eq_true,mem_kis]
  constructor
  · exact fun h myKi oppKi turnIndex hmy hopp hzero hlt =>
      h myKi hmy oppKi hopp turnIndex (mem_pyRange.mpr ⟨hzero,hlt⟩)
  · intro h myKi hmy oppKi hopp turnIndex hturn
    obtain ⟨hzero,hlt⟩ := mem_pyRange.mp hturn
    exact h myKi oppKi turnIndex hmy hopp hzero hlt

/-- The values of an exact table are probabilities. -/
theorem value_bounds (hexact : ExactSolver solve) {lam : ℚ} (hlam : 0≤lam ∧ lam≤1)
    {myKi oppKi turnIndex : ℤ} (hmy : KiBounds myKi) (hopp : KiBounds oppKi)
    (hzero : 0≤turnIndex) (hlt : turnIndex<turnLimit) :
    0≤(solveRoundTable solve lam).v myKi oppKi turnIndex ∧
      (solveRoundTable solve lam).v myKi oppKi turnIndex≤1 := by
  have hopen : Open ⟨1,oppKi,myKi,turnIndex,[]⟩ := ⟨hopp,hmy,hzero,hlt⟩
  have hworth := roundGame_worth hexact lam hopen
  rw [valueFn_succ] at hworth
  exact worth_bounds hlam hworth

/-- A cell near an exact one passes its assertions. -/
theorem cellHolds_of_near (hexact : ExactSolver solve) {lam : ℚ} (hlam : 0≤lam ∧ lam≤1) {δ tol : ℚ}
    (hδ : 0≤δ) (htol : 5*δ≤tol) {table : RoundTable} (h : Near δ table (solveRoundTable solve lam))
    {myKi oppKi turnIndex : ℤ} (hmy : KiBounds myKi) (hopp : KiBounds oppKi)
    (hzero : 0≤turnIndex) (hlt : turnIndex<turnLimit) :
    cellHolds tol table myKi oppKi turnIndex=true := by
  obtain ⟨hlow,hhigh⟩ := value_bounds hexact hlam hmy hopp hzero hlt
  have hvalue := abs_le.mp (h.values myKi oppKi turnIndex)
  have hweights := h.weights myKi oppKi turnIndex
  have hturn : 1≤turnIndex+1 ∧ turnIndex+1≤turnLimit := by omega
  have hplayed := playedAt_getSigma hexact lam hmy hopp hturn
  rw [getSigma_eq _ hmy hopp hturn,add_sub_cancel_right] at hplayed
  have hsum := sum_near hweights
  rw [hplayed.sum,hweights.length_eq,hplayed.length] at hsum
  have hfive : ((actionOrder.length : ℕ) : ℚ)=5 := by norm_num [actionOrder]
  rw [hfive] at hsum
  -- a weight at a place is near the weight of its action
  have hplace : ∀ i,|(table.sigma myKi oppKi turnIndex).getD i 0-
      ((solveRoundTable solve lam).sigma myKi oppKi turnIndex).getD i 0|≤δ := getD_near hδ hweights
  have hexactPlace : ∀ i action,actionOrder[i]?=some action →
      ((solveRoundTable solve lam).sigma myKi oppKi turnIndex).getD i 0=
        weight ((solveRoundTable solve lam).sigma myKi oppKi turnIndex) action :=
    fun i action hi => (weight_of_index hi _).symm
  simp only [cellHolds,Bool.and_eq_true,decide_eq_true_eq,List.all_eq_true]
  refine ⟨⟨⟨⟨by linarith [hvalue.1],by linarith [hvalue.2]⟩,fun p hp => ?_⟩,by linarith⟩,?_⟩
  · obtain ⟨i,hi,rfl⟩ := List.mem_iff_getElem.mp hp
    have hnear := abs_le.mp (hplace i)
    have hget : (table.sigma myKi oppKi turnIndex).getD i 0=
        (table.sigma myKi oppKi turnIndex)[i] := by simp [List.getD,hi]
    have hi' : i<actionOrder.length := by
      rw [← hplayed.length,← hweights.length_eq]
      exact hi
    have hnonneg := hplayed.mixed.nonneg actionOrder[i]
    rw [← hexactPlace i _ (List.getElem?_eq_getElem hi')] at hnonneg
    rw [hget] at hnear
    simp only [ge_iff_le]
    linarith [hnear.1]
  · rintro ⟨affordable,i⟩ hentry
    have hmask : (affordableMask myKi)[i]?=some affordable := List.mem_zipIdx_iff_getElem?.mp hentry
    simp only [affordableMask,List.getElem?_map,Option.map_eq_some_iff] at hmask
    obtain ⟨action,haction,rfl⟩ := hmask
    by_cases hcost : actionKiCost action≤ myKi
    · simp [hcost]
    · have hout : action∉(affordableActions myKi).toFinset := by
        rw [List.mem_toFinset,mem_affordableActions]
        exact hcost
      have hzero' := hexactPlace i action haction
      rw [hplayed.mixed.support action hout] at hzero'
      have hnear := abs_le.mp (hplace i)
      simp only [hcost,decide_false,Bool.false_or,decide_eq_true_eq]
      linarith [hnear.2]

/-- A strategy whose tables and values are near exact ones. -/
structure Faithful (solve : StageSolver) (δ : ℚ) (strategy : Strategy) : Prop where
  /-- The tables. -/
  tables : ∀ lkey table,strategy.roundTables.get lkey=some table → ∃ lam,(0≤lam ∧ lam≤1) ∧
    roundFloat lam=lam ∧ Near δ table (solveRoundTable solve lam)
  /-- The values. -/
  values : ∀ score∈reachableMatchStates,∃ value,
    strategy.matchStateToValue.get (scoreKey score)=some value ∧
      |value-scoreValue (tableValue solve) score|≤δ

/-- Mirrored tables near exact ones pass their assertions. -/
theorem mirrorsHold_of_near (hexact : ExactSolver solve) {δ tol : ℚ} (hδ : 0≤δ) (htol : 5*δ≤tol)
    {strategy : Strategy} (h : Faithful solve δ strategy) : mirrorsHold tol strategy=true := by
  have hfind : ∀ {key table},(byLambda strategy).get key=some table → ∃ lam,
      key=lam ∧ (0≤lam ∧ lam≤1) ∧ Near δ table (solveRoundTable solve lam) := by
    intro key table hget
    obtain ⟨table',hmem,hkey,rfl⟩ := Dict.exists_of_comprehension hget
    obtain ⟨⟨lkey,table'⟩,hitem,rfl⟩ := List.mem_map.mp hmem
    obtain ⟨lam,hlam,hrounded,hnear⟩ := h.tables lkey table' (Dict.mem_items.mp hitem)
    refine ⟨lam,?_,hlam,hnear⟩
    have hweight := hnear.weight
    rw [(solveRoundTable_solved solve lam).weight,hrounded] at hweight
    exact hkey.symm.trans hweight
  rw [mirrorsHold,List.all_eq_true]
  rintro ⟨key,table⟩ hentry
  dsimp only
  obtain ⟨lam,rfl,hlam,hnear⟩ := hfind (Dict.mem_items.mp hentry)
  cases hget : (byLambda strategy).get (roundFloat (1-key)) with
  | none => rfl
  | some mirror =>
    obtain ⟨lam',hlam',-,hnear'⟩ := hfind hget
    rw [everyCell_eq_true]
    intro myKi oppKi turnIndex hmy hopp hzero hlt
    have hturn : 1≤turnIndex+1 ∧ turnIndex+1≤turnLimit := by omega
    have hrounded : roundFloat key=key := by
      obtain ⟨table',hmem,hkey,-⟩ := Dict.exists_of_comprehension (Dict.mem_items.mp hentry)
      rw [← hkey]
      exact roundDecimals_idem lambdaDecimals table'.lam
    have hsix : lambdaDecimals≠0 := by decide
    have hother : lam'=1-key := by
      rw [← hlam',roundFloat,roundDecimals_one_sub hsix]
      rw [roundFloat] at hrounded
      rw [hrounded]
    rw [hother] at hnear'
    have hmirror := valueFn_mirror hexact key rfl hturn hmy hopp
    simp only [RoundTable.valueFn,add_sub_cancel_right] at hmirror
    have h1 := abs_le.mp (hnear.values myKi oppKi turnIndex)
    have h2 := abs_le.mp (hnear'.values oppKi myKi turnIndex)
    rw [decide_eq_true_eq,abs_le]
    constructor <;> linarith [h1.1,h1.2,h2.1,h2.2]

/-- Values near exact ones pass their assertions. -/
theorem valuesHold_of_near (hexact : ExactSolver solve) {δ tol : ℚ} (htol : 2*δ≤tol) (hδ : 0≤δ)
    {strategy : Strategy} (h : Faithful solve δ strategy) :
    valuesHold tol strategy.matchStateToValue=true := by
  have horacle := tableValue_oracle hexact
  have hmirror : ∀ score∈reachableMatchStates,scoreValue (tableValue solve) score+
      scoreValue (tableValue solve) (mirrorScore score)=1 :=
    fun score hmem => (balanced horacle (counted_of_mem hmem).1).mirror
  -- an even score is worth a half
  have heven : ∀ score∈reachableMatchStates,mirrorScore score=score → ∃ value,
      strategy.matchStateToValue.get (scoreKey score)=some value ∧ |value-1/2|≤tol := by
    intro score hmem hself
    obtain ⟨value,hget,hnear⟩ := h.values score hmem
    have hsum := hmirror score hmem
    rw [hself] at hsum
    have hhalf : scoreValue (tableValue solve) score=1/2 := by linarith
    rw [hhalf] at hnear
    exact ⟨value,hget,by linarith⟩
  obtain ⟨v1,hget1,hv1⟩ := heven (0,0,0) (by decide) rfl
  obtain ⟨v2,hget2,hv2⟩ := heven (0,0,1) (by decide) rfl
  obtain ⟨v3,hget3,hv3⟩ := heven (1,1,2) (by decide) rfl
  obtain ⟨v4,hget4,hv4⟩ := h.values (1,0,2) (by decide)
  obtain ⟨v5,hget5,hv5⟩ := h.values (0,1,2) (by decide)
  have hsum : scoreValue (tableValue solve) (1,0,2)+scoreValue (tableValue solve) (0,1,2)=1 :=
    hmirror (1,0,2) (by decide)
  have hpair : |v4+v5-1|≤tol := by
    rw [abs_le] at hv4 hv5 ⊢
    constructor <;> linarith [hv4.1,hv4.2,hv5.1,hv5.2]
  have hkeys : scoreKey (0,0,0)="0-0-0" ∧ scoreKey (0,0,1)="0-0-1" ∧ scoreKey (1,1,2)="1-1-2" ∧
      scoreKey (1,0,2)="1-0-2" ∧ scoreKey (0,1,2)="0-1-2" := by decide
  rw [hkeys.1] at hget1
  rw [hkeys.2.1] at hget2
  rw [hkeys.2.2.1] at hget3
  rw [hkeys.2.2.2.1] at hget4
  rw [hkeys.2.2.2.2] at hget5
  simp only [valuesHold,hget1,hget2,hget3,hget4,hget5,Option.any_some,Option.bind_some,
    Option.map_some,hv1,hv2,hv3,hpair,decide_true,Bool.and_self]

/-- A strategy near an exact one passes its checks. -/
theorem assertInvariants_of_near (hexact : ExactSolver solve) {δ tol : ℚ} (hδ : 0≤δ)
    (htol : 5*δ≤tol) {strategy : Strategy} (h : Faithful solve δ strategy) :
    assertInvariants tol strategy=true := by
  rw [assertInvariants,Bool.and_eq_true,Bool.and_eq_true,List.all_eq_true]
  refine ⟨⟨?_,mirrorsHold_of_near hexact hδ htol h⟩,valuesHold_of_near hexact (by linarith) hδ h⟩
  rintro ⟨lkey,table⟩ hentry
  obtain ⟨lam,hlam,-,hnear⟩ := h.tables lkey table (Dict.mem_items.mp hentry)
  rw [everyCell_eq_true]
  exact fun myKi oppKi turnIndex hmy hopp hzero hlt =>
    cellHolds_of_near hexact hlam hδ htol hnear hmy hopp hzero hlt

/-- What is built is exact. -/
theorem build_faithful (hexact : ExactSolver solve) : Faithful solve 0 (buildFullStrategy solve) := by
  obtain ⟨hentries,htables⟩ := build_entries hexact
  refine ⟨fun lkey table hget => ?_,fun score hmem => ?_⟩
  · obtain ⟨lam,⟨hzero,hone⟩,rfl⟩ := htables lkey table hget
    exact ⟨_,roundDecimals_bounds lambdaDecimals hzero hone,roundDecimals_idem lambdaDecimals lam,
      near_self _⟩
  · obtain ⟨hc,hgoes⟩ := counted_of_mem hmem
    refine ⟨_,(hentries score hmem).values,?_⟩
    rw [scoreValue_goes (terminalMatchValue_none hgoes),sub_self,abs_zero]

/-- What is written is near it. -/
theorem serialize_faithful (hexact : ExactSolver solve) :
    Faithful solve roundError (serialize (buildFullStrategy solve)) := by
  have h := build_faithful hexact
  generalize buildFullStrategy solve=strategy at h
  refine ⟨fun lkey table hget => ?_,fun score hmem => ?_⟩
  · simp only [serialize,Dict.get_mapValues,Option.map_eq_some_iff] at hget
    obtain ⟨table',hget',rfl⟩ := hget
    obtain ⟨lam,hlam,hrounded,hnear⟩ := h.tables lkey table' hget'
    have hcells := near_roundCells table'
    refine ⟨lam,hlam,hrounded,hcells.weight.trans hnear.weight,fun myKi oppKi turnIndex => ?_,
      fun myKi oppKi turnIndex => ?_⟩
    · have hsame := hnear.values myKi oppKi turnIndex
      rw [abs_nonpos_iff,sub_eq_zero] at hsame
      rw [← hsame]
      exact hcells.values myKi oppKi turnIndex
    · have hsame : table'.sigma myKi oppKi turnIndex=
          (solveRoundTable solve lam).sigma myKi oppKi turnIndex := by
        have hforall := hnear.weights myKi oppKi turnIndex
        simpa only [abs_nonpos_iff,sub_eq_zero,List.forall₂_eq_eq_eq] using hforall
      rw [← hsame]
      exact hcells.weights myKi oppKi turnIndex
  · obtain ⟨value,hget,hnear⟩ := h.values score hmem
    refine ⟨roundFloat value,by simp [serialize,hget],?_⟩
    rw [abs_nonpos_iff,sub_eq_zero] at hnear
    rw [← hnear]
    exact roundFloat_near value

end Checking

section Results

variable {solve : StageSolver}

/-- With an exact stage solver, the strategy that is built passes _assert_invariants at every
tolerance, and the one that is written at every tolerance that five roundings stay within. -/
theorem checks_pass (hexact : ExactSolver solve) :
    (∀ tol,0≤tol → assertInvariants tol (buildFullStrategy solve)=true) ∧
      ∀ tol,5/2/10^6≤tol →
        assertInvariants tol (serialize (buildFullStrategy solve))=true := by
  refine ⟨fun tol htol => ?_,fun tol htol => ?_⟩
  · exact assertInvariants_of_near hexact le_rfl (by linarith) (build_faithful hexact)
  · have hzero : 0≤roundError := by
      unfold roundError
      positivity
    have hfive : 5*roundError≤tol := by
      unfold roundError lambdaDecimals
      linarith
    exact assertInvariants_of_near hexact hzero hfive (serialize_faithful hexact)

/-- At the tolerance that it has, before and after it is written. -/
theorem default_checks_pass :
    assertInvariants (1/1000) (buildFullStrategy exactSolver)=true ∧
      assertInvariants (1/1000) (serialize (buildFullStrategy exactSolver))=true := by
  obtain ⟨hbuilt,hwritten⟩ := checks_pass exactSolver_exact
  exact ⟨hbuilt (1/1000) (by norm_num),hwritten (1/1000) (by norm_num)⟩

/-- In every match in progress, the lookups of the game find in the strategy that is written
the entries of the score at hand: the weight that the match induction, made without a
cache, finds for it, rounded, and the rounded table of that weight. They never fall back. -/
theorem lookups_found (hexact : ExactSolver solve) (gameId : UUID) (matchType : MatchType)
    (calls : List (Action×Action))
    (hstatus : (play (startMatch gameId matchType).1 calls).status=.inProgress) :
    let key := resolveMatchState (play (startMatch gameId matchType).1 calls)
    let tables := (serialize (buildFullStrategy solve)).tables
    ∃ lam,(matchInduction (tableValue solve)).lambdas key=some lam ∧ (0≤lam ∧ lam≤1) ∧
      tables.matchStateToTable key=some (lambdaKey lam) ∧
      getLambda tables key=some (roundFloat lam) ∧
      roundTableFor tables key=some (roundCells (solveRoundTable solve (roundFloat lam))) ∧
      stateTable tables key=some (roundCells (solveRoundTable solve (roundFloat lam))) := by
  intro key tables
  have hinvariant := play_invariant (startMatch_invariant gameId matchType) calls
  have hmem := matchScore_mem hinvariant hstatus
  have hkey : key=scoreKey (matchScore (play (startMatch gameId matchType).1 calls)) := rfl
  generalize matchScore (play (startMatch gameId matchType).1 calls)=score at hmem hkey
  have hentry := (build_entries hexact).1 score hmem
  have hlambda := (@matchInduction_solved ℚ _ _ (tableValue solve) score hmem).1
  generalize (solvedScore (tableValue solve) score).1=lam at hentry hlambda
  have hlambdas := Dict.get_mapValues roundFloat (buildFullStrategy solve).matchStateToLambda key
  have htables := Dict.get_mapValues roundCells (buildFullStrategy solve).roundTables (lambdaKey lam)
  rw [hkey,hentry.lambdas,Option.map_some,roundFloat,roundFloat,roundDecimals_idem] at hlambdas
  rw [hentry.named,Option.map_some] at htables
  have hweight : (roundCells (solveRoundTable solve (roundFloat lam))).lam=roundFloat lam := by
    rw [roundCells,(solveRoundTable_solved solve (roundFloat lam)).weight,roundFloat,roundFloat,
      roundDecimals_idem]
  have hnamed := hentry.tables
  rw [← hkey] at hlambda hlambdas hnamed
  exact ⟨lam,hlambda,hentry.share,hnamed,
    @stateTable_of_entries (serialize (buildFullStrategy solve)) key _ _ _ (lambdaKey_ne_empty lam)
      hlambdas hnamed htables hweight⟩

/-- So they are after the first turn of a match. -/
theorem opening_lookups_found :
    let key := resolveMatchState (play (startMatch (.small 0) .aiGrandmaster).1 [(.charge,.charge)])
    let tables := (serialize (buildFullStrategy exactSolver)).tables
    ∃ lam,(matchInduction (tableValue exactSolver)).lambdas key=some lam ∧ (0≤lam ∧ lam≤1) ∧
      tables.matchStateToTable key=some (lambdaKey lam) ∧
      getLambda tables key=some (roundFloat lam) ∧
      roundTableFor tables key=some (roundCells (solveRoundTable exactSolver (roundFloat lam))) ∧
      stateTable tables key=some (roundCells (solveRoundTable exactSolver (roundFloat lam))) :=
  lookups_found exactSolver_exact (.small 0) .aiGrandmaster [(.charge,.charge)] (by decide)

end Results

end KiClash.StrategyBuild
