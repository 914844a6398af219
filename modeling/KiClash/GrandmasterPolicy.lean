import KiClash.ExploitabilityBound
import KiClash.WeightedChoice

/-!
# The grandmaster's decisions

decide of policy.py and the lookups of table.py for a whole strategy table, over the
distribution of the exploitation layer. Arithmetic is exact, the bias score is a parameter,
and the random draws are an argument.
-/

namespace KiClash.GrandmasterPolicy

open EngineTypes OutcomeMatrix Engine EngineRuns Transition Solver SolvedTables
open Exploitation ExploitabilityBound MatrixGames WeightedChoice

section Decisions

/-- The parsed strategy table; its dictionaries are their lookups. -/
structure StrategyTable where
  /-- match_state_to_table. -/
  matchStateToTable : String → Option String
  /-- match_state_to_lambda. -/
  matchStateToLambda : String → Option ℚ
  /-- round_tables. -/
  roundTables : String → Option RoundTable

/-- _DEFAULT_MATCH_STATE. -/
def defaultMatchState : String := "0-0-0"

/-- _round_table_for; without a value when a key is missing. -/
def roundTableFor (tables : StrategyTable) (matchStateKey : String) : Option RoundTable :=
  match tables.matchStateToTable matchStateKey with
  | some lkey =>
    if lkey="" then (tables.matchStateToTable defaultMatchState).bind tables.roundTables
    else tables.roundTables lkey
  | none => (tables.matchStateToTable defaultMatchState).bind tables.roundTables

/-- get_lambda. -/
def getLambda (tables : StrategyTable) (matchStateKey : String) : Option ℚ :=
  match tables.matchStateToLambda matchStateKey with
  | some lam => some lam
  | none => tables.matchStateToLambda defaultMatchState

/-- The round table of a match state with the draw weight that get_lambda returns. -/
def stateTable (tables : StrategyTable) (matchStateKey : String) : Option RoundTable :=
  (roundTableFor tables matchStateKey).bind fun table =>
    (getLambda tables matchStateKey).map fun lam => {table with lam := lam}

/-- _guaranteed_finisher. -/
def guaranteedFinisher (myKi oppKi : ℤ) : Option Action :=
  (affordableActions myKi).find? fun action =>
    (affordableActions oppKi).all fun opp => isImmediateWin action opp

/-- rng.choice, whose draw stands for a position of the list. -/
def choice {α : Type} (population : List α) : Draws α := do
  let draw ← random
  match population[(draw*population.length).floor.toNat]? with
  | some a => pure a
  | none => raise .indexError

/-- _sample. -/
def sample (dist : List ℚ) (affordable : List Action) : Draws Action :=
  if dist.sum≤0 then choice affordable else choices exact actionOrder dist

/-- decide. -/
def policyDecide (tables : StrategyTable) (bias : ℚ) (gameState : GameState)
    (history : List TurnResult) : Draws Action :=
  match gameState.currentRound with
  | none => raise .valueError
  | some round =>
    match guaranteedFinisher round.p2Ki round.p1Ki with
    | some finisher => pure finisher
    | none =>
      match stateTable tables (resolveMatchState gameState) with
      | none => raise .keyError
      | some table =>
        sample (finalDistribution table round.p2Ki round.p1Ki (upcomingTurn round) history
          gameState bias) (affordableActions round.p2Ki)

/-- A complete table whose strategies are probability vectors over the affordable actions. -/
structure StrategyTable.Legal (tables : StrategyTable) : Prop where
  /-- The start of a match has a table. -/
  defaultTable : (tables.matchStateToTable defaultMatchState).isSome
  /-- The start of a match has a draw weight. -/
  defaultLambda : (tables.matchStateToLambda defaultMatchState).isSome
  /-- The tables that are named are there. -/
  named : ∀ key lkey,tables.matchStateToTable key=some lkey → (tables.roundTables lkey).isSome
  /-- Their cells are strategies. -/
  played : ∀ lkey table,tables.roundTables lkey=some table → ∀ myKi oppKi turn,
    KiBounds myKi → KiBounds oppKi → 1≤turn ∧ turn≤turnLimit →
      PlayedAt myKi (table.sigma myKi oppKi (turn-1))

end Decisions

section Modelling

/-- The recency-weighted counts of some turns are not negative, and neither is their
weight. -/
theorem recencyWeights_nonneg (affordable : List Action) (turns : List TurnResult) :
    (∀ action,0≤(recencyWeights affordable turns).1 action) ∧
      0≤(recencyWeights affordable turns).2 := by
  unfold recencyWeights
  suffices hfold : ∀ (entries : List (TurnResult×ℕ)) (counted : (Action → ℚ)×ℚ),
      (∀ action,0≤counted.1 action) ∧ 0≤counted.2 →
      let after := entries.foldl (fun counted entry =>
        let weight : ℚ := (4/5)^entry.2
        let action := entry.1.p1Action
        (if action∈affordable then Function.update counted.1 action (counted.1 action+weight)
          else counted.1,counted.2+weight)) counted
      (∀ action,0≤after.1 action) ∧ 0≤after.2 from
    hfold _ _ ⟨fun _ => le_rfl,le_rfl⟩
  intro entries
  induction entries with
  | nil => exact fun counted h => h
  | cons entry entries ih =>
    intro counted ⟨hcounts,htotal⟩
    have hweight : (0 : ℚ)≤(4/5)^entry.2 := by positivity
    rw [List.foldl_cons]
    refine ih _ ⟨fun action => ?_,add_nonneg htotal hweight⟩
    dsimp only
    split
    · by_cases hsame : action=entry.1.p1Action
      · rw [hsame,Function.update_self]
        exact add_nonneg (hcounts _) hweight
      · rw [Function.update_of_ne hsame]
        exact hcounts action
    · exact hcounts action

/-- Positive weights of some actions, divided by their total. -/
theorem mixed_of_pos {affordable : List Action} (hnodup : affordable.Nodup) (hne : affordable≠[])
    {probs : Action → ℚ} (hpos : ∀ action∈affordable,0<probs action) :
    Mixed affordable.toFinset (fun action =>
      if action∈affordable then probs action/(affordable.map probs).sum else 0) ∧
    ∀ action∈affordable,0<(if action∈affordable then probs action/(affordable.map probs).sum else 0) := by
  have htotal : 0<(affordable.map probs).sum := by
    refine List.sum_pos _ (fun x hx => ?_) fun hnil => hne (List.map_eq_nil_iff.mp hnil)
    obtain ⟨action,haction,rfl⟩ := List.mem_map.mp hx
    exact hpos action haction
  have hshare : ∀ action∈affordable,
      0<(if action∈affordable then probs action/(affordable.map probs).sum else 0) := by
    intro action haction
    rw [if_pos haction]
    exact div_pos (hpos action haction) htotal
  refine ⟨⟨fun action => ?_,fun action haction => ?_,?_⟩,hshare⟩
  · by_cases haction : action∈affordable
    · exact (hshare action haction).le
    · rw [if_neg haction]
  · exact if_neg fun hmem => haction (List.mem_toFinset.mpr hmem)
  · rw [Finset.sum_congr rfl fun action haction => if_pos (List.mem_toFinset.mp haction),
      ← Finset.sum_div,List.sum_toFinset _ hnodup,div_self htotal.ne']

/-- The opponent's model gives a positive probability to exactly the actions that he can
pay for. -/
theorem modelOpponent_legal (history : List TurnResult) {oppKi : ℤ} (h : 0≤oppKi) :
    Mixed (affordableActions oppKi).toFinset (modelOpponent history oppKi) ∧
      ∀ action∈affordableActions oppKi,0< modelOpponent history oppKi action := by
  have hne := affordableActions_ne_nil h
  have hnodup := nodup_affordableActions oppKi
  have hlength : 0<((affordableActions oppKi).length : ℚ) := by
    exact_mod_cast List.length_pos_of_ne_nil hne
  have hprior : 0<1/((affordableActions oppKi).length : ℚ) := one_div_pos.mpr hlength
  have hdist : ∀ freq : (Action → ℚ)×ℚ,(∀ action,0≤freq.1 action) → ∀ action,
      0≤ if freq.2≤0 then 1/((affordableActions oppKi).length : ℚ) else freq.1 action/freq.2 := by
    intro freq hfreq action
    split
    · exact hprior.le
    · next hpos => exact div_nonneg (hfreq action) (not_le.mp hpos).le
  by_cases hhistory : history=[]
  · have huniform := @mixed_of_pos _ hnodup hne (fun _ => 1) fun _ _ => one_pos
    have hmodel : modelOpponent history oppKi=fun action =>
        if action∈affordableActions oppKi then
          1/((affordableActions oppKi).map fun _ => (1 : ℚ)).sum else 0 := by
      unfold modelOpponent
      simp [hhistory]
    rw [hmodel]
    exact huniform
  · unfold modelOpponent
    dsimp only
    rw [if_neg hhistory]
    refine mixed_of_pos hnodup hne fun action _ => ?_
    have hmarginal := hdist _ (recencyWeights_nonneg (affordableActions oppKi)
      (history.drop (history.length-10)).reverse).1 action
    have hconditional := hdist _ (recencyWeights_nonneg (affordableActions oppKi)
      (history.reverse.filter fun turn => turn.p1KiBefore=oppKi)).1 action
    refine add_pos_of_nonneg_of_pos (mul_nonneg (by norm_num) ?_) (mul_pos (by norm_num) hprior)
    split
    · next hmatching =>
      -- the confidence in the matching turns is between 0 and 1
      have hcount : (1 : ℚ)≤(history.reverse.filter fun turn => turn.p1KiBefore=oppKi).length := by
        exact_mod_cast hmatching.1
      generalize ((history.reverse.filter fun turn => turn.p1KiBefore=oppKi).length : ℚ)=count
        at hcount ⊢
      have hlow : 0≤ min 1 ((count-1+1)/2) := le_min zero_le_one (by linarith)
      have hhigh : 0≤1-min 1 ((count-1+1)/2) := sub_nonneg.mpr (min_le_left _ _)
      exact add_nonneg (mul_nonneg hlow hconditional) (mul_nonneg hhigh hmarginal)
    · exact hmarginal

end Modelling

section Sampling

/-- A legal table has a round table for every match state, whose cells are strategies. -/
theorem StrategyTable.Legal.stateTable {tables : StrategyTable} (h : tables.Legal)
    (matchStateKey : String) : ∃ table,stateTable tables matchStateKey=some table ∧
      ∀ myKi oppKi turn,KiBounds myKi → KiBounds oppKi → 1≤turn ∧ turn≤turnLimit →
        PlayedAt myKi (getSigma table myKi oppKi turn) := by
  have hdefault : ∃ table,(tables.matchStateToTable defaultMatchState).bind tables.roundTables=
      some table ∧ ∃ lkey,tables.roundTables lkey=some table := by
    obtain ⟨lkey,hlkey⟩ := Option.isSome_iff_exists.mp h.defaultTable
    obtain ⟨table,htable⟩ := Option.isSome_iff_exists.mp (h.named _ _ hlkey)
    exact ⟨table,by rw [hlkey,Option.bind_some,htable],lkey,htable⟩
  have hround : ∃ table,roundTableFor tables matchStateKey=some table ∧
      ∃ lkey,tables.roundTables lkey=some table := by
    unfold roundTableFor
    split
    · next lkey hlkey =>
      split
      · exact hdefault
      · obtain ⟨table,htable⟩ := Option.isSome_iff_exists.mp (h.named _ _ hlkey)
        exact ⟨table,htable,lkey,htable⟩
    · exact hdefault
  have hlambda : ∃ lam,getLambda tables matchStateKey=some lam := by
    unfold getLambda
    split
    · next lam _ => exact ⟨lam,rfl⟩
    · exact Option.isSome_iff_exists.mp h.defaultLambda
  obtain ⟨table,htable,lkey,hlkey⟩ := hround
  obtain ⟨lam,hlam⟩ := hlambda
  refine ⟨{table with lam := lam},?_,fun myKi oppKi turn hmy hopp hturn => ?_⟩
  · rw [GrandmasterPolicy.stateTable,htable,Option.bind_some,hlam]
    rfl
  · rw [getSigma_eq _ hmy hopp hturn]
    exact h.played lkey table hlkey myKi oppKi turn hmy hopp hturn

/-- What is played over a cell that is a strategy: a strategy with the floor under every
affordable action. -/
theorem finalDistribution_legal {table : RoundTable} {myKi oppKi turn : ℤ} (hmy : 0≤ myKi)
    (hgto : PlayedAt myKi (getSigma table myKi oppKi turn)) (history : List TurnResult)
    (gameState : GameState) (bias : ℚ) :
    let dist := finalDistribution table myKi oppKi turn history gameState bias
    PlayedAt myKi dist ∧ ∀ action∈affordableActions myKi,0<weight dist action := by
  intro dist
  obtain ⟨hlow,hhigh⟩ := adaptiveEps_bounds history gameState bias
  have hbr := playedAt_bestResponse (modelOpponent history oppKi) table hmy oppKi turn table.lam
  have hblend := playedAt_blend hgto hbr ⟨hlow,by linarith⟩
  have hdist : dist=raised myKi _ := addNoise_eq hmy hblend
  obtain ⟨hplayed,-,hfloored⟩ := playedAt_raised hmy hblend
  rw [hdist]
  refine ⟨hplayed,fun action haction => ?_⟩
  have hfloor := hfloored action haction
  linarith

/-- The weight of the action at an index. -/
theorem weight_of_index {i : ℕ} {action : Action} (h : actionOrder[i]?=some action)
    (dist : List ℚ) : weight dist action=dist.getD i 0 := by
  have hindex : actionIndex action=i := by
    obtain ⟨hi,rfl⟩ := List.getElem?_eq_some_iff.mp h
    have hnodup : actionOrder.Nodup := by decide
    exact hnodup.idxOf_getElem i hi
  rw [weight,hindex]

/-- A sample of a strategy is an affordable action. -/
theorem returns_sample {ki : ℤ} {dist : List ℚ} (h : PlayedAt ki dist) :
    Returns (sample dist (affordableActions ki)) fun action => action∈affordableActions ki := by
  have hsum := h.sum
  have hweights : ∀ w∈dist,0≤w := by
    intro w hw
    obtain ⟨i,hi,rfl⟩ := List.getElem_of_mem hw
    have hindex : i< actionOrder.length := h.length ▸ hi
    have hnonneg := h.mixed.nonneg actionOrder[i]
    rwa [weight_of_index (List.getElem?_eq_getElem hindex),List.getD_eq_getElem?_getD,
      List.getElem?_eq_getElem hi,Option.getD_some] at hnonneg
  have hpos : ∃ w∈dist,0<w := by
    by_contra hnone
    push Not at hnone
    have hzero := List.sum_eq_zero fun w hw => le_antisymm (hnone w hw) (hweights w hw)
    linarith
  unfold sample
  rw [if_neg (by linarith)]
  refine (returns_choices_exact h.length hweights hpos).weaken fun action haction => ?_
  obtain ⟨i,hi,hweight⟩ := haction
  rw [← weight_of_index hi] at hweight
  by_contra hnot
  rw [h.mixed.support action fun hmem => hnot (List.mem_toFinset.mp hmem)] at hweight
  exact lt_irrefl _ hweight

/-- decide returns an affordable action, whatever it draws. -/
theorem returns_policyDecide {tables : StrategyTable} (htables : tables.Legal) (bias : ℚ)
    {gameState : GameState} (history : List TurnResult) {round : RoundState}
    (hround : gameState.currentRound=some round) (hmy : KiBounds round.p2Ki)
    (hopp : KiBounds round.p1Ki) (hturn : 1≤upcomingTurn round ∧ upcomingTurn round≤turnLimit) :
    Returns (policyDecide tables bias gameState history)
      fun action => action∈affordableActions round.p2Ki := by
  obtain ⟨table,htable,hsigma⟩ := htables.stateTable (resolveMatchState gameState)
  unfold policyDecide
  rw [hround]
  dsimp only
  split
  · next finisher hfinisher => exact returns_pure (List.mem_of_find?_eq_some hfinisher)
  · rw [htable]
    exact returns_sample (finalDistribution_legal hmy.1 (hsigma _ _ _ hmy hopp hturn) history
      gameState bias).1

/-- In every reachable state of a match in progress, for every table of strategies over the
affordable actions and every bias score: the opponent's model is a probability vector that is
positive on what he can pay for, the distribution that is played is one that is positive on
exactly what the AI can pay for, and decide returns an affordable action, whatever is drawn. -/
theorem decides_legally (tables : StrategyTable) (htables : tables.Legal) (bias : ℚ) (gameId : UUID)
    (matchType : MatchType) (calls : List (Action×Action)) (draws : List Draw)
    (hstatus : (play (startMatch gameId matchType).1 calls).status=.inProgress) :
    let state := play (startMatch gameId matchType).1 calls
    ∃ round,state.currentRound=some round ∧
      (Mixed (affordableActions round.p1Ki).toFinset (modelOpponent round.turnHistory round.p1Ki) ∧
        ∀ action∈affordableActions round.p1Ki,
          0< modelOpponent round.turnHistory round.p1Ki action) ∧
      (∃ table,stateTable tables (resolveMatchState state)=some table ∧
        let dist := finalDistribution table round.p2Ki round.p1Ki (upcomingTurn round)
          round.turnHistory state bias
        PlayedAt round.p2Ki dist ∧ ∀ action∈affordableActions round.p2Ki,0<weight dist action) ∧
      ∃ action rest,policyDecide tables bias state round.turnHistory draws=.ok (action,rest) ∧
        validateAction action round.p2Ki=true := by
  dsimp only
  obtain ⟨fresh,hfresh,hruns⟩ := startMatch_runs gameId matchType calls
  rw [hfresh] at hstatus ⊢
  have hinvariant := hruns.1
  generalize play fresh calls=state at hstatus hinvariant ⊢
  obtain ⟨round,hround⟩ := Option.isSome_iff_exists.mp (hinvariant.openIff.mp hstatus)
  have hwell := hinvariant.openRound round hround
  have hturn : 1≤upcomingTurn round ∧ upcomingTurn round≤turnLimit := by
    have hnumber : 0≤round.turnNumber := by
      rw [hwell.recorded]
      exact Int.natCast_nonneg _
    have hleft := hwell.turnsLeft
    unfold upcomingTurn
    omega
  obtain ⟨table,htable,hsigma⟩ := htables.stateTable (resolveMatchState state)
  have hgto := hsigma _ _ _ hwell.p2Ki hwell.p1Ki hturn
  obtain ⟨action,rest,hdecide,haction⟩ := returns_policyDecide htables bias round.turnHistory hround
    hwell.p2Ki hwell.p1Ki hturn draws
  exact ⟨round,hround,modelOpponent_legal round.turnHistory hwell.p1Ki.1,
    ⟨table,htable,finalDistribution_legal hwell.p2Ki.1 hgto round.turnHistory state bias⟩,
    action,rest,hdecide,(validateAction_iff _ _).mpr (mem_affordableActions.mp haction)⟩

/-- A table whose cells all charge. -/
def chargingTable : StrategyTable where
  matchStateToTable _ := some "lam"
  matchStateToLambda _ := some (1/2)
  roundTables _ := some ⟨1/2,fun _ _ _ => 1/2,fun _ _ _ => [1,0,0,0,0]⟩

/-- It is legal. -/
theorem chargingTable_legal : chargingTable.Legal where
  defaultTable := rfl
  defaultLambda := rfl
  named _ _ _ := rfl
  played lkey table h myKi oppKi turn hmy _ _ := by
    cases h
    have hmem : Action.charge∈(affordableActions myKi).toFinset :=
      List.mem_toFinset.mpr (mem_affordableActions.mpr hmy.1)
    refine ⟨rfl,fun action => ?_,fun action haction => ?_,?_⟩
    · have hcell : 0≤weight [1,0,0,0,0] action := by cases action <;> decide
      exact hcell
    · cases action with
      | charge => exact absurd hmem haction
      | _ => rfl
    · rw [Finset.sum_eq_single_of_mem _ hmem fun action _ hne => ?_]
      · rfl
      · cases action with
        | charge => exact absurd rfl hne
        | _ => rfl

theorem opening_decided :
    ∃ action rest,policyDecide chargingTable 0 (startMatch (UUID.small 1) .aiGrandmaster).1 [] []=
      .ok (action,rest) ∧ validateAction action 0=true := by
  obtain ⟨round,hround,-,-,action,rest,hdecide,hvalid⟩ :=
    decides_legally chargingTable chargingTable_legal 0 (UUID.small 1) .aiGrandmaster [] [] rfl
  cases hround
  exact ⟨action,rest,hdecide,hvalid⟩

end Sampling

end KiClash.GrandmasterPolicy
