import KiClash.Exploitation
import Mathlib.Tactic.FieldSimp

/-!
# What the exploitation layer costs

The pipeline that is played deviates from the table in every turn: the blend
moves the weight eps to a best response, and the noise floor moves up to a tenth
to all affordable actions. A turn retains a share of what the table plays, and
over the turns of a round the shares multiply. The documented bound counts
neither the noise nor the number of turns, and an opening with a single turn
left already exceeds it.
-/

namespace KiClash.ExploitabilityBound

open EngineTypes OutcomeMatrix Engine EngineRuns Transition RoundSimulation Solver SolvedTables RoundGames
open Exploitation MatrixGames SimultaneousGames Game

/-- Five weights that are a mixed strategy over the affordable actions. -/
structure PlayedAt (ki : ℤ) (dist : List ℚ) : Prop where
  /-- One weight an action. -/
  length : dist.length=actionOrder.length
  /-- A mixed strategy. -/
  mixed : Mixed (affordableActions ki).toFinset (weight dist)

/-- A vector of weights adds up to the weights of the actions. -/
theorem sum_eq_weights {dist : List ℚ} (h : dist.length=actionOrder.length) :
    dist.sum=∑ a∈actionOrder.toFinset,weight dist a := by
  rw [List.sum_toFinset _ (by decide)]
  match dist,h with
  | [w0,w1,w2,w3,w4],_ => rfl

/-- A strategy over the affordable actions adds up to one. -/
theorem PlayedAt.sum {ki : ℤ} {dist : List ℚ} (h : PlayedAt ki dist) : dist.sum=1 := by
  rw [sum_eq_weights h.length,← h.mixed.sum]
  refine (Finset.sum_subset (fun a _ => ?_) fun a _ ha => h.mixed.support a ha).symm
  exact List.mem_toFinset.mpr (mem_actionOrder a)

theorem length_storeRow (rows : List Action) (rowStrat cell : List ℚ) :
    (storeRow rows rowStrat cell).length=cell.length := by
  unfold storeRow
  induction rows.zip rowStrat generalizing cell with
  | nil => rfl
  | cons entry entries ih => rw [List.foldl_cons,ih,List.length_set]

/-- Equal shares of some affordable actions. -/
theorem playedAt_shares {ki : ℤ} {winners : List Action} (hnodup : winners.Nodup) (hne : winners≠[])
    (hsub : ∀ a∈winners,a∈affordableActions ki) :
    PlayedAt ki (storeRow winners (winners.map fun _ => 1/(winners.length : ℚ))
      (List.replicate actionOrder.length 0)) := by
  have hpos : 0<(winners.length : ℚ) := by exact_mod_cast List.length_pos_of_ne_nil hne
  have hzero : ∀ a,a∉winners → weight (storeRow winners
      (winners.map fun _ => 1/(winners.length : ℚ)) (List.replicate actionOrder.length 0)) a=0 := by
    intro a ha
    rw [weight_storeRow_of_notMem ha]
    simp [weight,List.getD,actionIndex_lt]
  have hstored := map_weight_storeRow hnodup (List.length_map fun _ => 1/(winners.length : ℚ))
    (List.length_replicate (a := (0 : ℚ)))
  have hshare := List.map_inj_left.mp hstored
  refine ⟨by rw [length_storeRow,List.length_replicate],⟨fun a => ?_,fun a ha => ?_,?_⟩⟩
  · by_cases ha : a∈winners
    · rw [hshare a ha]
      positivity
    · exact (hzero a ha).ge
  · exact hzero a fun hmem => ha (List.mem_toFinset.mpr (hsub a hmem))
  · have hsubset : winners.toFinset⊆(affordableActions ki).toFinset := fun a ha =>
      List.mem_toFinset.mpr (hsub a (List.mem_toFinset.mp ha))
    rw [← Finset.sum_subset hsubset fun a _ ha => hzero a fun hmem => ha (List.mem_toFinset.mpr hmem),
      List.sum_toFinset _ hnodup,hstored]
    simp [hpos.ne']

/-- A best response is played over some affordable actions with equal shares. -/
theorem playedAt_bestResponse (oppProbs : Action → ℚ) (table : RoundTable) {myKi : ℤ} (h : 0≤ myKi)
    (oppKi turn : ℤ) (lam : ℚ) :
    PlayedAt myKi (bestResponse oppProbs table myKi oppKi turn lam) := by
  unfold bestResponse
  dsimp only
  generalize expectedPayoff oppProbs table myKi oppKi turn lam=ev
  have hfst : ((affordableActions myKi).map fun action => (action,ev action)).map Prod.fst=
      affordableActions myKi := by
    rw [List.map_map]
    exact List.map_id _
  have hsublist : ∀ p : Action×ℚ → Bool,
      ((((affordableActions myKi).map fun action => (action,ev action)).filter p).map Prod.fst).Sublist
        (affordableActions myKi) := by
    intro p
    have hsub := (List.filter_sublist (p := p)
      (l := (affordableActions myKi).map fun action => (action,ev action))).map Prod.fst
    rwa [hfst] at hsub
  refine playedAt_shares ((nodup_affordableActions myKi).sublist (hsublist _)) ?_
    fun a ha => (hsublist _).subset ha
  -- the best value is taken by some action
  have hne : ((affordableActions myKi).map fun action => (action,ev action)).map Prod.snd≠[] := by
    simpa using affordableActions_ne_nil h
  obtain ⟨best,hbest⟩ := Option.isSome_iff_exists.mp (List.isSome_max?_of_ne_nil hne)
  rw [hbest,Option.getD_some]
  obtain ⟨entry,hentry,hvalue⟩ := List.mem_map.mp (List.max?_mem hbest)
  refine List.ne_nil_of_mem (List.mem_map_of_mem (List.mem_filter.mpr ⟨hentry,?_⟩))
  rw [hvalue]
  exact decide_eq_true (by linarith [show (0 : ℚ)≤1/10^9 by positivity])

/-- Scaling a vector scales its weights. -/
theorem weight_map {f : ℚ → ℚ} (hf : f 0=0) (dist : List ℚ) (a : Action) :
    weight (dist.map f) a=f (weight dist a) := by
  simp only [weight,List.getD,List.getElem?_map]
  cases dist[actionIndex a]? with
  | none => exact hf.symm
  | some w => rfl

theorem length_blend {gto br : List ℚ} (h : gto.length=actionOrder.length)
    (h' : br.length=actionOrder.length) (eps : ℚ) : (blend gto br eps).length=actionOrder.length := by
  rw [blend,List.length_zipWith,h,h',min_self]

/-- A blend weighs each action between the two. -/
theorem weight_blend {gto br : List ℚ} (h : gto.length=actionOrder.length)
    (h' : br.length=actionOrder.length) (eps : ℚ) (a : Action) :
    weight (blend gto br eps) a=(1-eps)*weight gto a+eps*weight br a := by
  have hgto : actionIndex a<gto.length := h ▸ actionIndex_lt a
  have hbr : actionIndex a<br.length := h' ▸ actionIndex_lt a
  simp [weight,blend,List.getD,hgto,hbr]

/-- A blend of two strategies is one. -/
theorem playedAt_blend {ki : ℤ} {gto br : List ℚ} (h : PlayedAt ki gto) (h' : PlayedAt ki br)
    {eps : ℚ} (heps : 0≤eps ∧ eps≤1) : PlayedAt ki (blend gto br eps) where
  length := length_blend h.length h'.length eps
  mixed := by
    have hweight := weight_blend h.length h'.length eps
    refine ⟨fun a => ?_,fun a ha => ?_,?_⟩
    · rw [hweight]
      exact add_nonneg (mul_nonneg (by linarith) (h.mixed.nonneg a))
        (mul_nonneg heps.1 (h'.mixed.nonneg a))
    · rw [hweight,h.mixed.support a ha,h'.mixed.support a ha]
      ring
    · simp only [hweight]
      rw [Finset.sum_add_distrib,← Finset.mul_sum,← Finset.mul_sum,h.mixed.sum,h'.mixed.sum]
      ring

/-- The loop of add_noise, which raises the affordable weights. -/
theorem weight_modify {affordable : List Action} (hnodup : affordable.Nodup) (floor : ℚ)
    {dist : List ℚ} (h : dist.length=actionOrder.length) (a : Action) :
    let out := affordable.foldl (fun out action => out.modify (actionIndex action) (·+floor)) dist
    out.length=actionOrder.length ∧
      weight out a=weight dist a+if a∈affordable then floor else 0 := by
  induction affordable generalizing dist with
  | nil => exact ⟨h,by simp⟩
  | cons action affordable ih =>
    obtain ⟨hnotMem,hnodup⟩ := List.nodup_cons.mp hnodup
    have hmodified : (dist.modify (actionIndex action) (·+floor)).length=actionOrder.length := by
      rw [List.length_modify,h]
    obtain ⟨hlength,hweight⟩ := ih hnodup hmodified
    refine ⟨hlength,hweight.trans ?_⟩
    have hlt : actionIndex action<dist.length := h ▸ actionIndex_lt action
    by_cases hsame : a=action
    · subst hsame
      simp [weight,List.getD,hnotMem,hlt]
    · have hne : actionIndex action≠actionIndex a := fun he => hsame (actionIndex_injective he).symm
      simp [weight,List.getD,hsame,hne]

/-- At least one action is affordable, and at most five are. -/
theorem length_affordableActions {ki : ℤ} (h : 0≤ki) :
    1≤(affordableActions ki).length ∧ (affordableActions ki).length≤5 :=
  ⟨List.length_pos_of_ne_nil (affordableActions_ne_nil h),List.length_filter_le _ actionOrder⟩

/-- The distribution that add_noise builds before it renormalizes. -/
def raised (ki : ℤ) (dist : List ℚ) : List ℚ :=
  (affordableActions ki).foldl (fun out action => out.modify (actionIndex action) (·+2/100))
    (dist.map fun p => (1-2/100*((affordableActions ki).length : ℚ))*p)

/-- It is a strategy already, which retains at least nine tenths of each weight
and gives the floor to every affordable action. -/
theorem playedAt_raised {ki : ℤ} (hki : 0≤ki) {dist : List ℚ} (h : PlayedAt ki dist) :
    PlayedAt ki (raised ki dist) ∧ (∀ a,9/10*weight dist a≤weight (raised ki dist) a) ∧
      ∀ a∈affordableActions ki,2/100≤weight (raised ki dist) a := by
  obtain ⟨hone,hfive⟩ := length_affordableActions hki
  have hhigh : ((affordableActions ki).length : ℚ)≤5 := by exact_mod_cast hfive
  have hscaled : (dist.map fun p => (1-2/100*((affordableActions ki).length : ℚ))*p).length=
      actionOrder.length := by rw [List.length_map,h.length]
  have hspec := weight_modify (nodup_affordableActions ki) (2/100) hscaled
  have hweight : ∀ a,weight (raised ki dist) a=
      (1-2/100*((affordableActions ki).length : ℚ))*weight dist a+
        if a∈affordableActions ki then 2/100 else 0 := by
    intro a
    rw [← weight_map (mul_zero _)]
    exact (hspec a).2
  have hfloor : ∀ a,(0 : ℚ)≤ if a∈affordableActions ki then 2/100 else 0 := by
    intro a
    split <;> norm_num
  have hfloored : ∀ a∈affordableActions ki,2/100≤weight (raised ki dist) a := by
    intro a ha
    have hkept : 0≤(1-2/100*((affordableActions ki).length : ℚ))*weight dist a :=
      mul_nonneg (by linarith) (h.mixed.nonneg a)
    rw [hweight,if_pos ha]
    linarith
  have hretains : ∀ a,9/10*weight dist a≤weight (raised ki dist) a := by
    intro a
    have hscale : 9/10*weight dist a≤
        (1-2/100*((affordableActions ki).length : ℚ))*weight dist a :=
      mul_le_mul_of_nonneg_right (by linarith) (h.mixed.nonneg a)
    have := hfloor a
    rw [hweight]
    linarith
  refine ⟨⟨(hspec .charge).1,fun a => ?_,fun a ha => ?_,?_⟩,hretains,hfloored⟩
  · exact (mul_nonneg (by norm_num) (h.mixed.nonneg a)).trans (hretains a)
  · rw [hweight,h.mixed.support a ha,if_neg fun hmem => ha (List.mem_toFinset.mpr hmem)]
    ring
  · have hcount : ∑ a∈(affordableActions ki).toFinset,(if a∈affordableActions ki then (2/100 : ℚ) else 0)=
        2/100*(affordableActions ki).length := by
      rw [Finset.sum_congr rfl fun a ha => if_pos (List.mem_toFinset.mp ha),Finset.sum_const,
        List.toFinset_card_of_nodup (nodup_affordableActions ki),nsmul_eq_mul,mul_comm]
    simp only [hweight]
    rw [Finset.sum_add_distrib,← Finset.mul_sum,h.mixed.sum,hcount]
    ring

/-- Renormalizing it changes nothing. -/
theorem addNoise_eq {ki : ℤ} (hki : 0≤ki) {dist : List ℚ} (h : PlayedAt ki dist) :
    addNoise dist (affordableActions ki)=raised ki dist := by
  obtain ⟨hone,hfive⟩ := length_affordableActions hki
  have hhigh : ((affordableActions ki).length : ℚ)≤5 := by exact_mod_cast hfive
  have hmin : min (2/100*((affordableActions ki).length : ℚ)) (1/2)=
      2/100*(affordableActions ki).length := min_eq_left (by linarith)
  have htotal := (playedAt_raised hki h).1.sum
  unfold raised at htotal ⊢
  unfold addNoise
  dsimp only
  rw [if_neg (by omega),hmin,htotal,if_neg (by norm_num)]
  simp

/-- adaptive_eps stays within its cap. -/
theorem adaptiveEps_bounds (history : List TurnResult) (gameState : GameState) (bias : ℚ) :
    0≤adaptiveEps history gameState bias ∧ adaptiveEps history gameState bias≤85/100 := by
  unfold adaptiveEps
  dsimp only
  split_ifs <;> constructor <;> linarith

/-- Within its bounds, the lookup is the stored cell. -/
theorem getSigma_eq (table : RoundTable) {myKi oppKi turn : ℤ} (hmy : KiBounds myKi)
    (hopp : KiBounds oppKi) (hturn : 1≤turn ∧ turn≤turnLimit) :
    getSigma table myKi oppKi turn=table.sigma myKi oppKi (turn-1) := by
  have hki : ∀ {ki},KiBounds ki → clampKi ki=ki := by
    intro ki h
    rw [clampKi,if_neg (not_lt.mpr h.1),if_neg (not_lt.mpr h.2)]
  rw [getSigma,hki hmy,hki hopp,clampTurn,if_neg (not_lt.mpr hturn.1),if_neg (not_lt.mpr hturn.2)]

/-- A turn of an open round within its limit. -/
theorem Open.turn_bounds {round : RoundState} (h : Open round) :
    1≤round.turnNumber+1 ∧ round.turnNumber+1≤turnLimit := by
  have := h.turns
  omega

/-- The stored cells of an exact table are strategies. -/
theorem playedAt_getSigma {solve : StageSolver} (hexact : ExactSolver solve) (lam : ℚ)
    {myKi oppKi turn : ℤ} (hmy : KiBounds myKi) (hopp : KiBounds oppKi)
    (hturn : 1≤turn ∧ turn≤turnLimit) :
    PlayedAt myKi (getSigma (solveRoundTable solve lam) myKi oppKi turn) := by
  rw [getSigma_eq _ hmy hopp hturn]
  obtain ⟨-,hstrategy⟩ := (solveRoundTable_solved solve lam).solved _ (mem_cells.mpr ⟨hturn,hmy,hopp⟩)
  refine ⟨?_,(solved_stage hexact lam hturn hmy hopp).1⟩
  rw [hstrategy,length_storeRow,List.length_replicate]

/-- The AI that plays final_distribution in every turn of a round, with any bias
score for each history of the round. -/
def pipelineStrategy (table : RoundTable) (gameState : GameState)
    (bias : List (Action×Action) → ℚ) (round : RoundState) : Strategy Action Action Action ℚ :=
  fun history =>
    let current := roundAfter round history
    weight (finalDistribution table current.p2Ki current.p1Ki (upcomingTurn current)
      current.turnHistory gameState (bias history))

theorem pipelineStrategy_nil (table : RoundTable) (gameState : GameState)
    (bias : List (Action×Action) → ℚ) (round : RoundState) :
    pipelineStrategy table gameState bias round []=
      weight (finalDistribution table round.p2Ki round.p1Ki (upcomingTurn round) round.turnHistory
        gameState (bias [])) := rfl

/-- The exploitation weight of a turn. -/
def epsUsed (gameState : GameState) (bias : List (Action×Action) → ℚ) (round : RoundState)
    (history : List (Action×Action)) : ℚ :=
  adaptiveEps (roundAfter round history).turnHistory gameState (bias history)

/-- Affordable pairs of actions that leave the round open, mine first. -/
def InRound : RoundState → List (Action×Action) → Prop
  | _,[] => True
  | round,(me,opp)::history =>
    me∈affordableActions round.p2Ki ∧ opp∈affordableActions round.p1Ki ∧
      roundWinner (nextTurn round opp me) (nextRound round opp me)=none ∧
      InRound (nextRound round opp me) history

/-- The exploitation weights of the turns that a round can get to. -/
def usedWeights (gameState : GameState) (bias : List (Action×Action) → ℚ) (round : RoundState) :
    Set ℚ :=
  {eps | ∃ history,InRound round history ∧ eps=epsUsed gameState bias round history}

section Pipeline

variable {solve : StageSolver} (hexact : ExactSolver solve) (lam : ℚ) (gameState : GameState)

include hexact

/-- One turn: the pipeline plays a strategy, which retains its share of the
table and gives the floor to every affordable action. -/
theorem finalDistribution_retains {myKi oppKi turn : ℤ} (hmy : KiBounds myKi)
    (hopp : KiBounds oppKi) (hturn : 1≤turn ∧ turn≤turnLimit) (history : List TurnResult)
    (bias : ℚ) {eps : ℚ} (heps : adaptiveEps history gameState bias≤eps) :
    let table := solveRoundTable solve lam
    let dist := finalDistribution table myKi oppKi turn history gameState bias
    Mixed (affordableActions myKi).toFinset (weight dist) ∧
      (∀ a,9/10*(1-eps)*storedStrategy table turn myKi oppKi a≤weight dist a) ∧
      ∀ a∈affordableActions myKi,2/100≤weight dist a := by
  intro table dist
  obtain ⟨hlow,hhigh⟩ := adaptiveEps_bounds history gameState bias
  have hgto := playedAt_getSigma hexact lam hmy hopp hturn
  have hbr := playedAt_bestResponse (modelOpponent history oppKi) table hmy.1 oppKi turn table.lam
  have hblend := playedAt_blend hgto hbr ⟨hlow,by linarith⟩
  have hdist : dist=raised myKi _ := addNoise_eq hmy.1 hblend
  obtain ⟨hplayed,hretains,hfloored⟩ := playedAt_raised hmy.1 hblend
  rw [hdist]
  refine ⟨hplayed.mixed,fun a => le_trans ?_ (hretains a),hfloored⟩
  rw [weight_blend hgto.length hbr.length,getSigma_eq _ hmy hopp hturn]
  have hstored := (solved_stage hexact lam hturn hmy hopp).1.nonneg a
  have hshare := mul_le_mul_of_nonneg_right (sub_le_sub_left heps 1) hstored
  have hresponse := mul_nonneg hlow (hbr.mixed.nonneg a)
  change _≤9/10*((1-_)*storedStrategy table turn myKi oppKi a+_)
  linarith

/-- The whole round, turn by turn. -/
theorem pipeline_retains {round : RoundState} (h : Open round) {bias : List (Action×Action) → ℚ}
    {eps : ℚ} (heps : ∀ used∈usedWeights gameState bias round,used≤eps) :
    let table := solveRoundTable solve lam
    (roundGame round).RowPlays (pipelineStrategy table gameState bias round) ∧
      (roundGame round).Retains (9/10*(1-eps)) (pipelineStrategy table gameState bias round)
        (tableStrategy table round) := by
  intro table
  induction hn : turnsLeft round using Nat.strong_induction_on generalizing round bias with
  | _ n ih =>
    obtain ⟨hmixed,hshare,-⟩ := finalDistribution_retains hexact lam gameState h.p2Ki h.p1Ki
      (Open.turn_bounds h) round.turnHistory (bias []) (heps _ ⟨[],True.intro,rfl⟩)
    have hweights : pipelineStrategy table gameState bias round []=
        weight (finalDistribution table round.p2Ki round.p1Ki (round.turnNumber+1)
          round.turnHistory gameState (bias [])) := by
      rw [pipelineStrategy_nil,h.upcomingTurn_eq]
    have hnext : ∀ me∈(affordableActions round.p2Ki).toFinset,
        ∀ opp∈(affordableActions round.p1Ki).toFinset,
        (roundNext round me opp).RowPlays
            ((pipelineStrategy table gameState bias round).after me opp) ∧
          (roundNext round me opp).Retains (9/10*(1-eps))
            ((pipelineStrategy table gameState bias round).after me opp)
            ((tableStrategy table round).after me opp) := by
      intro me hme opp hopp
      unfold roundNext
      cases hw : roundWinner (nextTurn round opp me) (nextRound round opp me) with
      | some winner => exact ⟨True.intro,True.intro⟩
      | none =>
        refine ih _ (hn ▸ turnsLeft_nextRound hw) (h.next hw) ?_ rfl
        rintro used ⟨history,hhistory,rfl⟩
        exact heps _ ⟨(me,opp)::history,⟨List.mem_toFinset.mp hme,List.mem_toFinset.mp hopp,hw,
          hhistory⟩,rfl⟩
    rw [roundGame_eq]
    rw [← hweights] at hmixed hshare
    exact ⟨⟨hmixed,fun me hme opp hopp => (hnext me hme opp hopp).1⟩,fun me _ => hshare me,
      fun me hme opp hopp => (hnext me hme opp hopp).2⟩

end Pipeline

/-- A round is over after the turns it has left. -/
theorem roundGame_within {round : RoundState} (h : Open round) {n : ℕ} (hn : turnsLeft round≤n) :
    (roundGame round).Within n := by
  induction n generalizing round with
  | zero =>
    have := h.turns
    unfold turnsLeft at hn
    omega
  | succ n ih =>
    rw [roundGame_eq]
    intro me _ opp _
    unfold roundNext
    cases hw : roundWinner (nextTurn round opp me) (nextRound round opp me) with
    | some winner => exact True.intro
    | none => exact ih (h.next hw) (by have := turnsLeft_nextRound hw; omega)

/-- What the pipeline guarantees: in each turn that the round has left it
retains nine tenths of what the largest exploitation weight leaves to the table,
so over the round at least this share of the equilibrium value is kept. -/
theorem pipeline_guarantee {solve : StageSolver} (hexact : ExactSolver solve) {lam : ℚ}
    (hlam : 0≤lam ∧ lam≤1) (gameState : GameState) (bias : List (Action×Action) → ℚ)
    (round : RoundState) (hp2 : KiBounds round.p2Ki) (hp1 : KiBounds round.p1Ki)
    (hturns : 0≤round.turnNumber ∧ round.turnNumber<turnLimit) {eps : ℚ}
    (heps : IsGreatest (usedWeights gameState bias round) eps) :
    let table := solveRoundTable solve lam
    let value := table.v round.p2Ki round.p1Ki round.turnNumber
    (roundGame round).RowPlays (pipelineStrategy table gameState bias round) ∧
    ∀ τ,(roundGame round).ColPlays τ →
      value*(9/10*(1-eps))^turnsLeft round≤
        (roundGame round).expected (roundPayoff lam) (pipelineStrategy table gameState bias round) τ := by
  have h : Open round := ⟨hp1,hp2,hturns⟩
  intro table value
  obtain ⟨hplays,hretains⟩ := pipeline_retains hexact lam gameState h (fun _ hu => heps.2 hu)
  refine ⟨hplays,fun τ hτ => ?_⟩
  obtain ⟨history,-,hused⟩ := heps.1
  obtain ⟨hlow,hhigh⟩ : 0≤eps ∧ eps≤85/100 := hused ▸ adaptiveEps_bounds _ _ _
  have hpayoff : ∀ winner,0≤roundPayoff lam winner := by
    intro winner
    cases winner <;> simp [roundPayoff,hlam.1]
  obtain ⟨htable,hsecures⟩ := tableStrategy_secures hexact lam h
  have hkept := hretains.expected_le (by linarith) (by linarith) hpayoff (roundGame_within h le_rfl)
    htable hτ
  have hvalue := hsecures τ hτ
  rw [valueFn_succ] at hvalue
  rw [mul_comm]
  exact (mul_le_mul_of_nonneg_left hvalue (pow_nonneg (by linarith) _)).trans hkept

/-- The last turn of a round in which both have blocked so far. -/
def lastTurn : RoundState := roundAfter ⟨2,0,0,0,[]⟩ (List.replicate 19 (.block,.block))

/-- Blocks on both sides only pass the time. -/
theorem roundAfter_blocks {round : RoundState} (h1 : round.p1Ki=0) (h2 : round.p2Ki=0) (n : ℕ) :
    let after := roundAfter round (List.replicate n (.block,.block))
    after.p1Ki=0 ∧ after.p2Ki=0 ∧ after.turnNumber=round.turnNumber+n := by
  induction n generalizing round with
  | zero => exact ⟨h1,h2,(add_zero _).symm⟩
  | succ n ih =>
    have hk1 : (nextRound round .block .block).p1Ki=0 := by
      simp [advanceRound,resolveTurn,calculateKiAfter,actionKiCost,actionKiGain,h1]
    have hk2 : (nextRound round .block .block).p2Ki=0 := by
      simp [advanceRound,resolveTurn,calculateKiAfter,actionKiCost,actionKiGain,h2]
    obtain ⟨ha1,ha2,hn⟩ := ih hk1 hk2
    refine ⟨ha1,ha2,hn.trans ?_⟩
    simp only [advanceRound,resolveTurn]
    push_cast
    ring

theorem lastTurn_fields : lastTurn.p1Ki=0 ∧ lastTurn.p2Ki=0 ∧ lastTurn.turnNumber=19 :=
  roundAfter_blocks rfl rfl 19

/-- A match that the AI leads with one round. -/
def leading : GameState :=
  ⟨UUID.small 0,.aiGrandmaster,.inProgress,0,1,some lastTurn,[⟨1,.p2,2,0,1⟩]⟩

/-- With a lead and no measured bias nothing is moved to the best response. -/
theorem usedWeights_leading : IsGreatest (usedWeights leading (fun _ => 0) lastTurn) 0 := by
  have hzero : ∀ history,epsUsed leading (fun _ => 0) lastTurn history=0 := by
    intro history
    norm_num [epsUsed,adaptiveEps,leading,roundsToWin]
  refine ⟨⟨[],True.intro,(hzero []).symm⟩,?_⟩
  rintro used ⟨history,-,rfl⟩
  exact (hzero history).le

/-- For the last turn at equal weight, with a lead and no measured bias. -/
theorem pipeline_guarantee_leading :
    let table := solveRoundTable exactSolver (1/2)
    let value := table.v lastTurn.p2Ki lastTurn.p1Ki lastTurn.turnNumber
    (roundGame lastTurn).RowPlays (pipelineStrategy table leading (fun _ => 0) lastTurn) ∧
    ∀ τ,(roundGame lastTurn).ColPlays τ →
      value*(9/10*(1-0))^turnsLeft lastTurn≤(roundGame lastTurn).expected (roundPayoff (1/2))
        (pipelineStrategy table leading (fun _ => 0) lastTurn) τ :=
  pipeline_guarantee exactSolver_exact ⟨by norm_num,by norm_num⟩ leading (fun _ => 0) lastTurn
    (by rw [lastTurn_fields.2.1]; decide) (by rw [lastTurn_fields.1]; decide)
    (by rw [lastTurn_fields.2.2]; decide) usedWeights_leading

/-- In the last turn, without ki, every pair of actions ends the round. -/
theorem roundNext_lastTurn (me opp : Action) :
    ∃ winner,roundNext lastTurn me opp=.leaf winner ∧
      (opp=.charge → (me=.charge → winner=.draw) ∧ (me=.block → winner=.p1)) := by
  obtain ⟨h1,h2,hn⟩ := lastTurn_fields
  have hover : (nextRound lastTurn opp me).turnNumber=turnLimit := by
    simp only [advanceRound,resolveTurn,hn]
    decide
  cases hw : roundWinner (nextTurn lastTurn opp me) (nextRound lastTurn opp me) with
  | none =>
    have hleft : (nextRound lastTurn opp me).turnNumber<turnLimit :=
      turnsLeft_of_checkRoundEnd (Option.map_eq_none_iff.mpr hw)
    rw [hover] at hleft
    exact absurd hleft (lt_irrefl _)
  | some winner =>
    refine ⟨winner,by simp only [roundNext,hw],?_⟩
    rintro rfl
    have hwinner := hw
    simp only [roundWinner,hover] at hwinner
    constructor
    · rintro rfl
      simpa [advanceRound,resolveTurn,resolveActions,calculateKiAfter,h1,h2] using hwinner.symm
    · rintro rfl
      simpa [advanceRound,resolveTurn,resolveActions,calculateKiAfter,actionKiCost,actionKiGain,
        h1,h2] using hwinner.symm

/-- The opponent who always charges. -/
def charging : Strategy Action Action Action ℚ := fun _ action => if action=.charge then 1 else 0

/-- In the last turn, without ki, to charge against a charge draws and to block
loses. -/
theorem charging_lastTurn (σ : Strategy Action Action Action ℚ) :
    (roundGame lastTurn).ColPlays charging ∧
      (roundGame lastTurn).expected (roundPayoff (1/2)) σ charging=σ [] .charge*(1/2) := by
  obtain ⟨h1,h2,-⟩ := lastTurn_fields
  have hset : (affordableActions 0).toFinset={.charge,.block} := by decide
  rw [roundGame_eq,h1,h2]
  constructor
  · refine ⟨⟨fun action => ?_,fun action ha => ?_,?_⟩,fun me _ opp _ => ?_⟩
    · unfold charging
      split <;> norm_num
    · refine if_neg fun he => ha ?_
      rw [he]
      decide
    · rw [hset]
      simp [charging]
    · obtain ⟨winner,hleaf,-⟩ := roundNext_lastTurn me opp
      rw [hleaf]
      exact True.intro
  · obtain ⟨winner,hleaf,hcharge⟩ := roundNext_lastTurn .charge .charge
    obtain ⟨winner',hleaf',hblock⟩ := roundNext_lastTurn .block .charge
    rw [(hcharge rfl).1 rfl] at hleaf
    rw [(hblock rfl).2 rfl] at hleaf'
    rw [hset]
    simp [expected,charging,hleaf,hleaf',roundPayoff]

/-- The documented bound fails: in the last turn of a round that nobody has ki
for, with nothing moved to the best response, the noise alone makes the AI block
against a charge from time to time. -/
theorem documented_bound_fails :
    ¬∀ (solve : StageSolver) (lam : ℚ) (gameState : GameState) (bias : List (Action×Action) → ℚ)
      (round : RoundState) (eps : ℚ),ExactSolver solve → 0≤lam ∧ lam≤1 →
      (∀ history,0≤bias history ∧ bias history≤1) → KiBounds round.p2Ki → KiBounds round.p1Ki →
      0≤round.turnNumber ∧ round.turnNumber<turnLimit →
      IsGreatest (usedWeights gameState bias round) eps → ∀ τ,(roundGame round).ColPlays τ →
      (solveRoundTable solve lam).v round.p2Ki round.p1Ki round.turnNumber-exploitabilityBound eps≤
        (roundGame round).expected (roundPayoff lam)
          (pipelineStrategy (solveRoundTable solve lam) gameState bias round) τ := by
  intro hbound
  obtain ⟨h1,h2,hn⟩ := lastTurn_fields
  have hbounds1 : KiBounds lastTurn.p1Ki := by
    rw [h1]
    decide
  have hbounds2 : KiBounds lastTurn.p2Ki := by
    rw [h2]
    decide
  have hturns : 0≤lastTurn.turnNumber ∧ lastTurn.turnNumber<turnLimit := by
    rw [hn]
    decide
  have hhalf : (0 : ℚ)≤1/2 ∧ (1/2 : ℚ)≤1 := by norm_num
  obtain ⟨hplays,hexpected⟩ := charging_lastTurn
    (pipelineStrategy (solveRoundTable exactSolver (1/2)) leading (fun _ => 0) lastTurn)
  have hclaimed := hbound exactSolver (1/2) leading (fun _ => 0) lastTurn 0 exactSolver_exact hhalf
    (fun _ => ⟨le_rfl,zero_le_one⟩) hbounds2 hbounds1 hturns usedWeights_leading charging hplays
  have hvalue : (solveRoundTable exactSolver (1/2)).v lastTurn.p2Ki lastTurn.p1Ki
      lastTurn.turnNumber=1/2 := by
    rw [← valueFn_succ,h1,h2]
    exact valueFn_even exactSolver_exact (by decide) (by rw [hn]; decide)
  have hturn : 1≤upcomingTurn lastTurn ∧ upcomingTurn lastTurn≤turnLimit := by
    rw [upcomingTurn,hn]
    decide
  obtain ⟨hmixed,-,hfloor⟩ := finalDistribution_retains exactSolver_exact (1/2) leading hbounds2
    hbounds1 hturn lastTurn.turnHistory 0 le_rfl
  rw [h2] at hmixed hfloor
  have hset : (affordableActions 0).toFinset={.charge,.block} := by decide
  have htotal := hmixed.sum
  rw [hset,Finset.sum_pair (by decide)] at htotal
  have hblock := hfloor .block (by decide)
  have hcharge : pipelineStrategy (solveRoundTable exactSolver (1/2)) leading (fun _ => 0) lastTurn []
      .charge≤49/50 := by
    rw [pipelineStrategy_nil,h2]
    linarith
  rw [hvalue,hexpected,exploitabilityBound] at hclaimed
  linarith

end KiClash.ExploitabilityBound
