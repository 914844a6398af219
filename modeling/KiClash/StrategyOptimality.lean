import KiClash.PerturbedGames
import KiClash.StrategyBuild

/-!
# What the shipped strategy is worth

The match induction rounds the draw weight of every round before it asks what the round is
worth. Over the rounds of a match the roundings add up to little: what is built for a score
is near what the match is worth from there, and an AI that samples from the built tables
gets nearly that much against any opponent.
-/

namespace KiClash.StrategyOptimality

open EngineTypes Engine EngineRuns Transition RoundSimulation Solver SolvedTables MatrixGames
  SimultaneousGames Game RoundGames MatchDecomposition MatchSymmetry GrandmasterPolicy
  DecimalRounding StrategyBuild PerturbedGames

variable {solve : StageSolver}

section Values

/-- The value of a round at an exact draw weight. -/
def exactValue (solve : StageSolver) (lam : ℚ) : ℚ := roundStartValue (solveRoundTable solve lam)

theorem roundError_nonneg : 0≤roundError := by
  unfold roundError
  positivity

/-- The rounds that are left at a score. -/
def roundsLeft (score : Score) : ℕ := (3-score.2.2).toNat

theorem roundsLeft_next {score : Score} (h : scoreWinner score=none) (winner : RoundWinner) :
    roundsLeft (afterRound score winner)+1=roundsLeft score := by
  have := played_lt h
  simp only [roundsLeft,afterRound]
  omega

/-- What the results of a round are taken to be worth when its draw weight is rounded. -/
def roundedPayoff (solve : StageSolver) (score : Score) (winner : RoundWinner) : ℚ :=
  let value := fun winner => scoreValue (tableValue solve) (afterRound score winner)
  value .p1+(value .p2-value .p1)*
    roundPayoff (roundFloat (solvedScore (tableValue solve) score).1) winner

/-- A score that is solved with rounded weights. -/
structure RoundedScore (solve : StageSolver) (score : Score) : Prop where
  /-- A win is worth no less than a loss. -/
  ordered : scoreValue (tableValue solve) (afterRound score .p1)≤
    scoreValue (tableValue solve) (afterRound score .p2)
  /-- What the results are taken to be worth is near what they are worth. -/
  near : ∀ winner,|roundedPayoff solve score winner-
    scoreValue (tableValue solve) (afterRound score winner)|≤roundError
  /-- The value of the score on the scale of the round. -/
  onScale : scoreValue (tableValue solve) score=
    scoreValue (tableValue solve) (afterRound score .p1)+
      (scoreValue (tableValue solve) (afterRound score .p2)-
        scoreValue (tableValue solve) (afterRound score .p1))*
      exactValue solve (roundFloat (solvedScore (tableValue solve) score).1)

/-- Every score before a round is one. -/
theorem rounded_score (hexact : ExactSolver solve) {score : Score}
    (hmem : score∈reachableMatchStates) : RoundedScore solve score := by
  obtain ⟨hc,hgoes⟩ := counted_of_mem hmem
  have horacle := tableValue_oracle hexact
  have hbalanced := fun winner => balanced horacle (hc.next hgoes winner)
  have hld := loss_le_draw hc hgoes hbalanced
  have hdw := draw_le_win hc hgoes hbalanced
  have hloss := (hbalanced .p1).bounds
  have hwin := (hbalanced .p2).bounds
  have hvalue := scoreValue_goes (r := tableValue solve) (terminalMatchValue_none hgoes)
  unfold solvedScore at hvalue
  refine ⟨hld.trans hdw,fun winner => ?_,?_⟩
  · unfold roundedPayoff solvedScore solveScore
    dsimp only
    cases winner with
    | p1 => simp [roundPayoff,roundError_nonneg]
    | p2 => simp [roundPayoff,roundError_nonneg]
    | draw =>
      generalize scoreValue (tableValue solve) (afterRound score .p1)=loss at *
      generalize scoreValue (tableValue solve) (afterRound score .p2)=win at *
      generalize scoreValue (tableValue solve) (afterRound score .draw)=draw at *
      by_cases hsame : win=loss
      · obtain rfl : draw=loss := le_antisymm (hsame ▸ hdw) hld
        simp [hsame,roundError_nonneg]
      · have hgap : win-loss≠0 := sub_ne_zero.mpr hsame
        rw [if_neg hsame]
        simp only [roundPayoff]
        have hback : (win-loss)*((draw-loss)/(win-loss))=draw-loss := mul_div_cancel₀ _ hgap
        have herror : loss+(win-loss)*roundFloat ((draw-loss)/(win-loss))-draw=
            (win-loss)*(roundFloat ((draw-loss)/(win-loss))-(draw-loss)/(win-loss)) := by
          rw [mul_sub,hback]
          ring
        have hscale : |win-loss|≤1 := by
          rw [abs_le]
          constructor <;> linarith [hloss.1,hloss.2,hwin.1,hwin.2]
        rw [herror,abs_mul]
        calc |win-loss| * |roundFloat ((draw-loss)/(win-loss))-(draw-loss)/(win-loss)|
            ≤1*roundError := mul_le_mul hscale (roundFloat_near _) (abs_nonneg _) zero_le_one
          _=roundError := one_mul _
  · rw [hvalue]
    unfold solvedScore solveScore
    split_ifs with hsame
    · rw [hsame,sub_self,zero_mul,add_zero]
    · rfl

/-- The round, scored by what its results are taken to be worth. -/
theorem RoundedScore.worth {score : Score} (h : RoundedScore solve score)
    (hexact : ExactSolver solve) :
    Worth (roundedPayoff solve score) (roundGame freshRound)
      (scoreValue (tableValue solve) score) := by
  rw [h.onScale]
  exact (roundStartValue_worth hexact _).affine _ (sub_nonneg.mpr h.ordered)

/-- The round, scored by what its results are worth in the match. -/
theorem exact_worth (hexact : ExactSolver solve) {score : Score} (hc : Counted score)
    (hgoes : scoreWinner score=none) :
    Worth (fun winner => scoreValue (exactValue solve) (afterRound score winner))
      (roundGame freshRound) (scoreValue (exactValue solve) score) := by
  have hr : ∀ lam,0≤lam → lam≤1 →
      Worth (roundPayoff lam) (roundGame freshRound) (exactValue solve lam) :=
    fun lam _ _ => roundStartValue_worth hexact lam
  obtain ⟨base,scale,hscaled⟩ := (scoreValue_worth hr hc).2 hgoes
  have hnext : (fun winner => scoreValue (exactValue solve) (afterRound score winner))=
      fun winner => base+scale*roundPayoff (solvedScore (exactValue solve) score).1 winner := by
    funext winner
    exact (scoreValue_worth hr (hc.next hgoes winner)).1.unique (hscaled.nextScores winner)
  rw [hnext,scoreValue_goes (terminalMatchValue_none hgoes)]
  exact hscaled.round hr

/-- What is built for a score is near what the match is worth from there: every round that is
left adds one rounding. By induction on the rounds left. -/
theorem scoreValue_near (hexact : ExactSolver solve) {score : Score} (hc : Counted score) :
    |scoreValue (tableValue solve) score-scoreValue (exactValue solve) score|≤
      roundsLeft score*roundError := by
  induction hn : roundsLeft score generalizing score with
  | zero =>
    cases hw : scoreWinner score with
    | none =>
      have := roundsLeft_next hw .draw
      omega
    | some winner =>
      obtain ⟨value,hterminal⟩ := terminalMatchValue_some (K := ℚ) hw
      simp [scoreValue_ends hterminal]
  | succ n ih =>
    cases hw : scoreWinner score with
    | some winner =>
      obtain ⟨value,hterminal⟩ := terminalMatchValue_some (K := ℚ) hw
      rw [scoreValue_ends hterminal,scoreValue_ends hterminal,sub_self,abs_zero]
      exact mul_nonneg (Nat.cast_nonneg _) roundError_nonneg
    | none =>
      have hrounded := rounded_score hexact (hc.mem hw)
      refine worth_near (hrounded.worth hexact) (exact_worth hexact hc hw) fun winner => ?_
      have hleft := roundsLeft_next hw winner
      have hlater := ih (hc.next hw winner) (by omega)
      have hnear := hrounded.near winner
      have hsplit : roundedPayoff solve score winner-
          scoreValue (exactValue solve) (afterRound score winner)=
          (roundedPayoff solve score winner-
            scoreValue (tableValue solve) (afterRound score winner))+
          (scoreValue (tableValue solve) (afterRound score winner)-
            scoreValue (exactValue solve) (afterRound score winner)) := by ring
      rw [hsplit]
      push_cast
      linarith [abs_add_le
        (roundedPayoff solve score winner-scoreValue (tableValue solve) (afterRound score winner))
        (scoreValue (tableValue solve) (afterRound score winner)-
          scoreValue (exactValue solve) (afterRound score winner))]

end Values

section Strategies

/-- The match after some pairs of actions, mine first. -/
def stateAfter (state : GameState) (history : List (Action×Action)) : GameState :=
  history.foldl (fun state actions => (submitTurn state actions.2 actions.1).1) state

/-- An AI that samples from the cell of the round table that it looks up. -/
def tablesStrategy (tables : StrategyTable) (state : GameState) :
    SimultaneousGames.Strategy Action Action Action ℚ := fun history =>
  let current := stateAfter state history
  match current.currentRound,stateTable tables (resolveMatchState current) with
  | some round,some table =>
    storedStrategy table (round.turnNumber+1) round.p2Ki round.p1Ki
  | _,_ => fun _ => 0

/-- After a turn it goes on from the state that the turn leads to. -/
theorem tablesStrategy_after (tables : StrategyTable) {state state' : GameState} {me opp : Action}
    {report : TurnReport} (h : submitTurn state opp me=(state',.ok report)) :
    (tablesStrategy tables state).after me opp=tablesStrategy tables state' := by
  funext history
  simp only [SimultaneousGames.Strategy.after,tablesStrategy,stateAfter,List.foldl_cons,h]

/-- In a round it secures the value that the table of the score has for it; by induction on
the turns left. -/
theorem tablesStrategy_round (hexact : ExactSolver solve) {score : Score}
    (hmem : score∈reachableMatchStates) {round : RoundState} {state : GameState} (h : Playing score round state) (hopen : Open round) :
    let lam := roundFloat (solvedScore (tableValue solve) score).1
    Secures (roundPayoff lam) (roundGame round)
      ((solveRoundTable solve lam).valueFn round.p2Ki round.p1Ki (round.turnNumber+1))
      (tablesStrategy (buildFullStrategy solve).tables state) := by
  intro lam
  have hentry := (build_entries hexact).1 score hmem
  have hlookup := (stateTable_of_entries (lambdaKey_ne_empty _) hentry.lambdas hentry.tables
    hentry.named (solveRoundTable_solved solve _).weight).2.2
  induction hn : turnsLeft round using Nat.strong_induction_on generalizing round state with
  | _ n ih =>
    have hturn : 1≤round.turnNumber+1 ∧ round.turnNumber+1≤turnLimit := by
      have := hopen.turns
      omega
    obtain ⟨hmixed,hsecures,-⟩ := solved_stage hexact lam hturn hopen.p2Ki hopen.p1Ki
    have hstart : tablesStrategy (buildFullStrategy solve).tables state []=
        storedStrategy (solveRoundTable solve lam) (round.turnNumber+1) round.p2Ki round.p1Ki := by
      have hkey : resolveMatchState state=scoreKey score := by
        rw [← h.score]
        rfl
      simp only [tablesStrategy,stateAfter,List.foldl_nil,h.opened,hkey,hlookup]
      rfl
    rw [RoundGames.roundGame_eq]
    refine secures_stage (hstart ▸ hmixed) (fun me hme opp hopp => ?_) (hstart ▸ hsecures)
    rcases stagePayoff_next hopen lam (solveRoundTable solve lam).valueFn me opp with
      ⟨winner,hleaf,hpayoff⟩ | ⟨hopen',hfewer,hrest,hpayoff⟩
    · rw [hleaf,hpayoff]
      exact secures_leaf _ _
    · rw [hrest,hpayoff]
      cases h.turn hme hopp with
      | roundGoesOn state' report hcall hplaying hturns hleft hround hmatch =>
        rw [tablesStrategy_after _ hcall]
        exact ih _ (hn ▸ hfewer) hplaying hopen' rfl
      -- a round that goes on has not come to its end
      | roundCloses winner round' state' report hcall hplaying hfresh hleft hgoes hround hmatch =>
        rw [hrest,RoundGames.roundGame_eq] at hround
        cases hround
      | matchCloses winner matchWinner hends hround hmatch =>
        rw [hrest,RoundGames.roundGame_eq] at hround
        cases hround

/-- At the end of a round the AI goes on from the state that the round has led to; by induction
on the turns of the round. -/
theorem atLeaves_tablesStrategy {tables : StrategyTable} {score : Score} {round : RoundState}
    {state : GameState} {payoff : RoundWinner → ℚ} (h : Playing score round state)
    (hends : ∀ winner matchWinner,scoreWinner (afterRound score winner)=some matchWinner →
      payoff winner≤ matchPayoff matchWinner)
    (hlater : ∀ winner round' state',Playing (afterRound score winner) round' state' →
      Fresh round' → scoreWinner (afterRound score winner)=none →
      Secures matchPayoff (scoreGame (afterRound score winner)) (payoff winner)
        (tablesStrategy tables state')) :
    (roundGame round).AtLeaves (fun winner σ =>
      Secures matchPayoff (scoreGame (afterRound score winner)) (payoff winner) σ)
      (tablesStrategy tables state) := by
  induction hn : turnsLeft round using Nat.strong_induction_on generalizing round state with
  | _ n ih =>
    rw [RoundGames.roundGame_eq]
    intro me hme opp hopp
    cases h.turn hme hopp with
    | roundGoesOn state' report hcall hplaying hturns hleft hround hmatch =>
      rw [hround,tablesStrategy_after tables hcall]
      exact ih _ (hn ▸ hturns) hplaying rfl
    | roundCloses winner round' state' report hcall hplaying hfresh hleft hgoes hround hmatch =>
      rw [hround,tablesStrategy_after tables hcall]
      exact hlater winner round' state' hplaying hfresh hgoes
    | matchCloses winner matchWinner hmatchEnds hround hmatch =>
      rw [hround]
      change Secures matchPayoff (scoreGame (afterRound score winner)) (payoff winner) _
      rw [scoreGame_ends hmatchEnds]
      exact secures_of_le (secures_leaf matchWinner _) (hends winner matchWinner hmatchEnds)

/-- In the rest of the match the AI secures what is built for the score, but for a rounding in
each round that is left; by induction on these. -/
theorem tablesStrategy_secures (hexact : ExactSolver solve) {score : Score}
    (hmem : score∈reachableMatchStates) {round : RoundState} {state : GameState}
    (h : Playing score round state) (hfresh : Fresh round) :
    Secures matchPayoff (scoreGame score)
      (scoreValue (tableValue solve) score-roundsLeft score*roundError)
      (tablesStrategy (buildFullStrategy solve).tables state) := by
  induction hn : roundsLeft score generalizing score round state with
  | zero =>
    have := roundsLeft_next (counted_of_mem hmem).2 .draw
    omega
  | succ n ih =>
    obtain ⟨hc,hgoes⟩ := counted_of_mem hmem
    have hrounded := rounded_score hexact hmem
    have hopen : Open round := by
      obtain ⟨hk1,hk2,hturn⟩ := hfresh
      refine ⟨?_,?_,?_⟩
      · rw [hk1]
        exact freshRound_open.p1Ki
      · rw [hk2]
        exact freshRound_open.p2Ki
      · rw [hturn]
        exact freshRound_open.turns
    -- the round, for what its results are taken to be worth
    have hround := tablesStrategy_round hexact hmem h hopen
    dsimp only at hround
    rw [hfresh.1,hfresh.2.1,hfresh.2.2,hfresh.roundGame_eq] at hround
    have hscaled := hround.affine (scoreValue (tableValue solve) (afterRound score .p1))
      (sub_nonneg.mpr hrounded.ordered)
    have honScale := hrounded.onScale
    rw [exactValue,← valueFn_freshRound] at honScale
    rw [← honScale] at hscaled
    -- and for what the AI gets after them
    have hlower : ∀ winner,roundedPayoff solve score winner-((n+1 : ℕ) : ℚ)*roundError≤
        scoreValue (tableValue solve) (afterRound score winner)-n*roundError := by
      intro winner
      have hnear := (abs_le.mp (hrounded.near winner)).2
      push_cast
      linarith
    have hround' := secures_near hscaled hlower
    rw [scoreGame_goes hgoes]
    refine hround'.bind ?_
    have hrest := @atLeaves_tablesStrategy (buildFullStrategy solve).tables score round state
      (fun winner => scoreValue (tableValue solve) (afterRound score winner)-n*roundError) h ?_ ?_
    · rwa [hfresh.roundGame_eq] at hrest
    · intro winner matchWinner hends
      have hterminal := terminalMatchValue_eq (hc.next hgoes winner)
      rw [hends] at hterminal
      rw [scoreValue_ends hterminal]
      linarith [mul_nonneg (Nat.cast_nonneg (α := ℚ) n) roundError_nonneg]
    · intro winner round' state' hplaying hfresh' hgoes'
      have hleft := roundsLeft_next hgoes winner
      exact ih ((hc.next hgoes winner).mem hgoes') hplaying hfresh' (by omega)

/-- With an exact stage solver: what is built for the score of a match is within a rounding for
each round that is left of what the match is worth from there, and an AI that samples from
the built tables secures that worth but for twice as much, whatever its opponent does. -/
theorem built_near_optimal (hexact : ExactSolver solve) (score : Score)
    (hmem : score∈reachableMatchStates) :
    ∃ value worth,(buildFullStrategy solve).matchStateToValue.get (scoreKey score)=some value ∧
      |value-worth|≤(3-score.2.2)*(1/2/10^6) ∧
      ∀ state round,Playing score round state → Fresh round →
        Worth matchPayoff (matchGame state) worth ∧
        Secures matchPayoff (matchGame state) (worth-(3-score.2.2)/10^6)
          (tablesStrategy (buildFullStrategy solve).tables state) := by
  obtain ⟨hc,hgoes⟩ := counted_of_mem hmem
  have hr : ∀ lam,0≤lam → lam≤1 →
      Worth (roundPayoff lam) (roundGame freshRound) (exactValue solve lam) :=
    fun lam _ _ => roundStartValue_worth hexact lam
  have hvalue := ((build_entries hexact).1 score hmem).values
  rw [← scoreValue_goes (terminalMatchValue_none hgoes)] at hvalue
  have hleft : ((roundsLeft score : ℕ) : ℚ)=3-score.2.2 := by
    have hlt := played_lt hgoes
    have hcast : ((roundsLeft score : ℕ) : ℤ)=3-score.2.2 := by
      unfold roundsLeft
      omega
    exact_mod_cast congrArg (Int.cast : ℤ → ℚ) hcast
  have herror : roundError=1/2/10^6 := rfl
  have hnear := scoreValue_near hexact hc
  rw [hleft,herror] at hnear
  refine ⟨_,scoreValue (exactValue solve) score,hvalue,hnear,fun state round h hfresh => ?_⟩
  have hagree : Agree (scoreGame score) (matchGame state) := by
    rw [scoreGame_goes hgoes,← hfresh.roundGame_eq]
    exact (matchGame_agree h).symm
  refine ⟨hagree.worth (scoreValue_worth hr hc).1,?_⟩
  have hsecures := tablesStrategy_secures hexact hmem h hfresh
  rw [hleft,herror] at hsecures
  refine hagree.secures (secures_of_le hsecures ?_)
  linarith [(abs_le.mp hnear).1]

/-- At the opening of a match. -/
theorem opening_near_optimal :
    ∃ value worth,(buildFullStrategy exactSolver).matchStateToValue.get "0-0-0"=some value ∧
      |value-worth|≤(3-0)*(1/2/10^6) ∧
      ∀ state round,Playing (0,0,0) round state → Fresh round →
        Worth matchPayoff (matchGame state) worth ∧
        Secures matchPayoff (matchGame state) (worth-(3-0)/10^6)
          (tablesStrategy (buildFullStrategy exactSolver).tables state) := by
  have hopening := built_near_optimal exactSolver_exact (0,0,0) (by decide)
  have hkey : scoreKey (0,0,0)="0-0-0" := by decide
  rw [hkey] at hopening
  simpa only [Int.cast_zero] using hopening

end Strategies

end KiClash.StrategyOptimality
