import KiClash.RoundSimulation
import KiClash.SimultaneousGames
import KiClash.SolvedTables

/-!
# The round as a game

A round of the engine as a game with simultaneous moves, over its real rules:
the pairs of actions that submit_turn accepts, the next round and the verdict
of the engine. The solved tables are read against it by backward induction over
the turns: the stored strategies secure the stored values, whatever the
opponent does, and the tables of two mirrored draw weights mirror each other.
-/

namespace KiClash.RoundGames

open EngineTypes Engine EngineRuns Transition RoundSimulation Solver SolvedTables
open MatrixGames SimultaneousGames Game

/-- Turns that an open round has left. -/
def turnsLeft (round : RoundState) : ℕ := (turnLimit-round.turnNumber).toNat

/-- A round that goes on has fewer turns left. -/
theorem turnsLeft_nextRound {round : RoundState} {me opp : Action}
    (h : roundWinner (nextTurn round opp me) (nextRound round opp me)=none) :
    turnsLeft (nextRound round opp me)<turnsLeft round := by
  have hleft : round.turnNumber+1<turnLimit :=
    turnsLeft_of_checkRoundEnd (Option.map_eq_none_iff.mpr h)
  have hnext : (nextRound round opp me).turnNumber=round.turnNumber+1 := rfl
  unfold turnsLeft
  omega

/-- The rest of a round: my actions first, since I am the row player. -/
def roundGame (round : RoundState) : Game Action Action RoundWinner :=
  .stage (affordableActions round.p2Ki).toFinset (affordableActions round.p1Ki).toFinset
    fun me opp =>
      match _h : roundWinner (nextTurn round opp me) (nextRound round opp me) with
      | some winner => .leaf winner
      | none => roundGame (nextRound round opp me)
termination_by turnsLeft round
decreasing_by exact turnsLeft_nextRound _h

/-- What a pair of actions leads to: the end of the round, or its rest. -/
def roundNext (round : RoundState) (me opp : Action) : Game Action Action RoundWinner :=
  match roundWinner (nextTurn round opp me) (nextRound round opp me) with
  | some winner => .leaf winner
  | none => roundGame (nextRound round opp me)

theorem roundGame_eq (round : RoundState) :
    roundGame round=.stage (affordableActions round.p2Ki).toFinset
      (affordableActions round.p1Ki).toFinset (roundNext round) := by
  rw [roundGame]
  congr 1
  funext me opp
  unfold roundNext
  split <;> simp_all

/-- The number of resolved turns is the index of the upcoming one. -/
theorem valueFn_succ (table : RoundTable) (myKi oppKi turnNumber : ℤ) :
    table.valueFn myKi oppKi (turnNumber+1)=table.v myKi oppKi turnNumber := by
  rw [RoundTable.valueFn,add_sub_cancel_right]

/-- What the end of a round is worth to me. -/
def roundPayoff (lam : ℚ) : RoundWinner → ℚ
  | .p2 => 1
  | .p1 => 0
  | .draw => lam

/-- The round after some pairs of actions, mine first. -/
def roundAfter (round : RoundState) (history : List (Action×Action)) : RoundState :=
  history.foldl (fun round actions => nextRound round actions.2 actions.1) round

/-- Playing in each state the strategy that the table stores for it. -/
def tableStrategy (table : RoundTable) (round : RoundState) : Strategy Action Action Action ℚ :=
  fun history =>
    let current := roundAfter round history
    storedStrategy table (current.turnNumber+1) current.p2Ki current.p1Ki

/-- An open round within its bounds. -/
structure Open (round : RoundState) : Prop where
  /-- Player 1's ki. -/
  p1Ki : KiBounds round.p1Ki
  /-- Player 2's ki. -/
  p2Ki : KiBounds round.p2Ki
  /-- A turn is left. -/
  turns : 0≤round.turnNumber ∧ round.turnNumber<turnLimit

/-- A round that goes on stays within its bounds. -/
theorem Open.next {round : RoundState} (h : Open round) {me opp : Action}
    (hnone : roundWinner (nextTurn round opp me) (nextRound round opp me)=none) :
    Open (nextRound round opp me) where
  p1Ki := kiAfter_bounds round.p1Ki opp
  p2Ki := kiAfter_bounds round.p2Ki me
  turns := by
    have hleft : round.turnNumber+1<turnLimit :=
      turnsLeft_of_checkRoundEnd (Option.map_eq_none_iff.mpr hnone)
    have hnext : (nextRound round opp me).turnNumber=round.turnNumber+1 := rfl
    have := h.turns
    omega

/-- The upcoming turn of an open round, which is never clamped. -/
theorem Open.upcomingTurn_eq {round : RoundState} (h : Open round) :
    upcomingTurn round=round.turnNumber+1 := by
  have := h.turns
  unfold upcomingTurn
  omega

/-- What the pair of actions counts in the stage: the payoff of the end, or the
value of the rest. -/
theorem stagePayoff_next {round : RoundState} (h : Open round) (lam : ℚ) (valueFn : ValueFn)
    (me opp : Action) :
    (∃ winner,roundNext round me opp=.leaf winner ∧
      stagePayoff me opp round.p2Ki round.p1Ki (round.turnNumber+1) lam valueFn=
        roundPayoff lam winner) ∨
    (Open (nextRound round opp me) ∧ turnsLeft (nextRound round opp me)<turnsLeft round ∧
      roundNext round me opp=roundGame (nextRound round opp me) ∧
      stagePayoff me opp round.p2Ki round.p1Ki (round.turnNumber+1) lam valueFn=
        valueFn (nextRound round opp me).p2Ki (nextRound round opp me).p1Ki
          ((nextRound round opp me).turnNumber+1)) := by
  have hstage := stagePayoff_eq h.turns.2 me opp lam valueFn
  rw [h.upcomingTurn_eq] at hstage
  rw [hstage]
  cases hw : roundWinner (nextTurn round opp me) (nextRound round opp me) with
  | some winner =>
    left
    refine ⟨winner,by simp only [roundNext,hw],?_⟩
    cases winner <;> rfl
  | none =>
    right
    have hopen := h.next hw
    refine ⟨hopen,turnsLeft_nextRound hw,by simp only [roundNext,hw],?_⟩
    rw [verdictPayoff,hopen.upcomingTurn_eq]

section Tables

variable {solve : StageSolver} (hexact : ExactSolver solve) (lam : ℚ)

include hexact

/-- The stored strategies secure the stored value. -/
theorem tableStrategy_secures {round : RoundState} (h : Open round) :
    Secures (roundPayoff lam) (roundGame round)
      ((solveRoundTable solve lam).valueFn round.p2Ki round.p1Ki (round.turnNumber+1))
      (tableStrategy (solveRoundTable solve lam) round) := by
  induction hn : turnsLeft round using Nat.strong_induction_on generalizing round with
  | _ n ih =>
    have hturn : 1≤round.turnNumber+1 ∧ round.turnNumber+1≤turnLimit := by
      have := h.turns
      omega
    obtain ⟨hmixed,hsecures,-⟩ := solved_stage hexact lam hturn h.p2Ki h.p1Ki
    rw [roundGame_eq]
    refine secures_stage hmixed (fun me _ opp _ => ?_) hsecures
    rcases stagePayoff_next h lam (solveRoundTable solve lam).valueFn me opp with
      ⟨winner,hleaf,hpayoff⟩ | ⟨hopen,hfewer,hrest,hpayoff⟩
    · rw [hleaf,hpayoff]
      exact secures_leaf _ _
    · rw [hrest,hpayoff]
      exact ih _ (hn ▸ hfewer) hopen rfl

/-- The stored value is what the round is worth. -/
theorem roundGame_worth {round : RoundState} (h : Open round) :
    Worth (roundPayoff lam) (roundGame round)
      ((solveRoundTable solve lam).valueFn round.p2Ki round.p1Ki (round.turnNumber+1)) := by
  induction hn : turnsLeft round using Nat.strong_induction_on generalizing round with
  | _ n ih =>
    have hturn : 1≤round.turnNumber+1 ∧ round.turnNumber+1≤turnLimit := by
      have := h.turns
      omega
    obtain ⟨-,-,hvalue⟩ := solved_stage hexact lam hturn h.p2Ki h.p1Ki
    rw [roundGame_eq]
    refine worth_stage (fun me _ opp _ => ?_) hvalue
    rcases stagePayoff_next h lam (solveRoundTable solve lam).valueFn me opp with
      ⟨winner,hleaf,hpayoff⟩ | ⟨hopen,hfewer,hrest,hpayoff⟩
    · rw [hleaf,hpayoff]
      exact worth_leaf winner
    · rw [hrest,hpayoff]
      exact ih _ (hn ▸ hfewer) hopen rfl

end Tables

/-- An AI that plays the stored strategies gets at least the stored value in
every open round, whatever the opponent does, and some opponent concedes to no
AI more than that. -/
theorem equilibrium_is_secure {solve : StageSolver} (hexact : ExactSolver solve) (lam : ℚ)
    (round : RoundState) (hp2 : KiBounds round.p2Ki) (hp1 : KiBounds round.p1Ki)
    (hturns : 0≤round.turnNumber ∧ round.turnNumber<turnLimit) :
    let table := solveRoundTable solve lam
    let value := table.v round.p2Ki round.p1Ki round.turnNumber
    (roundGame round).RowPlays (tableStrategy table round) ∧
    (∀ τ,(roundGame round).ColPlays τ →
      value≤(roundGame round).expected (roundPayoff lam) (tableStrategy table round) τ) ∧
    ∃ τ,(roundGame round).ColPlays τ ∧
      ∀ σ,(roundGame round).RowPlays σ → (roundGame round).expected (roundPayoff lam) σ τ≤value := by
  have h : Open round := ⟨hp1,hp2,hturns⟩
  intro table value
  have hvalue : table.valueFn round.p2Ki round.p1Ki (round.turnNumber+1)=value :=
    valueFn_succ table _ _ _
  obtain ⟨hplays,hsecures⟩ := tableStrategy_secures hexact lam h
  obtain ⟨τ,hτ,hholds⟩ := (roundGame_worth hexact lam h).holds
  rw [hvalue] at hsecures hholds
  exact ⟨hplays,hsecures,τ,hτ,hholds⟩

/-- For the opening of a round at equal weight, with an exact solver. -/
theorem equilibrium_is_secure_opening :
    let table := solveRoundTable exactSolver (1/2)
    let round : RoundState := ⟨1,0,0,0,[]⟩
    (roundGame round).RowPlays (tableStrategy table round) ∧
    (∀ τ,(roundGame round).ColPlays τ → table.v 0 0 0≤
      (roundGame round).expected (roundPayoff (1/2)) (tableStrategy table round) τ) ∧
    ∃ τ,(roundGame round).ColPlays τ ∧ ∀ σ,(roundGame round).RowPlays σ →
      (roundGame round).expected (roundPayoff (1/2)) σ τ≤table.v 0 0 0 :=
  equilibrium_is_secure exactSolver_exact (1/2) ⟨1,0,0,0,[]⟩ (by decide) (by decide) (by decide)

/-- The other side of a payoff, when the continuation mirrors. -/
theorem stagePayoff_mirror {me opp : Action} {myKi oppKi turn : ℤ} (lam : ℚ)
    {valueFn valueFn' : ValueFn}
    (h : turn<turnLimit → valueFn' (kiAfter oppKi opp) (kiAfter myKi me) (turn+1)=
      1-valueFn (kiAfter myKi me) (kiAfter oppKi opp) (turn+1)) :
    stagePayoff opp me oppKi myKi turn (1-lam) valueFn'=
      1-stagePayoff me opp myKi oppKi turn lam valueFn := by
  have hswap := immediateOutcome_swap me opp
  rcases stagePayoff_cases me opp myKi oppKi turn lam valueFn with
    ⟨hnow,hpayoff⟩ | ⟨hnow,hpayoff⟩ | ⟨hnow,hlast,hpayoff⟩ | ⟨hnow,hgoes,hpayoff⟩
  · rw [hpayoff]
    simp [stagePayoff,hswap,hnow]
  · rw [hpayoff]
    simp [stagePayoff,hswap,hnow]
  · rw [hpayoff]
    have hleaf : stagePayoff opp me oppKi myKi turn (1-lam) valueFn'=
        if kiAfter oppKi opp>kiAfter myKi me then 1
        else if kiAfter oppKi opp<kiAfter myKi me then 0 else 1-lam := by
      simp [stagePayoff,hswap,hnow,hlast]
    rw [hleaf]
    rcases lt_trichotomy (kiAfter myKi me) (kiAfter oppKi opp) with hlt | heq | hgt
    · rw [if_pos hlt,if_neg hlt.not_gt,if_pos hlt,sub_zero]
    · simp [heq]
    · rw [if_neg hgt.not_gt,if_pos hgt,if_pos hgt,sub_self]
  · rw [hpayoff,← h hgoes]
    simp [stagePayoff,hswap,hnow,not_le.mpr hgoes]

/-- The tables of two mirrored draw weights, turn by turn from the last one. -/
theorem valueFn_mirror {solve : StageSolver} (hexact : ExactSolver solve) (lam : ℚ) {n : ℕ}
    {myKi oppKi turn : ℤ} (hn : (turnLimit-turn).toNat=n) (hturn : 1≤turn ∧ turn≤turnLimit)
    (hmy : KiBounds myKi) (hopp : KiBounds oppKi) :
    (solveRoundTable solve (1-lam)).valueFn oppKi myKi turn=
      1-(solveRoundTable solve lam).valueFn myKi oppKi turn := by
  induction n using Nat.strong_induction_on generalizing myKi oppKi turn with
  | _ n ih =>
    obtain ⟨-,-,hvalue⟩ := solved_stage hexact lam hturn hmy hopp
    obtain ⟨-,-,hvalue'⟩ := solved_stage hexact (1-lam) hturn hopp hmy
    refine hvalue'.unique (hvalue.mirror.congr fun opp _ me _ => ?_)
    refine (stagePayoff_mirror lam fun hlt => ?_).symm
    have hnext : (turnLimit-(turn+1)).toNat<n := by omega
    exact ih _ hnext rfl (by omega) (kiAfter_bounds myKi me) (kiAfter_bounds oppKi opp)

/-- At equal weight a state with the same ki on both sides is even. -/
theorem valueFn_even {solve : StageSolver} (hexact : ExactSolver solve) {ki turn : ℤ}
    (hki : KiBounds ki) (hturn : 1≤turn ∧ turn≤turnLimit) :
    (solveRoundTable solve (1/2)).valueFn ki ki turn=1/2 := by
  have heven := valueFn_mirror hexact (1/2) rfl hturn hki hki
  rw [sub_half (1 : ℚ)] at heven
  linarith

/-- The tables of two draw weights that add up to one add up to one at mirrored
states, so that at equal weight a state with the same ki on both sides is even. -/
theorem tables_constant_sum {solve : StageSolver} (hexact : ExactSolver solve) (lam : ℚ)
    (myKi oppKi turn : ℤ) (hmy : KiBounds myKi) (hopp : KiBounds oppKi)
    (hturn : 1≤turn ∧ turn≤turnLimit) :
    (solveRoundTable solve lam).v myKi oppKi (turn-1)+
      (solveRoundTable solve (1-lam)).v oppKi myKi (turn-1)=1 ∧
    (solveRoundTable solve (1/2)).v myKi myKi (turn-1)=1/2 := by
  have hmirror := valueFn_mirror hexact lam rfl hturn hmy hopp
  simp only [RoundTable.valueFn] at hmirror
  exact ⟨by linarith,valueFn_even hexact hmy hturn⟩

/-- At the first turn of a round whose draw counts a quarter. -/
theorem tables_constant_sum_opening :
    (solveRoundTable exactSolver (1/4)).v 2 0 (1-1)+
      (solveRoundTable exactSolver (1-1/4)).v 0 2 (1-1)=1 ∧
    (solveRoundTable exactSolver (1/2)).v 2 2 (1-1)=1/2 :=
  tables_constant_sum exactSolver_exact (1/4) 2 0 1 (by decide) (by decide) (by decide)

end KiClash.RoundGames
