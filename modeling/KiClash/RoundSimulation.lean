import KiClash.EngineRuns
import KiClash.Transition
import Mathlib.Tactic.IntervalCases

/-!
# The solver plays the engine's rounds

The rules of the grandmaster solver and those of the match engine, compared on
every match that submit_turn can lead to. The AI is player 2, so my ki is
p2_ki and my action is the second argument of submit_turn. One equation covers
a turn: the stage payoff is what the engine's verdict on the turn counts, or
the continuation value of exactly the round that the engine goes on with.
-/

namespace KiClash.RoundSimulation

open EngineTypes OutcomeMatrix Engine EngineRuns Transition

/-- What the engine's verdict on a turn counts: a won round one, a lost round
nothing, a drawn round lam, and a round that goes on its continuation value. -/
def verdictPayoff (lam : ℚ) (valueFn : ValueFn) (round : RoundState) : Option RoundWinner → ℚ
  | some .p2 => 1
  | some .p1 => 0
  | some .draw => lam
  | none => valueFn round.p2Ki round.p1Ki (upcomingTurn round)

/-- The stage payoff resolves to a leaf, whatever the draw weight and the
continuation values are. -/
def ResolvesTo (me opp : Action) (myKi oppKi turn : ℤ) (leaf : ℚ → ℚ) : Prop :=
  ∀ lam valueFn,stagePayoff me opp myKi oppKi turn lam valueFn=leaf lam

/-- The stage payoff looks up the continuation value of a state. -/
def LooksUp (me opp : Action) (myKi oppKi turn myNext oppNext nextTurn : ℤ) : Prop :=
  ∀ lam valueFn,stagePayoff me opp myKi oppKi turn lam valueFn=valueFn myNext oppNext nextTurn

section Turn

variable {round : RoundState} {me opp : Action}

/-- In terms of the engine's outcome, which is seen from player 1. -/
theorem immediateOutcome_eq (me opp : Action) : immediateOutcome me opp=
    if resolveActions opp me=.p2WinsRound then 1
    else if resolveActions opp me=.p1WinsRound then -1 else 0 := by
  cases me <;> cases opp <;> decide

/-- One turn: the stage payoff is what the engine's verdict counts. -/
theorem stagePayoff_eq (hturns : round.turnNumber<turnLimit) (me opp : Action) (lam : ℚ)
    (valueFn : ValueFn) :
    stagePayoff me opp round.p2Ki round.p1Ki (upcomingTurn round) lam valueFn=
      verdictPayoff lam valueFn (nextRound round opp me)
        (roundWinner (nextTurn round opp me) (nextRound round opp me)) := by
  have hturn : upcomingTurn round=round.turnNumber+1 := by
    unfold upcomingTurn turnLimit at *
    omega
  have hnext : (nextRound round opp me).turnNumber=round.turnNumber+1 := rfl
  have houtcome : (nextTurn round opp me).outcome=resolveActions opp me := rfl
  have hmine : (nextRound round opp me).p2Ki=kiAfter round.p2Ki me := rfl
  have htheirs : (nextRound round opp me).p1Ki=kiAfter round.p1Ki opp := rfl
  unfold roundWinner
  rw [hturn,houtcome,hnext]
  have himmediate := immediateOutcome_eq me opp
  by_cases hwin : resolveActions opp me=.p2WinsRound
  · rw [if_pos hwin] at himmediate
    simp [stagePayoff,himmediate,hwin,verdictPayoff]
  by_cases hloss : resolveActions opp me=.p1WinsRound
  · rw [if_neg hwin,if_pos hloss] at himmediate
    simp [stagePayoff,himmediate,hloss,verdictPayoff]
  rw [if_neg hwin,if_neg hloss] at himmediate
  rw [if_neg hloss,if_neg hwin,hmine,htheirs]
  have hstage : stagePayoff me opp round.p2Ki round.p1Ki (round.turnNumber+1) lam valueFn=
      if round.turnNumber+1≥turnLimit then
        if kiAfter round.p2Ki me>kiAfter round.p1Ki opp then 1
        else if kiAfter round.p2Ki me<kiAfter round.p1Ki opp then 0 else lam
      else valueFn (kiAfter round.p2Ki me) (kiAfter round.p1Ki opp) (round.turnNumber+1+1) := by
    simp [stagePayoff,himmediate]
  rw [hstage]
  by_cases hlast : round.turnNumber+1≥turnLimit
  · rw [if_pos hlast,if_pos hlast]
    rcases lt_trichotomy (kiAfter round.p2Ki me) (kiAfter round.p1Ki opp) with hlt | heq | hgt
    · rw [if_neg hlt.not_gt,if_pos hlt,if_pos hlt]
      rfl
    · rw [heq]
      simp [verdictPayoff]
    · rw [if_pos hgt,if_neg hgt.not_gt,if_pos hgt]
      rfl
  · rw [if_neg hlast,if_neg hlast]
    have hafter : upcomingTurn (nextRound round opp me)=round.turnNumber+1+1 := by
      unfold upcomingTurn turnLimit at *
      rw [hnext]
      omega
    rw [verdictPayoff,hafter,hmine,htheirs]

/-- Verdicts that count the same for all weights and continuations are equal. -/
theorem verdictPayoff_injective {round : RoundState} {verdict verdict' : Option RoundWinner}
    (h : ∀ lam valueFn,verdictPayoff lam valueFn round verdict=
      verdictPayoff lam valueFn round verdict') : verdict=verdict' := by
  have hthird := h (1/3) fun _ _ _ => 1/2
  rcases verdict with - | (- | - | -) <;> rcases verdict' with - | (- | - | -) <;>
    simp only [verdictPayoff] at hthird <;> first | rfl | norm_num at hthird

end Turn

/-- The winner of the round that a report closes. -/
def endsWith (report : TurnReport) (winner : RoundWinner) : Prop :=
  ∃ roundResult,report.roundResult=some roundResult ∧ roundResult.winner=winner

/-- How what submit_turn does to an open round agrees with the stage payoff of
the same pair of actions at the state that decide derives. -/
structure TurnAgrees (round : RoundState) (me opp : Action) (state' : GameState)
    (report : TurnReport) : Prop where
  /-- The AI wins the round exactly at the leaf 1. -/
  won : endsWith report .p2 ↔
    ResolvesTo me opp round.p2Ki round.p1Ki (upcomingTurn round) fun _ => 1
  /-- The AI loses the round exactly at the leaf 0. -/
  lost : endsWith report .p1 ↔
    ResolvesTo me opp round.p2Ki round.p1Ki (upcomingTurn round) fun _ => 0
  /-- The round is drawn exactly at the leaf lambda. -/
  drawn : endsWith report .draw ↔
    ResolvesTo me opp round.p2Ki round.p1Ki (upcomingTurn round) fun lam => lam
  /-- A round that goes on goes on at the one state that is looked up. -/
  goesOn : report.roundResult=none → ∃ round',state'.currentRound=some round' ∧
    round'.roundNumber=round.roundNumber ∧
    ∀ myNext oppNext nextTurn,
      LooksUp me opp round.p2Ki round.p1Ki (upcomingTurn round) myNext oppNext nextTurn ↔
        myNext=round'.p2Ki ∧ oppNext=round'.p1Ki ∧ nextTurn=upcomingTurn round'

/-- What an accepted call reports about its round. -/
theorem reported_verdict {state state' : GameState} {round : RoundState} {me opp : Action}
    {report : TurnReport} (hr : state.currentRound=some round)
    (h : Accepted state opp me state' report) :
    report.roundResult.map RoundResult.winner=
        roundWinner (nextTurn round opp me) (nextRound round opp me) ∧
      (report.roundResult=none → state'.currentRound=some (nextRound round opp me)) := by
  cases h with
  | roundGoesOn round' hr' hw =>
    obtain rfl : round=round' := Option.some.inj (hr.symm.trans hr')
    have hnone : roundWinner (nextTurn round opp me) (nextRound round opp me)=none :=
      Option.map_eq_none_iff.mp hw
    exact ⟨hnone.symm,fun _ => rfl⟩
  | roundCloses round' hr' roundResult hw hm =>
    obtain rfl : round=round' := Option.some.inj (hr.symm.trans hr')
    obtain ⟨winner,hwinner,rfl⟩ := Option.map_eq_some_iff.mp hw
    exact ⟨hwinner.symm,fun h => by cases h⟩
  | matchCloses round' hr' roundResult hw matchResult hm =>
    obtain rfl : round=round' := Option.some.inj (hr.symm.trans hr')
    obtain ⟨winner,hwinner,rfl⟩ := Option.map_eq_some_iff.mp hw
    exact ⟨hwinner.symm,fun h => by cases h⟩

/-- A winner that the engine reports is the leaf that counts him. -/
theorem endsWith_iff {round : RoundState} {me opp : Action} {report : TurnReport}
    (hturns : round.turnNumber<turnLimit)
    (hverdict : report.roundResult.map RoundResult.winner=
      roundWinner (nextTurn round opp me) (nextRound round opp me)) (winner : RoundWinner) :
    endsWith report winner ↔ ResolvesTo me opp round.p2Ki round.p1Ki (upcomingTurn round)
      fun lam => verdictPayoff lam (fun _ _ _ => 0) (nextRound round opp me) (some winner) := by
  have hends : endsWith report winner ↔
      roundWinner (nextTurn round opp me) (nextRound round opp me)=some winner := by
    rw [← hverdict]
    exact Option.map_eq_some_iff.symm
  have hpayoff : ∀ lam valueFn,verdictPayoff lam valueFn (nextRound round opp me) (some winner)=
      verdictPayoff lam (fun _ _ _ => 0) (nextRound round opp me) (some winner) := by
    intro lam valueFn
    cases winner <;> rfl
  rw [hends]
  constructor
  · intro hwinner lam valueFn
    rw [stagePayoff_eq hturns,hwinner,hpayoff]
  · intro hleaf
    refine @verdictPayoff_injective (nextRound round opp me) _ _ fun lam valueFn => ?_
    rw [← stagePayoff_eq hturns,hleaf lam valueFn,hpayoff]

/-- Continuation values tell the states apart. -/
theorem lookup_unique {a b t a' b' t' : ℤ} (h : ∀ valueFn : ValueFn,valueFn a b t=valueFn a' b' t') :
    a=a' ∧ b=b' ∧ t=t' := by
  have hmark := h fun x y z => if x=a' ∧ y=b' ∧ z=t' then 1 else 0
  by_contra hne
  rw [if_neg hne,if_pos ⟨rfl,rfl,rfl⟩] at hmark
  norm_num at hmark

/-- One accepted turn of an open round. -/
theorem turn_agrees {state state' : GameState} {round : RoundState} {me opp : Action}
    {report : TurnReport} (hr : state.currentRound=some round)
    (hturns : round.turnNumber<turnLimit) (h : Accepted state opp me state' report) :
    TurnAgrees round me opp state' report := by
  obtain ⟨hverdict,hnext⟩ := reported_verdict hr h
  refine ⟨endsWith_iff hturns hverdict .p2,endsWith_iff hturns hverdict .p1,
    endsWith_iff hturns hverdict .draw,fun hnone => ?_⟩
  rw [hnone] at hverdict
  refine ⟨nextRound round opp me,hnext hnone,rfl,fun myNext oppNext nextTurn => ?_⟩
  have hstage : ∀ lam valueFn,
      stagePayoff me opp round.p2Ki round.p1Ki (upcomingTurn round) lam valueFn=
        valueFn (nextRound round opp me).p2Ki (nextRound round opp me).p1Ki
          (upcomingTurn (nextRound round opp me)) := by
    intro lam valueFn
    rw [stagePayoff_eq hturns,← hverdict]
    rfl
  constructor
  · intro hlooks
    exact lookup_unique fun valueFn => (hlooks 0 valueFn).symm.trans (hstage 0 valueFn)
  · rintro ⟨rfl,rfl,rfl⟩
    exact hstage

/-- The score before the open round, from the AI's side. -/
def matchScore (state : GameState) : ℤ×ℤ×ℤ :=
  (state.roundsWonP2,state.roundsWonP1,state.roundResults.length)

/-- A recorded round has at most one winner. -/
theorem roundsWith_le (state : GameState) :
    roundsWith state .p1+roundsWith state .p2≤ state.roundResults.length := by
  unfold roundsWith
  induction state.roundResults with
  | nil => simp
  | cons result results ih =>
    simp only [List.countP_cons,List.length_cons]
    cases result.winner <;> simp <;> omega

/-- A match in progress has one of the scores of the solver. -/
theorem matchScore_mem {state : GameState} {accepted : ℕ} (h : MatchInvariant state accepted)
    (hs : state.status=.inProgress) : matchScore state∈reachableMatchStates := by
  have hscore := roundsWith_le state
  have hp1 := h.p1Score
  have hp2 := h.p2Score
  obtain ⟨hu1,hu2,hlength⟩ := h.undecided hs
  refine mem_reachableMatchStates.mpr ⟨?_,?_,?_,?_,hu2,hu1⟩ <;> omega

/-- A match goes on as long as its score is undecided. -/
theorem checkMatchEnd_of_score {state : GameState} {my opp played : ℕ}
    (hscore : matchScore state=((my : ℤ),(opp : ℤ),(played : ℤ))) (hmy : my<2) (hopp : opp<2)
    (hplayed : played<3) : checkMatchEnd state=none := by
  simp only [matchScore,Prod.mk.injEq] at hscore
  obtain ⟨h2,h1,hlength⟩ := hscore
  unfold checkMatchEnd roundsToWin
  rw [if_neg (by omega),if_neg (by omega),if_neg (by omega)]

/-- An undecided match with so many wins and finished rounds, whose open round
stands before a turn with the same ki on both sides. -/
structure OpenAt (my opp played : ℕ) (turn ki : ℤ) (state : GameState) : Prop where
  /-- The match is in progress. -/
  status : state.status=.inProgress
  /-- The score before the open round. -/
  score : matchScore state=((my : ℤ),(opp : ℤ),(played : ℤ))
  /-- The open round. -/
  opened : ∃ round,state.currentRound=some round ∧ round.turnNumber=turn ∧
    round.p1Ki=ki ∧ round.p2Ki=ki

/-- A turn that both can pay for and that does not end the round. -/
theorem OpenAt.goesOn {my opp played : ℕ} {turn ki : ℤ} {state : GameState}
    (h : OpenAt my opp played turn ki state) (action : Action) (hturn : turn+1<turnLimit)
    (hcost : actionKiCost action≤ki) (hneutral : resolveActions action action=.neutral) :
    OpenAt my opp played (turn+1) (kiAfter ki action) (submitTurn state action action).1 := by
  obtain ⟨round,hr,rfl,hk1,hk2⟩ := h.opened
  have hnone : checkRoundEnd (nextTurn round action action) (nextRound round action action)=none := by
    simp [checkRoundEnd,roundWinner,advanceRound,resolveTurn,hneutral,not_le.mpr hturn]
  obtain ⟨e,-,hrejected⟩ | ⟨-,round',state',report,hr',-,he,hacc⟩ :=
    submitTurn_cases state action action
  · exact absurd ⟨hk1 ▸ hcost,hk2 ▸ hcost⟩ (hrejected h.status round hr)
  rw [he]
  cases hacc with
  | roundGoesOn round'' hr'' hw =>
    obtain rfl : round=round'' := Option.some.inj (hr.symm.trans hr'')
    exact ⟨h.status,h.score,_,rfl,rfl,by rw [← hk1]; rfl,by rw [← hk2]; rfl⟩
  | roundCloses round'' hr'' roundResult hw hm =>
    obtain rfl : round=round'' := Option.some.inj (hr.symm.trans hr'')
    rw [hnone] at hw
    cases hw
  | matchCloses round'' hr'' roundResult hw matchResult hm =>
    obtain rfl : round=round'' := Option.some.inj (hr.symm.trans hr'')
    rw [hnone] at hw
    cases hw

/-- A turn that ends the round, but not the match. -/
theorem OpenAt.closes {my opp played : ℕ} {turn ki : ℤ} {state : GameState}
    (h : OpenAt my opp played turn ki state) {p1Action p2Action : Action} {winner : RoundWinner}
    (h1 : actionKiCost p1Action≤ki) (h2 : actionKiCost p2Action≤ki)
    (hwinner : ∀ round : RoundState,round.turnNumber=turn → round.p1Ki=ki → round.p2Ki=ki →
      roundWinner (nextTurn round p1Action p2Action) (nextRound round p1Action p2Action)=some winner)
    (hmy : my+(if winner=.p2 then 1 else 0)<2) (hopp : opp+(if winner=.p1 then 1 else 0)<2)
    (hplayed : played+1<3) :
    OpenAt (my+if winner=.p2 then 1 else 0) (opp+if winner=.p1 then 1 else 0) (played+1) 0 0
      (submitTurn state p1Action p2Action).1 := by
  obtain ⟨round,hr,hturn,hk1,hk2⟩ := h.opened
  have hsome := hwinner round hturn hk1 hk2
  have hscore := h.score
  simp only [matchScore,Prod.mk.injEq] at hscore
  obtain ⟨hs2,hs1,hlength⟩ := hscore
  have hcloses : ∀ roundResult,checkRoundEnd (nextTurn round p1Action p2Action)
      (nextRound round p1Action p2Action)=some roundResult →
      matchScore (closedState state roundResult)=
        (((my+if winner=.p2 then 1 else 0 : ℕ) : ℤ),((opp+if winner=.p1 then 1 else 0 : ℕ) : ℤ),
          ((played+1 : ℕ) : ℤ)) := by
    intro roundResult hw
    obtain ⟨winner',hw',rfl⟩ := Option.map_eq_some_iff.mp hw
    obtain rfl : winner=winner' := Option.some.inj (hsome.symm.trans hw')
    simp only [matchScore,scoreRound_roundsWonP1,scoreRound_roundsWonP2,hs1,hs2,
      List.length_append,List.length_singleton]
    push_cast
    rw [← hlength]
  obtain ⟨e,-,hrejected⟩ | ⟨-,round',state',report,hr',-,he,hacc⟩ :=
    submitTurn_cases state p1Action p2Action
  · exact absurd ⟨hk1 ▸ h1,hk2 ▸ h2⟩ (hrejected h.status round hr)
  rw [he]
  cases hacc with
  | roundGoesOn round'' hr'' hw =>
    obtain rfl : round=round'' := Option.some.inj (hr.symm.trans hr'')
    rw [checkRoundEnd,hsome] at hw
    cases hw
  | roundCloses round'' hr'' roundResult hw hm =>
    obtain rfl : round=round'' := Option.some.inj (hr.symm.trans hr'')
    refine ⟨?_,hcloses roundResult hw,_,rfl,rfl,rfl,rfl⟩
    simpa using h.status
  | matchCloses round'' hr'' roundResult hw matchResult hm =>
    obtain rfl : round=round'' := Option.some.inj (hr.symm.trans hr'')
    rw [checkMatchEnd_of_score (hcloses roundResult hw) hmy hopp hplayed] at hm
    cases hm

/-- Turns in which player 1 and player 2 win a round, and one that is drawn. -/
def roundFor : RoundWinner → List (Action×Action)
  | .p1 => [(.charge,.charge),(.attack,.charge)]
  | .p2 => [(.charge,.charge),(.charge,.attack)]
  | .draw => List.replicate 20 (.block,.block)

/-- A sequence of calls in two parts. -/
theorem play_append (state : GameState) (calls calls' : List (Action×Action)) :
    play state (calls++calls')=play (play state calls) calls' := by
  induction calls generalizing state with
  | nil => rfl
  | cons call calls ih => exact ih _

/-- Blocks on both sides pass the time. -/
theorem OpenAt.blocks {my opp played : ℕ} {turn : ℤ} {state : GameState} (n : ℕ)
    (h : OpenAt my opp played turn 0 state) (hturns : turn+n<turnLimit) :
    OpenAt my opp played (turn+n) 0 (play state (List.replicate n (.block,.block))) := by
  induction n generalizing turn state with
  | zero => simpa [play] using h
  | succ n ih =>
    push_cast at hturns
    have hstep := h.goesOn .block (by unfold turnLimit at *; omega) (by decide) rfl
    have hrest := ih hstep (by unfold turnLimit at *; omega)
    rw [show turn+1+n=turn+(n+1 : ℕ) by push_cast; omega] at hrest
    exact hrest

/-- Each of the three rounds does what it says to the score. -/
theorem OpenAt.round {my opp played : ℕ} {state : GameState} (h : OpenAt my opp played 0 0 state)
    (winner : RoundWinner) (hmy : my+(if winner=.p2 then 1 else 0)<2)
    (hopp : opp+(if winner=.p1 then 1 else 0)<2) (hplayed : played+1<3) :
    OpenAt (my+if winner=.p2 then 1 else 0) (opp+if winner=.p1 then 1 else 0) (played+1) 0 0
      (play state (roundFor winner)) := by
  have hcharged := h.goesOn .charge (by decide) (by decide) rfl
  cases winner with
  | p1 => exact hcharged.closes (by decide) (by decide) (fun _ _ _ _ => rfl) hmy hopp hplayed
  | p2 => exact hcharged.closes (by decide) (by decide) (fun _ _ _ _ => rfl) hmy hopp hplayed
  | draw =>
    have hlast := h.blocks 19 (by decide)
    have hsplit : roundFor .draw=List.replicate 19 (.block,.block)++[(.block,.block)] := rfl
    rw [hsplit,play_append]
    refine hlast.closes (by decide) (by decide) (fun round hn h1 h2 => ?_) hmy hopp hplayed
    simp [roundWinner,advanceRound,resolveTurn,resolveActions,calculateKiAfter,hn,h1,h2]

/-- A sequence of rounds counts each for its winner. -/
theorem OpenAt.rounds {my opp played : ℕ} {state : GameState} (winners : List RoundWinner)
    (h : OpenAt my opp played 0 0 state) (hmy : my+winners.count .p2<2)
    (hopp : opp+winners.count .p1<2) (hplayed : played+winners.length<3) :
    OpenAt (my+winners.count .p2) (opp+winners.count .p1) (played+winners.length) 0 0
      (play state (winners.flatMap roundFor)) := by
  induction winners generalizing my opp played state with
  | nil => simpa [play] using h
  | cons winner winners ih =>
    simp only [List.count_cons,beq_iff_eq,List.length_cons] at hmy hopp hplayed
    have hround := h.round winner (by omega) (by omega) (by omega)
    have hrest := ih hround (by omega) (by omega) (by omega)
    rw [List.flatMap_cons,play_append]
    simp only [List.count_cons,beq_iff_eq,List.length_cons]
    convert hrest using 1 <;> omega

/-- Every score of the solver is reached: first my wins, then the opponent's,
then draws. -/
theorem score_reached (gameId : UUID) (matchType : MatchType) {score : ℤ×ℤ×ℤ}
    (hscore : score∈reachableMatchStates) :
    ∃ calls,(play (startMatch gameId matchType).1 calls).status=.inProgress ∧
      matchScore (play (startMatch gameId matchType).1 calls)=score := by
  obtain ⟨my,opp,played⟩ := score
  obtain ⟨hmy,hopp,hsum,hplayed,hmy',hopp'⟩ := mem_reachableMatchStates.mp hscore
  unfold roundsToWin at hmy' hopp'
  lift my to ℕ using hmy
  lift opp to ℕ using hopp
  obtain ⟨draws,rfl⟩ : ∃ draws : ℕ,played=my+opp+draws := ⟨(played-my-opp).toNat,by omega⟩
  have hfresh : OpenAt 0 0 0 0 0 (startMatch gameId matchType).1 :=
    ⟨rfl,rfl,_,rfl,rfl,rfl,rfl⟩
  have hreached := hfresh.rounds (List.replicate my .p2++List.replicate opp .p1++
    List.replicate draws .draw)
  simp only [List.count_append,List.count_replicate,beq_iff_eq,List.length_append,
    List.length_replicate,reduceCtorEq,if_true,if_false,Nat.zero_add,Nat.add_zero] at hreached
  have hopen := hreached (by omega) (by omega) (by omega)
  exact ⟨_,hopen.status,hopen.score⟩

/-- The solver's rules simulate the engine on every match: each affordable pair
of actions of an open round, each score of a match in progress, and no other. -/
theorem solver_simulates_engine (gameId : UUID) (matchType : MatchType) :
    (∀ calls round,(play (startMatch gameId matchType).1 calls).currentRound=some round →
      ∀ me∈affordableActions round.p2Ki,∀ opp∈affordableActions round.p1Ki,
        ∃ state' report,
          submitTurn (play (startMatch gameId matchType).1 calls) opp me=(state',.ok report) ∧
          TurnAgrees round me opp state' report) ∧
    (∀ calls,(play (startMatch gameId matchType).1 calls).status=.inProgress →
      ∃ score∈reachableMatchStates,score=matchScore (play (startMatch gameId matchType).1 calls) ∧
        resolveMatchState (play (startMatch gameId matchType).1 calls)=
          matchStateKey score.1 score.2.1 score.2.2) ∧
    ∀ score∈reachableMatchStates,∃ calls,
      (play (startMatch gameId matchType).1 calls).status=.inProgress ∧
      matchScore (play (startMatch gameId matchType).1 calls)=score ∧
      resolveMatchState (play (startMatch gameId matchType).1 calls)=
        matchStateKey score.1 score.2.1 score.2.2 := by
  have hinvariant := play_invariant (startMatch_invariant gameId matchType)
  refine ⟨fun calls round hr me hme opp hopp => ?_,fun calls hs => ?_,fun score hscore => ?_⟩
  · have h := hinvariant calls
    have hround := h.openRound round hr
    have hs := h.openIff.mpr (Option.isSome_iff_exists.mpr ⟨round,hr⟩)
    have haffordable : Affordable round opp me :=
      ⟨mem_affordableActions.mp hopp,mem_affordableActions.mp hme⟩
    obtain ⟨e,-,hrejected⟩ | ⟨-,round',state',report,-,-,he,hacc⟩ :=
      submitTurn_cases (play (startMatch gameId matchType).1 calls) opp me
    · exact absurd haffordable (hrejected hs round hr)
    · exact ⟨state',report,he,turn_agrees hr hround.turnsLeft hacc⟩
  · exact ⟨_,matchScore_mem (hinvariant calls) hs,rfl,rfl⟩
  · obtain ⟨calls,hs,rfl⟩ := score_reached gameId matchType hscore
    exact ⟨calls,hs,rfl,rfl⟩

end KiClash.RoundSimulation
