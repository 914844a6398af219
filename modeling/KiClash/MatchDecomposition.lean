import KiClash.RoundGames

/-!
# The match as a sequence of rounds

The undecomposed match is the game that submit_turn plays: every turn of every
round is a stage, what happened in earlier rounds is remembered, and the end is
scored as the engine decides it. It agrees with a sequence of rounds that only
passes the score on. What a score is worth then follows from what a round is
worth, since the payoffs of a round are the next scores on another scale; and
that is what _match_induction computes.
-/

namespace KiClash.MatchDecomposition

open EngineTypes OutcomeMatrix Engine EngineRuns Transition RoundSimulation Solver SolvedTables
open RoundGames
open MatrixGames SimultaneousGames Game

/-- A bound on the turns that a match has left. -/
def matchTurnsLeft (state : GameState) : ℕ :=
  (3-state.roundResults.length)*21+
    match state.currentRound with
    | some round => turnsLeft round
    | none => 0

/-- A match that goes on has fewer turns left. -/
theorem matchTurnsLeft_submitTurn {state state' : GameState} {round : RoundState} {me opp : Action}
    {turnResult : TurnResult} {roundResult : Option RoundResult}
    (hr : state.currentRound=some round)
    (h : submitTurn state opp me=(state',.ok ⟨turnResult,roundResult,none⟩)) :
    matchTurnsLeft state'< matchTurnsLeft state := by
  obtain ⟨e,he,-⟩ | ⟨-,round',state'',report,hr',-,he,hacc⟩ := submitTurn_cases state opp me
  · rw [h] at he
    simp at he
  rw [h] at he
  obtain ⟨rfl,hreport⟩ := Prod.mk.injEq .. ▸ he
  cases hreport
  cases hacc with
  | roundGoesOn round'' hr'' hw =>
    obtain rfl : round=round'' := Option.some.inj (hr.symm.trans hr'')
    have hfewer := turnsLeft_nextRound (Option.map_eq_none_iff.mp hw)
    simp only [matchTurnsLeft,hr]
    omega
  | roundCloses round'' hr'' result hw hm =>
    have hlength := length_lt_of_checkMatchEnd hm
    simp only [matchTurnsLeft,hr,turnsLeft,turnLimit,List.length_append,List.length_singleton] at hlength ⊢
    omega

/-- The rest of a match, as submit_turn plays it. Without an open round, or
after a call that is rejected, nothing is left to play. -/
def matchGame (state : GameState) : Game Action Action RoundWinner :=
  match _hr : state.currentRound with
  | none => .leaf .draw
  | some round =>
    .stage (affordableActions round.p2Ki).toFinset (affordableActions round.p1Ki).toFinset
      fun me opp =>
        match _h : submitTurn state opp me with
        | (state',.ok ⟨_,_,none⟩) => matchGame state'
        | (_,.ok ⟨_,_,some result⟩) => .leaf result.winner
        | (_,.error _) => .leaf .draw
termination_by matchTurnsLeft state
decreasing_by exact matchTurnsLeft_submitTurn _hr _h

/-- What the end of a match is worth to me. -/
abbrev matchPayoff : RoundWinner → ℚ := roundPayoff (1/2)

/-- What a turn of a match leads to. -/
def matchNext (state : GameState) (me opp : Action) : Game Action Action RoundWinner :=
  match submitTurn state opp me with
  | (state',.ok ⟨_,_,none⟩) => matchGame state'
  | (_,.ok ⟨_,_,some result⟩) => .leaf result.winner
  | (_,.error _) => .leaf .draw

theorem matchGame_eq {state : GameState} {round : RoundState} (hr : state.currentRound=some round) :
    matchGame state=.stage (affordableActions round.p2Ki).toFinset
      (affordableActions round.p1Ki).toFinset (matchNext state) := by
  rw [matchGame]
  split
  · next hnone => rw [hr] at hnone; cases hnone
  · next round' hr' =>
    obtain rfl : round=round' := Option.some.inj (hr.symm.trans hr')
    congr 1
    funext me opp
    unfold matchNext
    split <;> simp_all

/-- A score: my wins, the opponent's, and the rounds played. -/
abbrev Score := ℤ×ℤ×ℤ

/-- The score after another round. -/
def afterRound (score : Score) (winner : RoundWinner) : Score :=
  (score.1+if winner=.p2 then 1 else 0,score.2.1+if winner=.p1 then 1 else 0,score.2.2+1)

/-- The winner that the engine decides at a score. -/
def scoreWinner (score : Score) : Option RoundWinner :=
  if score.2.1≥roundsToWin then some .p1
  else if score.1≥roundsToWin then some .p2
  else if score.2.2≥3 then some .draw
  else none

/-- The engine decides the end of a match by its score. -/
theorem checkMatchEnd_eq (state : GameState) :
    checkMatchEnd state=(scoreWinner (matchScore state)).map (matchResultFor state) := by
  simp only [checkMatchEnd,scoreWinner,matchScore]
  split_ifs <;> simp [*]

theorem matchScore_closedState (state : GameState) (roundResult : RoundResult) :
    matchScore (closedState state roundResult)=afterRound (matchScore state) roundResult.winner := by
  simp only [matchScore,afterRound,scoreRound_roundsWonP1,scoreRound_roundsWonP2,List.length_append,
    List.length_singleton]
  push_cast
  rfl

/-- A match in progress that stands before a turn of the given round. -/
structure Playing (score : Score) (round : RoundState) (state : GameState) : Prop where
  /-- The match is in progress. -/
  status : state.status=.inProgress
  /-- The score before the round. -/
  score : matchScore state=score
  /-- The open round. -/
  opened : state.currentRound=some round

/-- A round before its first turn. -/
def Fresh (round : RoundState) : Prop := round.p1Ki=0 ∧ round.p2Ki=0 ∧ round.turnNumber=0

/-- Everything that a turn of a match can lead to: the round goes on, the next
round opens at the next score, or the match ends as its score says. -/
inductive TurnLeads (score : Score) (round : RoundState) (state : GameState) (me opp : Action) :
    Prop
  | roundGoesOn (state' : GameState) (report : TurnReport)
      (hcall : submitTurn state opp me=(state',.ok report))
      (hplaying : Playing score (nextRound round opp me) state')
      (hturns : turnsLeft (nextRound round opp me)<turnsLeft round)
      (hleft : matchTurnsLeft state'< matchTurnsLeft state)
      (hround : roundNext round me opp=roundGame (nextRound round opp me))
      (hmatch : matchNext state me opp=matchGame state')
  | roundCloses (winner : RoundWinner) (round' : RoundState) (state' : GameState)
      (report : TurnReport) (hcall : submitTurn state opp me=(state',.ok report))
      (hplaying : Playing (afterRound score winner) round' state') (hfresh : Fresh round')
      (hleft : matchTurnsLeft state'< matchTurnsLeft state)
      (hgoes : scoreWinner (afterRound score winner)=none)
      (hround : roundNext round me opp=.leaf winner)
      (hmatch : matchNext state me opp=matchGame state')
  | matchCloses (winner matchWinner : RoundWinner)
      (hends : scoreWinner (afterRound score winner)=some matchWinner)
      (hround : roundNext round me opp=.leaf winner)
      (hmatch : matchNext state me opp=.leaf matchWinner)

/-- The step lemma of the match. -/
theorem Playing.turn {score : Score} {round : RoundState} {state : GameState}
    (h : Playing score round state) {me opp : Action}
    (hme : me∈(affordableActions round.p2Ki).toFinset)
    (hopp : opp∈(affordableActions round.p1Ki).toFinset) : TurnLeads score round state me opp := by
  have haffordable : Affordable round opp me :=
    ⟨mem_affordableActions.mp (List.mem_toFinset.mp hopp),
      mem_affordableActions.mp (List.mem_toFinset.mp hme)⟩
  obtain ⟨e,-,hrejected⟩ | ⟨-,round',state',report,-,-,he,hacc⟩ := submitTurn_cases state opp me
  · exact absurd haffordable (hrejected h.status round h.opened)
  cases hacc with
  | roundGoesOn round'' hr hw =>
    obtain rfl : round=round'' := Option.some.inj (h.opened.symm.trans hr)
    have hnone := Option.map_eq_none_iff.mp hw
    refine .roundGoesOn _ _ he ⟨h.status,h.score,rfl⟩ (turnsLeft_nextRound hnone)
      (matchTurnsLeft_submitTurn h.opened he) ?_ ?_
    · simp only [roundNext,hnone]
    · simp only [matchNext,he]
  | roundCloses round'' hr roundResult hw hm =>
    obtain rfl : round=round'' := Option.some.inj (h.opened.symm.trans hr)
    obtain ⟨winner,hwinner,rfl⟩ := Option.map_eq_some_iff.mp hw
    rw [checkMatchEnd_eq,matchScore_closedState,h.score,Option.map_eq_none_iff] at hm
    refine .roundCloses winner _ _ _ he ⟨?_,?_,rfl⟩ ⟨rfl,rfl,rfl⟩
      (matchTurnsLeft_submitTurn h.opened he) hm ?_ ?_
    · simpa using h.status
    · rw [← h.score]
      exact matchScore_closedState state _
    · simp only [roundNext,hwinner]
    · simp only [matchNext,he]
  | matchCloses round'' hr roundResult hw matchResult hm =>
    obtain rfl : round=round'' := Option.some.inj (h.opened.symm.trans hr)
    obtain ⟨winner,hwinner,rfl⟩ := Option.map_eq_some_iff.mp hw
    rw [checkMatchEnd_eq,matchScore_closedState,h.score] at hm
    obtain ⟨matchWinner,hends,rfl⟩ := Option.map_eq_some_iff.mp hm
    refine .matchCloses winner matchWinner hends ?_ ?_
    · simp only [roundNext,hwinner]
    · simp only [matchNext,he]
      rfl

/-- The opening of a round. -/
abbrev freshRound : RoundState := ⟨1,0,0,0,[]⟩

/-- A round is played the same whatever its number and its history. -/
theorem roundGame_congr {round round' : RoundState} (h1 : round.p1Ki=round'.p1Ki)
    (h2 : round.p2Ki=round'.p2Ki) (hn : round.turnNumber=round'.turnNumber) :
    roundGame round=roundGame round' := by
  induction ht : turnsLeft round using Nat.strong_induction_on generalizing round round' with
  | _ n ih =>
    rw [roundGame_eq,roundGame_eq,h1,h2]
    congr 1
    funext me opp
    have hk1 : (nextRound round opp me).p1Ki=(nextRound round' opp me).p1Ki := by
      simp only [advanceRound,resolveTurn,h1]
    have hk2 : (nextRound round opp me).p2Ki=(nextRound round' opp me).p2Ki := by
      simp only [advanceRound,resolveTurn,h2]
    have hturn : (nextRound round opp me).turnNumber=(nextRound round' opp me).turnNumber := by
      simp only [advanceRound,resolveTurn,hn]
    have hverdict : roundWinner (nextTurn round opp me) (nextRound round opp me)=
        roundWinner (nextTurn round' opp me) (nextRound round' opp me) := by
      simp only [roundWinner,hk1,hk2,hturn,resolveTurn]
    unfold roundNext
    rw [← hverdict]
    cases hw : roundWinner (nextTurn round opp me) (nextRound round opp me) with
    | some winner => rfl
    | none => exact ih _ (ht ▸ turnsLeft_nextRound hw) hk1 hk2 hturn rfl

theorem Fresh.roundGame_eq {round : RoundState} (h : Fresh round) :
    roundGame round=roundGame freshRound := roundGame_congr h.1 h.2.1 h.2.2

/-- A score at which the match goes on has a round left. -/
theorem played_lt {score : Score} (h : scoreWinner score=none) : score.2.2<3 := by
  unfold scoreWinner at h
  split_ifs at h
  omega

/-- The match as a sequence of rounds that only passes the score on. -/
def scoreGame (score : Score) : Game Action Action RoundWinner :=
  match _h : scoreWinner score with
  | some winner => .leaf winner
  | none => (roundGame freshRound).bind fun winner => scoreGame (afterRound score winner)
termination_by (3-score.2.2).toNat
decreasing_by
  have := played_lt _h
  simp only [afterRound]
  omega

theorem scoreGame_ends {score : Score} {winner : RoundWinner} (h : scoreWinner score=some winner) :
    scoreGame score=.leaf winner := by
  rw [scoreGame]
  split <;> simp_all

theorem scoreGame_goes {score : Score} (h : scoreWinner score=none) :
    scoreGame score=(roundGame freshRound).bind fun winner => scoreGame (afterRound score winner) := by
  rw [scoreGame]
  split <;> simp_all

/-- The undecomposed match agrees with the sequence of rounds. -/
theorem matchGame_agree {score : Score} {round : RoundState} {state : GameState}
    (h : Playing score round state) :
    Agree (matchGame state)
      ((roundGame round).bind fun winner => scoreGame (afterRound score winner)) := by
  induction hn : matchTurnsLeft state using Nat.strong_induction_on
    generalizing score round state with
  | _ n ih =>
    rw [matchGame_eq h.opened,RoundGames.roundGame_eq]
    refine .stage fun me hme opp hopp => ?_
    cases h.turn hme hopp with
    | roundGoesOn state' report hcall hplaying hturns hleft hround hmatch =>
      rw [hround,hmatch]
      exact ih _ (hn ▸ hleft) hplaying rfl
    | roundCloses winner round' state' report hcall hplaying hfresh hleft hgoes hround hmatch =>
      rw [hround,hmatch]
      change Agree _ (scoreGame _)
      rw [scoreGame_goes hgoes,← hfresh.roundGame_eq]
      exact ih _ (hn ▸ hleft) hplaying rfl
    | matchCloses winner matchWinner hends hround hmatch =>
      rw [hround,hmatch]
      change Agree _ (scoreGame _)
      rw [scoreGame_ends hends]
      exact .leaf matchWinner

/-- Payoffs are between zero and one, and so is the worth of a game. -/
theorem worth_bounds {lam : ℚ} (hlam : 0≤lam ∧ lam≤1) {g : Game Action Action RoundWinner} {v : ℚ}
    (h : Worth (roundPayoff lam) g v) : 0≤v ∧ v≤1 := by
  have hzero := h.affine 0 (le_refl (0 : ℚ))
  have hone := h.affine 1 (le_refl (0 : ℚ))
  rw [zero_mul,add_zero] at hzero hone
  constructor
  · refine hzero.mono (fun winner => ?_) h
    cases winner <;> norm_num [roundPayoff,hlam.1]
  · refine h.mono (fun winner => ?_) hone
    cases winner <;> norm_num [roundPayoff,hlam.2]

/-- Of two scores after the same number of rounds the better one decides the
match no later and no worse. -/
theorem scoreWinner_order {score score' : Score} (hplayed : score'.2.2=score.2.2)
    (hmy : score.1≤ score'.1) (hopp : score'.2.1≤ score.2.1) :
    scoreWinner score=some .p1 ∨ scoreWinner score'=some .p2 ∨
      (scoreWinner score=some .draw ∧ scoreWinner score'=some .draw) ∨
      (scoreWinner score=none ∧ scoreWinner score'=none) := by
  unfold scoreWinner roundsToWin
  split_ifs <;> first | omega | simp

/-- What the recursion makes of the values of a win, a loss and a draw. -/
def solveScore {K : Type} [Field K] [DecidableEq K] (r : K → K) (win loss draw : K) : K×K :=
  if win=loss then (1/2,loss) else
    let lam := (draw-loss)/(win-loss)
    (lam,loss+(win-loss)*r lam)

section Worths

variable {r : ℚ → ℚ}

/-- The next scores are worth what the round counts, on another scale. -/
structure Scaled (r : ℚ → ℚ) (score : Score) (lam base scale value : ℚ) : Prop where
  /-- The weight of a draw. -/
  drawWeight : 0≤lam ∧ lam≤1
  /-- The scale is not reversed. -/
  notReversed : 0≤ scale
  /-- The next scores on the scale. -/
  nextScores : ∀ winner,
    Worth matchPayoff (scoreGame (afterRound score winner)) (base+scale*roundPayoff lam winner)
  /-- The value of the round on the scale. -/
  onScale : value=base+scale*r lam

/-- When a draw is worth something between a loss and a win, the weight that the
recursion assigns is right, also where a win is worth no more than a loss. -/
theorem scaled_of_order {score : Score} {win loss draw : ℚ}
    (hwin : Worth matchPayoff (scoreGame (afterRound score .p2)) win)
    (hloss : Worth matchPayoff (scoreGame (afterRound score .p1)) loss)
    (hdraw : Worth matchPayoff (scoreGame (afterRound score .draw)) draw)
    (hld : loss≤draw) (hdw : draw≤win) :
    Scaled r score (solveScore r win loss draw).1 loss (win-loss) (solveScore r win loss draw).2 := by
  unfold solveScore
  by_cases hsame : win=loss
  · obtain rfl : draw=loss := le_antisymm (hsame ▸ hdw) hld
    subst hsame
    rw [if_pos rfl]
    refine ⟨by norm_num,(sub_self win).ge,fun winner => ?_,by simp⟩
    rw [sub_self,zero_mul,add_zero]
    cases winner with
    | p1 => exact hloss
    | p2 => exact hwin
    | draw => exact hdraw
  · have hpos : 0<win-loss := sub_pos.mpr (lt_of_le_of_ne (hld.trans hdw) (Ne.symm hsame))
    rw [if_neg hsame]
    dsimp only
    refine ⟨⟨div_nonneg (by linarith) hpos.le,?_⟩,hpos.le,fun winner => ?_,rfl⟩
    · rw [div_le_one hpos]
      linarith
    · cases winner with
      | p1 => simpa [roundPayoff] using hloss
      | p2 => simpa [roundPayoff] using hwin
      | draw =>
        have hback : loss+(win-loss)*((draw-loss)/(win-loss))=draw := by
          rw [mul_div_cancel₀ _ hpos.ne']
          ring
        simpa only [roundPayoff,hback] using hdraw

variable (hr : ∀ lam,0≤lam → lam≤1 → Worth (roundPayoff lam) (roundGame freshRound) (r lam))

include hr

/-- The round, scored by what the next scores are worth. -/
theorem Scaled.round {score : Score} {lam base scale value : ℚ}
    (h : Scaled r score lam base scale value) :
    Worth (fun winner => base+scale*roundPayoff lam winner) (roundGame freshRound) value := by
  have hround := (hr lam h.drawWeight.1 h.drawWeight.2).affine base h.notReversed
  rwa [← h.onScale] at hround

/-- What a score is worth that the recursion has solved. -/
theorem Scaled.worth {score : Score} (hgoes : scoreWinner score=none) {lam base scale value : ℚ}
    (h : Scaled r score lam base scale value) : Worth matchPayoff (scoreGame score) value := by
  rw [scoreGame_goes hgoes]
  exact (h.round hr).bind h.nextScores

/-- Every score has a worth, and better scores are worth more; by induction on
the rounds left, since each statement needs the other for the next scores. -/
theorem scores_ordered (n : ℕ) :
    (∀ score : Score,(3-score.2.2).toNat=n → scoreWinner score=none →
      ∃ lam base scale value,Scaled r score lam base scale value) ∧
    ∀ (score score' : Score) (v v' : ℚ),(3-score.2.2).toNat=n → score'.2.2=score.2.2 →
      score.1≤ score'.1 → score'.2.1≤ score.2.1 → Worth matchPayoff (scoreGame score) v →
      Worth matchPayoff (scoreGame score') v' → v≤v' := by
  induction n using Nat.strong_induction_on with
  | _ n ih =>
    have hnext : ∀ {score : Score},(3-score.2.2).toNat=n → scoreWinner score=none →
        ∀ winner,(3-(afterRound score winner).2.2).toNat<n := by
      intro score hn hgoes winner
      have := played_lt hgoes
      simp only [afterRound]
      omega
    have hexists : ∀ {score : Score},(3-score.2.2).toNat=n → scoreWinner score=none →
        ∀ winner,∃ v,Worth matchPayoff (scoreGame (afterRound score winner)) v := by
      intro score hn hgoes winner
      cases hw : scoreWinner (afterRound score winner) with
      | some winner' => exact ⟨_,scoreGame_ends hw ▸ worth_leaf winner'⟩
      | none =>
        obtain ⟨lam,base,scale,value,hscaled⟩ := (ih _ (hnext hn hgoes winner)).1 _ rfl hw
        exact ⟨value,hscaled.worth hr hw⟩
    have hscaled : ∀ score : Score,(3-score.2.2).toNat=n → scoreWinner score=none →
        ∃ lam base scale value,Scaled r score lam base scale value := by
      intro score hn hgoes
      obtain ⟨win,hwin⟩ := hexists hn hgoes .p2
      obtain ⟨loss,hloss⟩ := hexists hn hgoes .p1
      obtain ⟨draw,hdraw⟩ := hexists hn hgoes .draw
      have hld : loss≤draw := by
        refine (ih _ (hnext hn hgoes .p1)).2 _ (afterRound score .draw) _ _ rfl rfl ?_ ?_ hloss hdraw
          <;> simp [afterRound]
      have hdw : draw≤win := by
        refine (ih _ (hnext hn hgoes .draw)).2 _ (afterRound score .p2) _ _ rfl rfl ?_ ?_ hdraw hwin
          <;> simp [afterRound]
      exact ⟨_,_,_,_,scaled_of_order hwin hloss hdraw hld hdw⟩
    refine ⟨hscaled,fun score score' v v' hn hplayed hmy hopp hv hv' => ?_⟩
    rcases scoreWinner_order hplayed hmy hopp with hlost | hwon | ⟨hd,hd'⟩ | ⟨hgoes,hgoes'⟩
    · have hzero := hv.unique (scoreGame_ends hlost ▸ worth_leaf RoundWinner.p1)
      rw [hzero]
      exact (worth_bounds (by norm_num) hv').1
    · have hone := hv'.unique (scoreGame_ends hwon ▸ worth_leaf RoundWinner.p2)
      rw [hone]
      exact (worth_bounds (by norm_num) hv).2
    · rw [scoreGame_ends hd] at hv
      rw [scoreGame_ends hd'] at hv'
      exact (hv.unique hv').le
    · have hn' : (3-score'.2.2).toNat=n := hplayed ▸ hn
      obtain ⟨lam,base,scale,value,hs⟩ := hscaled score hn hgoes
      obtain ⟨lam',base',scale',value',hs'⟩ := hscaled score' hn' hgoes'
      rw [hv.unique (hs.worth hr hgoes),hv'.unique (hs'.worth hr hgoes')]
      refine (hs.round hr).mono (fun winner => ?_) (hs'.round hr)
      refine (ih _ (hnext hn hgoes winner)).2 _ _ _ _ rfl ?_ ?_ ?_ (hs.nextScores winner) (hs'.nextScores winner)
        <;> simp only [afterRound] <;> omega

end Worths

/-- A score that counts every round at most once. -/
structure Counted (score : Score) : Prop where
  /-- My wins. -/
  my : 0≤ score.1
  /-- The opponent's wins. -/
  opp : 0≤ score.2.1
  /-- No more wins than rounds. -/
  played : score.1+score.2.1≤ score.2.2
  /-- At most three rounds. -/
  rounds : score.2.2≤3

theorem Counted.next {score : Score} (h : Counted score) (hgoes : scoreWinner score=none)
    (winner : RoundWinner) : Counted (afterRound score winner) := by
  obtain ⟨hmy,hopp,hplayed,-⟩ := h
  have := played_lt hgoes
  cases winner <;> constructor <;> simp [afterRound] <;> omega

/-- Before a round the counted scores are those of the solver. -/
theorem Counted.mem {score : Score} (h : Counted score) (hgoes : scoreWinner score=none) :
    score∈reachableMatchStates := by
  obtain ⟨my,opp,played⟩ := score
  obtain ⟨hmy,hopp,hplayed,-⟩ := h
  have hlt := played_lt hgoes
  simp only [scoreWinner] at hmy hopp hplayed hlt hgoes
  split_ifs at hgoes with hlost hwon hover
  exact mem_reachableMatchStates.mpr ⟨hmy,hopp,hplayed,hlt,not_le.mp hwon,not_le.mp hlost⟩

theorem counted_of_mem {score : Score} (h : score∈reachableMatchStates) :
    Counted score ∧ scoreWinner score=none := by
  obtain ⟨my,opp,played⟩ := score
  obtain ⟨hmy,hopp,hplayed,hlt,hmy',hopp'⟩ := mem_reachableMatchStates.mp h
  refine ⟨⟨hmy,hopp,hplayed,hlt.le⟩,?_⟩
  unfold scoreWinner roundsToWin at *
  dsimp only
  rw [if_neg (by omega),if_neg (by omega),if_neg (by omega)]

/-- The solver scores the end of a match as the engine decides it. -/
theorem terminalMatchValue_eq {score : Score} (h : Counted score) :
    terminalMatchValue score.1 score.2.1 score.2.2=(scoreWinner score).map matchPayoff := by
  obtain ⟨hmy,hopp,hplayed,hrounds⟩ := h
  unfold terminalMatchValue scoreWinner roundsToWin
  split_ifs <;> first | omega | simp [roundPayoff]

/-- The key of a score. -/
abbrev scoreKey (score : Score) : String := matchStateKey score.1 score.2.1 score.2.2

/-- Scores before a round have different keys. -/
theorem scoreKey_injective : ∀ score∈reachableMatchStates,∀ score'∈reachableMatchStates,
    scoreKey score=scoreKey score' → score=score' := by
  decide +kernel

section Recursion

variable {K : Type} [Field K]

/-- The solver finds no winner yet where the engine finds none. -/
theorem terminalMatchValue_none {score : Score} (h : scoreWinner score=none) :
    (terminalMatchValue score.1 score.2.1 score.2.2 : Option K)=none := by
  unfold terminalMatchValue
  unfold scoreWinner at h
  split_ifs at h ⊢
  rfl

/-- The solver decides the end of a match where the engine does. -/
theorem terminalMatchValue_some {score : Score} {winner : RoundWinner}
    (h : scoreWinner score=some winner) :
    ∃ value,(terminalMatchValue score.1 score.2.1 score.2.2 : Option K)=some value := by
  unfold terminalMatchValue
  unfold scoreWinner at h
  split_ifs at h ⊢ <;> exact ⟨_,rfl⟩

variable [DecidableEq K] {r : K → K} {my opp played : ℤ} {maps : MatchMaps K}

theorem u_terminal {value : K} (h : terminalMatchValue my opp played=some value) :
    u r my opp played maps=(value,maps) := by
  rw [u]
  split <;> simp_all

theorem u_known {value : K} (h : (terminalMatchValue my opp played : Option K)=none)
    (hmemo : maps.memo (my,opp,played)=some value) : u r my opp played maps=(value,maps) := by
  rw [u]
  split
  · simp_all
  · rw [hmemo]

/-- A score that is met for the first time is solved and entered everywhere. -/
theorem u_solves (h : (terminalMatchValue my opp played : Option K)=none)
    (hmemo : maps.memo (my,opp,played)=none) :
    let win := u r (my+1) opp (played+1) maps
    let loss := u r my (opp+1) (played+1) win.2
    let draw := u r my opp (played+1) loss.2
    let solved := solveScore r win.1 loss.1 draw.1
    let skey := matchStateKey my opp played
    u r my opp played maps=(solved.2,
      { lambdas := Function.update draw.2.lambdas skey (some solved.1)
        values := Function.update draw.2.values skey (some solved.2)
        memo := Function.update draw.2.memo (my,opp,played) (some solved.2) }) := by
  intro win loss draw solved skey
  rw [u]
  split
  · simp_all
  · rw [hmemo]
    rfl

/-- The recursion without its dictionaries: what a score is worth. -/
def scoreValue (r : K → K) (score : Score) : K :=
  match _h : (terminalMatchValue score.1 score.2.1 score.2.2 : Option K) with
  | some terminal => terminal
  | none => (solveScore r (scoreValue r (afterRound score .p2)) (scoreValue r (afterRound score .p1))
      (scoreValue r (afterRound score .draw))).2
termination_by (3-score.2.2).toNat
decreasing_by
  all_goals
    have := roundsPlayed_lt _h
    simp only [afterRound]
    omega

/-- The weight of a draw and the value that the recursion finds for a score. -/
def solvedScore (r : K → K) (score : Score) : K×K :=
  solveScore r (scoreValue r (afterRound score .p2)) (scoreValue r (afterRound score .p1))
    (scoreValue r (afterRound score .draw))

theorem scoreValue_ends {score : Score} {value : K}
    (h : terminalMatchValue score.1 score.2.1 score.2.2=some value) :
    scoreValue r score=value := by
  rw [scoreValue]
  split <;> simp_all

theorem scoreValue_goes {score : Score}
    (h : (terminalMatchValue score.1 score.2.1 score.2.2 : Option K)=none) :
    scoreValue r score=(solvedScore r score).2 := by
  rw [scoreValue]
  split
  · simp_all
  · rfl

/-- Every score in the memo is one before a round, and entered as it is solved. -/
def Sound (r : K → K) (maps : MatchMaps K) : Prop :=
  ∀ score value,maps.memo score=some value → score∈reachableMatchStates ∧
    value=scoreValue r score ∧ maps.lambdas (scoreKey score)=some (solvedScore r score).1 ∧
    maps.values (scoreKey score)=some (solvedScore r score).2

/-- Entering a score leaves the others. -/
theorem Sound.enter (h : Sound r maps) {score : Score} (hmem : score∈reachableMatchStates)
    (hgoes : (terminalMatchValue score.1 score.2.1 score.2.2 : Option K)=none) :
    Sound r
      { lambdas := Function.update maps.lambdas (scoreKey score) (some (solvedScore r score).1)
        values := Function.update maps.values (scoreKey score) (some (solvedScore r score).2)
        memo := Function.update maps.memo score (some (solvedScore r score).2) } := by
  intro score' value' hmemo
  dsimp only at hmemo
  by_cases hsame : score'=score
  · subst hsame
    rw [Function.update_self] at hmemo
    cases hmemo
    exact ⟨hmem,(scoreValue_goes hgoes).symm,Function.update_self ..,Function.update_self ..⟩
  · rw [Function.update_of_ne hsame] at hmemo
    obtain ⟨hmem',hvalue',hlam,hvalue⟩ := h score' value' hmemo
    have hkey : scoreKey score'≠scoreKey score := fun he =>
      hsame (scoreKey_injective _ hmem' _ hmem he)
    exact ⟨hmem',hvalue',(Function.update_of_ne hkey ..).trans hlam,
      (Function.update_of_ne hkey ..).trans hvalue⟩

/-- What a call of the recursion does: its result is the value of the score, the
dictionaries stay sound and grow, and hold the score if it is not terminal. -/
structure Solves (r : K → K) (maps : MatchMaps K) (score : Score) (result : K×MatchMaps K) :
    Prop where
  /-- The result. -/
  value : result.1=scoreValue r score
  /-- The dictionaries. -/
  sound : Sound r result.2
  /-- Nothing is forgotten. -/
  grows : ∀ score',maps.memo score'≠none → result.2.memo score'≠none
  /-- The score is entered. -/
  entered : scoreWinner score=none → result.2.memo score≠none

/-- The step lemma of the recursion. -/
theorem u_solved {score : Score} (hc : Counted score) {maps : MatchMaps K} (h : Sound r maps) :
    Solves r maps score (u r score.1 score.2.1 score.2.2 maps) := by
  induction hn : (3-score.2.2).toNat using Nat.strong_induction_on generalizing score maps with
  | _ n ih =>
    cases hw : scoreWinner score with
    | some winner =>
      obtain ⟨value,hterminal⟩ := terminalMatchValue_some (K := K) hw
      rw [u_terminal hterminal]
      refine ⟨(scoreValue_ends hterminal).symm,h,fun _ hs => hs,fun hnone => ?_⟩
      rw [hw] at hnone
      cases hnone
    | none =>
      have hterminal := terminalMatchValue_none (K := K) hw
      cases hmemo : maps.memo score with
      | some value =>
        rw [u_known hterminal hmemo]
        obtain ⟨-,hvalue,-⟩ := h score value hmemo
        exact ⟨hvalue,h,fun _ hs => hs,fun _ => by simp [hmemo]⟩
      | none =>
        have hlt := played_lt hw
        have hfewer : ∀ winner,(3-(afterRound score winner).2.2).toNat<n := by
          intro winner
          simp only [afterRound]
          omega
        -- the three calls, each with the dictionaries that the one before left
        have hwin : Solves r maps (afterRound score .p2)
            (u r (score.1+1) score.2.1 (score.2.2+1) maps) := by
          simpa [afterRound] using ih _ (hfewer .p2) (hc.next hw .p2) h rfl
        have hsolves := u_solves (r := r) hterminal hmemo
        dsimp only at hsolves
        rw [hsolves]
        generalize u r (score.1+1) score.2.1 (score.2.2+1) maps=win at hwin
        have hloss : Solves r win.2 (afterRound score .p1)
            (u r score.1 (score.2.1+1) (score.2.2+1) win.2) := by
          simpa [afterRound] using ih _ (hfewer .p1) (hc.next hw .p1) hwin.sound rfl
        generalize u r score.1 (score.2.1+1) (score.2.2+1) win.2=loss at hloss
        have hdraw : Solves r loss.2 (afterRound score .draw)
            (u r score.1 score.2.1 (score.2.2+1) loss.2) := by
          simpa [afterRound] using ih _ (hfewer .draw) (hc.next hw .draw) hloss.sound rfl
        generalize u r score.1 score.2.1 (score.2.2+1) loss.2=draw at hdraw
        have hsolved : solveScore r win.1 loss.1 draw.1=solvedScore r score := by
          rw [hwin.value,hloss.value,hdraw.value]
          rfl
        rw [hsolved]
        refine ⟨(scoreValue_goes hterminal).symm,hdraw.sound.enter (hc.mem hw) hterminal,
          fun score' hs => ?_,fun _ => ?_⟩
        · dsimp only
          by_cases hsame : score'=score
          · rw [hsame]
            simp
          · rw [show ((score.1,score.2.1,score.2.2) : Score)=score from rfl,
              Function.update_of_ne hsame]
            exact hdraw.grows _ (hloss.grows _ (hwin.grows _ hs))
        · simp

/-- The loop over the scores enters every one of them as it is solved. -/
theorem matchInduction_solved {score : Score} (hmem : score∈reachableMatchStates) :
    (matchInduction r).lambdas (scoreKey score)=some (solvedScore r score).1 ∧
      (matchInduction r).values (scoreKey score)=some (solvedScore r score).2 := by
  have hrun : ∀ (scores : List Score) (maps : MatchMaps K),
      (∀ score∈scores,score∈reachableMatchStates) → Sound r maps →
      let maps' := scores.foldl (fun maps score => (u r score.1 score.2.1 score.2.2 maps).2) maps
      Sound r maps' ∧ ∀ score,(score∈scores ∨ maps.memo score≠none) → maps'.memo score≠none := by
    intro scores
    induction scores with
    | nil =>
      intro maps _ h
      exact ⟨h,fun score hs => hs.resolve_left List.not_mem_nil⟩
    | cons first scores ih =>
      intro maps hscores h
      obtain ⟨hc,hw⟩ := counted_of_mem (hscores first List.mem_cons_self)
      have hfirst := u_solved hc h
      obtain ⟨hsound,hall⟩ := ih _ (fun score hs => hscores score (List.mem_cons_of_mem _ hs))
        hfirst.sound
      refine ⟨hsound,fun score hs => hall score ?_⟩
      rcases hs with hs | hs
      · rcases List.mem_cons.mp hs with rfl | hs
        · exact .inr (hfirst.entered hw)
        · exact .inl hs
      · exact .inr (hfirst.grows score hs)
  obtain ⟨hsound,hall⟩ := hrun reachableMatchStates ⟨fun _ => none,fun _ => none,fun _ => none⟩
    (fun _ hs => hs) (fun _ _ hs => nomatch hs)
  obtain ⟨value,hvalue⟩ := Option.ne_none_iff_exists'.mp (hall score (.inl hmem))
  obtain ⟨-,-,hlam,hvalues⟩ := hsound score value hvalue
  exact ⟨hlam,hvalues⟩

end Recursion

section Values

variable {r : ℚ → ℚ}

/-- What the dictionaries hold for a score. -/
structure Entered (r : ℚ → ℚ) (maps : MatchMaps ℚ) (score : Score) (lam value : ℚ) : Prop where
  /-- The weight of a draw. -/
  lambdas : maps.lambdas (scoreKey score)=some lam
  /-- The value. -/
  values : maps.values (scoreKey score)=some value
  /-- Both are right. -/
  scaled : ∃ base scale,Scaled r score lam base scale value

/-- What the recursion finds is right, and the value is what the score is worth. -/
theorem scoreValue_worth
    (hr : ∀ lam,0≤lam → lam≤1 → Worth (roundPayoff lam) (roundGame freshRound) (r lam))
    {score : Score} (hc : Counted score) :
    Worth matchPayoff (scoreGame score) (scoreValue r score) ∧
      (scoreWinner score=none →
        ∃ base scale,Scaled r score (solvedScore r score).1 base scale (solvedScore r score).2) := by
  induction hn : (3-score.2.2).toNat using Nat.strong_induction_on generalizing score with
  | _ n ih =>
    have hterminal := terminalMatchValue_eq hc
    cases hw : scoreWinner score with
    | some winner =>
      rw [hw] at hterminal
      rw [scoreValue_ends hterminal,scoreGame_ends hw]
      exact ⟨worth_leaf winner,fun hnone => nomatch hnone⟩
    | none =>
      rw [hw] at hterminal
      have hlt := played_lt hw
      have hnext : ∀ winner,Worth matchPayoff (scoreGame (afterRound score winner))
          (scoreValue r (afterRound score winner)) := by
        intro winner
        refine (ih _ ?_ (hc.next hw winner) rfl).1
        simp only [afterRound]
        omega
      have horder := (scores_ordered hr (3-(afterRound score .p1).2.2).toNat).2
      have hld := horder _ (afterRound score .draw) _ _ rfl rfl (by simp [afterRound])
        (by simp [afterRound]) (hnext .p1) (hnext .draw)
      have hdw := horder (afterRound score .draw) (afterRound score .p2) _ _ rfl rfl
        (by simp [afterRound]) (by simp [afterRound]) (hnext .draw) (hnext .p2)
      have hscaled := @scaled_of_order r score _ _ _ (hnext .p2) (hnext .p1) (hnext .draw) hld hdw
      rw [scoreValue_goes hterminal]
      exact ⟨hscaled.worth hr hw,fun _ => ⟨_,_,hscaled⟩⟩

/-- The dictionaries hold it. -/
theorem matchInduction_entered
    (hr : ∀ lam,0≤lam → lam≤1 → Worth (roundPayoff lam) (roundGame freshRound) (r lam))
    {score : Score} (hmem : score∈reachableMatchStates) :
    ∃ lam value,Entered r (matchInduction r) score lam value := by
  obtain ⟨hc,hgoes⟩ := counted_of_mem hmem
  obtain ⟨hlam,hvalue⟩ := matchInduction_solved (r := r) hmem
  exact ⟨_,_,hlam,hvalue,(scoreValue_worth hr hc).2 hgoes⟩

end Values

/-- The states of a match that accepted pairs of affordable actions lead to,
mine first. -/
inductive Reached : GameState → List (Action×Action) → GameState → Prop
  | nil (state : GameState) : Reached state [] state
  | cons {state state' state'' : GameState} {round : RoundState} {me opp : Action}
      {report : TurnReport} {history : List (Action×Action)} (hr : state.currentRound=some round)
      (hme : me∈affordableActions round.p2Ki) (hopp : opp∈affordableActions round.p1Ki)
      (hcall : submitTurn state opp me=(state',.ok report)) (hrest : Reached state' history state'') :
      Reached state ((me,opp)::history) state''

/-- An AI that plays every round it gets into optimally for the draw weight that
the dictionaries assign to the current score. -/
def OptimalInRounds (r : ℚ → ℚ) (maps : MatchMaps ℚ) (state : GameState)
    (σ : Strategy Action Action Action ℚ) : Prop :=
  ∀ history state' score round,Reached state history state' → Playing score round state' →
    Fresh round → ∀ lam,maps.lambdas (scoreKey score)=some lam →
      Secures (roundPayoff lam) (roundGame round) (r lam) fun rest => σ (history++rest)

/-- It stays so after a turn. -/
theorem OptimalInRounds.after {r : ℚ → ℚ} {maps : MatchMaps ℚ} {state state' : GameState}
    {σ : Strategy Action Action Action ℚ} (h : OptimalInRounds r maps state σ) {round : RoundState}
    (hr : state.currentRound=some round) {me opp : Action} (hme : me∈affordableActions round.p2Ki)
    (hopp : opp∈affordableActions round.p1Ki) {report : TurnReport}
    (hcall : submitTurn state opp me=(state',.ok report)) :
    OptimalInRounds r maps state' (σ.after me opp) :=
  fun _ state'' score round' hreached => h _ state'' score round' (.cons hr hme hopp hcall hreached)

section Optimal

variable {r : ℚ → ℚ}
  (hr : ∀ lam,0≤lam → lam≤1 → Worth (roundPayoff lam) (roundGame freshRound) (r lam))

/-- At the end of a round, what comes after it is secured; by induction on the
turns of the round, when it holds of the states that later rounds start from. -/
theorem atLeaves_optimal {maps : MatchMaps ℚ} {score : Score} {round : RoundState} {state : GameState}
    {σ : Strategy Action Action Action ℚ} {payoff : RoundWinner → ℚ}
    (h : Playing score round state) (hσ : OptimalInRounds r maps state σ)
    (hpayoff : ∀ winner,Worth matchPayoff (scoreGame (afterRound score winner)) (payoff winner))
    (hlater : ∀ winner round' state' σ',Playing (afterRound score winner) round' state' →
      Fresh round' → scoreWinner (afterRound score winner)=none →
      OptimalInRounds r maps state' σ' →
      Secures matchPayoff (scoreGame (afterRound score winner)) (payoff winner) σ') :
    (roundGame round).AtLeaves (fun winner σ' =>
      Secures matchPayoff (scoreGame (afterRound score winner)) (payoff winner) σ') σ := by
  induction hn : turnsLeft round using Nat.strong_induction_on generalizing round state σ with
  | _ n ih =>
    rw [RoundGames.roundGame_eq]
    intro me hme opp hopp
    have hme' := List.mem_toFinset.mp hme
    have hopp' := List.mem_toFinset.mp hopp
    cases h.turn hme hopp with
    | roundGoesOn state' report hcall hplaying hturns hleft hround hmatch =>
      rw [hround]
      exact ih _ (hn ▸ hturns) hplaying (hσ.after h.opened hme' hopp' hcall) rfl
    | roundCloses winner round' state' report hcall hplaying hfresh hleft hgoes hround hmatch =>
      rw [hround]
      exact hlater winner round' state' _ hplaying hfresh hgoes
        (hσ.after h.opened hme' hopp' hcall)
    | matchCloses winner matchWinner hends hround hmatch =>
      rw [hround]
      change Secures matchPayoff (scoreGame (afterRound score winner)) (payoff winner) _
      have hworth := hpayoff winner
      rw [scoreGame_ends hends] at hworth ⊢
      rw [hworth.unique (worth_leaf matchWinner)]
      exact secures_leaf matchWinner _

include hr

/-- Playing every round optimally secures what the score is worth. -/
theorem optimal_secures {score : Score} (hmem : score∈reachableMatchStates) {round : RoundState}
    {state : GameState} (h : Playing score round state) (hfresh : Fresh round)
    {σ : Strategy Action Action Action ℚ} (hσ : OptimalInRounds r (matchInduction r) state σ)
    {lam value : ℚ} (hentered : Entered r (matchInduction r) score lam value) :
    Secures matchPayoff (scoreGame score) value σ := by
  induction hn : (3-score.2.2).toNat using Nat.strong_induction_on
    generalizing score round state σ lam value with
  | _ n ih =>
    obtain ⟨hc,hgoes⟩ := counted_of_mem hmem
    obtain ⟨base,scale,hscaled⟩ := hentered.scaled
    have hround : Secures (roundPayoff lam) (roundGame freshRound) (r lam) σ := by
      rw [← hfresh.roundGame_eq]
      exact hσ [] state score round (.nil state) h hfresh lam hentered.lambdas
    have hrest := atLeaves_optimal h hσ hscaled.nextScores
      fun winner round' state' σ' hplaying hfresh' hgoes' hσ' => by
        have hmem' := (hc.next hgoes winner).mem hgoes'
        obtain ⟨lam',value',hentered'⟩ := matchInduction_entered hr hmem'
        have hlt := played_lt hgoes
        have hfewer : (3-(afterRound score winner).2.2).toNat<n := by
          simp only [afterRound]
          omega
        obtain ⟨base',scale',hscaled'⟩ := hentered'.scaled
        rw [(hscaled.nextScores winner).unique (hscaled'.worth hr hgoes')]
        exact ih _ hfewer hmem' hplaying hfresh' hσ' hentered' rfl
    rw [scoreGame_goes hgoes,hscaled.onScale]
    rw [hfresh.roundGame_eq] at hrest
    exact (hround.affine base hscaled.notReversed).bind hrest

end Optimal

/-- The decomposition of the match is exact: with the exact values of a round,
what _match_induction computes for a score is what the undecomposed match is
worth from there, and to play each round optimally for the weight assigned to
its score is to play the match optimally. -/
theorem decomposition_exact {r : ℚ → ℚ}
    (hr : ∀ lam,0≤lam → lam≤1 → Worth (roundPayoff lam) (roundGame freshRound) (r lam))
    (score : Score) (hmem : score∈reachableMatchStates) :
    ∃ lam value,(matchInduction r).lambdas (scoreKey score)=some lam ∧
      (matchInduction r).values (scoreKey score)=some value ∧ (0≤lam ∧ lam≤1) ∧
      ∀ state round,Playing score round state → Fresh round →
        Worth matchPayoff (matchGame state) value ∧
        ∀ σ,OptimalInRounds r (matchInduction r) state σ →
          Secures matchPayoff (matchGame state) value σ := by
  obtain ⟨lam,value,hentered⟩ := matchInduction_entered hr hmem
  obtain ⟨base,scale,hscaled⟩ := hentered.scaled
  refine ⟨lam,value,hentered.lambdas,hentered.values,hscaled.drawWeight,fun state round h hfresh => ?_⟩
  have hgoes := (counted_of_mem hmem).2
  have hagree : Agree (scoreGame score) (matchGame state) := by
    rw [scoreGame_goes hgoes,← hfresh.roundGame_eq]
    exact (matchGame_agree h).symm
  exact ⟨hagree.worth (hscaled.worth hr hgoes),
    fun σ hσ => hagree.secures (optimal_secures hr hmem h hfresh hσ hentered)⟩

theorem freshRound_open : Open freshRound := ⟨by decide,by decide,by decide⟩

theorem valueFn_freshRound (table : RoundTable) :
    table.valueFn freshRound.p2Ki freshRound.p1Ki (freshRound.turnNumber+1)=
      roundStartValue table := by
  rw [valueFn_succ]
  rfl

/-- The opening value of an exact table is what the round is worth. -/
theorem roundStartValue_worth {solve : StageSolver} (hexact : ExactSolver solve) (lam : ℚ) :
    Worth (roundPayoff lam) (roundGame freshRound) (roundStartValue (solveRoundTable solve lam)) := by
  rw [← valueFn_freshRound]
  exact roundGame_worth hexact lam freshRound_open

/-- For the tables of an exact solver, at the opening of the match. -/
theorem decomposition_exact_opening :
    let r := fun lam => roundStartValue (solveRoundTable exactSolver lam)
    ∃ lam value,(matchInduction r).lambdas "0-0-0"=some lam ∧
      (matchInduction r).values "0-0-0"=some value ∧ (0≤lam ∧ lam≤1) ∧
      ∀ state round,Playing (0,0,0) round state → Fresh round →
        Worth matchPayoff (matchGame state) value ∧
        ∀ σ,OptimalInRounds r (matchInduction r) state σ →
          Secures matchPayoff (matchGame state) value σ :=
  decomposition_exact (fun lam _ _ => roundStartValue_worth exactSolver_exact lam) (0,0,0)
    (by decide)

end KiClash.MatchDecomposition
