import KiClash.EngineSymmetry
import KiClash.MatchDecomposition

/-!
# The match induction is fair

What _match_induction of solver.py computes with an oracle of round values that is
constant-sum: the weights and the values of a score and of its mirror image add up to one,
and a lost round is worth no more than a drawn one, which is worth no more than a won one.
The order is what keeps the weights between zero and one, and it rests in turn on the
range and the symmetry of the values one round later, so the three are proved together, by
induction on the rounds left.
-/

namespace KiClash.MatchSymmetry

open EngineTypes EngineSymmetry Transition Solver MatchDecomposition RoundGames SolvedTables

/-- The score from the other player's side. -/
def mirrorScore (score : Score) : Score := (score.2.1,score.1,score.2.2)

/-- A round that ends the other way leads to the mirror image. -/
theorem afterRound_mirror (score : Score) (winner : RoundWinner) :
    afterRound (mirrorScore score) winner=mirrorScore (afterRound score (mirrorWinner winner)) := by
  cases winner <;> rfl

/-- The mirror image of a score before a round is one. -/
theorem mirror_mem {score : Score} (h : score∈reachableMatchStates) :
    mirrorScore score∈reachableMatchStates := by
  obtain ⟨my,opp,played⟩ := score
  obtain ⟨hmy,hopp,hplayed,hlt,hmy',hopp'⟩ := mem_reachableMatchStates.mp h
  have hsum : opp+my≤played := by omega
  exact mem_reachableMatchStates.mpr ⟨hopp,hmy,hsum,hlt,hopp',hmy'⟩

/-- Before a round nobody has won the match. -/
theorem wins_lt {score : Score} (h : scoreWinner score=none) :
    score.1< roundsToWin ∧ score.2.1< roundsToWin := by
  unfold scoreWinner at h
  split_ifs at h with hlost hwon
  exact ⟨not_le.mp hwon,not_le.mp hlost⟩

theorem goes_mirror {score : Score} (h : scoreWinner score=none) :
    scoreWinner (mirrorScore score)=none := by
  obtain ⟨hmy,hopp⟩ := wins_lt h
  have hplayed := played_lt h
  unfold scoreWinner mirrorScore
  rw [if_neg (not_le.mpr hmy),if_neg (not_le.mpr hopp),if_neg (not_le.mpr hplayed)]

section Fields

variable {K : Type} [Field K] [LinearOrder K] {r : K → K} {score : Score}

/-- An oracle of round values between zero and one, of which those of mirrored weights add up
to one. -/
structure RoundOracle (r : K → K) : Prop where
  /-- The values. -/
  bounds : ∀ lam,0≤lam → lam≤1 → 0≤ r lam ∧ r lam≤1
  /-- A draw that is worth so much to one player is worth the rest to the other. -/
  mirror : ∀ lam,0≤lam → lam≤1 → r lam+r (1-lam)=1

/-- What is known of the value of a score. -/
structure Balanced (r : K → K) (score : Score) : Prop where
  /-- It is between zero and one. -/
  bounds : 0≤ scoreValue r score ∧ scoreValue r score≤1
  /-- What is left is the opponent's. -/
  mirror : scoreValue r score+scoreValue r (mirrorScore score)=1
  /-- If I am not behind, it is at least a half. -/
  ahead : score.2.1≤ score.1 → 1/2≤ scoreValue r score
  /-- If I am not ahead, it is at most a half. -/
  behind : score.1≤ score.2.1 → scoreValue r score≤1/2

/-- A match that I have won is worth one. -/
theorem scoreValue_won (h : roundsToWin≤ score.1) : scoreValue r score=1 :=
  scoreValue_ends (if_pos h)

/-- A match that the opponent has won is worth nothing. -/
theorem scoreValue_lost (hmy : score.1< roundsToWin) (h : roundsToWin≤ score.2.1) :
    scoreValue r score=0 := by
  apply scoreValue_ends
  rw [terminalMatchValue,if_neg (not_le.mpr hmy),if_pos h]

/-- A match that nobody has won in its rounds is worth a half. -/
theorem scoreValue_drawn (hmy : score.1< roundsToWin) (hopp : score.2.1< roundsToWin)
    (h : 3≤ score.2.2) : scoreValue r score=1/2 := by
  apply scoreValue_ends
  rw [terminalMatchValue,if_neg (not_le.mpr hmy),if_neg (not_le.mpr hopp),if_pos h]

variable [IsStrictOrderedRing K] {win loss draw : K}

/-- What is solved from ordered values is in range. -/
theorem solveScore_bounds (hr : RoundOracle r) (hld : loss≤draw) (hdw : draw≤win) :
    (0≤(solveScore r win loss draw).1 ∧ (solveScore r win loss draw).1≤1) ∧
      loss≤(solveScore r win loss draw).2 ∧ (solveScore r win loss draw).2≤win := by
  unfold solveScore
  by_cases hsame : win=loss
  · rw [if_pos hsame]
    exact ⟨⟨by norm_num,by norm_num⟩,le_refl loss,hsame.ge⟩
  · have hgap : 0<win-loss := sub_pos.mpr (lt_of_le_of_ne (hld.trans hdw) (Ne.symm hsame))
    rw [if_neg hsame]
    dsimp only
    have hzero : 0≤(draw-loss)/(win-loss) := div_nonneg (sub_nonneg.mpr hld) hgap.le
    have hone : (draw-loss)/(win-loss)≤1 := by
      rw [div_le_one hgap]
      linarith
    obtain ⟨hlow,hhigh⟩ := hr.bounds _ hzero hone
    refine ⟨⟨hzero,hone⟩,?_,?_⟩
    · linarith [mul_nonneg hgap.le hlow]
    · linarith [mul_le_mul_of_nonneg_left hhigh hgap.le]

/-- What is solved from the mirrored values adds up to one with it. -/
theorem solveScore_mirror (hr : RoundOracle r) (hld : loss≤draw) (hdw : draw≤win) :
    (solveScore r win loss draw).1+(solveScore r (1-loss) (1-win) (1-draw)).1=1 ∧
      (solveScore r win loss draw).2+(solveScore r (1-loss) (1-win) (1-draw)).2=1 := by
  obtain ⟨⟨hzero,hone⟩,-⟩ := solveScore_bounds hr hld hdw
  unfold solveScore at *
  by_cases hsame : win=loss
  · rw [if_pos hsame,if_pos (by rw [hsame]),hsame]
    exact ⟨by norm_num,by ring⟩
  · have hother : ¬1-loss=1-win := fun he => hsame (sub_right_injective he).symm
    have hgap : win-loss≠0 := sub_ne_zero.mpr hsame
    rw [if_neg hsame] at hzero hone
    rw [if_neg hsame,if_neg hother]
    dsimp only at hzero hone ⊢
    have hscale : 1-loss-(1-win)=win-loss := by ring
    have hweight : (1-draw-(1-win))/(1-loss-(1-win))=1-(draw-loss)/(win-loss) := by
      rw [hscale,eq_sub_iff_add_eq,← add_div,div_eq_one_iff_eq hgap]
      ring
    rw [hweight,hscale]
    have hsum := hr.mirror _ hzero hone
    refine ⟨by ring,?_⟩
    have hround : r (1-(draw-loss)/(win-loss))=1-r ((draw-loss)/(win-loss)) := by linarith
    rw [hround]
    ring

/-- The end of a match is balanced. -/
theorem balanced_ends (hc : Counted score) {winner : RoundWinner}
    (h : scoreWinner score=some winner) : Balanced r score := by
  obtain ⟨hmy,hopp,hplayed,hrounds⟩ := hc
  unfold scoreWinner at h
  by_cases hwon : roundsToWin≤ score.1
  · have hother : score.2.1< roundsToWin := by
      unfold roundsToWin at hwon ⊢
      omega
    have hvalue : scoreValue r score=1 := scoreValue_won hwon
    have hmirror : scoreValue r (mirrorScore score)=0 := scoreValue_lost hother hwon
    refine ⟨?_,?_,fun _ => ?_,fun hbehind => absurd (hwon.trans hbehind) (not_le.mpr hother)⟩
    · rw [hvalue]
      exact ⟨zero_le_one,le_refl 1⟩
    · rw [hvalue,hmirror,add_zero]
    · rw [hvalue]
      norm_num
  · have hmine : score.1< roundsToWin := not_le.mp hwon
    by_cases hlost : roundsToWin≤ score.2.1
    · have hvalue : scoreValue r score=0 := scoreValue_lost hmine hlost
      have hmirror : scoreValue r (mirrorScore score)=1 := scoreValue_won hlost
      refine ⟨?_,?_,fun hahead => absurd (hlost.trans hahead) hwon,fun _ => ?_⟩
      · rw [hvalue]
        exact ⟨le_refl 0,zero_le_one⟩
      · rw [hvalue,hmirror,zero_add]
      · rw [hvalue]
        norm_num
    · have hother : score.2.1< roundsToWin := not_le.mp hlost
      have hover : 3≤ score.2.2 := by
        by_contra hleft
        rw [if_neg hlost,if_neg hwon,if_neg hleft] at h
        cases h
      have hvalue : scoreValue r score=1/2 := scoreValue_drawn hmine hother hover
      have hmirror : scoreValue r (mirrorScore score)=1/2 := scoreValue_drawn hother hmine hover
      refine ⟨?_,?_,fun _ => hvalue.ge,fun _ => hvalue.le⟩
      · rw [hvalue]
        constructor <;> norm_num
      · rw [hvalue,hmirror,add_halves]

omit [IsStrictOrderedRing K] in
/-- A win is worth at least a draw. -/
theorem draw_le_win (hc : Counted score) (hgoes : scoreWinner score=none)
    (h : ∀ winner,Balanced r (afterRound score winner)) :
    scoreValue r (afterRound score .draw)≤ scoreValue r (afterRound score .p2) := by
  obtain ⟨hmy,hopp⟩ := wins_lt hgoes
  have hzero := hc.my
  have hzero' := hc.opp
  unfold roundsToWin at hmy hopp
  by_cases hlead : 1≤ score.1
  · have hwon : roundsToWin≤(afterRound score .p2).1 := by
      simp only [afterRound,roundsToWin,if_true]
      omega
    rw [scoreValue_won hwon]
    exact (h .draw).bounds.2
  · -- I am not ahead after a draw, and not behind after a win
    have hdraw : scoreValue r (afterRound score .draw)≤1/2 := by
      apply (h .draw).behind
      simp only [afterRound,reduceCtorEq,if_false,add_zero]
      omega
    have hwin : 1/2≤ scoreValue r (afterRound score .p2) := by
      apply (h .p2).ahead
      simp only [afterRound,reduceCtorEq,if_true,if_false,add_zero]
      omega
    exact hdraw.trans hwin

omit [IsStrictOrderedRing K] in
/-- A draw is worth at least a loss. -/
theorem loss_le_draw (hc : Counted score) (hgoes : scoreWinner score=none)
    (h : ∀ winner,Balanced r (afterRound score winner)) :
    scoreValue r (afterRound score .p1)≤ scoreValue r (afterRound score .draw) := by
  obtain ⟨hmy,hopp⟩ := wins_lt hgoes
  have hzero := hc.my
  have hzero' := hc.opp
  unfold roundsToWin at hmy hopp
  by_cases hlead : 1≤ score.2.1
  · have hmine : (afterRound score .p1).1< roundsToWin := by
      simp only [afterRound,reduceCtorEq,roundsToWin,if_false,add_zero]
      omega
    have hlost : roundsToWin≤(afterRound score .p1).2.1 := by
      simp only [afterRound,roundsToWin,if_true]
      omega
    rw [scoreValue_lost hmine hlost]
    exact (h .draw).bounds.1
  · have hloss : scoreValue r (afterRound score .p1)≤1/2 := by
      apply (h .p1).behind
      simp only [afterRound,reduceCtorEq,if_true,if_false,add_zero]
      omega
    have hdraw : 1/2≤ scoreValue r (afterRound score .draw) := by
      apply (h .draw).ahead
      simp only [afterRound,reduceCtorEq,if_false,add_zero]
      omega
    exact hloss.trans hdraw

omit [IsStrictOrderedRing K] in
/-- What is solved for the mirror image is solved from the mirrored values. -/
theorem solvedScore_mirror (h : ∀ winner,Balanced r (afterRound score winner)) :
    solvedScore r (mirrorScore score)=
      solveScore r (1-scoreValue r (afterRound score .p1)) (1-scoreValue r (afterRound score .p2))
        (1-scoreValue r (afterRound score .draw)) := by
  have hmirror : ∀ winner,scoreValue r (afterRound (mirrorScore score) (mirrorWinner winner))=
      1-scoreValue r (afterRound score winner) := by
    intro winner
    rw [afterRound_mirror,eq_sub_iff_add_eq',show mirrorWinner (mirrorWinner winner)=winner by
      cases winner <;> rfl]
    exact (h winner).mirror
  rw [← hmirror .p1,← hmirror .p2,← hmirror .draw]
  rfl

/-- What the recursion finds for a score, given what is known one round later. -/
structure Fair (r : K → K) (score : Score) : Prop where
  /-- The weight of a draw. -/
  weight : 0≤(solvedScore r score).1 ∧ (solvedScore r score).1≤1
  /-- The weights of a score and of its mirror image. -/
  weights : (solvedScore r score).1+(solvedScore r (mirrorScore score)).1=1
  /-- The values of both. -/
  values : (solvedScore r score).2+(solvedScore r (mirrorScore score)).2=1
  /-- The value lies between those of a loss and of a win. -/
  between : scoreValue r (afterRound score .p1)≤(solvedScore r score).2 ∧
    (solvedScore r score).2≤ scoreValue r (afterRound score .p2)

/-- The step lemma of the recursion. -/
theorem fair_of_balanced (hr : RoundOracle r) (hc : Counted score) (hgoes : scoreWinner score=none)
    (h : ∀ winner,Balanced r (afterRound score winner)) : Fair r score := by
  have hld := loss_le_draw hc hgoes h
  have hdw := draw_le_win hc hgoes h
  obtain ⟨hweight,hbetween⟩ := solveScore_bounds hr hld hdw
  obtain ⟨hweights,hvalues⟩ := solveScore_mirror hr hld hdw
  refine ⟨hweight,?_,?_,hbetween⟩
  · rw [solvedScore_mirror h]
    exact hweights
  · rw [solvedScore_mirror h]
    exact hvalues

/-- Every counted score is balanced; by induction on the rounds left. -/
theorem balanced (hr : RoundOracle r) (hc : Counted score) : Balanced r score := by
  induction hn : (3-score.2.2).toNat using Nat.strong_induction_on generalizing score with
  | _ n ih =>
    cases hw : scoreWinner score with
    | some winner => exact balanced_ends hc hw
    | none =>
      have hlt := played_lt hw
      have hnext : ∀ winner,Balanced r (afterRound score winner) := by
        intro winner
        refine ih _ ?_ (hc.next hw winner) rfl
        simp only [afterRound]
        omega
      obtain ⟨-,-,hvalues,hloss,hwin⟩ := fair_of_balanced hr hc hw hnext
      have hvalue : scoreValue r score=(solvedScore r score).2 :=
        scoreValue_goes (terminalMatchValue_none hw)
      have hother : scoreValue r (mirrorScore score)=(solvedScore r (mirrorScore score)).2 :=
        scoreValue_goes (terminalMatchValue_none (goes_mirror hw))
      have hsum : scoreValue r score+scoreValue r (mirrorScore score)=1 := by
        rw [hvalue,hother]
        exact hvalues
      have heven : score.1=score.2.1 → scoreValue r score=1/2 := by
        intro hsame
        have hself : mirrorScore score=score := by
          obtain ⟨my,opp,played⟩ := score
          cases hsame
          rfl
        rw [hself] at hsum
        linarith
      refine ⟨⟨?_,?_⟩,hsum,fun hahead => ?_,fun hbehind => ?_⟩
      · rw [hvalue]
        exact (hnext .p1).bounds.1.trans hloss
      · rw [hvalue]
        exact hwin.trans (hnext .p2).bounds.2
      · by_cases hsame : score.1=score.2.1
        · exact (heven hsame).ge
        · rw [hvalue]
          refine ((hnext .p1).ahead ?_).trans hloss
          simp only [afterRound,reduceCtorEq,if_true,if_false,add_zero]
          omega
      · by_cases hsame : score.1=score.2.1
        · exact (heven hsame).le
        · rw [hvalue]
          refine hwin.trans ((hnext .p2).behind ?_)
          simp only [afterRound,reduceCtorEq,if_true,if_false,add_zero]
          omega

/-- What the end of the match or the dictionaries make of a score. -/
def worthOf (maps : MatchMaps K) (score : Score) : Option K :=
  match (terminalMatchValue score.1 score.2.1 score.2.2 : Option K) with
  | some value => some value
  | none => maps.values (scoreKey score)

omit [IsStrictOrderedRing K] in
/-- They make of it what the recursion does. -/
theorem worthOf_counted (hc : Counted score) :
    worthOf (matchInduction r) score=some (scoreValue r score) := by
  unfold worthOf
  cases hw : scoreWinner score with
  | some winner =>
    obtain ⟨value,hvalue⟩ := terminalMatchValue_some (K := K) hw
    rw [hvalue,scoreValue_ends hvalue]
  | none =>
    have hgoes := terminalMatchValue_none (K := K) hw
    rw [hgoes,scoreValue_goes hgoes]
    exact (matchInduction_solved (hc.mem hw)).2

/-- What the dictionaries hold for a score before a round and for its mirror image, and what
the round is about. -/
structure MirrorLaw (maps : MatchMaps K) (score : Score) (lam value lam' value' : K)
    (win draw loss : K) : Prop where
  /-- The score. -/
  entered : maps.lambdas (scoreKey score)=some lam ∧ maps.values (scoreKey score)=some value
  /-- Its mirror image. -/
  mirrored : maps.lambdas (scoreKey (mirrorScore score))=some lam' ∧
    maps.values (scoreKey (mirrorScore score))=some value'
  /-- What winning, drawing and losing the round is worth. -/
  next : worthOf maps (afterRound score .p2)=some win ∧
    worthOf maps (afterRound score .draw)=some draw ∧
    worthOf maps (afterRound score .p1)=some loss
  /-- The weight of a draw. -/
  weight : 0≤lam ∧ lam≤1
  /-- The value. -/
  range : 0≤value ∧ value≤1
  /-- The weights add up to one. -/
  weights : lam+lam'=1
  /-- So do the values. -/
  values : value+value'=1
  /-- A round that decides nothing has even weights. -/
  degenerate : win=loss → lam=1/2 ∧ lam'=1/2
  /-- The value of losing is at most that of drawing, and that at most the one of winning. -/
  order : loss≤draw ∧ draw≤win

/-- With any oracle of round values, _match_induction weighs and values every score and its
mirror image so that they add up to one, and the match is even at its opening. -/
theorem matchInduction_mirror (r : K → K) (hr : RoundOracle r) :
    (∀ score∈reachableMatchStates,∃ lam value lam' value' win draw loss,
      MirrorLaw (matchInduction r) score lam value lam' value' win draw loss) ∧
    (matchInduction r).values "0-0-0"=some (1/2) := by
  have hlaw : ∀ score∈reachableMatchStates,MirrorLaw (matchInduction r) score
      (solvedScore r score).1 (solvedScore r score).2 (solvedScore r (mirrorScore score)).1
      (solvedScore r (mirrorScore score)).2 (scoreValue r (afterRound score .p2))
      (scoreValue r (afterRound score .draw)) (scoreValue r (afterRound score .p1)) := by
    intro score hmem
    obtain ⟨hc,hgoes⟩ := counted_of_mem hmem
    have hbalanced : ∀ winner,Balanced r (afterRound score winner) :=
      fun winner => balanced hr (hc.next hgoes winner)
    have hfair := fair_of_balanced hr hc hgoes hbalanced
    have hvalue := scoreValue_goes (r := r) (terminalMatchValue_none hgoes)
    refine ⟨matchInduction_solved hmem,matchInduction_solved (mirror_mem hmem),?_,hfair.weight,?_,
      hfair.weights,hfair.values,fun hsame => ?_,loss_le_draw hc hgoes hbalanced,
      draw_le_win hc hgoes hbalanced⟩
    · exact ⟨worthOf_counted (hc.next hgoes .p2),worthOf_counted (hc.next hgoes .draw),
        worthOf_counted (hc.next hgoes .p1)⟩
    · rw [← hvalue]
      exact (balanced hr hc).bounds
    · have heven : (solvedScore r score).1=1/2 := by
        rw [solvedScore,solveScore,if_pos hsame]
      have hsum := hfair.weights
      rw [heven] at hsum
      exact ⟨heven,by linarith⟩
  refine ⟨fun score hmem => ⟨_,_,_,_,_,_,_,hlaw score hmem⟩,?_⟩
  have hopening := hlaw (0,0,0) (by decide)
  have hself : mirrorScore (0,0,0)=(0,0,0) := rfl
  have hsum := hopening.values
  rw [hself] at hsum
  have hhalf : (solvedScore r (0,0,0)).2=1/2 := by linarith
  rw [← hhalf]
  exact hopening.entered.2

end Fields

/-- An oracle for which a round is worth what a draw counts. -/
theorem identity_oracle : RoundOracle (fun lam : ℚ => lam) where
  bounds _ hzero hone := ⟨hzero,hone⟩
  mirror lam _ _ := by ring

/-- With it a match is even at its opening, and after a lead of one round. -/
theorem identity_induction :
    (matchInduction fun lam : ℚ => lam).values "0-0-0"=some (1/2) ∧
      ∃ lam value lam' value' win draw loss : ℚ,
        MirrorLaw (matchInduction fun lam => lam) (1,0,2) lam value lam' value' win draw loss := by
  obtain ⟨hlaw,hopening⟩ := matchInduction_mirror (fun lam : ℚ => lam) identity_oracle
  exact ⟨hopening,hlaw (1,0,2) (by decide)⟩

/-- The opening values of an exact solver's tables are such an oracle. -/
theorem tables_oracle {solve : StageSolver} (hexact : ExactSolver solve) :
    RoundOracle fun lam => roundStartValue (solveRoundTable solve lam) where
  bounds lam hzero hone := worth_bounds ⟨hzero,hone⟩ (roundStartValue_worth hexact lam)
  mirror lam _ _ := by
    have hopening : ∀ table : RoundTable,table.valueFn 0 0 1=roundStartValue table :=
      valueFn_freshRound
    have hmirror := valueFn_mirror hexact lam rfl (show (1 : ℤ)≤1 ∧ 1≤turnLimit by decide)
      (show KiBounds 0 from freshRound_open.p2Ki) (show KiBounds 0 from freshRound_open.p1Ki)
    rw [hopening,hopening] at hmirror
    rw [hmirror]
    ring

end KiClash.MatchSymmetry
