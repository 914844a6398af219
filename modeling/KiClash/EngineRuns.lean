import KiClash.Engine
import Mathlib.Tactic.Linarith

/-!
# Runs of the match engine

One inversion lemma says what an accepted submit_turn call can do: the round
goes on, the round closes and the next one opens, or the match closes. The
invariant of a match links the counters, the nested histories and the status,
and is re-established across the three cases; a run is any sequence of
accepted and rejected calls from a fresh match.
-/

namespace KiClash.EngineRuns

open EngineTypes OutcomeMatrix Engine

/-- The turn that the two actions produce in an open round. -/
abbrev nextTurn (round : RoundState) (p1Action p2Action : Action) : TurnResult :=
  resolveTurn (round.turnNumber+1) p1Action p2Action round.p1Ki round.p2Ki

/-- The open round after that turn. -/
abbrev nextRound (round : RoundState) (p1Action p2Action : Action) : RoundState :=
  advanceRound round (nextTurn round p1Action p2Action)

/-- The state with a finished round scored, recorded and closed. -/
abbrev closedState (state : GameState) (roundResult : RoundResult) : GameState :=
  {scoreRound state roundResult.winner with
    roundResults := state.roundResults++[roundResult],currentRound := none}

/-- Both actions can be paid for in the open round. -/
def Affordable (round : RoundState) (p1Action p2Action : Action) : Prop :=
  actionKiCost p1Action≤round.p1Ki ∧ actionKiCost p2Action≤round.p2Ki

instance (round : RoundState) (p1Action p2Action : Action) :
    Decidable (Affordable round p1Action p2Action) :=
  inferInstanceAs (Decidable (_ ∧ _))

@[simp] theorem scoreRound_roundResults (state : GameState) (winner : RoundWinner) :
    (scoreRound state winner).roundResults=state.roundResults := by
  cases winner <;> rfl

@[simp] theorem scoreRound_status (state : GameState) (winner : RoundWinner) :
    (scoreRound state winner).status=state.status := by
  cases winner <;> rfl

@[simp] theorem scoreRound_gameId (state : GameState) (winner : RoundWinner) :
    (scoreRound state winner).gameId=state.gameId := by
  cases winner <;> rfl

@[simp] theorem scoreRound_matchType (state : GameState) (winner : RoundWinner) :
    (scoreRound state winner).matchType=state.matchType := by
  cases winner <;> rfl

/-- Player 1's score after a round. -/
theorem scoreRound_roundsWonP1 (state : GameState) (winner : RoundWinner) :
    (scoreRound state winner).roundsWonP1=
      state.roundsWonP1+if winner=.p1 then 1 else 0 := by
  cases winner <;> simp [scoreRound]

/-- Player 2's score after a round. -/
theorem scoreRound_roundsWonP2 (state : GameState) (winner : RoundWinner) :
    (scoreRound state winner).roundsWonP2=
      state.roundsWonP2+if winner=.p2 then 1 else 0 := by
  cases winner <;> simp [scoreRound]

/-- Closing a round reads and writes only the score, the results and the round. -/
theorem closeRound_open (state : GameState) (round : Option RoundState)
    (turnResult : TurnResult) (roundResult : RoundResult) :
    closeRound {state with currentRound := round} turnResult roundResult=
      closeRound state turnResult roundResult := by
  unfold closeRound
  cases roundResult.winner <;> rfl

/-- A new round opens whenever fewer than three are finished. -/
theorem startNewRound_ok {state : GameState} (h : state.roundResults.length<3) :
    startNewRound state=
      ({state with currentRound := some ⟨state.roundResults.length+1,0,0,0,[]⟩},.ok ()) := by
  have hv : (⟨state.roundResults.length+1,0,0,0,[]⟩ : RoundState).Valid := by
    simp only [RoundState.Valid,kiCap]
    omega
  simp only [startNewRound,RoundState.create,if_pos hv]

/-- Everything an accepted call can do. -/
inductive Accepted (state : GameState) (p1Action p2Action : Action) :
    GameState → TurnReport → Prop
  | roundGoesOn (round : RoundState) (h : state.currentRound=some round)
      (hw : checkRoundEnd (nextTurn round p1Action p2Action)
        (nextRound round p1Action p2Action)=none) :
      Accepted state p1Action p2Action
        {state with currentRound := some (nextRound round p1Action p2Action)}
        ⟨nextTurn round p1Action p2Action,none,none⟩
  | roundCloses (round : RoundState) (h : state.currentRound=some round)
      (roundResult : RoundResult)
      (hw : checkRoundEnd (nextTurn round p1Action p2Action)
        (nextRound round p1Action p2Action)=some roundResult)
      (hm : checkMatchEnd (closedState state roundResult)=none) :
      Accepted state p1Action p2Action
        {closedState state roundResult with
          currentRound := some ⟨state.roundResults.length+2,0,0,0,[]⟩}
        ⟨nextTurn round p1Action p2Action,some roundResult,none⟩
  | matchCloses (round : RoundState) (h : state.currentRound=some round)
      (roundResult : RoundResult)
      (hw : checkRoundEnd (nextTurn round p1Action p2Action)
        (nextRound round p1Action p2Action)=some roundResult)
      (matchResult : MatchResult)
      (hm : checkMatchEnd (closedState state roundResult)=some matchResult) :
      Accepted state p1Action p2Action
        {closedState state roundResult with status := .completed}
        ⟨nextTurn round p1Action p2Action,some roundResult,some matchResult⟩

/-- A match goes on only below three finished rounds. -/
theorem length_lt_of_checkMatchEnd {state : GameState} (h : checkMatchEnd state=none) :
    state.roundResults.length<3 := by
  unfold checkMatchEnd at h
  split_ifs at h with h1 h2 h3
  omega

/-- With the checks passed and fewer than three finished rounds, applying the
turn succeeds in one of the three ways. -/
theorem applyTurn_accepted {state : GameState} {round : RoundState}
    (h : state.currentRound=some round) (p1Action p2Action : Action) :
    ∃ state' report, applyTurn state round p1Action p2Action=(state',.ok report) ∧
      Accepted state p1Action p2Action state' report := by
  unfold applyTurn
  dsimp only
  cases hw : checkRoundEnd (nextTurn round p1Action p2Action)
      (nextRound round p1Action p2Action) with
  | none => exact ⟨_,_,rfl,.roundGoesOn round h hw⟩
  | some roundResult =>
    dsimp only
    rw [closeRound_open]
    unfold closeRound
    dsimp only
    rw [scoreRound_roundResults]
    cases hm : checkMatchEnd (closedState state roundResult) with
    | some matchResult => exact ⟨_,_,rfl,.matchCloses round h roundResult hw matchResult hm⟩
    | none =>
      have hl := length_lt_of_checkMatchEnd hm
      have hn : ((state.roundResults++[roundResult]).length : ℤ)+1=
          state.roundResults.length+2 := by
        simp only [List.length_append,List.length_singleton]
        omega
      dsimp only
      rw [startNewRound_ok hl]
      dsimp only
      rw [hn]
      exact ⟨_,_,rfl,.roundCloses round h roundResult hw hm⟩

/-- submit_turn rejects a call exactly when a check fails, and then returns
the state it was given; otherwise it applies the turn. -/
theorem submitTurn_cases (state : GameState) (p1Action p2Action : Action) :
    (∃ e, submitTurn state p1Action p2Action=(state,.error e) ∧
      (state.status=.inProgress → ∀ round, state.currentRound=some round →
        ¬Affordable round p1Action p2Action)) ∨
    (state.status=.inProgress ∧ ∃ round state' report,
      state.currentRound=some round ∧ Affordable round p1Action p2Action ∧
      submitTurn state p1Action p2Action=(state',.ok report) ∧
      Accepted state p1Action p2Action state' report) := by
  unfold submitTurn
  by_cases hs : state.status=.inProgress
  · rw [if_neg (by simpa using hs)]
    cases hr : state.currentRound with
    | none => exact .inl ⟨_,rfl,by simp⟩
    | some round =>
      dsimp only
      by_cases h1 : validateAction p1Action round.p1Ki
      · rw [if_neg (by simpa using h1)]
        by_cases h2 : validateAction p2Action round.p2Ki
        · rw [if_neg (by simpa using h2)]
          obtain ⟨state',report,ha,hacc⟩ := applyTurn_accepted hr p1Action p2Action
          rw [validateAction_iff] at h1 h2
          exact .inr ⟨hs,round,state',report,rfl,⟨h1,h2⟩,ha,hacc⟩
        · rw [if_pos (by simpa using h2)]
          rw [validateAction_iff] at h2
          refine .inl ⟨_,rfl,fun _ r he ha => ?_⟩
          cases he
          exact h2 ha.2
      · rw [if_pos (by simpa using h1)]
        rw [validateAction_iff] at h1
        refine .inl ⟨_,rfl,fun _ r he ha => ?_⟩
        cases he
        exact h1 ha.1
  · rw [if_pos (by simpa using hs)]
    exact .inl ⟨_,rfl,fun h => absurd h hs⟩

/-- A rejected call leaves the state as it was. -/
theorem submitTurn_error_state {state : GameState} {p1Action p2Action : Action}
    {e : EngineError} (h : (submitTurn state p1Action p2Action).2=.error e) :
    (submitTurn state p1Action p2Action).1=state := by
  obtain ⟨e',he,-⟩ | ⟨-,_,_,_,-,-,he,-⟩ := submitTurn_cases state p1Action p2Action
  · rw [he]
  · rw [he] at h
    cases h

/-- Records numbered consecutively from n, each starting from the ki values
that the record before it left, the last one leaving the given values. -/
def ChainedFrom (n p1Ki p2Ki : ℤ) : List TurnResult → ℤ → ℤ → Prop
  | [],p1End,p2End => p1Ki=p1End ∧ p2Ki=p2End
  | record::history,p1End,p2End =>
    record.turnNumber=n ∧ record.p1KiBefore=p1Ki ∧ record.p2KiBefore=p2Ki ∧
      ChainedFrom (n+1) record.p1KiAfter record.p2KiAfter history p1End p2End

/-- A chain grows by a record that starts where it ends. -/
theorem ChainedFrom.append {n p1Ki p2Ki p1End p2End : ℤ} {history : List TurnResult}
    (h : ChainedFrom n p1Ki p2Ki history p1End p2End) {record : TurnResult}
    (hn : record.turnNumber=n+history.length) (h1 : record.p1KiBefore=p1End)
    (h2 : record.p2KiBefore=p2End) :
    ChainedFrom n p1Ki p2Ki (history++[record]) record.p1KiAfter record.p2KiAfter := by
  induction history generalizing n p1Ki p2Ki with
  | nil =>
    obtain ⟨rfl,rfl⟩ := h
    exact ⟨by simpa using hn,h1,h2,rfl,rfl⟩
  | cons first history ih =>
    obtain ⟨hf,hf1,hf2,ht⟩ := h
    refine ⟨hf,hf1,hf2,ih ht ?_⟩
    rw [hn]
    simp only [List.length_cons]
    omega

/-- What holds of an open round when so many rounds are finished. -/
structure RoundInvariant (round : RoundState) (finished : ℕ) : Prop where
  /-- Rounds are numbered in the order they are played. -/
  numbered : round.roundNumber=finished+1
  /-- There is no fourth round. -/
  atMostThree : round.roundNumber≤3
  /-- Player 1's ki stays within its field bounds. -/
  p1Ki : 0≤round.p1Ki ∧ round.p1Ki≤kiCap
  /-- Player 2's ki stays within its field bounds. -/
  p2Ki : 0≤round.p2Ki ∧ round.p2Ki≤kiCap
  /-- Every resolved turn is in the history. -/
  recorded : round.turnNumber=round.turnHistory.length
  /-- A round that is still open has turns left. -/
  turnsLeft : round.turnNumber<turnLimit
  /-- The history starts at ki 0 and explains the current ki values. -/
  chained : ChainedFrom 1 0 0 round.turnHistory round.p1Ki round.p2Ki

/-- Number of finished rounds recorded with a winner. -/
def roundsWith (state : GameState) (winner : RoundWinner) : ℕ :=
  state.roundResults.countP fun result => result.winner=winner

/-- Turns of the open round, if there is one. -/
def openTurns (state : GameState) : ℤ :=
  match state.currentRound with
  | some round => round.turnNumber
  | none => 0

/-- The score can still go either way: nobody has two wins and a round is left. -/
def Undecided (state : GameState) : Prop :=
  state.roundsWonP1< roundsToWin ∧ state.roundsWonP2< roundsToWin ∧ state.roundResults.length<3

/-- What holds of a match after so many accepted turns. -/
structure MatchInvariant (state : GameState) (accepted : ℕ) : Prop where
  /-- Player 1's score counts the rounds recorded for player 1. -/
  p1Score : state.roundsWonP1=roundsWith state .p1
  /-- Player 2's score counts the rounds recorded for player 2. -/
  p2Score : state.roundsWonP2=roundsWith state .p2
  /-- Nobody wins a third round. -/
  p1AtMostTwo : state.roundsWonP1≤2
  /-- Nobody wins a third round. -/
  p2AtMostTwo : state.roundsWonP2≤2
  /-- At most one player has two wins. -/
  notBothTwo : ¬(state.roundsWonP1=2 ∧ state.roundsWonP2=2)
  /-- At most three rounds are finished. -/
  rounds : state.roundResults.length≤3
  /-- A match is in progress while it has an open round. -/
  openIff : state.status=.inProgress ↔ state.currentRound.isSome
  /-- The open round is well formed. -/
  openRound : ∀ round, state.currentRound=some round →
    RoundInvariant round state.roundResults.length
  /-- A match in progress is undecided. -/
  undecided : state.status=.inProgress → Undecided state
  /-- Every finished round took between one and twenty turns. -/
  finished : ∀ result∈state.roundResults,1≤result.totalTurns ∧ result.totalTurns≤turnLimit
  /-- Every accepted turn belongs to a finished round or to the open one. -/
  counted : (accepted : ℤ)=finishedTurns state+openTurns state

/-- The result that closes a match, when so many turns were accepted. -/
structure ClosingResult (state : GameState) (accepted : ℕ) (result : MatchResult) : Prop where
  /-- The match is over by normal completion. -/
  completed : state.status=.completed
  /-- The winner has two round wins; without one, three rounds were played. -/
  winner : (result.winner=.p1 ∧ state.roundsWonP1=2) ∨ (result.winner=.p2 ∧ state.roundsWonP2=2) ∨
    (result.winner=.draw ∧ state.roundsWonP1<2 ∧ state.roundsWonP2<2 ∧
      state.roundResults.length=3)
  /-- The reported total is the number of accepted turns. -/
  totalTurns : result.totalTurns=accepted
  /-- The reported score is the final one. -/
  score : result.roundsWonP1=state.roundsWonP1 ∧ result.roundsWonP2=state.roundsWonP2
  /-- The reported rounds are the finished ones. -/
  rounds : result.roundResults=state.roundResults

/-- A fresh match has played nothing. -/
theorem startMatch_invariant (gameId : UUID) (matchType : MatchType) :
    MatchInvariant (startMatch gameId matchType).1 0 := by
  rw [startMatch_eq]
  constructor <;> simp [roundsWith,Undecided,roundsToWin,finishedTurns,openTurns]
  constructor <;> simp [kiCap,turnLimit,ChainedFrom]

/-- A round that goes on has turns left after the turn. -/
theorem turnsLeft_of_checkRoundEnd {turnResult : TurnResult} {round : RoundState}
    (h : checkRoundEnd turnResult round=none) : round.turnNumber<turnLimit := by
  unfold checkRoundEnd roundWinner at h
  rw [Option.map_eq_none_iff] at h
  split_ifs at h
  omega

/-- A finished round is recorded with the turns it took. -/
theorem totalTurns_of_checkRoundEnd {turnResult : TurnResult} {round : RoundState}
    {roundResult : RoundResult} (h : checkRoundEnd turnResult round=some roundResult) :
    roundResult.totalTurns=round.turnNumber := by
  unfold checkRoundEnd at h
  obtain ⟨winner,-,rfl⟩ := Option.map_eq_some_iff.mp h
  rfl

/-- The open round stays well formed over a turn that does not end it. -/
theorem nextRound_invariant {round : RoundState} {finished : ℕ}
    (h : RoundInvariant round finished) {p1Action p2Action : Action}
    (hw : checkRoundEnd (nextTurn round p1Action p2Action)
      (nextRound round p1Action p2Action)=none) :
    RoundInvariant (nextRound round p1Action p2Action) finished where
  numbered := h.numbered
  atMostThree := h.atMostThree
  p1Ki := calculateKiAfter_bounds p1Action p2Action round.p1Ki (resolveActions p1Action p2Action)
  p2Ki := calculateKiAfter_bounds p2Action p1Action round.p2Ki (resolveActions p1Action p2Action)
  recorded := by
    have hr := h.recorded
    simp only [advanceRound,resolveTurn,List.length_append,List.length_singleton]
    omega
  turnsLeft := turnsLeft_of_checkRoundEnd hw
  chained := by
    apply h.chained.append
    · have hr := h.recorded
      simp only [resolveTurn]
      omega
    · rfl
    · rfl

/-- The round that opens after a closed one starts from nothing. -/
theorem freshRound_invariant {finished : ℕ} (h : finished<3) :
    RoundInvariant ⟨finished+1,0,0,0,[]⟩ finished := by
  constructor <;> simp [kiCap,turnLimit,ChainedFrom]
  omega

/-- Closing a round counts it for its winner and for nobody else. -/
theorem closedState_roundsWith (state : GameState) (roundResult : RoundResult)
    (winner : RoundWinner) :
    (roundsWith (closedState state roundResult) winner : ℤ)=
      roundsWith state winner+if roundResult.winner=winner then 1 else 0 := by
  unfold roundsWith
  simp only [List.countP_append,List.countP_singleton,decide_eq_true_eq]
  split <;> simp

/-- Closing a round moves its turns from the open round to the finished ones. -/
theorem closedState_finishedTurns (state : GameState) (roundResult : RoundResult) :
    finishedTurns (closedState state roundResult)=finishedTurns state+roundResult.totalTurns := by
  simp [finishedTurns]

/-- A match that goes on after a closed round is undecided. -/
theorem undecided_of_checkMatchEnd {state : GameState} (h : checkMatchEnd state=none) :
    Undecided state := by
  have hl := length_lt_of_checkMatchEnd h
  unfold checkMatchEnd at h
  split_ifs at h with h1 h2 h3
  exact ⟨by omega,by omega,hl⟩

/-- Closing the round of an undecided match keeps every fact that does not
speak about the open round or the status. -/
theorem closedState_counters {state : GameState} {accepted : ℕ}
    (h : MatchInvariant state accepted) (hu : Undecided state) {round : RoundState}
    (hr : state.currentRound=some round) {p1Action p2Action : Action} {roundResult : RoundResult}
    (hw : checkRoundEnd (nextTurn round p1Action p2Action)
      (nextRound round p1Action p2Action)=some roundResult) :
    let closed := closedState state roundResult
    closed.roundsWonP1=roundsWith closed .p1 ∧ closed.roundsWonP2=roundsWith closed .p2 ∧
      closed.roundsWonP1≤2 ∧ closed.roundsWonP2≤2 ∧
      ¬(closed.roundsWonP1=2 ∧ closed.roundsWonP2=2) ∧ closed.roundResults.length≤3 ∧
      (∀ result∈closed.roundResults,1≤result.totalTurns ∧ result.totalTurns≤turnLimit) ∧
      ((accepted+1 : ℕ) : ℤ)=finishedTurns closed := by
  intro closed
  obtain ⟨h1,h2,h3⟩ := hu
  have hround := h.openRound round hr
  have ht : roundResult.totalTurns=round.turnNumber+1 := totalTurns_of_checkRoundEnd hw
  have hrec := hround.recorded
  have hleft := hround.turnsLeft
  have hcount := h.counted
  simp only [openTurns,hr] at hcount
  have hp1 : closed.roundsWonP1=_ := scoreRound_roundsWonP1 state roundResult.winner
  have hp2 : closed.roundsWonP2=_ := scoreRound_roundsWonP2 state roundResult.winner
  have hl : closed.roundResults.length=state.roundResults.length+1 := by simp [closed]
  unfold roundsToWin at h1 h2
  refine ⟨?_,?_,?_,?_,?_,?_,?_,?_⟩
  · rw [closedState_roundsWith,hp1,h.p1Score]
  · rw [closedState_roundsWith,hp2,h.p2Score]
  · rw [hp1]
    split <;> omega
  · rw [hp2]
    split <;> omega
  · rw [hp1,hp2]
    cases roundResult.winner <;> simp <;> omega
  · omega
  · intro result hm
    rcases List.mem_append.mp hm with hm | hm
    · exact h.finished result hm
    · rw [List.mem_singleton.mp hm,ht]
      omega
  · rw [closedState_finishedTurns,ht]
    omega

/-- The step lemma: an accepted call keeps the invariant and counts once. -/
theorem Accepted.invariant {state state' : GameState} {p1Action p2Action : Action}
    {report : TurnReport} {accepted : ℕ} (h : MatchInvariant state accepted)
    (hs : state.status=.inProgress) (ha : Accepted state p1Action p2Action state' report) :
    MatchInvariant state' (accepted+1) := by
  have hu := h.undecided hs
  cases ha with
  | roundGoesOn round hr hw =>
    have hround := nextRound_invariant (h.openRound round hr) hw
    have hcount := h.counted
    simp only [openTurns,hr] at hcount
    refine ⟨h.p1Score,h.p2Score,h.p1AtMostTwo,h.p2AtMostTwo,h.notBothTwo,h.rounds,?_,?_,?_,
      h.finished,?_⟩
    · simpa using hs
    · rintro _ ⟨⟩
      exact hround
    · exact fun _ => hu
    · simp only [finishedTurns,openTurns,advanceRound,resolveTurn] at hcount ⊢
      omega
  | roundCloses round hr roundResult hw hm =>
    obtain ⟨hp1,hp2,h1,h2,h12,hl,hf,hc⟩ := closedState_counters h hu hr hw
    have hu' := undecided_of_checkMatchEnd hm
    have hlen : (closedState state roundResult).roundResults.length=
        state.roundResults.length+1 := by simp
    refine ⟨hp1,hp2,h1,h2,h12,hl,?_,?_,?_,hf,?_⟩
    · simpa using hs
    · rintro _ ⟨⟩
      have hfresh := freshRound_invariant hu'.2.2
      rw [hlen] at hfresh
      simpa [add_assoc] using hfresh
    · exact fun _ => hu'
    · rw [hc]
      simp [finishedTurns,openTurns]
  | matchCloses round hr roundResult hw matchResult hm =>
    obtain ⟨hp1,hp2,h1,h2,h12,hl,hf,hc⟩ := closedState_counters h hu hr hw
    refine ⟨hp1,hp2,h1,h2,h12,hl,?_,?_,?_,hf,?_⟩
    · simp
    · simp
    · simp
    · rw [hc]
      simp [finishedTurns,openTurns]

/-- An accepted call returns a match result exactly when it closes the match. -/
theorem Accepted.closes_iff {state state' : GameState} {p1Action p2Action : Action}
    {report : TurnReport} (hs : state.status=.inProgress)
    (ha : Accepted state p1Action p2Action state' report) :
    report.matchResult.isSome ↔ state'.status≠.inProgress := by
  cases ha <;> simp [hs]

/-- The result of a match that ends says who has two wins, or that nobody has. -/
theorem checkMatchEnd_closing {state : GameState} {result : MatchResult}
    (hm : checkMatchEnd state=some result) (h1 : state.roundsWonP1≤2)
    (h2 : state.roundsWonP2≤2) (hl : state.roundResults.length≤3) :
    ∃ winner, result=matchResultFor state winner ∧
      ((winner=.p1 ∧ state.roundsWonP1=2) ∨ (winner=.p2 ∧ state.roundsWonP2=2) ∨
        (winner=.draw ∧ state.roundsWonP1<2 ∧ state.roundsWonP2<2 ∧
          state.roundResults.length=3)) := by
  unfold checkMatchEnd roundsToWin at hm
  split_ifs at hm with hw1 hw2 hw3
  · exact ⟨.p1,(Option.some.inj hm).symm,.inl ⟨rfl,by omega⟩⟩
  · exact ⟨.p2,(Option.some.inj hm).symm,.inr (.inl ⟨rfl,by omega⟩)⟩
  · exact ⟨.draw,(Option.some.inj hm).symm,.inr (.inr ⟨rfl,by omega,by omega,by omega⟩)⟩

/-- A match result names the rightful winner and the number of accepted turns. -/
theorem Accepted.closing {state state' : GameState} {p1Action p2Action : Action}
    {report : TurnReport} {accepted : ℕ} (h : MatchInvariant state accepted)
    (hs : state.status=.inProgress) (ha : Accepted state p1Action p2Action state' report)
    {result : MatchResult} (hr : report.matchResult=some result) :
    ClosingResult state' (accepted+1) result := by
  have hu := h.undecided hs
  cases ha with
  | roundGoesOn => cases hr
  | roundCloses => cases hr
  | matchCloses round hround roundResult hw matchResult hm =>
    cases hr
    obtain ⟨-,-,h1,h2,-,hl,-,hc⟩ := closedState_counters h hu hround hw
    obtain ⟨winner,rfl,hwin⟩ := checkMatchEnd_closing hm h1 h2 hl
    exact ⟨rfl,hwin,hc.symm,⟨rfl,rfl⟩,rfl⟩

/-- At most twenty turns for each finished round. -/
theorem finishedTurns_le {results : List RoundResult}
    (h : ∀ result∈results,1≤result.totalTurns ∧ result.totalTurns≤turnLimit) :
    (results.map RoundResult.totalTurns).sum≤20*results.length := by
  induction results with
  | nil => simp
  | cons result results ih =>
    have hr := (h result (by simp)).2
    have ht := ih fun r hm => h r (by simp [hm])
    unfold turnLimit at hr
    simp only [List.map_cons,List.sum_cons,List.length_cons]
    push_cast
    omega

/-- A match takes at most sixty turns, and fewer while it is in progress. -/
theorem MatchInvariant.accepted_le {state : GameState} {accepted : ℕ}
    (h : MatchInvariant state accepted) :
    accepted≤60 ∧ (state.status=.inProgress → accepted<60) := by
  have hf := finishedTurns_le h.finished
  have hl := h.rounds
  have hc := h.counted
  unfold finishedTurns at hc
  cases hr : state.currentRound with
  | none =>
    have hs : ¬state.status=.inProgress := by simp [h.openIff,hr]
    simp only [openTurns,hr] at hc
    exact ⟨by omega,fun hp => absurd hp hs⟩
  | some round =>
    have hs : state.status=.inProgress := by simp [h.openIff,hr]
    have hu := (h.undecided hs).2.2
    have ho := (h.openRound round hr).turnsLeft
    simp only [openTurns,hr] at hc
    unfold turnLimit at ho
    exact ⟨by omega,fun _ => by omega⟩

/-- A sequence of submit_turn calls; a rejected call returns the state as it is. -/
def play (state : GameState) : List (Action×Action) → GameState
  | [] => state
  | (p1Action,p2Action)::calls => play (submitTurn state p1Action p2Action).1 calls

/-- Number of accepted calls of the sequence. -/
def acceptedCalls (state : GameState) : List (Action×Action) → ℕ
  | [] => 0
  | (p1Action,p2Action)::calls =>
    acceptedCalls (submitTurn state p1Action p2Action).1 calls+
      match (submitTurn state p1Action p2Action).2 with
      | .ok _ => 1
      | .error _ => 0

/-- The run lemma: the invariant holds after any sequence of calls. -/
theorem play_invariant {state : GameState} {accepted : ℕ} (h : MatchInvariant state accepted)
    (calls : List (Action×Action)) :
    MatchInvariant (play state calls) (accepted+acceptedCalls state calls) := by
  induction calls generalizing state accepted with
  | nil => exact h
  | cons call calls ih =>
    obtain ⟨p1Action,p2Action⟩ := call
    simp only [play,acceptedCalls]
    obtain ⟨e,he,-⟩ | ⟨hs,round,state',report,hr,-,he,hacc⟩ :=
      submitTurn_cases state p1Action p2Action
    · rw [he]
      exact ih h
    · rw [he]
      have hn := ih (hacc.invariant h hs)
      rwa [Nat.add_assoc,Nat.add_comm 1] at hn

/-- When the invariant holds, a call is rejected exactly when the match is not
in progress or one of the two actions cannot be paid for. -/
theorem MatchInvariant.rejected_iff {state : GameState} {accepted : ℕ}
    (h : MatchInvariant state accepted) (p1Action p2Action : Action) :
    (∃ e, (submitTurn state p1Action p2Action).2=.error e) ↔
      state.status≠.inProgress ∨ ∃ round, state.currentRound=some round ∧
        ¬Affordable round p1Action p2Action := by
  obtain ⟨e,he,hn⟩ | ⟨hs,round,state',report,hr,ha,he,-⟩ :=
    submitTurn_cases state p1Action p2Action
  · simp only [he,Except.error.injEq,exists_eq',true_iff]
    by_cases hs : state.status=.inProgress
    · obtain ⟨round,hr⟩ := Option.isSome_iff_exists.mp (h.openIff.mp hs)
      exact .inr ⟨round,hr,hn hs round hr⟩
    · exact .inl hs
  · simp only [he,reduceCtorEq,exists_false,false_iff]
    rintro (hp | ⟨r,hr',hp⟩)
    · exact hp hs
    · rw [hr] at hr'
      cases hr'
      exact hp ha

/-- Every state that any sequence of calls reaches from a fresh match is well
formed, and the next call behaves: it is rejected only for the status or the
costs, and it closes the match only with the rightful result. -/
theorem startMatch_runs (gameId : UUID) (matchType : MatchType)
    (calls : List (Action×Action)) :
    ∃ fresh, startMatch gameId matchType=(fresh,.ok ()) ∧
      let state := play fresh calls
      let accepted := acceptedCalls fresh calls
      MatchInvariant state accepted ∧ accepted≤60 ∧
      (state.status=.inProgress → accepted<60) ∧
      ∀ p1Action p2Action,
        ((∃ e, (submitTurn state p1Action p2Action).2=.error e) ↔
          state.status≠.inProgress ∨ ∃ round, state.currentRound=some round ∧
            ¬Affordable round p1Action p2Action) ∧
        ∀ report, (submitTurn state p1Action p2Action).2=.ok report →
          (report.matchResult.isSome ↔
            (submitTurn state p1Action p2Action).1.status≠.inProgress) ∧
          ∀ result, report.matchResult=some result →
            ClosingResult (submitTurn state p1Action p2Action).1 (accepted+1) result := by
  refine ⟨_,startMatch_eq gameId matchType,?_⟩
  intro state accepted
  have h := play_invariant (startMatch_invariant gameId matchType) calls
  rw [startMatch_eq,Nat.zero_add] at h
  obtain ⟨hle,hlt⟩ := h.accepted_le
  refine ⟨h,hle,hlt,fun p1Action p2Action => ⟨h.rejected_iff p1Action p2Action,?_⟩⟩
  intro report hrep
  obtain ⟨e,he,-⟩ | ⟨hs,round,state',report',hr,-,he,hacc⟩ :=
    submitTurn_cases state p1Action p2Action
  · rw [he] at hrep
    cases hrep
  · rw [he] at hrep ⊢
    cases hrep
    exact ⟨hacc.closes_iff hs,fun result hresult => hacc.closing h hs hresult⟩

end KiClash.EngineRuns
