import KiClash.GoSessionSafety
import KiClash.Histories

/-!
# Pending actions and pairs in the Go session

What a submission does to a session, as one inversion lemma about the mutator
of submitAction, and what submitTurn does to a match. As in the Python session
a complete pair is cleared in one transaction and applied in a later one of the
same goroutine.
-/

namespace KiClash.GoPendingPairs

open GoTypes GoEngine Histories WatchedKey RecordContracts GoStore GoSession GoSessionContracts

/-- Two actions for a certain turn of a certain round. -/
structure TurnPair where
  /-- The round. -/
  roundNumber : ℤ
  /-- The turn of the round, counted from one. -/
  turnNumber : ℤ
  /-- Player 1's action. -/
  p1 : Action
  /-- Player 2's action. -/
  p2 : Action
  deriving DecidableEq, Repr

/-- The pair for the turn that is current in the open round. -/
def TurnPair.now (cr : RoundState) (p1 p2 : Action) : TurnPair :=
  ⟨cr.roundNumber,cr.turnNumber+1,p1,p2⟩

/-- The open round of a match in progress. -/
def openRound (sess : PvPSession) : Option RoundState :=
  if sess.gameState.status=matchInProgress then sess.gameState.currentRound else none

/-- The player's ki, as submitAction picks it. -/
def kiOf (playerId : String) (sess : PvPSession) (cr : RoundState) : ℤ :=
  if playerId=sess.player2Id then cr.p2Ki else cr.p1Ki

/-- The open round of a session that accepts the player's action. -/
def acceptingRound (playerId : String) (action : Action) (sess : PvPSession) :
    Option RoundState :=
  (openRound sess).filter fun cr =>
    validateAction action (kiOf playerId sess cr) && sess.isPlayer playerId

/-- The player's action becomes pending. -/
def storeInSlot (playerId : String) (action : Action) (sess : PvPSession) : PvPSession :=
  if playerId=sess.player1Id then {sess with p1Action := some action}
  else {sess with p2Action := some action}

/-- The player's pending action. -/
def slotOf (playerId : String) (sess : PvPSession) : Option Action :=
  if playerId=sess.player1Id then sess.p1Action else sess.p2Action

/-- The pair that the player's action completes. -/
def completedPair (playerId : String) (action : Action) (sess : PvPSession) : Option TurnPair :=
  match acceptingRound playerId action sess,(storeInSlot playerId action sess).p1Action,
    (storeInSlot playerId action sess).p2Action with
  | some cr,some p1,some p2 => some (.now cr p1 p2)
  | _,_,_ => none

/-- The two pending actions taken out. -/
def cleared (sess : PvPSession) : PvPSession :=
  {sess with
    p1Action := none
    p2Action := none}

/-- Everything that the mutator of submitAction can do with captured variables
as they are. -/
inductive Stores (playerId : String) (action : Action) (stale : SubmitCaptured)
    (sess : PvPSession) : SubmitCaptured → PvPSession → Prop
  | rejected (message : String) (hmessage : message≠"")
      (h : acceptingRound playerId action sess=none) :
      Stores playerId action stale sess {stale with validationErr := message} sess
  | stored (cr : RoundState) (h : acceptingRound playerId action sess=some cr)
      (hpair : completedPair playerId action sess=none) :
      Stores playerId action stale sess {stale with confirmedTurn := cr.turnNumber+1}
        (storeInSlot playerId action sess)
  | completed (cr : RoundState) (p1 p2 : Action)
      (h : acceptingRound playerId action sess=some cr)
      (h₁ : (storeInSlot playerId action sess).p1Action=some p1)
      (h₂ : (storeInSlot playerId action sess).p2Action=some p2)
      (hpair : completedPair playerId action sess=some (.now cr p1 p2)) :
      Stores playerId action stale sess ⟨stale.validationErr,true,p1,p2,cr.turnNumber+1⟩
        (cleared (storeInSlot playerId action sess))

/-- An accepting round is the open one, and the action can be paid for. -/
theorem acceptingRound_eq_some {playerId : String} {action : Action} {sess : PvPSession}
    {cr : RoundState} : acceptingRound playerId action sess=some cr ↔ openRound sess=some cr ∧
      validateAction action (kiOf playerId sess cr)=true ∧ sess.isPlayer playerId=true := by
  rw [acceptingRound,Option.filter_eq_some_iff,Bool.and_eq_true]

/-- The open round is that of a match in progress. -/
theorem openRound_eq_some {sess : PvPSession} {cr : RoundState} :
    openRound sess=some cr ↔
      sess.gameState.status=matchInProgress ∧ sess.gameState.currentRound=some cr := by
  unfold openRound
  split <;> simp [*]

/-- The open round depends on the match alone. -/
theorem openRound_congr {sess sess' : PvPSession} (h : sess'.gameState=sess.gameState) :
    openRound sess'=openRound sess := by
  unfold openRound
  rw [h]

/-- The report of an action that costs too much is not empty. -/
theorem cannotAfford_ne (action : Action) (ki : ℤ) : cannotAfford action ki≠"" := by
  unfold cannotAfford
  intro h
  have hlength := congrArg String.length h
  simp only [String.length_append] at hlength
  have hfirst : "Cannot afford ".length=14 := by decide
  have hempty : "".length=0 := by decide
  omega

/-- takePair on a session whose player has an action. -/
theorem takePair_cases {playerId : String} {action : Action} {stale captured : SubmitCaptured}
    {sess sess' : PvPSession} {cr : RoundState}
    (haccept : acceptingRound playerId action sess=some cr)
    (h : takePair {stale with confirmedTurn := cr.turnNumber+1}
      (storeInSlot playerId action sess)=(captured,sess')) :
    Stores playerId action stale sess captured sess' := by
  unfold takePair at h
  cases h₁ : (storeInSlot playerId action sess).p1Action with
  | none =>
    rw [h₁] at h
    cases h
    exact .stored cr haccept (by simp [completedPair,haccept,h₁])
  | some p1 =>
    cases h₂ : (storeInSlot playerId action sess).p2Action with
    | none =>
      rw [h₁,h₂] at h
      cases h
      exact .stored cr haccept (by simp [completedPair,haccept,h₁,h₂])
    | some p2 =>
      rw [h₁,h₂] at h
      cases h
      exact .completed cr p1 p2 haccept h₁ h₂ (by simp [completedPair,haccept,h₁,h₂])

/-- The inversion of the mutator of submitAction. -/
theorem storeAction_cases {playerId : String} {action : Action} {stale captured : SubmitCaptured}
    {sess sess' : PvPSession}
    (h : storeAction playerId action stale sess=.ok (captured,sess')) :
    Stores playerId action stale sess captured sess' := by
  unfold storeAction at h
  by_cases hs : sess.gameState.status=matchInProgress
  · rw [if_neg (by simpa using hs)] at h
    cases hr : sess.gameState.currentRound with
    | none =>
      rw [hr] at h
      cases h
      exact .rejected _ (by decide) (by simp [acceptingRound,openRound,hs,hr])
    | some cr =>
      rw [hr] at h
      dsimp only at h
      have hopen : openRound sess=some cr := by simp [openRound,hs,hr]
      by_cases hv : validateAction action (kiOf playerId sess cr)
      · rw [if_neg (by simpa [kiOf] using hv)] at h
        by_cases h₁ : playerId=sess.player1Id
        · rw [if_pos h₁] at h
          have hmember : sess.isPlayer playerId=true := by simp [PvPSession.isPlayer,h₁]
          apply takePair_cases (acceptingRound_eq_some.mpr ⟨hopen,hv,hmember⟩)
          rw [storeInSlot,if_pos h₁]
          exact Except.ok.inj h
        · rw [if_neg h₁] at h
          by_cases h₂ : playerId=sess.player2Id
          · rw [if_pos h₂] at h
            have hmember : sess.isPlayer playerId=true := by simp [PvPSession.isPlayer,h₂]
            apply takePair_cases (acceptingRound_eq_some.mpr ⟨hopen,hv,hmember⟩)
            rw [storeInSlot,if_neg h₁]
            exact Except.ok.inj h
          · rw [if_neg h₂] at h
            cases h
            exact .rejected _ (by decide)
              (by simp [acceptingRound,hopen,PvPSession.isPlayer,h₁,h₂])
      · rw [if_pos (by simpa [kiOf] using hv)] at h
        cases h
        exact .rejected _ (cannotAfford_ne _ _) (by simp [acceptingRound,hopen,hv])
  · rw [if_pos (by simpa using hs)] at h
    cases h
    exact .rejected _ (by decide) (by simp [acceptingRound,openRound,hs])

section Slots

variable (playerId : String) (action : Action) (sess : PvPSession)

@[simp] theorem storeInSlot_gameState :
    (storeInSlot playerId action sess).gameState=sess.gameState := by
  unfold storeInSlot
  split <;> rfl

@[simp] theorem storeInSlot_player1Id :
    (storeInSlot playerId action sess).player1Id=sess.player1Id := by
  unfold storeInSlot
  split <;> rfl

@[simp] theorem storeInSlot_player2Id :
    (storeInSlot playerId action sess).player2Id=sess.player2Id := by
  unfold storeInSlot
  split <;> rfl

end Slots

/-- What a submission leaves of a session apart from the pending actions. -/
theorem Stores.unchanged {playerId : String} {action : Action} {stale captured : SubmitCaptured}
    {sess sess' : PvPSession} (h : Stores playerId action stale sess captured sess') :
    sess'.gameState=sess.gameState ∧ sess'.player1Id=sess.player1Id ∧
      sess'.player2Id=sess.player2Id := by
  cases h with
  | rejected message hmessage h => exact ⟨rfl,rfl,rfl⟩
  | stored cr h hpair =>
    exact ⟨storeInSlot_gameState playerId action sess,storeInSlot_player1Id playerId action sess,
      storeInSlot_player2Id playerId action sess⟩
  | completed cr p1 p2 h h₁ h₂ hpair =>
    exact ⟨storeInSlot_gameState playerId action sess,storeInSlot_player1Id playerId action sess,
      storeInSlot_player2Id playerId action sess⟩

section Turns

variable {gs gs' : GameState} {p1 p2 : Action} {report : TurnReport}

/-- What submitTurn accepts. -/
theorem submitTurn_cases (gs : GameState) (p1 p2 : Action) :
    (∃ error,submitTurn gs p1 p2=(gs,.error error) ∧
      ∀ cr,gs.status=matchInProgress → gs.currentRound=some cr →
        ¬(validateAction p1 cr.p1Ki=true ∧ validateAction p2 cr.p2Ki=true)) ∨
    ∃ cr,gs.status=matchInProgress ∧ gs.currentRound=some cr ∧
      validateAction p1 cr.p1Ki=true ∧ validateAction p2 cr.p2Ki=true ∧
      submitTurn gs p1 p2=((applyTurn gs cr p1 p2).1,.ok (applyTurn gs cr p1 p2).2) := by
  unfold submitTurn
  by_cases hs : gs.status=matchInProgress
  · rw [if_neg (by simpa using hs)]
    cases hr : gs.currentRound with
    | none => exact .inl ⟨_,rfl,fun _ _ hcr => nomatch hcr⟩
    | some cr =>
      dsimp only
      by_cases h₁ : validateAction p1 cr.p1Ki
      · rw [if_neg (by simpa using h₁)]
        by_cases h₂ : validateAction p2 cr.p2Ki
        · rw [if_neg (by simpa using h₂)]
          exact .inr ⟨cr,hs,rfl,h₁,h₂,rfl⟩
        · rw [if_pos (by simpa using h₂)]
          refine .inl ⟨_,rfl,fun cr' _ hcr hpay => ?_⟩
          cases hcr
          exact h₂ hpay.2
      · rw [if_pos (by simpa using h₁)]
        refine .inl ⟨_,rfl,fun cr' _ hcr hpay => ?_⟩
        cases hcr
        exact h₁ hpay.1
  · rw [if_pos (by simpa using hs)]
    exact .inl ⟨_,rfl,fun cr' hs' _ => absurd hs' hs⟩

/-- An accepted turn leaves the match in progress, or completes it with a result. -/
theorem applyTurn_status (gs : GameState) (cr : RoundState) (p1 p2 : Action) :
    ((applyTurn gs cr p1 p2).2.matchResult=none ∧
      (applyTurn gs cr p1 p2).1.status=gs.status) ∨
    ∃ mr,(applyTurn gs cr p1 p2).2.matchResult=some mr ∧
      (applyTurn gs cr p1 p2).1.status=matchCompleted := by
  have hscore : ∀ (gs : GameState) winner,(scoreRound gs winner).status=gs.status := by
    intro gs winner
    unfold scoreRound
    split_ifs <;> rfl
  unfold GoEngine.applyTurn
  dsimp only
  split
  · exact .inl ⟨rfl,rfl⟩
  · split
    · exact .inr ⟨_,rfl,rfl⟩
    · exact .inl ⟨rfl,hscore _ _⟩

/-- Both actions can be paid for in the round. -/
def Affordable (cr : RoundState) (p1 p2 : Action) : Prop :=
  validateAction p1 cr.p1Ki=true ∧ validateAction p2 cr.p2Ki=true

instance (cr : RoundState) (p1 p2 : Action) : Decidable (Affordable cr p1 p2) :=
  inferInstanceAs (Decidable (_ ∧ _))

/-- submitTurn accepts the pair in the open round. -/
theorem submitTurn_ok {sess : PvPSession} {cr : RoundState} (h : openRound sess=some cr)
    (ha : Affordable cr p1 p2) :
    ∃ gameState report,submitTurn sess.gameState p1 p2=(gameState,.ok report) := by
  obtain ⟨hs,hr⟩ := openRound_eq_some.mp h
  obtain ⟨e,-,hne⟩ | ⟨cr',-,-,-,-,he⟩ := submitTurn_cases sess.gameState p1 p2
  · exact absurd ha (hne cr hs hr)
  · exact ⟨_,_,he⟩

/-- What submitTurn accepts is affordable in the open round, and it leaves the
match in progress or completes it. -/
theorem openRound_of_submitTurn {sess : PvPSession}
    (h : submitTurn sess.gameState p1 p2=(gs',.ok report)) :
    ∃ cr,openRound sess=some cr ∧ Affordable cr p1 p2 ∧
      ((report.matchResult=none ∧ gs'.status=matchInProgress) ∨
        ∃ mr,report.matchResult=some mr ∧ gs'.status=matchCompleted) := by
  obtain ⟨e,he,-⟩ | ⟨cr,hs,hr,h₁,h₂,he⟩ := submitTurn_cases sess.gameState p1 p2
  · rw [h] at he
    cases he
  · rw [h] at he
    cases he
    have hstatus := applyTurn_status sess.gameState cr p1 p2
    rw [hs] at hstatus
    exact ⟨cr,openRound_eq_some.mpr ⟨hs,hr⟩,⟨h₁,h₂⟩,hstatus⟩

end Turns

/-- The condition on the record, for the transaction that has just been written. -/
theorem meets_commit {fits : List GoStore.Event → GoStore.Event → Prop} {record : SessionRecord}
    {sess sess' : PvPSession} {task : GoroutineId} {call : Call} (hv : record.value=some sess)
    (h : Meets fits (record.commit task call sess').trace) :
    fits record.trace (.commit task call sess sess') := by
  rw [record.commit_of_value hv] at h
  exact (meets_append.mp h).2

end KiClash.GoPendingPairs
