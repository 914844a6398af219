import KiClash.PendingPairs
import Mathlib.Data.List.Induction

/-!
# What submit_action concludes after aborted attempts

The mutator of submit_action tells its caller through captured variables what
it has done, and they survive an aborted attempt. The attempts of one call are
run against the sessions that they load: all but the last one are aborted.
-/

namespace KiClash.SubmitRetries

open EngineTypes OutcomeMatrix AsyncTasks WatchedKey GameStore GameSession PendingPairs

variable {α : Type}

/-- A transaction run against the sessions that its attempts load: EXEC fails
as long as there is another session to load. -/
def attempted : Coroutine α → List PvPSessionState → Except Exc α
  | .done r,_ => r
  | .op (.store .watch) next,sessions => attempted (next (.ok 0)) sessions
  | .op (.store .get) next,sessions => attempted (next (.ok sessions.head?)) sessions
  | .op (.store .unwatch) next,sessions => attempted (next (.ok ())) sessions
  | .op (.store (.exec _ _ _ _)) next,sessions =>
    attempted (next (.ok sessions.tail.isEmpty)) sessions.tail
  | .op _ _,_ => .error .redisError

/-- What submit_action does after its transaction. -/
inductive Conclusion
  | rejected (message : String)
  | stored (turnNumber : ℤ)
  | resolves (turnNumber : ℤ) (p1Action p2Action : Action)
  deriving DecidableEq, Repr

/-- The conclusion that the captured variables lead to. -/
def conclusion (captured : SubmitCaptured) : Conclusion :=
  match captured.validationError,captured.shouldResolve,captured.p1ActionToResolve,
      captured.p2ActionToResolve with
  | some message,_,_,_ => .rejected message
  | none,true,some p1Action,some p2Action =>
    .resolves captured.confirmedTurnNumber p1Action p2Action
  | none,_,_,_ => .stored captured.confirmedTurnNumber

/-- The rest of submit_action for a conclusion. -/
def Conclusion.rest (worker : Worker) (playerId : UUID) (action : Action) :
    Conclusion → Coroutine Unit
  | .rejected message => send worker playerId (.errorMsg message)
  | .stored turnNumber => do
    send worker playerId (.actionConfirmed turnNumber action.value)
    pure ()
  | .resolves turnNumber p1Action p2Action => do
    send worker playerId (.actionConfirmed turnNumber action.value)
    resolveTurn worker p1Action p2Action

/-- The rest of submit_action depends on the conclusion alone. -/
theorem concludeSubmit_eq (worker : Worker) (playerId : UUID) (action : Action)
    (captured : SubmitCaptured) :
    concludeSubmit worker playerId action captured=
      (conclusion captured).rest worker playerId action := by
  obtain ⟨_ | message,_ | _,_ | a₁,_ | a₂,turn⟩ := captured <;> rfl

/-- What submit_action does: its transaction, then what it concludes from it. -/
theorem submitAction_eq (worker : Worker) (playerId : UUID) (action : Action) :
    submitAction worker playerId action=(do
      let outcome ← exceptNotFound
        (watchAndUpdate (.submit playerId action) (storeAction playerId action)
          defaultMaxRetries .fresh)
      match outcome with
      | none => send worker playerId (.errorMsg "Game not found")
      | some (captured,_) => (conclusion captured).rest worker playerId action) := by
  simp only [← concludeSubmit_eq]
  rfl

/-- What one run of the mutator on a session concludes, from the given captured
variables. -/
def concludes (playerId : UUID) (action : Action) (captured : SubmitCaptured)
    (session : PvPSessionState) : Except Exc Conclusion :=
  (storeAction playerId action captured session).map fun x => conclusion x.1

/-- What the whole call concludes when its attempts load these sessions. -/
def callConcludes (playerId : UUID) (action : Action) (attempts : ℕ)
    (sessions : List PvPSessionState) : Except Exc Conclusion :=
  (attempted (watchAndUpdate (.submit playerId action) (storeAction playerId action) attempts
    .fresh) sessions).map fun x => conclusion x.1

/-- The session accepts the action. -/
def Accepts (playerId : UUID) (action : Action) (session : PvPSessionState) : Prop :=
  (acceptingRound playerId action session).isSome=true

/-- The action completes a pair. -/
def Completes (playerId : UUID) (action : Action) (session : PvPSessionState) : Prop :=
  (completedPair playerId action session).isSome=true

section Captured

variable (playerId : UUID) (action : Action)

/-- The captured variables after an attempt. -/
def captures (captured : SubmitCaptured) (session : PvPSessionState) : SubmitCaptured :=
  match storeAction playerId action captured session with
  | .ok x => x.1
  | .error _ => captured

/-- The mutator of submit_action never raises. -/
theorem storeAction_ok (captured : SubmitCaptured) (session : PvPSessionState) :
    ∃ session',storeAction playerId action captured session=
      .ok (captures playerId action captured session,session') := by
  have htotal : ∃ x,storeAction playerId action captured session=.ok x := by
    unfold storeAction
    by_cases hs : session.gameState.status≠.inProgress
    · exact ⟨_,if_pos hs⟩
    · rw [if_neg hs]
      cases session.gameState.currentRound with
      | none => exact ⟨_,rfl⟩
      | some round =>
        dsimp only
        by_cases hv : ¬validateAction action
            (if playerId=session.player1Id then round.p1Ki else round.p2Ki)
        · exact ⟨_,if_pos hv⟩
        · rw [if_neg hv]
          split <;> exact ⟨_,rfl⟩
  obtain ⟨x,hx⟩ := htotal
  exact ⟨x.2,by simp only [captures,hx]⟩

/-- One attempt: it commits if there is no other session to load. -/
theorem attempted_step (attempts : ℕ) (captured : SubmitCaptured) (first : PvPSessionState)
    (rest : List PvPSessionState) :
    ∃ session',attempted
      (watchAndUpdate (.submit playerId action) (storeAction playerId action) (attempts+1)
        captured) (first::rest)=
      if rest.isEmpty then .ok (captures playerId action captured first,session')
      else attempted
        (watchAndUpdate (.submit playerId action) (storeAction playerId action) attempts
          (captures playerId action captured first)) rest := by
  obtain ⟨session',hs⟩ := storeAction_ok playerId action captured first
  refine ⟨session',?_⟩
  simp only [watchAndUpdate,redis,Prog.perform,bind,Prog.bind,attempted,List.head?_cons,hs,
    List.tail_cons]
  cases rest with
  | nil => rfl
  | cons second rest => rfl

/-- The attempts of a call thread the captured variables through, by induction
on the sessions whose attempts are aborted. -/
theorem attempted_watchAndUpdate (earlier : List PvPSessionState) (last : PvPSessionState)
    (spare : ℕ) (captured : SubmitCaptured) :
    ∃ session',attempted
      (watchAndUpdate (.submit playerId action) (storeAction playerId action)
        (earlier.length+1+spare) captured) (earlier++[last])=
      .ok (captures playerId action (earlier.foldl (captures playerId action) captured) last,
        session') := by
  induction earlier generalizing captured with
  | nil =>
    obtain ⟨session',hs⟩ := attempted_step playerId action spare captured last []
    refine ⟨session',?_⟩
    rw [List.length_nil,Nat.zero_add,Nat.add_comm]
    exact hs
  | cons first earlier ih =>
    obtain ⟨session',hrest⟩ := ih (captures playerId action captured first)
    obtain ⟨_,hs⟩ := attempted_step playerId action (earlier.length+1+spare) captured first
      (earlier++[last])
    refine ⟨session',?_⟩
    have hlength : (first::earlier).length+1+spare=(earlier.length+1+spare)+1 := by
      simp only [List.length_cons]
      omega
    have hmore : (earlier++[last]).isEmpty=false := by simp
    rw [hlength,List.cons_append,hs,hmore]
    exact hrest

/-- An attempt overrides what it assigns and leaves the rest. -/
theorem captures_eq (captured : SubmitCaptured) (session : PvPSessionState) :
    captures playerId action captured session=
      ⟨(captures playerId action .fresh session).validationError.or captured.validationError,
        (captures playerId action .fresh session).shouldResolve || captured.shouldResolve,
        (captures playerId action .fresh session).p1ActionToResolve.or captured.p1ActionToResolve,
        (captures playerId action .fresh session).p2ActionToResolve.or captured.p2ActionToResolve,
        if (acceptingRound playerId action session).isSome then
          (captures playerId action .fresh session).confirmedTurnNumber
        else captured.confirmedTurnNumber⟩ := by
  unfold captures storeAction acceptingRound openRound
  by_cases hs : session.gameState.status=.inProgress
  · simp only [hs,ne_eq,not_true,if_false,if_true]
    cases session.gameState.currentRound with
    | none => rfl
    | some round =>
      rw [Option.filter_some]
      by_cases hv : validateAction action (kiOf playerId session round)
      · rw [if_pos hv]
        simp only [kiOf] at hv
        simp only [hv,not_true,if_false]
        cases (storeInSlot playerId action session).p1Action <;>
          cases (storeInSlot playerId action session).p2Action <;> rfl
      · rw [if_neg hv]
        simp only [kiOf] at hv
        simp only [hv]
        rfl
  · simp only [hs,ne_eq,not_false_eq_true,if_true,if_false]
    rfl

/-- What the mutator says of a session by itself. -/
inductive Says (session : PvPSessionState) : SubmitCaptured → Prop
  | rejected (message : String) (haccept : ¬Accepts playerId action session) :
    Says session ⟨some message,false,none,none,SubmitCaptured.fresh.confirmedTurnNumber⟩
  | stored (turnNumber : ℤ) (haccept : Accepts playerId action session)
      (hcomplete : ¬Completes playerId action session) :
    Says session ⟨none,false,none,none,turnNumber⟩
  | completed (turnNumber : ℤ) (p1Action p2Action : Action)
      (haccept : Accepts playerId action session)
      (hcomplete : Completes playerId action session) :
    Says session ⟨none,true,some p1Action,some p2Action,turnNumber⟩

/-- The captured variables of a first attempt. -/
theorem says_captures (session : PvPSessionState) :
    Says playerId action session (captures playerId action .fresh session) := by
  obtain ⟨session',hs⟩ := storeAction_ok playerId action .fresh session
  generalize captures playerId action .fresh session=captured at hs ⊢
  cases storeAction_cases hs with
  | rejected message hnone => exact .rejected message (by simp [Accepts,hnone])
  | stored round hround hpair =>
    exact .stored _ (by simp [Accepts,hround]) (by simp [Completes,hpair])
  | completed round p1Action p2Action hround h₁ h₂ hpair =>
    exact .completed _ p1Action p2Action (by simp [Accepts,hround]) (by simp [Completes,hpair])

/-- What the captured variables keep of the aborted attempts. -/
structure Tally (earlier : List PvPSessionState) (captured : SubmitCaptured) : Prop where
  /-- An error stays. -/
  error : captured.validationError=none ↔ ∀ session ∈ earlier,Accepts playerId action session
  /-- So does a resolution. -/
  resolve : captured.shouldResolve=true ↔ ∃ session ∈ earlier,Completes playerId action session
  /-- Player 1's action comes with it. -/
  p1 : captured.p1ActionToResolve.isSome=captured.shouldResolve
  /-- So does player 2's. -/
  p2 : captured.p2ActionToResolve.isSome=captured.shouldResolve

/-- One more aborted attempt. -/
theorem Tally.captures {earlier : List PvPSessionState} {captured : SubmitCaptured}
    (h : Tally playerId action earlier captured) (session : PvPSessionState) :
    Tally playerId action (earlier++[session])
      (captures playerId action captured session) := by
  rw [captures_eq]
  have hsays := says_captures playerId action session
  generalize SubmitRetries.captures playerId action .fresh session=own at hsays
  cases hsays with
  | rejected message haccept =>
    have hcomplete : ¬Completes playerId action session := by
      intro hcomplete
      obtain ⟨pair,hpair⟩ := Option.isSome_iff_exists.mp hcomplete
      obtain ⟨round,hround,-⟩ := acceptingRound_of_completedPair hpair
      exact haccept (by simp [Accepts,hround])
    exact ⟨by simp [haccept],by simp [h.resolve,hcomplete],by simp [h.p1],by simp [h.p2]⟩
  | stored turnNumber haccept hcomplete =>
    exact ⟨by simp [h.error,haccept,List.forall_mem_append,-List.mem_append],
      by simp [h.resolve,hcomplete],by simp [h.p1],by simp [h.p2]⟩
  | completed turnNumber p1Action p2Action haccept hcomplete =>
    exact ⟨by simp [h.error,haccept,List.forall_mem_append,-List.mem_append],
      by simp [hcomplete],by simp,by simp⟩

/-- The captured variables after all aborted attempts. -/
theorem tally (earlier : List PvPSessionState) :
    Tally playerId action earlier (earlier.foldl (captures playerId action) .fresh) := by
  induction earlier using List.reverseRecOn with
  | nil => exact ⟨by simp [SubmitCaptured.fresh],by simp [SubmitCaptured.fresh],rfl,rfl⟩
  | append_singleton earlier session ih =>
    rw [List.foldl_append]
    exact ih.captures playerId action session

/-- What a call concludes from the captured variables of its last attempt. -/
theorem callConcludes_eq (earlier : List PvPSessionState) (last : PvPSessionState)
    (spare : ℕ) :
    callConcludes playerId action (earlier.length+1+spare) (earlier++[last])=
      .ok (conclusion (captures playerId action
        (earlier.foldl (captures playerId action) .fresh) last)) := by
  obtain ⟨session',h⟩ := attempted_watchAndUpdate playerId action earlier last spare .fresh
  rw [callConcludes,h]
  rfl

/-- What one run of the mutator concludes. -/
theorem concludes_eq (captured : SubmitCaptured) (session : PvPSessionState) :
    concludes playerId action captured session=
      .ok (conclusion (captures playerId action captured session)) := by
  obtain ⟨session',h⟩ := storeAction_ok playerId action captured session
  rw [concludes,h]
  rfl

/-- The call concludes what its committed attempt alone concludes if and only if
an accepted action has been accepted by every aborted attempt, and has not
completed a pair in an aborted attempt unless it completes one in the last. -/
theorem call_concludes_last_iff (earlier : List PvPSessionState) (last : PvPSessionState)
    (spare : ℕ) :
    callConcludes playerId action (earlier.length+1+spare) (earlier++[last])=
        concludes playerId action .fresh last ↔
      (Accepts playerId action last → ∀ session ∈ earlier,Accepts playerId action session) ∧
      (Accepts playerId action last → ¬Completes playerId action last →
        ∀ session ∈ earlier,¬Completes playerId action session) := by
  have htally := tally playerId action earlier
  rw [callConcludes_eq,concludes_eq,captures_eq]
  generalize earlier.foldl (captures playerId action) .fresh=stale at htally
  obtain ⟨error,resolve,p1,p2,turn⟩ := stale
  obtain ⟨herror,hresolve,hp1,hp2⟩ := htally
  have hsays := says_captures playerId action last
  generalize captures playerId action .fresh last=own at hsays
  cases hsays with
  | rejected message haccept => simp [haccept,conclusion]
  | completed turnNumber p1Action p2Action haccept hcomplete =>
    have hsome : (acceptingRound playerId action last).isSome=true := haccept
    cases error <;> simp [haccept,hcomplete,conclusion,hsome,← herror]
  | stored turnNumber haccept hcomplete =>
    have hsome : (acceptingRound playerId action last).isSome=true := haccept
    cases error with
    | some message => simp [haccept,conclusion,← herror]
    | none =>
      have hall : ∀ session ∈ earlier,Accepts playerId action session := herror.mp rfl
      cases resolve with
      | false =>
        have hnone : ∀ session ∈ earlier,¬Completes playerId action session := by
          simpa using hresolve
        simp only [conclusion,Option.none_or,Bool.false_or,hsome,if_true]
        exact ⟨fun _ => ⟨fun _ => hall,fun _ _ => hnone⟩,fun _ => trivial⟩
      | true =>
        obtain ⟨a₁,rfl⟩ := Option.isSome_iff_exists.mp hp1
        obtain ⟨a₂,rfl⟩ := Option.isSome_iff_exists.mp hp2
        obtain ⟨session,hmem,hpair⟩ := hresolve.mp rfl
        simp only [conclusion,Option.none_or,Bool.false_or,hsome,if_true]
        exact ⟨fun h => (nomatch h),fun h => absurd hpair (h.2 haccept hcomplete session hmem)⟩

end Captured

/-- The small pairing's session in its first turn. -/
def firstTurn : PvPSessionState :=
  {(Pairing.small.session.markConnected (.small 1)).markConnected (.small 2) with started := true}

/-- A first attempt loads a session in which the opponent's charge is pending
and is aborted; the second one only stores the charge, and the call resolves a
pair all the same. -/
theorem aborted_pair_resolved :
    callConcludes (.small 1) .charge defaultMaxRetries
        [{firstTurn with p2Action := some .charge},firstTurn]≠
      concludes (.small 1) .charge .fresh firstTurn ∧
    callConcludes (.small 1) .charge defaultMaxRetries
        [{firstTurn with p2Action := some .charge},firstTurn]=
      .ok (.resolves 1 .charge .charge) ∧
    concludes (.small 1) .charge .fresh firstTurn=.ok (.stored 1) := by
  decide

end KiClash.SubmitRetries
