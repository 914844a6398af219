import KiClash.GameTransactions

/-!
# Confirmations and turn results in the Python session

The handler of a submission confirms it after its transaction has committed; in
between, the handler of the opponent can complete the pair, resolve the turn and
announce the result. A player gets the confirmation first in every run in which no
result is sent to him while one of his handlers still has to confirm a submission
for that turn: once the turn is resolved nothing is accepted for it any more.
-/

namespace KiClash.ConfirmationOrder

open EngineTypes ServerMessages AsyncTasks WatchedKey TaskPhases TransactionReads Histories
open GameStore GameSession PendingPairs SessionTurns GamePhases GameTransactions

/-- A player and a turn. -/
abbrev Share := UUID×TurnKey

/-- The result of a turn that is sent to a player. -/
def resultSent (performed : Performed watcher) : Option Share :=
  match performed.phase.control.doing,performed.op,performed.effective with
  | some (.resolved (some turn) _),.act (.send _ player (.turnResult ..)),true => some (player,turn)
  | _,_,_ => none

/-- The task handles a socket of the player. -/
def isHandlerOf (player : UUID) : Control → Bool
  | .socket _ other _ => other=player
  | _ => false

/-- The confirmation of an explicit submission that is sent to its player. -/
def confirmationSent (performed : Performed watcher) : Option Share :=
  match performed.phase.control.doing,performed.op,performed.effective with
  | some (.submitted (some turn)),.act (.send _ player (.actionConfirmed ..)),true =>
    if isHandlerOf player performed.phase.control then some (player,turn) else none
  | _,_,_ => none

/-- The handler has still to confirm a submission of the player for the turn. -/
def owes (share : Share) (phase : Phase) : Bool :=
  isHandlerOf share.1 phase.control && phase.control.doing=some (.submitted (some share.2))

/-- Every turn_result that is sent is the result of a turn with its number, and every
action_confirmed that a handler sends confirms a submission of its player for such a
turn. -/
def Numbered (moment : Moment) : Prop :=
  ∀ performed∈moment.1.performed moment.2,performed.effective=true →
    ∀ worker player message,performed.op=.act (.send worker player message) →
      match message with
      | .turnResult number .. =>
        ∃ turn,resultSent performed=some (player,turn) ∧ (ofLex turn).2=number
      | .actionConfirmed number _ => ∀ other,isHandlerOf other performed.phase.control=true →
        ∃ turn,confirmationSent performed=some (player,turn) ∧ (ofLex turn).2=number
      | _ => True

/-- A submission is confirmed before the result of its turn is sent. -/
def ConfirmedFirst (history : List Moment) (moment : Moment) : Prop :=
  ∀ performed∈moment.1.performed moment.2,∀ share∈confirmationSent performed,
    ∀ past∈history,performs (fun performed => resultSent performed=some share) past=false

/-- A result is sent to a player when none of his handlers has still to confirm a
submission for the turn. -/
def Settled (moment : Moment) : Prop :=
  ∀ performed∈moment.1.performed moment.2,∀ share∈resultSent performed,
    ∀ phase∈moment.1.phases,owes share phase=false

instance (history : List Moment) (moment : Moment) : Decidable (ConfirmedFirst history moment) := by
  unfold ConfirmedFirst
  infer_instance

instance (moment : Moment) : Decidable (Settled moment) := by
  unfold Settled
  infer_instance

section Steps

variable {pairing : Pairing} {history : List Moment} {seen seen' : Seen watcher}
  {move : workers.Move}

/-- The handler of a socket stays that of its player. -/
theorem isHandlerOf_next {attempt : Attempt PvPSessionState} {control : Control} {o : Op language}
    {r : Except Exc o.Res} {player : UUID} :
    isHandlerOf player (control.next attempt o r)=isHandlerOf player control := by
  cases control <;> rfl

/-- What is known of the results: a turn is over when its result is announced, and
nobody to whom it has been sent waits for a confirmation for it. -/
structure Ordered (history : List Moment) (seen : Seen watcher) : Prop where
  /-- A result that is announced. -/
  resolved : ∀ (task : TaskId) (phase : Phase) (turn : TurnKey) (upcoming : Option TurnKey),
    seen.phases[task]?=some phase →
    phase.control.doing=some (.resolved (some turn) upcoming) → IsPast turn seen.config
  /-- A result that has been sent. -/
  sent : ∀ past∈history,∀ share,performs (fun performed => resultSent performed=some share) past=true →
    IsPast share.2 seen.config ∧ ∀ phase∈seen.phases,owes share phase=false

/-- Who sends a result has resolved the turn. -/
theorem resolved_of_resultSent {performed : Performed watcher} {share : Share}
    (h : resultSent performed=some share) :
    ∃ upcoming,performed.phase.control.doing=some (.resolved (some share.2) upcoming) := by
  unfold resultSent at h
  split at h
  · next hdoing _ _ =>
    cases h
    exact ⟨_,hdoing⟩
  · cases h

/-- A handler that comes to owe a confirmation has submitted in the current turn. -/
theorem owes_before (hregular : Regular pairing seen) (hs : Seen.Moved seen move seen')
    {share : Share} {phase' : Phase} (hphase' : phase'∈seen'.phases) (howes : owes share phase'=true) :
    (∃ phase∈seen.phases,owes share phase=true) ∨ ¬IsPast share.2 seen.config := by
  obtain ⟨k,hk⟩ := List.mem_iff_getElem?.mp hphase'
  cases hs with
  | opened entry harrives =>
    obtain hold | ⟨-,hstarted⟩ := @Seen.getElem?_extended _ _ (some (watcher.start entry)) _ _ hk
    · exact .inl ⟨phase',List.mem_of_getElem? hold,howes⟩
    · cases hstarted
      cases entry <;> simp [owes,Control.doing] at howes
  | performed task choice phase o rest world r started htask hphase hp =>
    obtain ⟨rfl,rfl⟩ | ⟨-,hold⟩ | ⟨-,hstarted⟩ := Seen.getElem?_moved hk
    · simp only [owes,isHandlerOf_next,Bool.and_eq_true,decide_eq_true_eq] at howes
      obtain ⟨hhandler,hdoing⟩ := howes
      obtain hidle | ⟨before,now,hbefore,hnow,hturns⟩ := doing_before hdoing
      · cases hidle
      · cases hturns with
        | same =>
          exact .inl ⟨phase,List.mem_of_getElem? hphase,by simp [owes,hhandler,hbefore,hnow]⟩
        | loaded value doing =>
          cases doing with
          | submitted =>
            exact .inl ⟨phase,List.mem_of_getElem? hphase,by simp [owes,hhandler,hbefore,← hnow,Doing.loaded]⟩
          | idle | resolved => cases hnow
        | submitted token retriesLeft player action stale session =>
          right
          obtain ⟨-,before,hvalue,-,hfound,-,-⟩ := hregular.committed htask hphase hp
          injection hnow with hturn
          rw [acceptedTurn,hfound] at hturn
          obtain ⟨round,hround,hkey⟩ := Option.map_eq_some_iff.mp hturn
          have hopen := openRound_eq_some.mp (acceptingRound_eq_some.mp hround).1
          intro hpast
          apply lt_irrefl share.2
          apply hpast before hvalue
          rw [currentTurn,hopen.2,← hkey]
          rfl
        | told | aborted | resolved => cases hnow
    · exact .inl ⟨phase',List.mem_of_getElem? hold,howes⟩
    · obtain ⟨entry,-,rfl⟩ := Option.map_eq_some_iff.mp hstarted
      cases entry <;> simp [owes,Control.doing] at howes

/-- A task that comes to announce a result has ended the turn. -/
theorem resolved_before (hregular : Regular pairing seen) (hs : Seen.Moved seen move seen')
    {task' : TaskId} {phase' : Phase} {turn : TurnKey} {upcoming : Option TurnKey}
    (hphase' : seen'.phases[task']?=some phase')
    (hdoing : phase'.control.doing=some (.resolved (some turn) upcoming)) :
    (∃ phase upcoming,seen.phases[task']?=some phase ∧
      phase.control.doing=some (.resolved (some turn) upcoming)) ∨ IsPast turn seen'.config := by
  cases hs with
  | opened entry harrives =>
    obtain hold | ⟨-,hstarted⟩ :=
      @Seen.getElem?_extended _ _ (some (watcher.start entry)) _ _ hphase'
    · exact .inl ⟨phase',upcoming,hold,hdoing⟩
    · cases hstarted
      cases entry <;> cases hdoing
  | performed task choice phase o rest world r started htask hphase hp =>
    obtain ⟨rfl,rfl⟩ | ⟨-,hold⟩ | ⟨-,hstarted⟩ := Seen.getElem?_moved hphase'
    · obtain hidle | ⟨before,now,hbefore,hnow,hturns⟩ := doing_before hdoing
      · cases hidle
      · cases hturns with
        | same => exact .inl ⟨phase,upcoming,hphase,hbefore.trans (congrArg some hnow)⟩
        | loaded value doing =>
          cases doing with
          | resolved turn' upcoming' =>
            cases hnow
            exact .inl ⟨phase,upcoming',hphase,hbefore⟩
          | idle | submitted => cases hnow
        | resolved token retriesLeft p1Action p2Action session =>
          right
          injection hnow with hopen
          exact hregular.past_of_resolves htask hphase hp hopen
        | told | aborted | submitted => cases hnow
    · exact .inl ⟨phase',upcoming,hold,hdoing⟩
    · obtain ⟨entry,-,rfl⟩ := Option.map_eq_some_iff.mp hstarted
      cases entry <;> cases hdoing

/-- The moves keep what is known of the results. -/
theorem Ordered.step (hregular : Regular pairing seen) (h : Ordered history seen)
    (hsettled : Settled (seen,move)) (hs : Seen.Moved seen move seen') :
    Ordered (history++[(seen,move)]) seen' := by
  -- the results sent so far, this move included, are results of turns that are over
  have hsent : ∀ past∈history++[(seen,move)],∀ share,
      performs (fun performed => resultSent performed=some share) past=true →
      IsPast share.2 seen.config ∧ ∀ phase∈seen.phases,owes share phase=false := by
    intro past hmem share hperforms
    obtain hold | hnew := List.mem_append.mp hmem
    · exact h.sent past hold share hperforms
    · rw [List.mem_singleton.mp hnew] at hperforms
      obtain ⟨performed,hperformed,hshare⟩ := (Option.any_eq_true _ _).mp hperforms
      have hshare : resultSent performed=some share := of_decide_eq_true hshare
      obtain ⟨hphase,-⟩ := Seen.performed_cases hperformed
      obtain ⟨upcoming,hdoing⟩ := resolved_of_resultSent hshare
      exact ⟨h.resolved _ _ _ upcoming hphase hdoing,
        fun phase hmember => hsettled performed hperformed share hshare phase hmember⟩
  constructor
  · intro task phase turn upcoming hphase hdoing
    obtain ⟨before,_,hbefore,hresolved⟩ | hpast := resolved_before hregular hs hphase hdoing
    · exact (h.resolved task before turn _ hbefore hresolved).step hregular hs
    · exact hpast
  · intro past hmem share hperforms
    obtain ⟨hpast,hnobody⟩ := hsent past hmem share hperforms
    refine ⟨hpast.step hregular hs,fun phase hphase => Bool.eq_false_iff.mpr fun howes => ?_⟩
    obtain ⟨before,hbefore,hwaits⟩ | hcurrent := owes_before hregular hs hphase howes
    · rw [hnobody before hbefore] at hwaits
      cases hwaits
    · exact hcurrent hpast

end Steps

section Runs

variable {pairing : Pairing} {moves : List workers.Move} {seen : Seen watcher}

/-- What is known of the results of a run. -/
theorem ordered_of_run (hrun : (Seen.initial watcher (initial pairing)).run moves=some seen)
    (hsettled : Meets (fun _ => Settled) (momentsOf pairing moves)) :
    Ordered (momentsOf pairing moves) seen := by
  refine along (I := Ordered) (fun hregular h hf hs => h.step hregular hf hs) hrun hsettled ⟨?_,?_⟩
  · exact fun _ _ _ _ hphase => nomatch hphase
  · exact fun _ hmem => nomatch hmem

/-- The messages of a run show the numbers of their turns. -/
theorem numbered_of_regular (hregular : Regular pairing seen) (move : workers.Move) :
    Numbered (seen,move) := by
  rintro ⟨task,phase,o,effective,r⟩ hperformed rfl worker player message rfl
  obtain ⟨hphase,rest,htask⟩ := Seen.performed_cases hperformed
  obtain ⟨⟨-,hsends⟩,-⟩ := hregular.conforms.allows hphase htask
  cases message with
  | turnResult number =>
    obtain ⟨turn,upcoming,hdoing,hnumber⟩ := hsends
    exact ⟨turn,by simp [resultSent,hdoing],hnumber⟩
  | actionConfirmed number =>
    obtain ⟨turn,hdoing,hnumber,hplayer⟩ := hsends
    intro other hhandler
    refine ⟨turn,?_,hnumber⟩
    have hhandles : isHandlerOf player phase.control=true := by
      cases hcontrol : phase.control with
      | socket worker' player' stage =>
        cases hplayer worker' player' stage hcontrol
        simp [isHandlerOf]
      | turnTimer | forfeitTimer =>
        rw [hcontrol] at hhandler
        cases hhandler
    simp [confirmationSent,hdoing,hhandles]
  | waitingForAction | roundResult | matchResult | opponentDisconnected | opponentReconnected
  | errorMsg | pong => exact True.intro

/-- Who confirms a submission has owed it. -/
theorem owes_of_confirmationSent {performed : Performed watcher} {share : Share}
    (h : confirmationSent performed=some share) : owes share performed.phase=true := by
  unfold confirmationSent at h
  split at h
  · next turn _ player _ _ hdoing _ _ =>
    split at h
    · next hhandler =>
      cases h
      simp [owes,hhandler,hdoing]
    · cases h
  · cases h

/-- In every run in which each result is sent to a player when none of his handlers
has still to confirm a submission for the turn, the confirmations come before the
results. -/
theorem confirmed_before_result (pairing : Pairing) {moves : List workers.Move}
    {seen : Seen watcher} (hrun : (Seen.initial watcher (initial pairing)).run moves=some seen)
    (hsettled : ∀ moment∈momentsOf pairing moves,Settled moment) :
    Meets (fun _ => Numbered) (momentsOf pairing moves) ∧
      Meets ConfirmedFirst (momentsOf pairing moves) := by
  constructor
  · exact Seen.meets_of_moments (F := fun _ => Settled)
      (fun {_ _ _ move} hrun₁ _ _ _ => numbered_of_regular (regular hrun₁) move) hrun
      (Seen.meets_of_forall hsettled)
  · refine Seen.meets_of_moments (F := fun _ => Settled) ?_ hrun (Seen.meets_of_forall hsettled)
    intro moves₁ seen₁ seen₂ move hrun₁ _ hbefore _ performed hperformed share hshare past hpast
    apply Bool.eq_false_iff.mpr
    intro hperforms
    have howes := owes_of_confirmationSent hshare
    have hmember := List.mem_of_getElem? (Seen.performed_cases hperformed).1
    rw [((ordered_of_run hrun₁ hbefore).sent past hpast share hperforms).2 _ hmember] at howes
    cases howes

end Runs

/-- Both players open a socket and are going to charge; player 2's handler starts the
match. -/
def chargingMatch : List workers.Move :=
  opens 1 ["charge"]::proceeds 0 8++opens 2 ["charge"]::proceeds 1 14

/-- Player 1's submission is confirmed; then player 2's handler completes the pair and
announces the result. -/
def confirmsAtOnce : List workers.Move := chargingMatch++proceeds 0 5++proceeds 1 12

/-- In that run he gets his confirmation first. -/
theorem confirmed_at_once :
    (∃ moment∈momentsOf .small confirmsAtOnce,
      performs (fun performed => resultSent performed=some (.small 1,toLex (1,1))) moment=true) ∧
    Meets (fun _ => Numbered) (momentsOf .small confirmsAtOnce) ∧
      Meets ConfirmedFirst (momentsOf .small confirmsAtOnce) := by
  have hrun : ((Seen.initial watcher (initial .small)).run confirmsAtOnce).isSome=true := by decide +kernel
  have hresult : ∃ moment∈momentsOf .small confirmsAtOnce,
      performs (fun performed => resultSent performed=some (.small 1,toLex (1,1))) moment=true := by
    decide +kernel
  have hsettled : ∀ moment∈momentsOf .small confirmsAtOnce,Settled moment := by decide +kernel
  obtain ⟨seen,hseen⟩ := Option.isSome_iff_exists.mp hrun
  exact ⟨hresult,confirmed_before_result .small hseen hsettled⟩

/-- Player 1's submission commits; player 2's handler completes the pair, resolves the
turn and announces the result before player 1's handler goes on. -/
def confirmsLate : List workers.Move := chargingMatch++proceeds 0 4++proceeds 1 12++proceeds 0 1

/-- In that run player 1 gets the result before his confirmation. -/
theorem result_before_confirmation : ¬∀ (pairing : Pairing) (moves : List workers.Move)
    (seen : Seen watcher),(Seen.initial watcher (initial pairing)).run moves=some seen →
      Meets ConfirmedFirst (momentsOf pairing moves) := by
  intro h
  have hrun : ((Seen.initial watcher (initial .small)).run confirmsLate).isSome=true := by decide +kernel
  have hlate : ¬Meets ConfirmedFirst (momentsOf .small confirmsLate) := by decide +kernel
  obtain ⟨seen,hseen⟩ := Option.isSome_iff_exists.mp hrun
  exact hlate (h .small confirmsLate seen hseen)

end KiClash.ConfirmationOrder
