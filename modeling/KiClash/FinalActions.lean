import KiClash.SessionTurns

/-!
# When an accepted action of the Python session is final

An accepted action lies in its player's slot until the pair is complete. The
mutator of submit_action does not look at what is in the slot, so a player who
submits once more takes his action back. Nothing else in the session writes a
slot: if no submission is accepted over a different action of its player,
whatever has been accepted is played or still pending.
-/

namespace KiClash.FinalActions

open EngineTypes Histories AsyncTasks WatchedKey RecordedTasks SlottedTurns GameStore GameSession
open PendingPairs SessionChronicle SessionTurns

/-- The seat and the action of a submission that has been accepted. -/
def acceptedAction (pairing : Pairing) : GameStore.Event → Option (Seat×Action)
  | .commit _ (.submit player action _) before _ =>
    (acceptingRound player action before).map fun _ => (seatOf pairing player,action)
  | _ => none

/-- The pair that an event consumes. -/
def takenPair : GameStore.Event → Option TurnPair
  | .commit _ (.submit player action _) before _ => completedPair player action before
  | _ => none

/-- The action of a seat in a pair. -/
def shareOf (seat : Seat) (pair : TurnPair) : Action := seat.pick pair.p1Action pair.p2Action

/-- The action is pending, if there still is a session. -/
def Lies (value : Option PvPSessionState) (seat : Seat) (action : Action) : Prop :=
  ∀ session∈value,pending session seat=some action

/-- An accepted action is part of the first pair that is consumed afterwards; as
long as none has been consumed, it is what is pending for its player. -/
def NoTakeBacks (pairing : Pairing) (config : workers.Config) : Prop :=
  KeptWhere (acceptedAction pairing) takenPair shareOf (Lies config.world.value)
    config.world.trace

/-- A submission is not accepted over a different pending action of its player. -/
def OverNothing (pairing : Pairing) : GameStore.Event → Prop
  | .commit _ (.submit player action _) before _ =>
    (acceptingRound player action before).isSome=true →
      ∀ old∈pending before (seatOf pairing player),old=action
  | _ => True

instance (pairing : Pairing) : ∀ event : GameStore.Event,Decidable (OverNothing pairing event)
  | .commit _ (.submit player action _) before _ =>
    inferInstanceAs (Decidable ((acceptingRound player action before).isSome=true →
      ∀ old∈pending before (seatOf pairing player),old=action))
  | .commit _ (.connect _) _ _ | .commit _ .start _ _ | .commit _ (.resolve _ _) _ _
  | .commit _ (.forfeit _) _ _ | .conflict _ _ _ | .deleted _ | .loaded _ _ | .note _ => instDecidableTrue

section Steps

variable {pairing : Pairing} {trace : List GameStore.Event} {session session' : PvPSessionState}
  {task : TaskId} {call : Call}

/-- A completed pair consists of what is then in the slots. -/
theorem shareOf_completed {round : RoundState} {p1Action p2Action : Action}
    (h₁ : session.p1Action=some p1Action) (h₂ : session.p2Action=some p2Action) (seat : Seat) :
    pending session seat=some (shareOf seat (.now round p1Action p2Action)) := by
  cases seat with
  | first => exact h₁
  | second => exact h₂

/-- Storing an action over nothing else leaves whatever is pending. -/
theorem pending_stored {player : UUID} {action : Action} {seat : Seat} {old : Action}
    (hplayers : BelongsTo pairing session)
    (hplayer : player=pairing.player1Id ∨ player=pairing.player2Id)
    (hover : ∀ old∈pending session (seatOf pairing player),old=action)
    (h : pending session seat=some old) :
    pending (storeInSlot player action session) seat=some old := by
  rw [pending_storeInSlot hplayers hplayer]
  by_cases hs : seat=seatOf pairing player
  · have hold : old=action := hover old (hs ▸ h)
    rw [hs,Function.update_self,hold]
  · rw [Function.update_of_ne hs]
    exact h

/-- A submission. -/
theorem kept_submit {player : UUID} {action : Action} {stale captured : SubmitCaptured}
    (h : KeptWhere (acceptedAction pairing) takenPair shareOf (Lies (some session)) trace)
    (hplayers : BelongsTo pairing session)
    (hplayer : player=pairing.player1Id ∨ player=pairing.player2Id)
    (hstores : Stores player action stale session captured session')
    (hover : OverNothing pairing (.commit task (.submit player action stale) session session')) :
    KeptWhere (acceptedAction pairing) takenPair shareOf (Lies (some session'))
      (trace++[.commit task (.submit player action stale) session session']) := by
  have hown : pending (storeInSlot player action session) (seatOf pairing player)=some action := by
    rw [pending_storeInSlot hplayers hplayer,Function.update_self]
  -- the submission fills its own slot and leaves the other one
  have hput : ∀ round,acceptingRound player action session=some round →
      (∀ seat old,Lies (some session) seat old →
        pending (storeInSlot player action session) seat=some old) := by
    intro round haccept seat old hlies
    exact pending_stored hplayers hplayer (hover (by rw [haccept]; rfl)) (hlies session rfl)
  cases hstores with
  | rejected message hreject =>
    have hnone : completedPair player action session=none := by
      simp only [completedPair,hreject]
    apply h.step
    · intro seat old hlies
      simp only [takenPair,hnone]
      exact hlies
    · intro seat old hdeposit
      simp [acceptedAction,hreject] at hdeposit
  | stored round haccept hpair =>
    apply h.step
    · intro seat old hlies
      simp only [takenPair,hpair]
      rintro _ ⟨⟩
      exact hput round haccept seat old hlies
    · intro seat old hdeposit
      simp only [acceptedAction,haccept,Option.map_some,Option.some.injEq,Prod.mk.injEq] at hdeposit
      obtain ⟨rfl,rfl⟩ := hdeposit
      simp only [takenPair,hpair]
      rintro _ ⟨⟩
      exact hown
  | completed round p1Action p2Action haccept h₁ h₂ hpair =>
    apply h.step
    · intro seat old hlies
      simp only [takenPair,hpair]
      have hshare := @shareOf_completed _ round _ _ h₁ h₂ seat
      exact Option.some.inj (hshare.symm.trans (hput round haccept seat old hlies))
    · intro seat old hdeposit
      simp only [acceptedAction,haccept,Option.map_some,Option.some.injEq,Prod.mk.injEq] at hdeposit
      obtain ⟨rfl,rfl⟩ := hdeposit
      simp only [takenPair,hpair]
      have hshare := @shareOf_completed _ round _ _ h₁ h₂ (seatOf pairing player)
      exact Option.some.inj (hshare.symm.trans hown)

/-- An event that accepts and consumes nothing and leaves the slots alone. -/
theorem kept_other {event : GameStore.Event} {value value' : Option PvPSessionState}
    (h : KeptWhere (acceptedAction pairing) takenPair shareOf (Lies value) trace)
    (haccepts : acceptedAction pairing event=none) (htakes : takenPair event=none)
    (hsame : ∀ session'∈value',∃ session∈value,pending session'=pending session) :
    KeptWhere (acceptedAction pairing) takenPair shareOf (Lies value') (trace++[event]) := by
  apply h.step
  · intro seat old hlies
    rw [htakes]
    intro session' hs
    obtain ⟨session,hsession,hpending⟩ := hsame session' hs
    rw [hpending]
    exact hlies session hsession
  · intro seat old hdeposit
    rw [haccepts] at hdeposit
    cases hdeposit

/-- Every transaction that accepts nothing over a different action. -/
theorem kept_effect
    (h : KeptWhere (acceptedAction pairing) takenPair shareOf (Lies (some session)) trace)
    (hplayers : BelongsTo pairing session) (heffect : Effect pairing call session session')
    (hover : OverNothing pairing (.commit task call session session')) :
    KeptWhere (acceptedAction pairing) takenPair shareOf (Lies (some session'))
      (trace++[.commit task call session session']) := by
  cases heffect with
  | connect player session =>
    refine kept_other h rfl rfl fun session' hs => ⟨session,rfl,?_⟩
    cases hs
    unfold PvPSessionState.markConnected
    split <;> rfl
  | start session =>
    refine kept_other h rfl rfl fun session' hs => ⟨session,rfl,?_⟩
    cases hs
    rfl
  | submit hplayer hstores => exact kept_submit h hplayers hplayer hstores hover
  | resolve =>
    refine kept_other h rfl rfl fun session' hs => ⟨session,rfl,?_⟩
    cases hs
    rfl
  | forfeit forfeiting session =>
    refine kept_other h rfl rfl fun session' hs => ⟨session,rfl,?_⟩
    cases hs
    rfl

end Steps

/-- A chronicle in which nothing is accepted over a different action keeps
whatever is accepted. -/
theorem kept_of_follows {pairing : Pairing} {trace : List GameStore.Event}
    (h : Meets (Follows pairing) trace) (hover : ∀ event∈trace,OverNothing pairing event) :
    KeptWhere (acceptedAction pairing) takenPair shareOf (Lies (sessionAfter pairing trace))
      trace := by
  induction trace using List.reverseRecOn with
  | nil =>
    intro earlier event later seat action hsplit
    cases earlier <;> cases hsplit
  | append_singleton trace event ih =>
    obtain ⟨hbefore,hlast⟩ := meets_append.mp h
    have hkept := ih hbefore fun event' hin => hover event' (List.mem_append_left _ hin)
    have hover' := hover event (List.mem_append_right _ (List.mem_singleton_self _))
    rw [sessionAfter,valueAfter_append]
    cases event with
    | commit task call before after =>
      obtain ⟨hv,hplayers,heffect⟩ := hlast
      rw [hv] at hkept
      exact kept_effect hkept hplayers heffect hover'
    | deleted task =>
      change KeptWhere _ _ _ (Lies none) _
      apply kept_other hkept rfl rfl
      rintro session ⟨⟩
    | conflict | loaded | note =>
      change KeptWhere _ _ _ (Lies (sessionAfter pairing trace)) _
      apply kept_other hkept rfl rfl
      exact fun session hs => ⟨session,hs,rfl⟩

/-- So it is in every run. -/
theorem noTakeBacks {pairing : Pairing} {config : workers.Config}
    (hrun : (initial pairing).Reaches config)
    (hover : ∀ event∈config.world.trace,OverNothing pairing event) :
    NoTakeBacks pairing config := by
  have hchronicle := chronicle hrun
  have hvalue : config.world.value=sessionAfter pairing config.world.trace := hchronicle.value
  unfold NoTakeBacks
  rw [hvalue]
  exact kept_of_follows hchronicle.follows hover

/-- Player 1 connects, submits a charge, and then a block. -/
def blockAfterCharge : List workers.Move := opens 1 ["charge","block"]::proceeds 0 8++proceeds 0 10

end KiClash.FinalActions
