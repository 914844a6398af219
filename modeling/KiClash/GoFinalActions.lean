import KiClash.FinalActions
import KiClash.GoTurns

/-!
# When an accepted action is final in either server

submitAction of the Go server assigns the slot of its player as the Python
session does, whatever is in it. The condition on the record and what follows
from it are the same for both servers.
-/

namespace KiClash.GoFinalActions

open GoTypes Histories AsyncTasks WatchedKey RecordedTasks SlottedTurns
open GameStore (Pairing)
open GoStore GoSession GoSessionContracts GoPendingPairs GoChronicle GoTurns

/-- The seat and the action of a submission that has been accepted. -/
def acceptedAction (pairing : Pairing) : GoStore.Event → Option (Seat×Action)
  | .commit _ (.submit player action _) before _ =>
    (acceptingRound player action before).map fun _ => (seatOf pairing player,action)
  | _ => none

/-- The pair that an event clears. -/
def takenPair : GoStore.Event → Option TurnPair
  | .commit _ (.submit player action _) before _ => completedPair player action before
  | _ => none

/-- The action of a seat in a pair. -/
def shareOf (seat : Seat) (pair : TurnPair) : Action := seat.pick pair.p1 pair.p2

/-- The action is pending. -/
def Lies (value : Option PvPSession) (seat : Seat) (action : Action) : Prop :=
  ∀ sess∈value,pending sess seat=some action

/-- An accepted action is part of the first pair that is cleared afterwards; as
long as none has been cleared, it is what is pending for its player. -/
def NoTakeBacks (pairing : Pairing) (config : instances.Config) : Prop :=
  KeptWhere (acceptedAction pairing) takenPair shareOf (Lies config.world.value)
    config.world.trace

/-- A submission is not accepted over a different pending action of its player. -/
def OverNothing (pairing : Pairing) : GoStore.Event → Prop
  | .commit _ (.submit player action _) before _ =>
    (acceptingRound player action before).isSome=true →
      ∀ old∈pending before (seatOf pairing player),old=action
  | _ => True

instance (pairing : Pairing) : ∀ event : GoStore.Event,Decidable (OverNothing pairing event)
  | .commit _ (.submit player action _) before _ =>
    inferInstanceAs (Decidable ((acceptingRound player action before).isSome=true →
      ∀ old∈pending before (seatOf pairing player),old=action))
  | .commit _ (.connect _) _ _ | .commit _ .start _ _ | .commit _ (.disconnect _) _ _
  | .commit _ (.resolve _ _) _ _ | .commit _ (.forfeit _) _ _ | .conflict _ _ _ | .deleted _
  | .loaded _ _ | .note _ => instDecidableTrue

section Steps

variable {pairing : Pairing} {trace : List GoStore.Event} {sess sess' : PvPSession}
  {task : GoroutineId} {call : Call}

/-- A completed pair consists of what is then in the slots. -/
theorem shareOf_completed {cr : RoundState} {p1 p2 : Action} (h₁ : sess.p1Action=some p1)
    (h₂ : sess.p2Action=some p2) (seat : Seat) :
    pending sess seat=some (shareOf seat (.now cr p1 p2)) := by
  cases seat with
  | first => exact h₁
  | second => exact h₂

/-- Storing an action over nothing else leaves whatever is pending. -/
theorem pending_stored {player : String} {action : Action} {seat : Seat} {old : Action}
    (hplayers : Belongs pairing sess)
    (hover : ∀ old∈pending sess (seatOf pairing player),old=action)
    (h : pending sess seat=some old) :
    pending (storeInSlot player action sess) seat=some old := by
  rw [pending_storeInSlot hplayers]
  by_cases hs : seat=seatOf pairing player
  · have hold : old=action := hover old (hs ▸ h)
    rw [hs,Function.update_self,hold]
  · rw [Function.update_of_ne hs]
    exact h

/-- A submission. -/
theorem kept_submit {player : String} {action : Action} {stale captured : SubmitCaptured}
    (h : KeptWhere (acceptedAction pairing) takenPair shareOf (Lies (some sess)) trace)
    (hplayers : Belongs pairing sess) (hstores : Stores player action stale sess captured sess')
    (hover : OverNothing pairing (.commit task (.submit player action stale) sess sess')) :
    KeptWhere (acceptedAction pairing) takenPair shareOf (Lies (some sess'))
      (trace++[.commit task (.submit player action stale) sess sess']) := by
  have hown : pending (storeInSlot player action sess) (seatOf pairing player)=some action := by
    rw [pending_storeInSlot hplayers,Function.update_self]
  -- the submission fills its own slot and leaves the other one
  have hput : ∀ cr,acceptingRound player action sess=some cr →
      (∀ seat old,Lies (some sess) seat old →
        pending (storeInSlot player action sess) seat=some old) := by
    intro cr haccept seat old hlies
    exact pending_stored hplayers (hover (by rw [haccept]; rfl)) (hlies sess rfl)
  cases hstores with
  | rejected message hmessage hreject =>
    have hnone : completedPair player action sess=none := by
      simp only [completedPair,hreject]
    apply h.step
    · intro seat old hlies
      simp only [takenPair,hnone]
      exact hlies
    · intro seat old hdeposit
      simp [acceptedAction,hreject] at hdeposit
  | stored cr haccept hpair =>
    apply h.step
    · intro seat old hlies
      simp only [takenPair,hpair]
      rintro _ ⟨⟩
      exact hput cr haccept seat old hlies
    · intro seat old hdeposit
      simp only [acceptedAction,haccept,Option.map_some,Option.some.injEq,Prod.mk.injEq] at hdeposit
      obtain ⟨rfl,rfl⟩ := hdeposit
      simp only [takenPair,hpair]
      rintro _ ⟨⟩
      exact hown
  | completed cr p1 p2 haccept h₁ h₂ hpair =>
    apply h.step
    · intro seat old hlies
      simp only [takenPair,hpair]
      have hshare := @shareOf_completed _ cr _ _ h₁ h₂ seat
      exact Option.some.inj (hshare.symm.trans (hput cr haccept seat old hlies))
    · intro seat old hdeposit
      simp only [acceptedAction,haccept,Option.map_some,Option.some.injEq,Prod.mk.injEq] at hdeposit
      obtain ⟨rfl,rfl⟩ := hdeposit
      simp only [takenPair,hpair]
      have hshare := @shareOf_completed _ cr _ _ h₁ h₂ (seatOf pairing player)
      exact Option.some.inj (hshare.symm.trans hown)

/-- An event that accepts and clears nothing and leaves the slots alone. -/
theorem kept_other {event : GoStore.Event} {value value' : Option PvPSession}
    (h : KeptWhere (acceptedAction pairing) takenPair shareOf (Lies value) trace)
    (haccepts : acceptedAction pairing event=none) (htakes : takenPair event=none)
    (hsame : ∀ sess'∈value',∃ sess∈value,pending sess'=pending sess) :
    KeptWhere (acceptedAction pairing) takenPair shareOf (Lies value') (trace++[event]) := by
  apply h.step
  · intro seat old hlies
    rw [htakes]
    intro sess' hs
    obtain ⟨sess,hsess,hpending⟩ := hsame sess' hs
    rw [hpending]
    exact hlies sess hsess
  · intro seat old hdeposit
    rw [haccepts] at hdeposit
    cases hdeposit

/-- Every transaction that accepts nothing over a different action. -/
theorem kept_effect
    (h : KeptWhere (acceptedAction pairing) takenPair shareOf (Lies (some sess)) trace)
    (hplayers : Belongs pairing sess) (heffect : Effect pairing call sess sess')
    (hover : OverNothing pairing (.commit task call sess sess')) :
    KeptWhere (acceptedAction pairing) takenPair shareOf (Lies (some sess'))
      (trace++[.commit task call sess sess']) := by
  cases heffect with
  | keeps hcall hkeeps =>
    have hpending : pending sess'=pending sess := by
      unfold pending
      rw [hkeeps.p1Action,hkeeps.p2Action]
    have hsame : ∀ sess₁∈some sess',∃ sess₀∈some sess,pending sess₁=pending sess₀ := by
      rintro _ ⟨⟩
      exact ⟨sess,rfl,hpending⟩
    obtain rfl | ⟨player,rfl | rfl⟩ := hcall
    · exact kept_other h rfl rfl hsame
    · exact kept_other h rfl rfl hsame
    · exact kept_other h rfl rfl hsame
  | submit hplayer hstores => exact kept_submit h hplayers hstores hover
  | resolve =>
    refine kept_other h rfl rfl fun sess' hs => ⟨sess,rfl,?_⟩
    cases hs
    rfl
  | forfeit disconnected sess =>
    refine kept_other h rfl rfl fun sess' hs => ⟨sess,rfl,?_⟩
    cases hs
    rfl

end Steps

/-- A chronicle in which nothing is accepted over a different action keeps
whatever is accepted. -/
theorem kept_of_follows {pairing : Pairing} {trace : List GoStore.Event}
    (h : Meets (Follows pairing) trace) (hover : ∀ event∈trace,OverNothing pairing event) :
    KeptWhere (acceptedAction pairing) takenPair shareOf (Lies (sessionAfter pairing trace))
      trace := by
  induction trace using List.reverseRecOn with
  | nil =>
    intro earlier event later seat action hsplit
    cases earlier <;> cases hsplit
  | append_singleton trace event ih =>
    obtain ⟨hbefore,hlast⟩ := meets_append.mp h
    have hkept := ih hbefore fun event' hin => hover event' (List.mem_append_left _ hin)
    have hover' := hover event (List.mem_append_right _ (List.mem_singleton_self _))
    rw [sessionAfter,valueAfter_append]
    cases event with
    | commit task call before after =>
      obtain ⟨hv,hplayers,heffect⟩ := hlast
      rw [hv] at hkept
      exact kept_effect hkept hplayers heffect hover'
    | deleted task =>
      change KeptWhere _ _ _ (Lies none) _
      apply kept_other hkept rfl rfl
      rintro sess ⟨⟩
    | conflict | loaded | note =>
      change KeptWhere _ _ _ (Lies (sessionAfter pairing trace)) _
      apply kept_other hkept rfl rfl
      exact fun sess hs => ⟨sess,hs,rfl⟩

/-- So it is in every run. -/
theorem noTakeBacks {pairing : Pairing} {config : instances.Config}
    (hrun : (initial pairing).Reaches config)
    (hover : ∀ event∈config.world.trace,OverNothing pairing event) :
    NoTakeBacks pairing config := by
  have hchronicle := chronicle hrun
  have hvalue : config.world.value=sessionAfter pairing config.world.trace := hchronicle.value
  unfold NoTakeBacks
  rw [hvalue]
  exact kept_of_follows hchronicle.follows hover

/-- In every run of either server in which no submission is accepted over a
different action of its player, no accepted action is taken back. -/
theorem accepted_actions_final (pairing : Pairing) :
    (∀ config,(GameSession.initial pairing).Reaches config →
      (∀ event∈config.world.trace,FinalActions.OverNothing pairing event) →
      FinalActions.NoTakeBacks pairing config) ∧
    ∀ config,(initial pairing).Reaches config →
      (∀ event∈config.world.trace,OverNothing pairing event) → NoTakeBacks pairing config :=
  ⟨fun _ hrun hover => FinalActions.noTakeBacks hrun hover,
    fun _ hrun hover => noTakeBacks hrun hover⟩

/-- Player 1 connects to a Python worker and submits a charge. -/
def chargePending : List GameSession.workers.Move :=
  GameSession.opens 1 ["charge"]::GameSession.proceeds 0 8++GameSession.proceeds 0 5

/-- Player 1 connects to a Go instance and submits a charge. -/
def goChargePending : List instances.Move := opens 1 ["charge"]::proceeds 0 10++proceeds 0 6

/-- The charge of those runs stays pending. -/
theorem pending_charge_final :
    (∃ config,(GameSession.initial .small).Reaches config ∧
      config.world.value.map (SessionTurns.pending · .first)=some (some .charge) ∧
      FinalActions.NoTakeBacks .small config) ∧
    ∃ config,(initial .small).Reaches config ∧
      config.world.value.map (pending · .first)=some (some "charge") ∧
      NoTakeBacks .small config := by
  have hpython : ((GameSession.initial .small).run chargePending).map (fun config =>
      (config.world.value.map (SessionTurns.pending · .first),
        decide (∀ event∈config.world.trace,FinalActions.OverNothing .small event)))=
      some (some (some .charge),true) := by decide
  have hgo : ((initial .small).run goChargePending).map (fun config =>
      (config.world.value.map (pending · .first),
        decide (∀ event∈config.world.trace,OverNothing .small event)))=
      some (some (some "charge"),true) := by decide
  obtain ⟨config,hreach,hview⟩ := System.Config.reaches_of_map hpython
  obtain ⟨config',hreach',hview'⟩ := System.Config.reaches_of_map hgo
  obtain ⟨hpending,hover⟩ := Prod.mk.inj hview
  obtain ⟨hpending',hover'⟩ := Prod.mk.inj hview'
  exact ⟨⟨config,hreach,hpending,
      (accepted_actions_final .small).1 config hreach (of_decide_eq_true hover)⟩,
    config',hreach',hpending',
      (accepted_actions_final .small).2 config' hreach' (of_decide_eq_true hover')⟩

/-- The same with a block after the charge. -/
def goBlockAfterCharge : List instances.Move :=
  opens 1 ["charge","block"]::proceeds 0 10++proceeds 0 12

/-- In both servers the block takes the place of the accepted charge. -/
theorem block_replaces_charge :
    (¬∀ pairing config,(GameSession.initial pairing).Reaches config →
      FinalActions.NoTakeBacks pairing config) ∧
    ¬∀ pairing config,(initial pairing).Reaches config → NoTakeBacks pairing config := by
  constructor
  · intro h
    have hrun : ((GameSession.initial .small).run FinalActions.blockAfterCharge).map (fun config =>
        (config.world.trace.filterMap (FinalActions.acceptedAction .small),
          config.world.trace.filterMap FinalActions.takenPair,
          config.world.value.map (SessionTurns.pending · .first)))=
        some ([(.first,.charge),(.first,.block)],[],some (some .block)) := by decide
    obtain ⟨config,hreach,hview⟩ := System.Config.reaches_of_map hrun
    obtain ⟨haccepted,hview⟩ := Prod.mk.inj hview
    obtain ⟨htaken,hpending⟩ := Prod.mk.inj hview
    obtain ⟨session,hs,hblock⟩ := Option.map_eq_some_iff.mp hpending
    have hlies : FinalActions.Lies config.world.value .first .charge := by
      refine (h .small config hreach).lies_of_mem ?_ htaken
      rw [haccepted]
      exact List.mem_cons_self
    have hcharge := hlies session hs
    rw [hblock] at hcharge
    cases hcharge
  · intro h
    have hrun : ((initial .small).run goBlockAfterCharge).map (fun config =>
        (config.world.trace.filterMap (acceptedAction .small),
          config.world.trace.filterMap takenPair,
          config.world.value.map (pending · .first)))=
        some ([(.first,"charge"),(.first,"block")],[],some (some "block")) := by decide
    obtain ⟨config,hreach,hview⟩ := System.Config.reaches_of_map hrun
    obtain ⟨haccepted,hview⟩ := Prod.mk.inj hview
    obtain ⟨htaken,hpending⟩ := Prod.mk.inj hview
    obtain ⟨sess,hs,hblock⟩ := Option.map_eq_some_iff.mp hpending
    have hlies : Lies config.world.value .first "charge" := by
      refine (h .small config hreach).lies_of_mem ?_ htaken
      rw [haccepted]
      exact List.mem_cons_self
    have hcharge := hlies sess hs
    rw [hblock] at hcharge
    exact absurd (Option.some.inj hcharge) (by decide)

end KiClash.GoFinalActions
