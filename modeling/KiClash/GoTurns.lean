import KiClash.GoChronicle
import KiClash.SlottedTurns
import Mathlib.Data.Prod.Lex

/-!
# The turns of the Go session as slots and a clock

As in the Python session the pending actions are the slots of the two seats and
the numbers of the open round are the clock. submitAction puts an action into a
slot whatever was there, and only resolveTurn ends a turn.
-/

namespace KiClash.GoTurns

open GoTypes GoEngine Histories AsyncTasks WatchedKey RecordedTasks SlottedTurns
open GameStore (Pairing)
open GoStore GoSession GoSessionContracts GoSessionContracts.SessionContract GoPendingPairs
open GoChronicle

section Engine

/-- The turn that the two actions produce in an open round. -/
abbrev nextTurn (cr : RoundState) (p1 p2 : Action) : TurnResult :=
  GoEngine.resolveTurn (cr.turnNumber+1) p1 p2 cr.p1Ki cr.p2Ki

/-- The open round after that turn. -/
abbrev nextRound (cr : RoundState) (p1 p2 : Action) : RoundState :=
  {cr with
    turnNumber := cr.turnNumber+1
    p1Ki := (nextTurn cr p1 p2).p1KiAfter
    p2Ki := (nextTurn cr p1 p2).p2KiAfter
    turnHistory := cr.turnHistory.append (nextTurn cr p1 p2)}

/-- The match with a finished round scored, recorded and closed. -/
abbrev closed (gs : GameState) (rr : RoundResult) : GameState :=
  {scoreRound gs rr.winner with
    roundResults := gs.roundResults.append rr
    currentRound := none}

/-- Everything an accepted turn can do to a match. -/
inductive Accepted (gs : GameState) (cr : RoundState) (p1 p2 : Action) : GameState → Prop
  | roundGoesOn : Accepted gs cr p1 p2 {gs with currentRound := some (nextRound cr p1 p2)}
  | roundCloses (rr : RoundResult)
      (hw : checkRoundEnd (nextTurn cr p1 p2) (nextRound cr p1 p2)=some rr) :
      Accepted gs cr p1 p2 (startNewRound (closed gs rr))
  | matchCloses (rr : RoundResult)
      (hw : checkRoundEnd (nextTurn cr p1 p2) (nextRound cr p1 p2)=some rr) :
      Accepted gs cr p1 p2 {closed gs rr with status := matchCompleted}

/-- applyTurn when the turn ends the round. -/
theorem applyTurn_closes {gs : GameState} {cr : RoundState} {p1 p2 : Action} {rr : RoundResult}
    (hw : checkRoundEnd (nextTurn cr p1 p2) (nextRound cr p1 p2)=some rr) :
    (applyTurn gs cr p1 p2).1=match checkMatchEnd (closed gs rr) with
      | some _ => {closed gs rr with status := matchCompleted}
      | none => startNewRound (closed gs rr) := by
  have hclosed : ∀ gs' : GameState,gs'=closed gs rr →
      (match checkMatchEnd gs' with
        | some mr => ({gs' with status := matchCompleted},
            (⟨nextTurn cr p1 p2,some rr,some mr⟩ : TurnReport))
        | none => (startNewRound gs',⟨nextTurn cr p1 p2,some rr,none⟩)).1=
      match checkMatchEnd (closed gs rr) with
        | some _ => {closed gs rr with status := matchCompleted}
        | none => startNewRound (closed gs rr) := by
    rintro gs' rfl
    cases checkMatchEnd (closed gs rr) <;> rfl
  unfold GoEngine.applyTurn
  dsimp only
  rw [hw]
  apply hclosed
  unfold closed scoreRound
  split_ifs <;> rfl

/-- applyTurn does one of the three. -/
theorem applyTurn_accepted (gs : GameState) (cr : RoundState) (p1 p2 : Action) :
    Accepted gs cr p1 p2 (applyTurn gs cr p1 p2).1 := by
  cases hw : checkRoundEnd (nextTurn cr p1 p2) (nextRound cr p1 p2) with
  | none =>
    unfold GoEngine.applyTurn
    dsimp only
    rw [hw]
    exact .roundGoesOn
  | some rr =>
    rw [applyTurn_closes hw]
    split
    · exact .matchCloses rr hw
    · exact .roundCloses rr hw

/-- What submitTurn accepts does one of the three. -/
theorem accepted_of_submitTurn {gs gs' : GameState} {p1 p2 : Action} {report : TurnReport}
    (h : submitTurn gs p1 p2=(gs',.ok report)) :
    ∃ cr,gs.status=matchInProgress ∧ gs.currentRound=some cr ∧ validateAction p1 cr.p1Ki=true ∧
      validateAction p2 cr.p2Ki=true ∧ Accepted gs cr p1 p2 gs' := by
  obtain ⟨e,he,-⟩ | ⟨cr,hs,hr,h₁,h₂,he⟩ := submitTurn_cases gs p1 p2
  · rw [h] at he
    cases he
  · rw [h] at he
    cases he
    exact ⟨cr,hs,hr,h₁,h₂,applyTurn_accepted gs cr p1 p2⟩

end Engine

/-- A round and a turn of it, in the order in which they are played. -/
abbrev TurnKey := ℤ ×ₗ ℤ

/-- The turn that is current in the open round. -/
def turnOf (cr : RoundState) : TurnKey := toLex (cr.roundNumber,cr.turnNumber+1)

/-- The seat of a player. -/
def seatOf (pairing : Pairing) (player : String) : Seat :=
  if player=p1Of pairing then .first else .second

/-- What an event means for the slots. -/
def slotStep (pairing : Pairing) : GoStore.Event → Step TurnKey Action
  | .commit task (.submit player action _) before _ =>
    match acceptingRound player action before with
    | some cr => .accepted (seatOf pairing player) ⟨task,turnOf cr,action⟩
    | none => .other
  | .commit task (.resolve p1 p2) before _ =>
    match openRound before with
    | some cr => .applied task (turnOf cr) p1 p2
    | none => .other
  | _ => .other

/-- The pending action of a seat. -/
def pending (sess : PvPSession) : Seat → Option Action := Seat.pick sess.p1Action sess.p2Action

/-- What the record as slots and clock has to do with the stored session. -/
structure Fits (steps : List (Step TurnKey Action)) (sess : PvPSession) : Prop where
  /-- The pending actions are what lies in the slots. -/
  slots : ∀ seat,((table steps).slots seat).map Deposit.action=pending sess seat
  /-- Rounds are numbered in the order in which they are played. -/
  numbered : ∀ cr,sess.gameState.currentRound=some cr →
    cr.roundNumber=sess.gameState.roundResults.length+1
  /-- The open round shows the current turn, which is later than all applied ones. -/
  clock : ∀ cr,openRound sess=some cr → (∀ turn∈clock steps,turn=turnOf cr) ∧
    ∀ turn∈appliedTurns steps,turn<turnOf cr

section Steps

variable {pairing : Pairing} {steps : List (Step TurnKey Action)} {sess sess' : PvPSession}
  {task : GoroutineId}

/-- A change that touches neither the pending actions nor the rounds. -/
theorem Fits.unchanged (h : Fits steps sess) (hpending : pending sess'=pending sess)
    (hround : sess'.gameState.currentRound=sess.gameState.currentRound)
    (hresults : sess'.gameState.roundResults=sess.gameState.roundResults)
    (hopen : ∀ cr,openRound sess'=some cr → openRound sess=some cr) :
    Fits (steps++[.other]) sess' where
  slots := by
    intro seat
    rw [table_append,hpending]
    exact h.slots seat
  numbered := by
    intro cr hr
    rw [hresults]
    exact h.numbered cr (hround ▸ hr)
  clock := by
    intro cr hr
    have hc := h.clock cr (hopen cr hr)
    simpa [appliedTurns] using hc

/-- Storing an action fills the slot of the player's seat. -/
theorem pending_storeInSlot {player : String} {action : Action} (hplayers : Belongs pairing sess) :
    pending (storeInSlot player action sess)=
      Function.update (pending sess) (seatOf pairing player) (some action) := by
  funext seat
  unfold storeInSlot seatOf pending
  rw [hplayers.1]
  split <;> cases seat <;> simp [Seat.pick]

/-- A pair is complete in the slots when it is in the session. -/
theorem full_of_slots {slots : Seat → Option (Deposit TurnKey Action)}
    (h : ∀ seat,(slots seat).map Deposit.action=pending sess seat) :
    (full slots).isSome ↔ sess.p1Action.isSome ∧ sess.p2Action.isSome := by
  have h₁ : (slots .first).isSome=sess.p1Action.isSome := by
    rw [← Option.isSome_map (f := Deposit.action),h .first]
    rfl
  have h₂ : (slots .second).isSome=sess.p2Action.isSome := by
    rw [← Option.isSome_map (f := Deposit.action),h .second]
    rfl
  rw [← h₁,← h₂]
  unfold full
  cases slots .first <;> cases slots .second <;> simp

/-- A submission. -/
theorem Fits.submit {player : String} {action : Action} {stale captured : SubmitCaptured}
    (h : Fits steps sess) (hplayers : Belongs pairing sess)
    (hstores : Stores player action stale sess captured sess') :
    Fits (steps++[slotStep pairing (.commit task (.submit player action stale) sess sess')])
      sess' := by
  have hput : ∀ deposit : Deposit TurnKey Action,deposit.action=action → ∀ seat,
      (put (table steps).slots (seatOf pairing player) deposit seat).map Deposit.action=
        pending (storeInSlot player action sess) seat := by
    intro deposit ha seat
    rw [pending_storeInSlot hplayers]
    by_cases hs : seat=seatOf pairing player
    · subst hs
      simp [put,ha]
    · simp only [put,Function.update_of_ne hs]
      exact h.slots seat
  -- the match is what it was, and the clock shows its turn
  have hrest : ∀ {cr sess₁} deposit,acceptingRound player action sess=some cr →
      deposit=(⟨task,turnOf cr,action⟩ : Deposit TurnKey Action) →
      sess₁.gameState=sess.gameState →
      (∀ seat,((table (steps++[.accepted (seatOf pairing player) deposit])).slots seat).map
        Deposit.action=pending sess₁ seat) →
      Fits (steps++[.accepted (seatOf pairing player) deposit]) sess₁ := by
    intro cr sess₁ deposit haccept hdeposit hgame hslots
    refine ⟨hslots,?_,?_⟩
    · rw [hgame]
      exact h.numbered
    · intro cr' hr
      rw [openRound_congr hgame] at hr
      have hround : cr'=cr :=
        Option.some.inj (hr.symm.trans (acceptingRound_eq_some.mp haccept).1)
      obtain ⟨-,happlied⟩ := h.clock cr' hr
      simp only [clock_append,appliedTurns_append,hdeposit]
      refine ⟨fun turn ht => ?_,?_⟩
      · rw [hround]
        exact (Option.some.inj ht).symm
      · simpa [appliedTurns] using happlied
  cases hstores with
  | rejected message hmessage hreject =>
    have hstep : slotStep pairing (.commit task (.submit player action stale) sess sess)=
        .other := by simp only [slotStep,hreject]
    rw [hstep]
    exact h.unchanged rfl rfl rfl fun _ hr => hr
  | stored cr haccept hpair =>
    have hstep : ∀ after,slotStep pairing (.commit task (.submit player action stale) sess after)=
        .accepted (seatOf pairing player) ⟨task,turnOf cr,action⟩ := by
      intro after
      simp only [slotStep,haccept]
    rw [hstep]
    refine hrest _ haccept rfl (storeInSlot_gameState player action sess) fun seat => ?_
    have hput' := hput ⟨task,turnOf cr,action⟩ rfl
    have hfull : full (put (table steps).slots (seatOf pairing player)
        ⟨task,turnOf cr,action⟩)=none := by
      rw [← Option.not_isSome_iff_eq_none,full_of_slots hput']
      rintro ⟨h₁,h₂⟩
      obtain ⟨p1,h₁⟩ := Option.isSome_iff_exists.mp h₁
      obtain ⟨p2,h₂⟩ := Option.isSome_iff_exists.mp h₂
      simp [completedPair,haccept,h₁,h₂] at hpair
    rw [table_append]
    simp only [Table.advance,hfull]
    exact hput' seat
  | completed cr p1 p2 haccept h₁ h₂ hpair =>
    have hstep : ∀ after,slotStep pairing (.commit task (.submit player action stale) sess after)=
        .accepted (seatOf pairing player) ⟨task,turnOf cr,action⟩ := by
      intro after
      simp only [slotStep,haccept]
    rw [hstep]
    have hgame : (cleared (storeInSlot player action sess)).gameState=sess.gameState :=
      storeInSlot_gameState player action sess
    refine hrest _ haccept rfl hgame fun seat => ?_
    obtain ⟨pair,hfull⟩ := Option.isSome_iff_exists.mp
      ((full_of_slots (hput ⟨task,turnOf cr,action⟩ rfl)).mpr (by simp [h₁,h₂]))
    rw [table_append]
    simp only [Table.advance,hfull]
    cases seat <;> rfl

/-- Recording a result makes the list one longer. -/
theorem length_append (results : Slice RoundResult) (rr : RoundResult) :
    (results.append rr).length=results.length+1 := by
  simp [Slice.append,Slice.length,Slice.elements]

/-- The turn after an accepted one is a later one, and rounds stay numbered. -/
theorem turn_advances {gs gs' : GameState} {cr cr' : RoundState} {p1 p2 : Action}
    (h : Accepted gs cr p1 p2 gs') (hnumbered : cr.roundNumber=gs.roundResults.length+1)
    (hround' : gs'.currentRound=some cr') :
    turnOf cr<turnOf cr' ∧ cr'.roundNumber=gs'.roundResults.length+1 := by
  unfold turnOf
  rw [Prod.Lex.toLex_lt_toLex]
  cases h with
  | roundGoesOn =>
    cases hround'
    refine ⟨.inr ⟨rfl,?_⟩,hnumbered⟩
    dsimp only
    omega
  | roundCloses rr =>
    cases hround'
    refine ⟨.inl ?_,rfl⟩
    rw [hnumbered]
    change gs.roundResults.length+1<(gs.roundResults.append rr).length+1
    rw [length_append]
    omega
  | matchCloses => cases hround'

/-- A resolution. -/
theorem Fits.resolve {p1 p2 : Action} {gameState : GameState} {report : TurnReport}
    (h : Fits steps sess) (hsubmit : submitTurn sess.gameState p1 p2=(gameState,.ok report)) :
    Fits (steps++[slotStep pairing (.commit task (.resolve p1 p2) sess
      {sess with gameState := gameState})]) {sess with gameState := gameState} := by
  obtain ⟨cr,hstatus,hround,-,-,haccepted⟩ := accepted_of_submitTurn hsubmit
  have hopen : openRound sess=some cr := openRound_eq_some.mpr ⟨hstatus,hround⟩
  have hstep : ∀ after,slotStep pairing (.commit task (.resolve p1 p2) sess after)=
      .applied task (turnOf cr) p1 p2 := by
    intro after
    simp only [slotStep,hopen]
  have hadvances : ∀ {cr'},gameState.currentRound=some cr' →
      turnOf cr<turnOf cr' ∧ cr'.roundNumber=gameState.roundResults.length+1 :=
    fun hr => turn_advances haccepted (h.numbered cr hround) hr
  rw [hstep]
  constructor
  · intro seat
    rw [table_append]
    exact h.slots seat
  · exact fun cr' hr => (hadvances hr).2
  · intro cr' hr
    have hlater := (hadvances (openRound_eq_some.mp hr).2).1
    obtain ⟨-,happlied⟩ := h.clock cr hopen
    rw [clock_append,appliedTurns_append]
    refine ⟨nofun,fun turn ht => ?_⟩
    rcases List.mem_append.mp ht with ht | ht
    · exact lt_trans (happlied turn ht) hlater
    · rw [List.mem_singleton.mp ht]
      exact hlater

/-- Every transaction of the chronicle keeps the reading. -/
theorem Fits.effect {call : Call} (h : Fits steps sess) (hplayers : Belongs pairing sess)
    (heffect : Effect pairing call sess sess') :
    Fits (steps++[slotStep pairing (.commit task call sess sess')]) sess' := by
  cases heffect with
  | keeps hcall hkeeps =>
    have hstep : slotStep pairing (.commit task call sess sess')=.other := by
      obtain rfl | ⟨player,rfl | rfl⟩ := hcall <;> rfl
    rw [hstep]
    have hgame := hkeeps.gameState
    refine h.unchanged ?_ (by rw [hgame]) (by rw [hgame]) fun cr hr =>
      (openRound_congr hgame).symm.trans hr
    unfold pending
    rw [hkeeps.p1Action,hkeeps.p2Action]
  | submit _ hstores => exact h.submit hplayers hstores
  | resolve hsubmit => exact h.resolve hsubmit
  | forfeit disconnected sess =>
    refine h.unchanged rfl rfl rfl fun cr hr => ?_
    have hstatus : matchAbandoned=matchInProgress := (openRound_eq_some.mp hr).1
    exact absurd hstatus (by decide)

/-- A transaction of the chronicle shows the current turn. -/
theorem Fits.clocked {call : Call} (h : Fits steps sess) :
    Clocked steps (slotStep pairing (.commit task call sess sess')) := by
  intro turn ht
  have hstep : ∃ cr,openRound sess=some cr ∧ turn=turnOf cr := by
    cases call with
    | submit player action stale =>
      simp only [slotStep] at ht
      split at ht
      · next cr haccept =>
        exact ⟨cr,(acceptingRound_eq_some.mp haccept).1,(Option.some.inj ht).symm⟩
      · cases ht
    | resolve p1 p2 =>
      simp only [slotStep] at ht
      split at ht
      · next cr hopen => exact ⟨cr,hopen,(Option.some.inj ht).symm⟩
      · cases ht
    | connect | start | disconnect | forfeit => cases ht
  obtain ⟨cr,hopen,rfl⟩ := hstep
  exact h.clock cr hopen

end Steps

/-- The steps of a record. -/
abbrev slotSteps (pairing : Pairing) (trace : List GoStore.Event) : List (Step TurnKey Action) :=
  trace.map (slotStep pairing)

/-- A record read as slots and clock. -/
structure Turns (pairing : Pairing) (trace : List GoStore.Event) : Prop where
  /-- The stored session fits the reading. -/
  fits : ∀ sess,sessionAfter pairing trace=some sess → Fits (slotSteps pairing trace) sess
  /-- The clock goes forward. -/
  clocked : Meets Clocked (slotSteps pairing trace)

/-- The session that has just been saved has empty slots. -/
theorem turns_nil (pairing : Pairing) : Turns pairing [] := by
  refine ⟨fun sess hs => ?_,True.intro⟩
  cases hs
  constructor
  · intro seat
    cases seat <;> rfl
  · intro cr hr
    cases hr
    rfl
  · intro cr hr
    exact ⟨nofun,nofun⟩

/-- Every event of the chronicle keeps the reading. -/
theorem Turns.step {pairing : Pairing} {trace : List GoStore.Event} (h : Turns pairing trace)
    {event : GoStore.Event} (hfollows : Follows pairing trace event) :
    Turns pairing (trace++[event]) := by
  have hmap : slotSteps pairing (trace++[event])=
      slotSteps pairing trace++[slotStep pairing event] := by simp [slotSteps]
  cases event with
  | commit task call before after =>
    obtain ⟨hv,hplayers,heffect⟩ := hfollows
    have hfits := h.fits before hv
    refine ⟨fun sess hs => ?_,?_⟩
    · rw [sessionAfter,valueAfter_append] at hs
      cases hs
      rw [hmap]
      exact hfits.effect hplayers heffect
    · rw [hmap]
      exact meets_append.mpr ⟨h.clocked,hfits.clocked⟩
  | deleted task =>
    refine ⟨fun sess hs => ?_,?_⟩
    · rw [sessionAfter,valueAfter_append] at hs
      cases hs
    · rw [hmap]
      refine meets_append.mpr ⟨h.clocked,fun turn ht => ?_⟩
      cases ht
  | conflict | loaded | note =>
    refine ⟨fun sess hs => ?_,?_⟩
    · rw [sessionAfter,valueAfter_append] at hs
      rw [hmap]
      exact (h.fits sess hs).unchanged rfl rfl rfl fun _ hr => hr
    · rw [hmap]
      refine meets_append.mpr ⟨h.clocked,fun turn ht => ?_⟩
      cases ht

/-- Every chronicle can be read as slots and clock. -/
theorem turns_of_follows {pairing : Pairing} {trace : List GoStore.Event}
    (h : Meets (Follows pairing) trace) : Turns pairing trace := by
  induction trace using List.reverseRecOn with
  | nil => exact turns_nil pairing
  | append_singleton trace event ih =>
    obtain ⟨hbefore,hlast⟩ := meets_append.mp h
    exact (ih hbefore).step hlast

/-- So can the record of every run. -/
theorem turns {pairing : Pairing} {config : instances.Config}
    (hrun : (initial pairing).Reaches config) : Turns pairing config.world.trace :=
  turns_of_follows (chronicle hrun).follows

end KiClash.GoTurns
