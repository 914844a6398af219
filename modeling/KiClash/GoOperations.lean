import KiClash.GoSession
import KiClash.TaskPhases

/-!
# What the parts of the Go session perform

The operations that a goroutine can come to while it sends messages, runs a
transaction, resolves a turn or submits an action, for any predicate that the
operations of that kind satisfy. Whatever fails on the way is handled there.
-/

namespace KiClash.GoOperations

open GoTypes GoEngine ServerMessages AsyncTasks WatchedKey TaskPhases GoStore GoSession

/-- The predicate allows reading the session, talking to the players, waiting
and changing the turn timer of the instance. -/
structure Conducts (instance' : Instance) (allowed : Op language → Prop) : Prop where
  /-- WATCH. -/
  watch : allowed (.store .watch)
  /-- GET in a transaction. -/
  get : allowed (.store .get)
  /-- GET outside of one. -/
  load : allowed (.store .load)
  /-- Messages. -/
  send : ∀ player message,allowed (.act (.send instance' player message))
  /-- Pauses. -/
  sleep : ∀ tenths,allowed (.act (.sleep tenths))
  /-- The turn timer is cancelled. -/
  cancelTurnTimeout : allowed (.act (.cancelTurnTimeout instance'))
  /-- A turn timer is armed. -/
  setTurnTimeout : allowed (.act (.setTurnTimeout instance'))

/-- The predicate allows transactions of the call. -/
def Commits {L : Type} (allowed : Op language → Prop) (call : L → Call) : Prop :=
  ∀ token retriesLeft captured sess,allowed (.store (.exec token retriesLeft (call captured) sess))

section Programs

variable {instance' : Instance} {allowed : Op language → Prop} {α : Type}

/-- A program that has ended performs nothing. -/
theorem all_done (r : Except Failure α) : (.done r : Goroutine α).All allowed := True.intro

/-- Handling errors performs nothing. -/
theorem all_returned {p : Goroutine α} (h : p.All allowed) : (returned p).All allowed :=
  Prog.All.andThen h fun _ => all_done _

namespace Conducts

variable (h : Conducts instance' allowed)

include h

theorem loadSession : GoSession.loadSession.All allowed := by
  apply (Prog.All.perform h.load).bind
  intro value
  cases value with
  | none => exact all_done _
  | some sess => exact all_done _

/-- A transaction performs what its call says. -/
theorem watchAndUpdate {L : Type} {call : L → Call} (mutator : Mutator L) (attempts : ℕ)
    (captured : L) (hcall : Commits allowed call) :
    (GoSession.watchAndUpdate call mutator attempts captured).All allowed := by
  induction attempts generalizing captured with
  | zero => exact all_done _
  | succ attempts ih =>
    apply (Prog.All.perform h.watch).bind
    intro token
    apply (Prog.All.perform h.get).bind
    intro value
    cases value with
    | none => exact all_done _
    | some sess =>
      dsimp only
      cases mutator captured sess with
      | error e => exact all_done _
      | ok result =>
        apply (Prog.All.perform (hcall token attempts captured result.2)).bind
        intro committed
        cases committed with
        | true => exact h.loadSession.bind fun _ => all_done _
        | false => exact ih result.1

theorem sendWaitingForAction (sess : PvPSession) :
    (GoSession.sendWaitingForAction instance' sess).All allowed := by
  unfold GoSession.sendWaitingForAction
  split
  · exact all_done _
  · apply (Prog.All.perform (h.send _ _)).bind
    intro _
    apply (Prog.All.perform (h.send _ _)).bind
    intro _
    apply (Prog.All.perform h.cancelTurnTimeout).bind
    exact fun _ => Prog.All.perform h.setTurnTimeout

theorem promptNextTurn (roundEnded : Bool) :
    (GoSession.promptNextTurn instance' roundEnded).All allowed := by
  apply (Prog.All.perform (h.sleep _)).bind
  intro _
  apply (all_returned h.loadSession).bind
  intro result
  cases result with
  | error e => exact all_done _
  | ok fresh =>
    dsimp only
    split
    · exact h.sendWaitingForAction fresh
    · exact all_done _

theorem concludeResolve (captured : ResolveCaptured) (sess : PvPSession) :
    (GoSession.concludeResolve instance' captured sess).All allowed := by
  have hsend : ∀ player message,(GoSession.send instance' player message).All allowed :=
    fun player message => Prog.All.perform (h.send player message)
  have hround : ∀ p1id p2id result,(sendRoundResult instance' p1id p2id result).All allowed := by
    intro p1id p2id result
    cases result with
    | none => exact all_done _
    | some rr => exact (hsend _ _).bind fun _ => hsend _ _
  apply (Prog.All.perform h.cancelTurnTimeout).bind
  intro _
  apply (hsend _ _).bind
  intro _
  apply (hsend _ _).bind
  intro _
  apply (hround _ _ _).bind
  intro _
  cases captured.matchResult with
  | none => exact h.promptNextTurn _
  | some mr => exact (hsend _ _).bind fun _ => hsend _ _

theorem resolveTurn (p1 p2 : Action)
    (hresolve : Commits allowed fun _ : ResolveCaptured => .resolve p1 p2) :
    (GoSession.resolveTurn instance' p1 p2).All allowed := by
  apply (all_returned (h.watchAndUpdate _ _ _ hresolve)).bind
  intro result
  cases result with
  | error e => exact all_done _
  | ok result => exact h.concludeResolve result.1 result.2

theorem submitAction (player : String) (action : Action)
    (hsubmit : Commits allowed (Call.submit player action))
    (hresolve : ∀ p1 p2,Commits allowed fun _ : ResolveCaptured => .resolve p1 p2) :
    (GoSession.submitAction instance' player action).All allowed := by
  have hsend : ∀ player message,(GoSession.send instance' player message).All allowed :=
    fun player message => Prog.All.perform (h.send player message)
  apply (all_returned (h.watchAndUpdate _ _ _ hsubmit)).bind
  intro result
  cases result with
  | error e => cases e <;> exact hsend _ _
  | ok result =>
    change (concludeSubmit instance' player action result.1).All allowed
    unfold concludeSubmit
    split
    · exact hsend _ _
    · apply (hsend _ _).bind
      intro _
      split
      · exact h.resolveTurn _ _ (hresolve _ _)
      · exact all_done _

end Conducts

/-- An action cannot fail. -/
theorem outcome_act {o : LocalOp} {effective : Bool} {r : Except Failure (LocalOp.Res o)}
    (h : Outcome runtime (.act o) effective r) : effective=true ∧ ∃ res,r=.ok res := by
  obtain ⟨memory,task,exc,hraise,-⟩ | ⟨heffective,pick,task,fresh,memory,rfl⟩ := h.act
  · cases hraise
  · refine ⟨heffective,?_⟩
    cases o <;> exact ⟨_,rfl⟩

theorem returns_done (a : α) : Returns runtime (.done (.ok a) : Goroutine α) := ⟨a,rfl⟩

theorem returns_act (o : LocalOp) : Returns runtime (act o) :=
  fun _ _ ho => (outcome_act ho).2

theorem returns_returned (p : Goroutine α) : Returns runtime (returned p) :=
  returns_andThen fun r => ⟨r,rfl⟩

theorem returns_sendWaitingForAction (sess : PvPSession) :
    Returns runtime (sendWaitingForAction instance' sess) := by
  unfold sendWaitingForAction
  split
  · exact returns_done _
  · apply (returns_act _).bind
    intro _
    apply (returns_act _).bind
    intro _
    exact (returns_act _).bind fun _ => returns_act _

theorem returns_promptNextTurn (roundEnded : Bool) :
    Returns runtime (promptNextTurn instance' roundEnded) := by
  apply (returns_act _).bind
  intro _
  apply (returns_returned _).bind
  intro result
  cases result with
  | error e => exact returns_done _
  | ok fresh =>
    dsimp only
    split
    · exact returns_sendWaitingForAction fresh
    · exact returns_done _

theorem returns_resolveTurn (p1 p2 : Action) :
    Returns runtime (GoSession.resolveTurn instance' p1 p2) := by
  have hround : ∀ p1id p2id result,
      Returns runtime (sendRoundResult instance' p1id p2id result) := by
    intro p1id p2id result
    cases result with
    | none => exact returns_done _
    | some rr => exact (returns_act _).bind fun _ => returns_act _
  apply (returns_returned _).bind
  intro result
  cases result with
  | error e => exact returns_done _
  | ok result =>
    apply (returns_act _).bind
    intro _
    apply (returns_act _).bind
    intro _
    apply (returns_act _).bind
    intro _
    apply (hround _ _ _).bind
    intro _
    cases result.1.matchResult with
    | none => exact returns_promptNextTurn _
    | some mr => exact (returns_act _).bind fun _ => returns_act _

/-- submitAction handles whatever fails. -/
theorem returns_submitAction (player : String) (action : Action) :
    Returns runtime (submitAction instance' player action) := by
  apply (returns_returned _).bind
  intro result
  cases result with
  | error e => cases e <;> exact returns_act _
  | ok result =>
    change Returns runtime (concludeSubmit instance' player action result.1)
    unfold concludeSubmit
    split
    · exact returns_act _
    · apply (returns_act _).bind
      intro _
      split
      · exact returns_resolveTurn _ _
      · exact returns_done _

end Programs

end KiClash.GoOperations
