import KiClash.Absences
import KiClash.GameTransactions

/-!
# Forfeits in the Python session

A forfeit timer runs on the worker whose handler has seen the player leave. When
its time has passed it asks the connection manager of that worker, once, whether
the player is connected. Forfeits come after a full absence of the player as long as
the managers know better: a player who has had a socket since the timer was started is
connected for the manager that is asked, and nobody comes back while a timer goes on
after its question.
-/

namespace KiClash.Forfeits

open EngineTypes AsyncTasks WatchedKey TaskPhases TransactionReads Histories Absences
open GameStore GameSession GamePhases GameTransactions

/-- The socket is live: it has been accepted, its client has not been found gone, and
its handler has not turned it away. -/
def live : Stage → Bool
  | .accepted | .entering | .connecting _ | .returning | .counting | .starting _
  | .prompting _ _ | .playing _ _ => true
  | _ => false

/-- The task handles a live socket of the player. -/
def isLive (player : UUID) (socket : TaskId) (seen : Seen watcher) : Bool :=
  seen.runs socket && seen.phases[socket]?.any fun phase => match phase.control with
    | .socket _ other stage => other=player && live stage
    | _ => false

/-- The answer of a connection manager: it knows a socket of the player, and not that
its client is gone. -/
def isConnected (worker : Worker) (player : UUID) (memory : Memory) : Bool :=
  memory.connections.any fun entry =>
    entry.1=worker ∧ entry.2.1=player ∧ entry.2.2∉memory.closed

/-- The player for whom a forfeit timer asks. -/
def asks (performed : Performed watcher) : Option UUID :=
  match performed.phase.control,performed.op with
  | .forfeitTimer _ disconnected _ .asking,.act (.isConnected _ _) => some disconnected
  | _,_ => none

/-- The connection manager that is asked knows him as connected. -/
def isKnown (world : World) (performed : Performed watcher) (player : UUID) : Bool :=
  match performed.op with
  | .act (.isConnected worker _) => isConnected worker player world.memory
  | _ => true

/-- The timer goes on after its question. -/
def goesOn : ForfeitStage → Bool
  | .loading | .forfeiting => true
  | .waiting | .asking | .over => false

/-- The player whom a timer goes on to forfeit in this phase. -/
def pursues (phase : Phase) : Option UUID :=
  match phase.control with
  | .forfeitTimer _ disconnected _ stage => if goesOn stage then some disconnected else none
  | _ => none

/-- The player against whom a forfeit is committed. -/
def forfeited (performed : Performed watcher) : Option UUID :=
  match performed.phase.control,performed.op,performed.effective with
  | .forfeitTimer _ disconnected _ .forfeiting,.store (.exec _ _ _ _),true => some disconnected
  | _,_,_ => none

/-- The forfeit timers of the workers. -/
abbrev reading : Reading watcher UUID := ⟨asks,isKnown,pursues,forfeited,isLive⟩

/-- A forfeit is committed against a player who has had no live socket on any worker
since the timer was started. -/
abbrev AfterAbsence : List Moment → Moment → Prop := reading.AfterAbsence

/-- When a timer asks, its player is connected for the manager of its worker if he has had a
live socket on any worker since the timer was started; and while a timer goes on after its
question, its player has no live socket. -/
abbrev WellInformed : List Moment → Moment → Prop := reading.WellInformed

/-- A timer that goes on after an operation has gone on before it, or the answer to its
question has been that its player is not connected. -/
theorem goesOn_next {worker : Worker} {player opponent : UUID} {stage : ForfeitStage}
    {attempt : Attempt PvPSessionState} {effective : Bool} {task fresh : TaskId}
    {choice : Choice} {o : Op language} {world world' : World} {r : Except Exc o.Res}
    {started : Option Entry}
    (hallows : (Control.forfeitTimer worker player opponent stage).Allows o)
    (hp : WatchedKey.perform (R := runtime) choice task fresh o world=some (world',r,started))
    (h : goesOn (stage.next o r)=true) : goesOn stage=true ∨
      asks ⟨task,⟨.forfeitTimer worker player opponent stage,attempt⟩,o,effective,r⟩=some player ∧
        isKnown world ⟨task,⟨.forfeitTimer worker player opponent stage,attempt⟩,o,effective,r⟩
          player=false := by
  cases stage with
  | loading | forfeiting => exact .inl rfl
  | asking =>
    match o with
    | .act (.isConnected worker' player') =>
      obtain ⟨opponent',he⟩ := hallows
      cases he
      obtain ⟨pick,-,he⟩ | ⟨exc,-,rfl,-⟩ := perform_cases hp
      · cases he
        refine .inr ⟨rfl,Bool.eq_false_iff.mpr fun hc => ?_⟩
        have hknown : isConnected worker player world.memory=true := hc
        have hanswer : goesOn (if isConnected worker player world.memory then .over
          else .loading)=true := h
        rw [hknown] at hanswer
        cases hanswer
      · cases h
    | .store _ | .act (.send _ _ _) | .act (.sendJson _) | .act .accept | .act (.safeClose _ _)
    | .act (.receive _) | .act (.sleep _) | .act (.register _ _) | .act (.unregister _ _)
    | .act (.roomSize _) | .act (.cancelTimeout _) | .act (.restartTimeout _)
    | .act (.cancelDisconnect _ _) | .act (.startDisconnect _ _ _) | .act (.cleanup _) =>
      cases r <;> cases h
  -- it waits, or is over
  | _ => cases r <;> cases h

/-- The forfeit timers have the laws of timers that ask before they act. -/
theorem lawful : reading.Lawful where
  start entry := by cases entry <;> rfl
  next := by
    intro task fresh choice phase o world world' r started player hallows hp hpursues
    obtain ⟨control,attempt⟩ := phase
    cases control with
    | socket | turnTimer => cases hpursues
    | forfeitTimer worker disconnected opponent stage =>
      obtain ⟨hgoes,hsome⟩ := Option.ite_none_right_eq_some.mp hpursues
      cases hsome
      obtain hbefore | hasked := goesOn_next hallows.1 hp hgoes
      · exact .inl (if_pos hbefore)
      · exact .inr hasked
  strikes := by
    intro performed player hforfeited
    change forfeited performed=some player at hforfeited
    unfold forfeited at hforfeited
    split at hforfeited
    · next hcontrol _ _ =>
      cases hforfeited
      change pursues performed.phase=some player
      rw [pursues,hcontrol]
      rfl
    · cases hforfeited

/-- In every run whose forfeit timers are informed, the forfeits that are committed come
after a full absence of the player. -/
theorem forfeits_when_well_informed (pairing : Pairing) {moves : List workers.Move}
    {seen : Seen watcher} (hrun : (Seen.initial watcher (initial pairing)).run moves=some seen)
    (hinformed : Meets WellInformed (momentsOf pairing moves)) :
    Meets AfterAbsence (momentsOf pairing moves) :=
  lawful.afterAbsence body_follows rfl hrun hinformed

/-- Player 1 connects and drops, and the forfeit timer goes through. -/
def dropsForGood : List workers.Move := opens 1 []::proceeds 0 14++proceeds 1 8

/-- A moment at which a forfeit is committed against the player. -/
def ForfeitsAgainst (player : UUID) (moment : Moment) : Prop :=
  performs (fun performed => forfeited performed=some player) moment=true

instance (player : UUID) (moment : Moment) : Decidable (ForfeitsAgainst player moment) :=
  inferInstanceAs (Decidable (_=_))

/-- The forfeit of that run comes after a full absence. -/
theorem gone_player_forfeits : (∃ moment∈momentsOf .small dropsForGood,
      ForfeitsAgainst (.small 1) moment) ∧
    Meets AfterAbsence (momentsOf .small dropsForGood) := by
  have hrun : ((Seen.initial watcher (initial .small)).run dropsForGood).isSome=true := by decide
  have hforfeit : ∃ moment∈momentsOf .small dropsForGood,ForfeitsAgainst (.small 1) moment := by
    decide
  have hinformed : Meets WellInformed (momentsOf .small dropsForGood) := by decide
  obtain ⟨seen,hseen⟩ := Option.isSome_iff_exists.mp hrun
  exact ⟨hforfeit,forfeits_when_well_informed .small hseen hinformed⟩

/-- Player 1 connects to one worker and drops; he comes back to another worker, and
the timer of the first one goes through. -/
def returnsElsewhere : List workers.Move :=
  opens 1 []::proceeds 0 14++.open (.gameWs 1 (.small 1) [])::proceeds 2 8++proceeds 1 8

/-- The match is forfeited against him while his second socket is live. -/
theorem present_player_forfeited : ¬∀ (pairing : Pairing) (moves : List workers.Move)
    (seen : Seen watcher),(Seen.initial watcher (initial pairing)).run moves=some seen →
      Meets AfterAbsence (momentsOf pairing moves) := by
  intro h
  have hrun : ((Seen.initial watcher (initial .small)).run returnsElsewhere).isSome=true := by
    decide
  have hpresent : ¬Meets AfterAbsence (momentsOf .small returnsElsewhere) := by decide
  obtain ⟨seen,hseen⟩ := Option.isSome_iff_exists.mp hrun
  exact hpresent (h .small returnsElsewhere seen hseen)

end KiClash.Forfeits
