import KiClash.Absences
import KiClash.GoPresence

/-!
# Forfeits in the Go session

A forfeit timer is started by the handler that has removed a player, and it looks at
the session once, when its time has passed. Forfeits come after a full absence of the
player as long as the session knows better: a player who has had a socket since the
timer was started is connected in the session that it reads, and nobody comes back
while a timer goes on after its look.
-/

namespace KiClash.GoForfeits

open GoTypes AsyncTasks WatchedKey TaskPhases TransactionReads Histories Absences
open GameStore (Pairing)
open GoSessionContracts (p1Of p2Of IsPlayer Belongs)
open GoStore GoSession GoPhases GoTransactions GoPresence

/-- The player for whom a forfeit timer looks at the session. -/
def checks (performed : Performed watcher) : Option String :=
  match performed.phase,performed.op with
  | .forfeitTimer _ disconnected _ .checking,.store .load => some disconnected
  | _,_ => none

/-- A session in progress has him among the connected players. -/
def isKnown (world : World) (_ : Performed watcher) (player : String) : Bool :=
  world.value.all fun sess => sess.gameState.status≠matchInProgress || sess.hasConnected player

/-- The player whom a timer goes on to forfeit in this phase. -/
def pursues : Phase → Option String
  | .forfeitTimer _ disconnected _ .forfeiting => some disconnected
  | _ => none

/-- The player against whom a forfeit is committed. -/
def forfeited (performed : Performed watcher) : Option String :=
  match performed.phase,performed.op,performed.effective with
  | .forfeitTimer _ disconnected _ .forfeiting,.store (.exec _ _ _ _),true => some disconnected
  | _,_,_ => none

/-- The socket of the player is live. -/
def isLive (player : String) (socket : GoroutineId) (seen : Seen watcher) : Bool :=
  seen.phases[socket]?.any (socketOf player live)

/-- The forfeit timers of the instances. -/
abbrev reading : Reading watcher String := ⟨checks,isKnown,pursues,forfeited,isLive⟩

/-- A forfeit is committed against a player who has had no live socket on any
instance since the timer was started. -/
abbrev AfterAbsence : List Moment → Moment → Prop := reading.AfterAbsence

/-- When a timer looks at a session in progress, its player is connected in it if he has
had a live socket on any instance since the timer was started; and while a timer goes on
after its look, its player has no live socket. -/
abbrev WellInformed : List Moment → Moment → Prop := reading.WellInformed

/-- A timer that forfeits after an operation has forfeited before it, or it has looked at a
session in progress and has not found its player. -/
theorem forfeits_next {instance' : Instance} {player opponent : String} {stage : ForfeitStage}
    {effective : Bool} {task fresh : GoroutineId} {choice : Choice} {o : Op language}
    {world world' : World} {r : Except Failure o.Res} {started : Option Entry}
    (hp : WatchedKey.perform (R := runtime) choice task fresh o world=some (world',r,started))
    (h : stage.next player o r=.forfeiting) : stage=.forfeiting ∨
      checks ⟨task,.forfeitTimer instance' player opponent stage,o,effective,r⟩=some player ∧
        isKnown world ⟨task,.forfeitTimer instance' player opponent stage,o,effective,r⟩
          player=false := by
  unfold ForfeitStage.next at h
  split at h
  · split at h <;> cases h
  · next sess =>
    split at h
    · next hcheck =>
      simp only [Bool.and_eq_true,decide_eq_true_eq,Bool.not_eq_true'] at hcheck
      have hvalue : world.value=some sess := (perform_load hp).symm
      refine .inr ⟨rfl,?_⟩
      simp [isKnown,hvalue,hcheck.1,hcheck.2]
    · cases h
  · cases h
  · exact .inl h

/-- The forfeit timers have the laws of timers that ask before they act. -/
theorem lawful : reading.Lawful where
  start entry := by cases entry <;> rfl
  next := by
    intro task fresh choice phase o world world' r started player _ hp hpursues
    cases phase with
    | socket | turnTimer => cases hpursues
    | forfeitTimer instance' disconnected opponent stage =>
      change pursues (.forfeitTimer instance' disconnected opponent
        (stage.next disconnected o r))=some player at hpursues
      cases hnext : stage.next disconnected o r with
      | forfeiting =>
        rw [hnext] at hpursues
        cases hpursues
        obtain rfl | hlooked := forfeits_next hp hnext
        · exact .inl rfl
        · exact .inr hlooked
      | _ =>
        rw [hnext] at hpursues
        cases hpursues
  strikes := by
    intro performed player hforfeited
    change forfeited performed=some player at hforfeited
    unfold forfeited at hforfeited
    split at hforfeited
    · next hphase _ _ =>
      cases hforfeited
      change pursues performed.phase=some player
      rw [hphase]
      rfl
    · cases hforfeited

/-- In every run whose forfeit timers are informed, the forfeits that are committed come
after a full absence of the player. -/
theorem forfeits_after_absence (pairing : Pairing) {moves : List instances.Move}
    {seen : Seen watcher} (hrun : (Seen.initial watcher (initial pairing)).run moves=some seen)
    (hinformed : Meets WellInformed (momentsOf pairing moves)) :
    Meets AfterAbsence (momentsOf pairing moves) :=
  lawful.afterAbsence body_follows rfl hrun hinformed

/-- Player 1 connects and drops, and the forfeit timer goes through. -/
def dropsForGood : List instances.Move := opens 1 []::proceeds 0 18++proceeds 1 7

/-- A moment at which a forfeit is committed against the player. -/
def Forfeits (player : String) (moment : Moment) : Prop :=
  performs (fun performed => forfeited performed=some player) moment=true

instance (player : String) (moment : Moment) : Decidable (Forfeits player moment) :=
  inferInstanceAs (Decidable (_=_))

/-- The forfeit of that run comes after a full absence. -/
theorem dropped_player_forfeits : (∃ moment∈momentsOf .small dropsForGood,
      Forfeits (p1Of .small) moment) ∧
    Meets AfterAbsence (momentsOf .small dropsForGood) := by
  have hrun : ((Seen.initial watcher (initial .small)).run dropsForGood).isSome=true := by decide
  have hforfeit : ∃ moment∈momentsOf .small dropsForGood,Forfeits (p1Of .small) moment := by decide
  have hinformed : Meets WellInformed (momentsOf .small dropsForGood) := by decide
  obtain ⟨seen,hseen⟩ := Option.isSome_iff_exists.mp hrun
  exact ⟨hforfeit,forfeits_after_absence .small hseen hinformed⟩

/-- Player 1 connects to one instance and drops; he comes back to another instance
and drops again; then the first timer goes through. -/
def staleTimer : List instances.Move :=
  opens 1 []::proceeds 0 18++
    .open (.gameWebsocket 1 (p1Of .small) [])::proceeds 2 18++proceeds 1 5

/-- The first timer forfeits the match although he has had a live socket since it
was started. -/
theorem stale_timer_forfeits : ¬∀ (pairing : Pairing) (moves : List instances.Move)
    (seen : Seen watcher),(Seen.initial watcher (initial pairing)).run moves=some seen →
      Meets AfterAbsence (momentsOf pairing moves) := by
  intro h
  have hrun : ((Seen.initial watcher (initial .small)).run staleTimer).isSome=true := by decide
  have hpresent : ¬Meets AfterAbsence (momentsOf .small staleTimer) := by decide
  obtain ⟨seen,hseen⟩ := Option.isSome_iff_exists.mp hrun
  exact hpresent (h .small staleTimer seen hseen)

end KiClash.GoForfeits
