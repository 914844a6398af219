import KiClash.GameSession
import KiClash.Histories
import KiClash.WatchedKeyRules

/-!
# Only timers are cancelled

A worker cancels the tasks that it finds in _timeout_tasks and
_disconnect_tasks. Only timers are put there, so a cancellation never reaches
the handler of a socket. This holds of every run, whatever the programs are.
-/

namespace KiClash.TimerCancellations

open EngineTypes AsyncTasks WatchedKey Histories GameStore GameSession

/-- A timer rather than the handler of a socket. -/
def isTimer : Entry → Bool
  | .gameWs _ _ _ => false
  | .turnTimeout _ | .forfeitAfterTimeout _ _ _ => true

/-- The event is the start of this task as a timer. -/
def startsTimer (task : TaskId) : GameStore.Event → Bool
  | .note (.started task' entry) => task'=task && isTimer entry
  | _ => false

/-- The task has been started as a timer. -/
def Timer (trace : List GameStore.Event) (task : TaskId) : Prop :=
  trace.any (startsTimer task)=true

instance (trace : List GameStore.Event) (task : TaskId) : Decidable (Timer trace task) :=
  inferInstanceAs (Decidable (_=true))

/-- A timer stays one. -/
theorem Timer.append {trace : List GameStore.Event} {task : TaskId} (h : Timer trace task)
    (events : List GameStore.Event) : Timer (trace++events) task := by
  unfold Timer at h ⊢
  rw [List.any_append,h]
  rfl

/-- And on every longer record. -/
theorem Timer.later {trace trace' : List GameStore.Event} {task : TaskId} (h : Timer trace task)
    (hp : trace <+: trace') : Timer trace' task := by
  obtain ⟨events,rfl⟩ := hp
  exact h.append events

/-- A record becomes that of a timer only by the start of one. -/
theorem timer_append {trace : List GameStore.Event} {event : GameStore.Event} {task : TaskId} :
    Timer (trace++[event]) task ↔ Timer trace task ∨ startsTimer task event=true := by
  simp [Timer]

/-- Cancellations only reach timers. -/
def CancelsTimers (earlier : List GameStore.Event) : GameStore.Event → Prop
  | .note (.raised task .cancelled) => Timer earlier task
  | _ => True

/-- The memory of the workers refers to the task as one that may be cancelled. -/
def Refers (memory : Memory) (task : TaskId) : Prop :=
  task∈memory.cancelled ∨ (∃ worker,memory.timeoutTask worker=some task) ∨
    ∃ entry∈memory.disconnectTasks,entry.2.2=task

section Memory

variable {memory : Memory} {task timer : TaskId} {worker : Worker}

theorem refers_cancelTimeout (h : Refers (memory.cancelTimeout worker) task) :
    Refers memory task := by
  unfold Memory.cancelTimeout at h
  cases ht : memory.timeoutTask worker with
  | none =>
    rw [ht] at h
    exact h
  | some timer =>
    rw [ht] at h
    obtain hc | ⟨other,hother⟩ | hd := h
    · rcases List.mem_cons.mp hc with rfl | hc
      · exact .inr (.inl ⟨worker,ht⟩)
      · exact .inl hc
    · dsimp only at hother
      split at hother
      · cases hother
      · exact .inr (.inl ⟨other,hother⟩)
    · exact .inr (.inr hd)

theorem refers_setTimeout (h : Refers (memory.setTimeout worker timer) task) :
    Refers memory task ∨ task=timer := by
  obtain hc | ⟨other,hother⟩ | hd := h
  · exact .inl (.inl hc)
  · dsimp only [Memory.setTimeout] at hother
    split at hother
    · exact .inr (Option.some.inj hother).symm
    · exact .inl (.inr (.inl ⟨other,hother⟩))
  · exact .inl (.inr (.inr hd))

theorem refers_cancelDisconnect {select : Worker → UUID → Bool}
    (h : Refers (memory.cancelDisconnect select) task) : Refers memory task := by
  obtain hc | ht | ⟨entry,hmem,he⟩ := h
  · rcases List.mem_append.mp hc with hs | hc
    · obtain ⟨entry,hmem,he⟩ := List.mem_map.mp hs
      exact .inr (.inr ⟨entry,(List.mem_filter.mp hmem).1,he⟩)
    · exact .inl hc
  · exact .inr (.inl ht)
  · exact .inr (.inr ⟨entry,(List.mem_filter.mp hmem).1,he⟩)

theorem refers_setDisconnect {player : UUID}
    (h : Refers (memory.setDisconnect worker player timer) task) :
    Refers memory task ∨ task=timer := by
  obtain hc | ht | ⟨entry,hmem,he⟩ := h
  · exact .inl (.inl hc)
  · exact .inl (.inr (.inl ht))
  · rcases List.mem_cons.mp hmem with rfl | hmem
    · exact .inr he.symm
    · exact .inl (.inr (.inr ⟨entry,(List.mem_filter.mp hmem).1,he⟩))

theorem refers_deliver {exc : Exc} (h : Refers (memory.deliver timer exc) task) :
    Refers memory task := by
  unfold Memory.deliver at h
  split at h
  · obtain hc | hrest := h
    · exact .inl (List.mem_filter.mp hc).1
    · exact .inr hrest
  · exact h

/-- An operation makes the memory refer to no task but the timer that it starts. -/
theorem refers_effect {o : LocalOp} {fresh : TaskId}
    (h : Refers (o.effect task fresh memory).1 timer) :
    Refers memory timer ∨
      timer=fresh ∧ ∃ entry,(o.effect task fresh memory).2.2.2=some entry ∧ isTimer entry=true := by
  cases o with
  | cancelTimeout worker => exact .inl (refers_cancelTimeout h)
  | restartTimeout worker =>
    obtain hc | hnew := refers_setTimeout h
    · exact .inl (refers_cancelTimeout hc)
    · exact .inr ⟨hnew,_,rfl,rfl⟩
  | cancelDisconnect worker player => exact .inl (refers_cancelDisconnect h)
  | startDisconnect worker player opponent =>
    obtain hold | hnew := refers_setDisconnect h
    · exact .inl hold
    · exact .inr ⟨hnew,_,rfl,rfl⟩
  | cleanup worker => exact .inl (refers_cancelTimeout (refers_cancelDisconnect h))
  | receive frame =>
    cases frame with
    | none => exact .inl h
    | some frame => exact .inl h
  | _ => exact .inl h

end Memory

/-- The invariant: what may be cancelled is a timer, and only timers have been. -/
structure CancelInvariant (world : World) : Prop where
  /-- The memory refers to timers alone. -/
  refers : ∀ task,Refers world.memory task → Timer world.trace task
  /-- Cancellations have reached timers alone. -/
  reached : Meets CancelsTimers world.trace

section Steps

variable {world : World}

/-- Events that are no cancellations change nothing. -/
theorem CancelInvariant.record (h : CancelInvariant world) {events : List GameStore.Event}
    (hevents : ∀ earlier,∀ event∈events,CancelsTimers earlier event) {memory : Memory}
    (hrefers : ∀ task,Refers memory task → Timer (world.trace++events) task)
    (value : Option PvPSessionState) (version : ℕ) :
    CancelInvariant ⟨value,version,world.trace++events,memory⟩ := by
  have hgrow : ∀ trace,Meets CancelsTimers trace → Meets CancelsTimers (trace++events) := by
    clear hrefers
    induction events with
    | nil => simp
    | cons event events ih =>
      intro trace hreached
      rw [List.append_cons]
      refine ih (fun earlier e he => hevents earlier e (List.mem_cons_of_mem event he)) _ ?_
      exact meets_append.mpr ⟨hreached,hevents trace event List.mem_cons_self⟩
  exact ⟨hrefers,hgrow _ h.reached⟩

/-- An exception reaches a task. -/
theorem CancelInvariant.deliver (h : CancelInvariant world) {task : TaskId} {exc : Exc}
    (hexc : exc=.cancelled → Timer world.trace task) :
    CancelInvariant (world.deliver task exc) := by
  refine ⟨fun other hr => (h.refers other (refers_deliver hr)).append _,?_⟩
  apply meets_append.mpr ⟨h.reached,?_⟩
  cases exc with
  | cancelled => exact hexc rfl
  | _ => exact True.intro

/-- A cancellation is one that the memory knows. -/
theorem cancelled_of_interrupt {memory : Memory} {task : TaskId} {o : Op language}
    (h : interrupt memory task o=some .cancelled) : task∈memory.cancelled := by
  cases o with
  | store o =>
    simp only [interrupt,Option.some.injEq] at h
    split at h
    · assumption
    · cases h
  | act o =>
    by_contra hc
    simp only [interrupt,decide_eq_false hc] at h
    split at h <;> simp_all

/-- An operation that completes. -/
theorem CancelInvariant.effect (h : CancelInvariant world) (pick : Bool) (task fresh : ℕ)
    (o : Op language) : CancelInvariant (o.effect pick task fresh world).1 := by
  cases o with
  | store o =>
    have hlog : ∀ event value version,(∀ earlier,CancelsTimers earlier event) →
        CancelInvariant ⟨value,version,world.trace++[event],world.memory⟩ := by
      intro event value version hevent
      refine h.record ?_ (fun other hr => (h.refers other hr).append _) value version
      intro earlier e he
      rw [List.mem_singleton.mp he]
      exact hevent earlier
    cases o with
    | watch | unwatch | get => exact h
    | exec token retriesLeft call value =>
      simp only [Op.effect,StoreOp.effect]
      split
      · exact hlog _ _ _ fun _ => True.intro
      · exact hlog _ _ _ fun _ => True.intro
    | load => exact hlog _ _ _ fun _ => True.intro
    | set onlyIfAbsent call value =>
      simp only [Op.effect,StoreOp.effect]
      split
      · exact h
      · exact hlog _ _ _ fun _ => True.intro
    | delete =>
      simp only [Op.effect,StoreOp.effect,World.delete]
      split
      · exact h
      · exact hlog _ _ _ fun _ => True.intro
  | act o =>
    have hnotes : ∀ note∈(o.effect task fresh world.memory).2.1,∀ earlier,
        CancelsTimers earlier (.note note) := by
      intro note hnote earlier
      cases o with
      | receive frame =>
        cases frame <;> rw [List.mem_singleton.mp hnote] <;> exact True.intro
      | send worker player message =>
        rw [List.mem_singleton.mp hnote]
        exact True.intro
      | _ => cases hnote
    refine h.record ?_ ?_ _ _
    · intro earlier event hevent
      obtain ⟨note,hnote,rfl⟩ := List.mem_map.mp hevent
      rcases List.mem_append.mp hnote with hnote | hstarted
      · exact hnotes note hnote earlier
      · have hmem : note∈((o.effect task fresh world.memory).2.2.2.map
            (runtime.started fresh)).toList := hstarted
        obtain ⟨entry,-,rfl⟩ := Option.map_eq_some_iff.mp (Option.mem_toList.mp hmem)
        exact True.intro
    · intro other hr
      obtain hold | ⟨rfl,entry,hstarted,htimer⟩ := refers_effect hr
      · exact (h.refers other hold).append _
      · unfold Timer
        rw [List.any_append,Bool.or_eq_true]
        right
        rw [List.any_eq_true]
        refine ⟨.note (.started other entry),List.mem_map_of_mem ?_,by simp [startsTimer,htimer]⟩
        apply List.mem_append_right
        change Note.started other entry∈((o.effect task other world.memory).2.2.2.map
          (runtime.started other)).toList
        rw [hstarted]
        exact List.mem_singleton_self _

/-- However an operation turns out. -/
theorem CancelInvariant.perform (h : CancelInvariant world) {choice : Choice} {task fresh : ℕ}
    {o : Op language} {world' : World} {r : Except Exc o.Res} {started : Option Entry}
    (hp : WatchedKey.perform (R := runtime) choice task fresh o world=some (world',r,started)) :
    CancelInvariant world' := by
  obtain ⟨pick,-,he⟩ | ⟨exc,hint,-,-,rfl | ⟨pick,hs,rfl⟩⟩ := perform_cases hp
  · have heffect := h.effect pick task fresh o
    rw [he] at heffect
    exact heffect
  · refine h.deliver fun hexc => h.refers task (.inl ?_)
    rw [hexc] at hint
    exact cancelled_of_interrupt hint
  · refine (h.effect pick task fresh o).deliver fun hexc => ?_
    rw [hexc] at hint
    have htimer := h.refers task (.inl (cancelled_of_interrupt hint))
    exact htimer.later (Advances.effect pick task fresh o world).trace

/-- One move of the workers. -/
theorem CancelInvariant.step {config config' : workers.Config}
    (h : CancelInvariant config.world) {move : workers.Move}
    (hs : config.step move=some config') : CancelInvariant config'.world := by
  cases move with
  | «open» entry =>
    obtain ⟨world,hw,rfl⟩ := Option.map_eq_some_iff.mp hs
    change WatchedKey.arrive _ _ _=some _ at hw
    unfold WatchedKey.arrive at hw
    split at hw
    · cases hw
      refine h.record ?_ (fun other hr => (h.refers other hr).append _) _ _
      intro earlier event hevent
      rw [List.mem_singleton.mp hevent]
      exact True.intro
    · cases hw
  | run task choice =>
    simp only [System.Config.step] at hs
    split at hs
    · obtain ⟨⟨world,r,started⟩,hp,rfl⟩ := Option.map_eq_some_iff.mp hs
      exact h.perform hp
    · cases hs

end Steps

/-- Every run only cancels timers. -/
theorem cancels_timers {pairing : Pairing} {config : workers.Config}
    (hrun : (initial pairing).Reaches config) : Meets CancelsTimers config.world.trace := by
  have hinitial : CancelInvariant (initial pairing).world := by
    refine ⟨?_,True.intro⟩
    rintro task (hc | ⟨worker,hw⟩ | ⟨entry,he,-⟩)
    · cases hc
    · cases hw
    · cases he
  have hfinal : CancelInvariant config.world :=
    hrun.keeps (P := fun config => CancelInvariant config.world) (fun h hs => h.step hs) hinitial
  exact hfinal.reached

end KiClash.TimerCancellations
