import KiClash.AsyncContracts
import KiClash.Histories
import KiClash.Matchmaking
import Mathlib.Data.List.Basic
import Mathlib.Data.List.Nodup
import Mathlib.Data.List.Pairwise
import Mathlib.Data.List.Perm.Subperm

/-!
# The entries of the matchmaking queue

Which task has removed an entry, and who has been put into a game for it. A task does little:
it adds an entry, removes entries one by one, or reads two entries, removes what is left of
them and stores a session. Nobody is put into two games for one entry, and no removed players
vanish, as long as every pass finds both of its players when it removes them and no call
fails between that and the stored session.
-/

namespace KiClash.QueueEntries

open EngineTypes AsyncTasks AsyncContracts Histories Matchmaking
open GameStore (PvPSessionState TaskId Worker)

/-- What a task has done to the entries. -/
def own (task : TaskId) (log : List Event) : List Event := log.filter fun event => event.task=task

/-- The entries that an event has removed. -/
def removal : Event → List Ticket
  | .removed _ tickets => tickets
  | _ => []

/-- The entries that have been removed. -/
def gone (log : List Event) : List Ticket := log.flatMap removal

/-- Two entries have been removed by the task. -/
def RemovedTwo (task : TaskId) (log : List Event) : Prop :=
  ∃ event∈log,event.task=task ∧ (removal event).length=2

instance (task : TaskId) (log : List Event) : Decidable (RemovedTwo task log) :=
  inferInstanceAs (Decidable (∃ event∈log,_))

/-- The event stores a session. -/
def stores : Event → Bool
  | .saved _ _ => true
  | _ => false

/-- The task has stored a session. -/
def HasSaved (task : TaskId) (log : List Event) : Prop :=
  ∃ event∈log,event.task=task ∧ stores event=true

instance (task : TaskId) (log : List Event) : Decidable (HasSaved task log) :=
  inferInstanceAs (Decidable (∃ event∈log,_))

/-- A session is stored only by a task that has removed two entries, and no call of a task
fails between the two. -/
def Regular (earlier : List Event) : Event → Prop
  | .saved task _ => RemovedTwo task earlier
  | .failed task => RemovedTwo task earlier → HasSaved task earlier
  | .added _ _ | .read _ _ | .removed _ _ => True

instance (earlier : List Event) : ∀ event,Decidable (Regular earlier event)
  | .saved task _ => inferInstanceAs (Decidable (RemovedTwo task earlier))
  | .failed task => inferInstanceAs (Decidable (RemovedTwo task earlier → HasSaved task earlier))
  | .added _ _ | .read _ _ | .removed _ _ => instDecidableTrue

/-- A task consumes an entry by removing it, or by putting the player of an entry that it has
read into a game though it has removed no entry of his. -/
def Consumes (log : List Event) (task : TaskId) (ticket : Ticket) : Prop :=
  (∃ tickets,.removed task tickets∈log ∧ ticket∈tickets) ∨
    ∃ tickets session,.read task tickets∈log ∧ ticket∈tickets ∧ .saved task session∈log ∧
      session.isPlayer ticket.player=true ∧
      ∀ removed,.removed task removed∈log → ∀ other∈removed,other.player≠ticket.player

/-- No entry is consumed twice, nobody is put into two games by one task, and a task that has
ended after it had removed two entries has stored a session with the two players, or has
queued both again. -/
structure Conserved (config : service.Config) : Prop where
  /-- One pairing, leave or timeout for each entry. -/
  once : ∀ task task' ticket,Consumes config.world.log task ticket →
    Consumes config.world.log task' ticket → task=task'
  /-- One game for each pairing. -/
  single : ∀ task,((own task config.world.log).filter stores).length≤1
  /-- Removed players are paired or are queued again. -/
  kept : ∀ task result tickets,config.tasks[task]?=some (.done result) →
    .removed task tickets∈config.world.log → tickets.length=2 →
    (∃ session,.saved task session∈config.world.log ∧
      ∀ playerId,session.isPlayer playerId=true ↔ ∃ ticket∈tickets,ticket.player=playerId) ∨
    ∀ ticket∈tickets,∃ again,.added task again∈config.world.log ∧ again.player=ticket.player

section Courses

/-- What a pass can remove of the two entries that it has read. -/
structure Takes (t₁ t₂ : Ticket) (tickets : List Ticket) : Prop where
  /-- They belong to two players. -/
  distinct : t₁.player≠t₂.player
  /-- Nobody is removed twice. -/
  nodup : (tickets.map Ticket.player).Nodup
  /-- Only the two players are removed. -/
  among : ∀ ticket∈tickets,ticket.player=t₁.player ∨ ticket.player=t₂.player

/-- What a task can have done while no call has failed. -/
inductive Course (task : TaskId) : List Event → Prop
  | joining (tickets : List Ticket) : Course task (tickets.map (.added task))
  | removing (removals : List (List Ticket)) (hsingle : ∀ tickets∈removals,tickets.length≤1) :
      Course task (removals.map (.removed task))
  | reading (tickets : List Ticket) : Course task [.read task tickets]
  | pairing (t₁ t₂ : Ticket) (tickets : List Ticket) (htakes : Takes t₁ t₂ tickets) :
      Course task [.read task [t₁,t₂],.removed task tickets]
  | saving (t₁ t₂ : Ticket) (tickets : List Ticket) (session : PvPSessionState)
      (htakes : Takes t₁ t₂ tickets) (h₁ : session.player1Id=t₁.player)
      (h₂ : session.player2Id=t₂.player) :
      Course task [.read task [t₁,t₂],.removed task tickets,.saved task session]

/-- The same after a failure, with which a task ends. -/
def Stopped (task : TaskId) (events : List Event) : Prop :=
  ∃ course,Course task course ∧ events=course++[.failed task]

variable {task : TaskId} {events log : List Event} {t₁ t₂ : Ticket} {tickets : List Ticket}

/-- An event of a task. -/
theorem mem_own {event : Event} : event∈own task log ↔ event∈log ∧ event.task=task := by
  simp [own]

theorem own_append (task : TaskId) (log : List Event) (event : Event) :
    own task (log++[event])=own task log++if event.task=task then [event] else [] := by
  by_cases h : event.task=task <;> simp [own,h]

/-- Nothing has failed on a course. -/
theorem Course.unfailed (h : Course task events) : .failed task∉events := by
  cases h <;> simp

/-- A pass that has removed both players has removed two entries. -/
theorem Takes.length (h : Takes t₁ t₂ tickets) :
    tickets.length=2 ↔ ∀ ticket∈[t₁,t₂],∃ other∈tickets,other.player=ticket.player := by
  have hsub : tickets.map Ticket.player⊆[t₁.player,t₂.player] := by
    intro player hplayer
    obtain ⟨ticket,hticket,rfl⟩ := List.mem_map.mp hplayer
    simpa using h.among ticket hticket
  have hnodup : [t₁.player,t₂.player].Nodup := by simpa using h.distinct
  have hle := (h.nodup.subperm hsub).length_le
  have hboth : (∀ ticket∈[t₁,t₂],∃ other∈tickets,other.player=ticket.player) ↔
      [t₁.player,t₂.player]⊆tickets.map Ticket.player := by
    simp
  rw [hboth]
  rw [List.length_map] at hle
  constructor
  · intro hlength
    have hperm := (h.nodup.subperm hsub).perm_of_length_le (by simp [hlength])
    exact hperm.symm.subset
  · intro hsup
    have hge := (hnodup.subperm hsup).length_le
    rw [List.length_map] at hge
    exact le_antisymm hle hge

end Courses

section Invariant

/-- The entries have numbers of their own, what a task has read is queued or has been
removed, and every task keeps to its course. -/
structure Accounted (count next : ℕ) (tickets : List Ticket) (log : List Event) : Prop where
  /-- The tasks that have done something have been started. -/
  lately : ∀ event∈log,event.task<count
  /-- No number is given twice, and no entry is removed twice. -/
  numbered : ((gone log++tickets).map Ticket.number).Nodup
  /-- The next number is new. -/
  below : ∀ ticket∈gone log++tickets,ticket.number<next
  /-- A player has one entry in the queue. -/
  players : (tickets.map Ticket.player).Nodup
  /-- What has been read. -/
  known : ∀ task found,.read task found∈log → ∀ ticket∈found,ticket∈gone log++tickets
  /-- What a task has read and has not removed has been removed by another one. -/
  missed : ∀ task found removed,.read task found∈log → .removed task removed∈log →
    ∀ ticket∈found,(∃ other∈removed,other.player=ticket.player) ∨
      ∃ task' removed',task'≠task ∧ .removed task' removed'∈log ∧ ticket∈removed'
  /-- The tasks keep to their courses. -/
  course : ∀ task,Course task (own task log) ∨ Stopped task (own task log)

variable {count next : ℕ} {task : TaskId} {tickets : List Ticket} {log : List Event} {event : Event}

/-- Nothing has been done. -/
theorem accounted_initial : Accounted 0 0 [] [] where
  lately _ h := absurd h List.not_mem_nil
  numbered := List.nodup_nil
  below _ h := absurd h List.not_mem_nil
  players := List.nodup_nil
  known _ _ h := absurd h List.not_mem_nil
  missed _ _ _ h := absurd h List.not_mem_nil
  course _ := .inl (.joining [])

/-- Another task has been started. -/
theorem Accounted.starts (h : Accounted count next tickets log) :
    Accounted (count+1) next tickets log :=
  {h with lately := fun event hevent => Nat.lt_succ_of_lt (h.lately event hevent)}

/-- Nobody but its task is affected by an event. -/
theorem own_other {other : TaskId} (htask : event.task=task) (hne : other≠task) :
    own other (log++[event])=own other log := by
  rw [own_append,htask,if_neg hne.symm,List.append_nil]

theorem own_same (htask : event.task=task) :
    own task (log++[event])=own task log++[event] := by
  rw [own_append,if_pos htask]

/-- The courses after an event. -/
theorem Accounted.courses (h : Accounted count next tickets log) (htask : event.task=task)
    (hcourse : Course task (own task log++[event]) ∨ Stopped task (own task log++[event]))
    (other : TaskId) :
    Course other (own other (log++[event])) ∨ Stopped other (own other (log++[event])) := by
  by_cases he : other=task
  · subst he
    rwa [own_same htask]
  · rw [own_other htask he]
    exact h.course other

/-- An event that leaves the entries alone. -/
theorem Accounted.logs (h : Accounted count next tickets log) (htask : event.task=task)
    (ht : task<count) (hremoval : ∀ removed,event≠.removed task removed)
    (hread : ∀ found,event=.read task found → own task log=[] ∧ ∀ ticket∈found,ticket∈tickets)
    (hcourse : Course task (own task log++[event]) ∨ Stopped task (own task log++[event])) :
    Accounted count next tickets (log++[event]) := by
  have hnone : removal event=[] := by
    cases event with
    | removed task' removed =>
      cases htask
      exact absurd rfl (hremoval removed)
    | added | read | saved | failed => rfl
  have hgone : gone (log++[event])=gone log := by
    simp [gone,hnone]
  have hremoved : ∀ task' removed,.removed task' removed∈log++[event] →
      .removed task' removed∈log := by
    intro task' removed hmem
    obtain hmem | hmem := List.mem_append.mp hmem
    · exact hmem
    · have he : event=.removed task' removed := (List.mem_singleton.mp hmem).symm
      subst he
      cases htask
      exact absurd rfl (hremoval removed)
  refine ⟨?_,?_,?_,h.players,?_,?_,h.courses htask hcourse⟩
  · intro event' hmem
    obtain hmem | hmem := List.mem_append.mp hmem
    · exact h.lately event' hmem
    · rw [List.mem_singleton.mp hmem,htask]
      exact ht
  · rw [hgone]
    exact h.numbered
  · rw [hgone]
    exact h.below
  · rw [hgone]
    intro task' found hmem ticket hticket
    obtain hmem | hmem := List.mem_append.mp hmem
    · exact h.known task' found hmem ticket hticket
    · have he : event=.read task' found := (List.mem_singleton.mp hmem).symm
      have hsame : task'=task := by rw [← htask,he,Event.task]
      subst hsame
      exact List.mem_append_right _ ((hread found he).2 ticket hticket)
  · intro task' found removed hmem hmem' ticket hticket
    have hbefore := hremoved task' removed hmem'
    obtain hmem | hmem := List.mem_append.mp hmem
    · obtain hother | ⟨task₂,removed₂,hne,hmem₂,hin⟩ :=
        h.missed task' found removed hmem hbefore ticket hticket
      · exact .inl hother
      · exact .inr ⟨task₂,removed₂,hne,List.mem_append_left _ hmem₂,hin⟩
    · -- a task reads before it removes anything
      have he : event=.read task' found := (List.mem_singleton.mp hmem).symm
      have hsame : task'=task := by rw [← htask,he,Event.task]
      subst hsame
      have hnothing := (hread found he).1
      have hin : Event.removed task' removed∈own task' log := mem_own.mpr ⟨hbefore,rfl⟩
      rw [hnothing] at hin
      cases hin

/-- A new entry. -/
theorem Accounted.adds (h : Accounted count next tickets log) (player : UUID) (ht : task<count)
    (hnew : player∉tickets.map Ticket.player) (hidle : own task log=[]) :
    Accounted count (next+1) (tickets++[⟨next,player⟩]) (log++[.added task ⟨next,player⟩]) := by
  have hcourse : Course task (own task log++[.added task ⟨next,player⟩]) := by
    rw [hidle]
    exact .joining [⟨next,player⟩]
  have hlogged : Accounted count next tickets (log++[.added task ⟨next,player⟩]) :=
    h.logs rfl ht (by simp) (by simp) (.inl hcourse)
  have hfresh : ∀ ticket∈gone (log++[.added task ⟨next,player⟩])++tickets,ticket.number≠next :=
    fun ticket hticket => (hlogged.below ticket hticket).ne
  refine ⟨hlogged.lately,?_,?_,?_,?_,hlogged.missed,hlogged.course⟩
  · rw [← List.append_assoc,List.map_append,List.nodup_append]
    refine ⟨hlogged.numbered,List.nodup_singleton _,?_⟩
    intro number hnumber other hother he
    obtain ⟨ticket,hticket,rfl⟩ := List.mem_map.mp hnumber
    rw [List.map_singleton,List.mem_singleton] at hother
    exact hfresh ticket hticket (he.trans hother)
  · intro ticket hticket
    rw [← List.append_assoc] at hticket
    obtain hticket | hticket := List.mem_append.mp hticket
    · exact Nat.lt_succ_of_lt (hlogged.below ticket hticket)
    · rw [List.mem_singleton.mp hticket]
      exact Nat.lt_succ_self next
  · rw [List.map_append,List.nodup_append]
    refine ⟨h.players,List.nodup_singleton _,?_⟩
    intro other hother player' hplayer' he
    rw [List.map_singleton,List.mem_singleton] at hplayer'
    subst he hplayer'
    exact hnew hother
  · intro task' found hmem ticket hticket
    rw [← List.append_assoc]
    exact List.mem_append_left _ (hlogged.known task' found hmem ticket hticket)

/-- A removal. -/
theorem Accounted.removes (h : Accounted count next tickets log) (players : List UUID)
    (ht : task<count)
    (hread : ∀ found,.read task found∈own task log → own task log=[.read task found] ∧
      ∀ ticket∈found,ticket.player∈players)
    (hcourse : Course task (own task log++
      [.removed task (tickets.filter fun ticket => ticket.player∈players)])) :
    Accounted count next (tickets.filter fun ticket => ticket.player∉players)
      (log++[.removed task (tickets.filter fun ticket => ticket.player∈players)]) := by
  set removed := tickets.filter fun ticket => ticket.player∈players with hremoved
  have hgone : gone (log++[.removed task removed])=gone log++removed := by
    simp [gone,removal]
  have hperm : (gone (log++[.removed task removed])++
      tickets.filter fun ticket => ticket.player∉players).Perm (gone log++tickets) := by
    rw [hgone,List.append_assoc]
    have hsplit := List.filter_append_perm
      (fun ticket : Ticket => decide (ticket.player∈players)) tickets
    simp only [← decide_not] at hsplit
    exact hsplit.append_left (gone log)
  refine ⟨?_,?_,?_,?_,?_,?_,h.courses rfl (.inl hcourse)⟩
  · intro event' hmem
    obtain hmem | hmem := List.mem_append.mp hmem
    · exact h.lately event' hmem
    · rw [List.mem_singleton.mp hmem]
      exact ht
  · exact (hperm.map Ticket.number).nodup_iff.mpr h.numbered
  · exact fun ticket hticket => h.below ticket (hperm.mem_iff.mp hticket)
  · exact (List.filter_sublist.map Ticket.player).nodup h.players
  · intro task' found hmem ticket hticket
    have hbefore : .read task' found∈log := by simpa using hmem
    exact hperm.mem_iff.mpr (h.known task' found hbefore ticket hticket)
  · intro task' found removed' hmem hmem' ticket hticket
    have hbefore : .read task' found∈log := by simpa using hmem
    obtain hmem' | hmem' := List.mem_append.mp hmem'
    · obtain hother | ⟨task₂,removed₂,hne,hmem₂,hin⟩ :=
        h.missed task' found removed' hbefore hmem' ticket hticket
      · exact .inl hother
      · exact .inr ⟨task₂,removed₂,hne,List.mem_append_left _ hmem₂,hin⟩
    · -- the entry is still queued, or another task has removed it
      cases List.mem_singleton.mp hmem'
      obtain ⟨hown,hplayers⟩ := hread found (mem_own.mpr ⟨hbefore,rfl⟩)
      obtain hin | hin := List.mem_append.mp (h.known task found hbefore ticket hticket)
      · obtain ⟨event',hevent',hin⟩ := List.mem_flatMap.mp hin
        cases event' with
        | added | read | saved | failed => cases hin
        | removed task₂ removed₂ =>
          refine .inr ⟨task₂,removed₂,?_,List.mem_append_left _ hevent',hin⟩
          rintro rfl
          have hmine : Event.removed task₂ removed₂∈own task₂ log := mem_own.mpr ⟨hevent',rfl⟩
          rw [hown] at hmine
          simp at hmine
      · exact .inl ⟨ticket,List.mem_filter.mpr ⟨hin,by simpa using hplayers ticket hticket⟩,rfl⟩

end Invariant

section Contract

/-- The invariant of a world. -/
def Sound (count : ℕ) (world : World) : Prop :=
  Accounted count world.next world.tickets world.log

/-- What a task that has ended has done: after it has removed two entries it has stored a
session, or a call has failed. -/
def Settled (task : TaskId) (events : List Event) : Prop :=
  RemovedTwo task events → HasSaved task events ∨ .failed task∈events

/-- The contract of the tasks: nobody else does anything in a task's name. -/
def contract : Contract service where
  allowed _ := True
  inv := Sound
  rely task world world' := own task world'.log=own task world.log
  ready task _ world := .failed task∉world.log
  entry task _ world := own task world.log=[]
  finish task world := Settled task (own task world.log)

theorem lawful : contract.Lawful where
  rely_refl _ _ := rfl
  rely_trans _ _ _ _ h h' := h'.trans h

variable {task : TaskId} {count : ℕ} {world : World}

/-- An assertion about what a task has done. -/
def Has (task : TaskId) (F : List Event → Prop) (world : service.World) : Prop :=
  F (own task (World.log world))

theorem has_stable (task : TaskId) (F : List Event → Prop) : Stable contract task (Has task F) := by
  intro world world' hrely h
  unfold Has
  rw [show own task (World.log world')=own task (World.log world) from hrely]
  exact h

/-- What an operation adds to the record. -/
def added (task : TaskId) (world : World) : Op → List Event
  | .zadd player _ =>
    if player∈world.tickets.map Ticket.player then [] else [.added task ⟨world.next,player⟩]
  | .zrem players => [.removed task (world.tickets.filter fun ticket => ticket.player∈players)]
  | .zrange start stop =>
    [.read task (((world.sorted.drop start).take (stop+1-start)).map Queued.ticket)]
  | .save session => [.saved task session]
  | .zrank _ | .zrangebyscore _ | .setName _ _ _ | .popName _ _ | .sendToPlayer _ _ => []

/-- It adds just that. -/
theorem effect_log (task : TaskId) (world : World) (o : Op) :
    (o.effect task world).1.log=world.log++added task world o := by
  cases o with
  | zadd player score =>
    simp only [Op.effect,added]
    split
    · exact (List.append_nil _).symm
    · rfl
  | zrem | zrange | save => rfl
  | zrank | zrangebyscore | setName | popName | sendToPlayer => exact (List.append_nil _).symm

/-- The events of a task come after its earlier ones. -/
theorem own_effect (task : TaskId) (world : World) (o : Op) :
    own task (o.effect task world).1.log=own task world.log++added task world o := by
  rw [effect_log]
  unfold own
  rw [List.filter_append]
  congr 1
  rw [List.filter_eq_self]
  intro event hevent
  cases o with
  | zadd player score =>
    simp only [added] at hevent
    split at hevent
    · cases hevent
    · rw [List.mem_singleton.mp hevent]
      simp [Event.task]
  | zrem | zrange | save =>
    rw [List.mem_singleton.mp hevent]
    simp [Event.task]
  | zrank | zrangebyscore | setName | popName | sendToPlayer => cases hevent

/-- The others have done nothing. -/
theorem own_effect_other {other : TaskId} (hne : other≠task) (world : World) (o : Op) :
    own other (o.effect task world).1.log=own other world.log := by
  rw [effect_log]
  cases o with
  | zadd player score =>
    simp only [added]
    split
    · rw [List.append_nil]
    · exact own_other rfl hne
  | zrem | zrange | save => exact own_other rfl hne
  | zrank | zrangebyscore | setName | popName | sendToPlayer =>
    exact congrArg (own other) (List.append_nil _)

/-- An operation returns, or it raises before or after it has taken effect. -/
theorem perform_cases {choice : Choice} {n : ℕ} {o : Op} {world' : World}
    {r : Except Failure o.Res} {started : Option Entry}
    (h : perform choice task n o world=some (world',r,started)) : started=none ∧
      (world'=(o.effect task world).1 ∧ r=.ok (o.effect task world).2 ∨
        ∃ failure,r=.error failure ∧ (world'=world.logs (.failed task) ∨
          world'=(o.effect task world).1.logs (.failed task))) := by
  cases choice with
  | proceed =>
    cases h
    exact ⟨rfl,.inl ⟨rfl,rfl⟩⟩
  | raiseBefore failure =>
    simp only [perform] at h
    split at h
    · cases h
      exact ⟨rfl,.inr ⟨failure,rfl,.inl rfl⟩⟩
    · cases h
  | raiseAfter failure =>
    simp only [perform] at h
    split at h
    · cases h
      exact ⟨rfl,.inr ⟨failure,rfl,.inr rfl⟩⟩
    · cases h

/-- What a task has to have done before an operation. -/
def Prepared (task : TaskId) (events : List Event) : Op → Prop
  | .zadd _ _ => events=[]
  | .zrange _ _ => events=[]
  | .zrem players => ∀ found,.read task found∈events → events=[.read task found] ∧
      ∀ ticket∈found,ticket.player∈players
  | .zrank _ | .zrangebyscore _ | .save _ | .setName _ _ _ | .popName _ _
  | .sendToPlayer _ _ => True

/-- An operation keeps the account if its task keeps to its course. -/
theorem Sound.effect (h : Sound count world) (ht : task<count) {o : Op}
    (hprepared : Prepared task (own task world.log) o)
    (hcourse : Course task (own task world.log++added task world o)) :
    Sound count (o.effect task world).1 := by
  cases o with
  | zadd player score =>
    simp only [Op.effect]
    split
    · have hkept : (world.queue.map fun entry : Queued =>
          if entry.ticket.player=player then {entry with score := score} else entry).map
            Queued.ticket=world.tickets := by
        rw [List.map_map]
        apply List.map_congr_left
        intro entry _
        simp only [Function.comp_apply]
        split <;> rfl
      unfold Sound World.tickets
      rw [hkept]
      exact h
    · next hnew =>
      have hadds := Accounted.adds h player ht hnew hprepared
      unfold Sound World.tickets
      rw [World.logs,List.map_append]
      exact hadds
  | zrem players =>
    have hremoves := Accounted.removes h players ht hprepared hcourse
    have hkept : (world.queue.filter fun entry => entry.ticket.player∉players).map Queued.ticket=
        world.tickets.filter fun ticket => ticket.player∉players := by
      rw [World.tickets,List.filter_map]
      rfl
    unfold Sound World.tickets
    rw [← hkept] at hremoves
    exact hremoves
  | zrange start stop =>
    refine Accounted.logs h (rfl : _=task) ht (by simp) ?_ (.inl hcourse)
    intro found hfound
    refine ⟨hprepared,fun ticket hticket => ?_⟩
    cases hfound
    obtain ⟨entry,hentry,rfl⟩ := List.mem_map.mp hticket
    have hsorted : entry∈world.sorted := List.mem_of_mem_drop (List.mem_of_mem_take hentry)
    have hqueue : entry∈world.queue := (List.perm_insertionSort _ _).mem_iff.mp hsorted
    exact List.mem_map_of_mem hqueue
  | save session =>
    exact Accounted.logs h (rfl : _=task) ht (by simp) (by simp) (.inl hcourse)
  | zrank | zrangebyscore | setName | popName | sendToPlayer => exact h

/-- A failure keeps it as well. -/
theorem Sound.fails (h : Sound count world) (ht : task<count)
    (hcourse : Course task (own task world.log)) : Sound count (world.logs (.failed task)) :=
  Accounted.logs h (rfl : _=task) ht (by simp) (by simp) (.inr ⟨_,hcourse,rfl⟩)

/-- One operation of a task. -/
theorem triple_perform {o : Op} {F : List Event → Prop} {G : o.Res → List Event → Prop}
    (hF : ∀ events,F events → Course task events)
    (h : ∀ world : World,(∃ count,Sound count world) → F (own task world.log) →
      Prepared task (own task world.log) o ∧
      Course task (own task world.log++added task world o) ∧
      G (o.effect task world).2 (own task world.log++added task world o)) :
    Triple contract task (Has task F) (Prog.perform (S := language) o) (fun r => Has task (G r))
      (fun _ => Has task fun events => .failed task∈events) := by
  apply Triple.perform
  · intro world count ht hinv hP
    obtain ⟨hprepared,hcourse,hG⟩ := h world ⟨count,hinv⟩ hP
    have hsound : Sound count (o.effect task world).1 := Sound.effect hinv ht hprepared hcourse
    have hown := own_effect task world o
    refine ⟨fun hfailed => (hF _ hP).unfailed (mem_own.mpr ⟨hfailed,rfl⟩),?_⟩
    intro choice world' r started hperform _
    obtain ⟨rfl,⟨rfl,rfl⟩ | ⟨failure,rfl,rfl | rfl⟩⟩ := perform_cases (n := count) hperform
    · refine ⟨⟨hsound,fun other hne => own_effect_other hne world o,fun entry he => by cases he⟩,?_⟩
      change G _ (own task (o.effect task world).1.log)
      rw [hown]
      exact hG
    · refine ⟨⟨Sound.fails hinv ht (hF _ hP),fun other hne => own_other rfl hne,
        fun entry he => by cases he⟩,?_⟩
      exact mem_own.mpr ⟨List.mem_append_right _ (List.mem_singleton_self _),rfl⟩
    · have hcourse' : Course task (own task (o.effect task world).1.log) := by
        rw [hown]
        exact hcourse
      refine ⟨⟨Sound.fails hsound ht hcourse',fun other hne => ?_,fun entry he => by cases he⟩,?_⟩
      · exact (own_other rfl hne).trans (own_effect_other hne world o)
      · exact mem_own.mpr ⟨List.mem_append_right _ (List.mem_singleton_self _),rfl⟩
  · exact has_stable task F
  · exact fun r => has_stable task (G r)
  · exact fun _ => has_stable task _

/-- A coroutine leads from what its task has done to what it has done then, unless a call
fails. -/
abbrev Leads {α : Type} (task : TaskId) (F : List Event → Prop) (p : Coroutine α)
    (G : α → List Event → Prop) : Prop :=
  Triple contract task (Has task F) p (fun a => Has task (G a))
    (fun _ => Has task fun events => .failed task∈events)

section Coroutines

variable {α β : Type} {F : List Event → Prop} {G : α → List Event → Prop}
  {H : β → List Event → Prop}

theorem Leads.bind {p : Coroutine α} {f : α → Coroutine β} (h : Leads task F p G)
    (hf : ∀ a,Leads task (G a) (f a) H) : Leads task F (p >>= f) H :=
  Triple.bind lawful (fun _ => has_stable task _) h hf

theorem Leads.pure {a : α} (h : ∀ events,F events → G a events) :
    Leads task F (pure a : Coroutine α) G :=
  Triple.pure (has_stable task (G a)) fun _ => h _

theorem Leads.mono {G' : α → List Event → Prop} {p : Coroutine α} (h : Leads task F p G)
    (hG : ∀ a events,G a events → G' a events) : Leads task F p G' :=
  Triple.consequence h (fun _ hP => hP) (fun a _ => hG a _) fun _ _ hE => hE

/-- An operation that adds nothing to the record. -/
theorem leads_quiet {o : Op} (hF : ∀ events,F events → Course task events)
    (hprepared : ∀ events,Prepared task events o) (hadded : ∀ world,added task world o=[]) :
    Leads task F (Prog.perform (S := language) o) fun _ => F := by
  apply triple_perform hF
  intro world _ hworld
  rw [hadded,List.append_nil]
  exact ⟨hprepared _,hF _ hworld,hworld⟩

/-- The task has joined, if it has done anything. -/
def Joined (task : TaskId) (events : List Event) : Prop :=
  ∃ tickets : List Ticket,events=tickets.map (.added task)

/-- The task has removed entries one by one. -/
def RemovedSingly (task : TaskId) (events : List Event) : Prop :=
  ∃ removals : List (List Ticket),(∀ tickets∈removals,tickets.length≤1) ∧
    events=removals.map (.removed task)

/-- The task has paired two players. -/
def Paired (task : TaskId) (events : List Event) : Prop :=
  ∃ (t₁ t₂ : Ticket) (tickets : List Ticket) (session : PvPSessionState),
    Takes t₁ t₂ tickets ∧ session.player1Id=t₁.player ∧ session.player2Id=t₂.player ∧
      events=[.read task [t₁,t₂],.removed task tickets,.saved task session]

theorem Joined.course {events : List Event} (h : Joined task events) : Course task events := by
  obtain ⟨tickets,rfl⟩ := h
  exact .joining tickets

theorem RemovedSingly.course {events : List Event} (h : RemovedSingly task events) :
    Course task events := by
  obtain ⟨removals,hsingle,rfl⟩ := h
  exact .removing removals hsingle

theorem Paired.course {events : List Event} (h : Paired task events) : Course task events := by
  obtain ⟨t₁,t₂,tickets,session,htakes,h₁,h₂,rfl⟩ := h
  exact .saving t₁ t₂ tickets session htakes h₁ h₂

/-- A removal comes before a pairing only. -/
theorem Joined.settled {events : List Event} (h : Joined task events) : Settled task events := by
  obtain ⟨tickets,rfl⟩ := h
  rintro ⟨event,hevent,-,hlength⟩
  obtain ⟨ticket,-,rfl⟩ := List.mem_map.mp hevent
  cases hlength

theorem RemovedSingly.settled {events : List Event} (h : RemovedSingly task events) :
    Settled task events := by
  obtain ⟨removals,hsingle,rfl⟩ := h
  rintro ⟨event,hevent,-,hlength⟩
  obtain ⟨tickets,htickets,rfl⟩ := List.mem_map.mp hevent
  have hle := hsingle tickets htickets
  change tickets.length=2 at hlength
  omega

theorem Paired.settled {events : List Event} (h : Paired task events) : Settled task events := by
  obtain ⟨t₁,t₂,tickets,session,-,-,-,rfl⟩ := h
  exact fun _ => .inl ⟨.saved task session,by simp,rfl,rfl⟩

/-- join_queue. -/
theorem leads_joinQueue (worker : Worker) (playerId : UUID) (displayName : String) (now : ℚ) :
    Leads task (·=[]) (joinQueue worker playerId displayName now) fun _ => Joined task := by
  have hjoined : ∀ events,Joined task events → Course task events := fun _ h => h.course
  have hzadd : Leads task (·=[]) (Prog.perform (S := language) (.zadd playerId now))
      fun _ => Joined task := by
    apply triple_perform
    · rintro _ rfl
      exact .joining []
    · intro world _ hidle
      have hadds : Joined task (own task world.log++added task world (.zadd playerId now)) := by
        rw [hidle,List.nil_append,added]
        split
        · exact ⟨[],rfl⟩
        · exact ⟨[⟨world.next,playerId⟩],rfl⟩
      exact ⟨hidle,hadds.course,hadds⟩
  refine hzadd.bind fun _ => ?_
  refine Leads.bind (leads_quiet hjoined (fun _ => True.intro) fun _ => rfl) fun _ => ?_
  refine Leads.bind (leads_quiet hjoined (fun _ => True.intro) fun _ => rfl) fun _ => ?_
  exact Leads.pure fun _ h => h

/-- A player has at most one entry. -/
theorem single_entry (h : Sound count world) (player : UUID) :
    (world.tickets.filter fun ticket => ticket.player∈[player]).length≤1 := by
  have hcount := List.nodup_iff_count_le_one.mp h.players player
  rw [List.count,List.countP_map] at hcount
  rw [← List.countP_eq_length_filter]
  have hsame : (fun ticket : Ticket => decide (ticket.player∈[player]))=
      (fun other => other==player)∘Ticket.player := by
    funext ticket
    rw [Function.comp_apply,Bool.eq_iff_iff]
    simp
  rw [hsame]
  exact hcount

/-- The removal of one player. -/
theorem leads_zrem (playerId : UUID) :
    Leads task (RemovedSingly task) (Prog.perform (S := language) (.zrem [playerId]))
      fun _ => RemovedSingly task := by
  apply triple_perform fun _ h => h.course
  rintro world ⟨count,hsound⟩ ⟨removals,hsingle,hown⟩
  have hremoves : RemovedSingly task (own task world.log++added task world (.zrem [playerId])) := by
    refine ⟨removals++[world.tickets.filter fun ticket => ticket.player∈[playerId]],?_,?_⟩
    · intro tickets htickets
      obtain htickets | htickets := List.mem_append.mp htickets
      · exact hsingle tickets htickets
      · rw [List.mem_singleton.mp htickets]
        exact single_entry hsound playerId
    · rw [hown,List.map_append]
      rfl
  refine ⟨fun found hfound => ?_,hremoves.course,hremoves⟩
  rw [hown] at hfound
  obtain ⟨_,-,he⟩ := List.mem_map.mp hfound
  cases he

/-- leave_queue. -/
theorem leads_leaveQueue (worker : Worker) (playerId : UUID) :
    Leads task (RemovedSingly task) (leaveQueue worker playerId) fun _ => RemovedSingly task := by
  refine (leads_zrem playerId).bind fun _ => ?_
  refine Leads.bind (leads_quiet (fun _ h => h.course) (fun _ => True.intro) fun _ => rfl)
    fun _ => ?_
  exact Leads.pure fun _ h => h

/-- The loop of check_timeouts. -/
theorem leads_timeOut (worker : Worker) (timedOut : List UUID) :
    Leads task (RemovedSingly task) (timeOut worker timedOut) fun _ => RemovedSingly task := by
  have hsingly : ∀ events,RemovedSingly task events → Course task events := fun _ h => h.course
  induction timedOut with
  | nil => exact Leads.pure fun _ h => h
  | cons playerId timedOut ih =>
    refine (leads_zrem playerId).bind fun _ => ?_
    refine Leads.bind (leads_quiet hsingly (fun _ => True.intro) fun _ => rfl) fun _ => ?_
    exact Leads.bind (leads_quiet hsingly (fun _ => True.intro) fun _ => rfl) fun _ => ih

/-- check_timeouts. -/
theorem leads_checkTimeouts (worker : Worker) (now : ℚ) :
    Leads task (RemovedSingly task) (checkTimeouts worker now) fun _ => RemovedSingly task :=
  Leads.bind (leads_quiet (fun _ h => h.course) (fun _ => True.intro) fun _ => rfl)
    fun timedOut => leads_timeOut worker timedOut

/-- The task has read the two first entries. -/
def ReadFirst (task : TaskId) (members : List UUID) (events : List Event) : Prop :=
  ∃ tickets : List Ticket,events=[.read task tickets] ∧ members=tickets.map Ticket.player ∧
    members.Nodup ∧ members.length≤2

/-- ZRANGE of the two first entries. -/
theorem leads_zrange : Leads task (·=[]) (Prog.perform (S := language) (.zrange 0 1))
    (ReadFirst task) := by
  apply triple_perform
  · rintro _ rfl
    exact .joining []
  · rintro world ⟨count,hsound⟩ hidle
    rw [hidle,List.nil_append]
    refine ⟨rfl,.reading _,_,rfl,rfl,?_,?_⟩
    · have hsorted : (world.sorted.map fun entry => entry.ticket.player).Nodup := by
        have hperm := (List.perm_insertionSort (fun entry other => entry.before other=true)
          world.queue).map fun entry => entry.ticket.player
        refine hperm.nodup_iff.mpr ?_
        have hplayers := hsound.players
        rwa [World.tickets,List.map_map] at hplayers
      have hsub : ((world.sorted.drop 0).take 2).Sublist world.sorted :=
        (List.take_sublist 2 _).trans (List.drop_sublist 0 _)
      have hnodup := (hsub.map fun entry => entry.ticket.player).nodup hsorted
      rw [Op.effect,List.map_map]
      exact hnodup
    · rw [Op.effect,List.length_map,List.length_map,List.length_take]
      exact Nat.min_le_left _ _

/-- The part of match_players that has found two members. -/
theorem leads_matchPair (worker : Worker) (gameId : UUID) {t₁ t₂ : Ticket}
    (hne : t₁.player≠t₂.player) :
    Leads task (·=[.read task [t₁,t₂]]) (matchPair worker gameId t₁.player t₂.player)
      fun _ => Paired task := by
  have hpaired : ∀ events,Paired task events → Course task events := fun _ h => h.course
  have hzrem : Leads task (·=[.read task [t₁,t₂]])
      (Prog.perform (S := language) (.zrem [t₁.player,t₂.player]))
      fun _ events => ∃ tickets,Takes t₁ t₂ tickets ∧
        events=[.read task [t₁,t₂],.removed task tickets] := by
    apply triple_perform
    · rintro _ rfl
      exact .reading _
    · rintro world ⟨count,hsound⟩ hown
      have htakes : Takes t₁ t₂
          (world.tickets.filter fun ticket => ticket.player∈[t₁.player,t₂.player]) := by
        refine ⟨hne,(List.filter_sublist.map Ticket.player).nodup hsound.players,?_⟩
        intro ticket hticket
        simpa using (List.mem_filter.mp hticket).2
      rw [hown]
      refine ⟨fun found hfound => ?_,.pairing t₁ t₂ _ htakes,_,htakes,rfl⟩
      obtain rfl : found=[t₁,t₂] := by simpa using hfound
      refine ⟨rfl,fun ticket hticket => ?_⟩
      obtain rfl | rfl : ticket=t₁ ∨ ticket=t₂ := by simpa using hticket
      · exact List.mem_cons_self
      · exact List.mem_cons_of_mem _ (List.mem_singleton_self _)
  refine hzrem.bind fun _ => ?_
  have hsave : Leads task (fun events => ∃ tickets,Takes t₁ t₂ tickets ∧
        events=[.read task [t₁,t₂],.removed task tickets])
      (Prog.perform (S := language) (.save (newSession gameId t₁.player t₂.player)))
      fun _ => Paired task := by
    apply triple_perform
    · rintro _ ⟨tickets,htakes,rfl⟩
      exact .pairing t₁ t₂ tickets htakes
    · rintro world - ⟨tickets,htakes,hown⟩
      have hpair : Paired task (own task world.log++added task world
          (.save (newSession gameId t₁.player t₂.player))) := by
        rw [hown]
        exact ⟨t₁,t₂,tickets,_,htakes,rfl,rfl,rfl⟩
      exact ⟨True.intro,hpair.course,hpair⟩
  refine hsave.bind fun _ => ?_
  refine Leads.bind (leads_quiet hpaired (fun _ => True.intro) fun _ => rfl) fun _ => ?_
  refine Leads.bind (leads_quiet hpaired (fun _ => True.intro) fun _ => rfl) fun _ => ?_
  refine Leads.bind (leads_quiet hpaired (fun _ => True.intro) fun _ => rfl) fun _ => ?_
  exact leads_quiet hpaired (fun _ => True.intro) fun _ => rfl

/-- match_players has paired two players at its end, if it has removed anything. -/
theorem leads_matchPlayers (worker : Worker) (gameId : UUID) :
    Leads task (·=[]) (matchPlayers worker gameId) fun _ events =>
      Paired task events ∨ ∃ tickets,events=[.read task tickets] := by
  refine leads_zrange.bind fun members => ?_
  have hread : ∀ members,Leads task (ReadFirst task members) (pure () : Coroutine Unit)
      fun _ events => Paired task events ∨ ∃ tickets,events=[.read task tickets] := by
    refine fun members => Leads.pure ?_
    rintro _ ⟨tickets,rfl,-⟩
    exact .inr ⟨tickets,rfl⟩
  rcases members with _ | ⟨p1Id,_ | ⟨p2Id,rest⟩⟩
  · exact hread []
  · exact hread [p1Id]
  · intro world hworld
    obtain ⟨tickets,hown,hmembers,hnodup,hlength⟩ := hworld
    rcases tickets with _ | ⟨t₁,_ | ⟨t₂,_ | ⟨t₃,more⟩⟩⟩
    · cases hmembers
    · cases hmembers
    · cases hmembers
      have hne : t₁.player≠t₂.player := by simpa using hnodup
      have hpair : Leads task (·=[.read task [t₁,t₂]])
          (matchPair worker gameId t₁.player t₂.player) fun _ events =>
            Paired task events ∨ ∃ tickets,events=[.read task tickets] :=
        (leads_matchPair worker gameId hne).mono fun _ _ h => .inl h
      exact hpair hown
    · cases hmembers
      simp at hlength

/-- Every task is safe. -/
theorem verified : contract.Verified where
  toLawful := lawful
  allowed_perform _ _ := True.intro
  allowed_arrive _ _ := True.intro
  arrive {count entry world world'} hinv harrive _ := by
    cases harrive
    refine ⟨Accounted.starts hinv,fun _ => rfl,?_⟩
    change own count _=[]
    rw [own,List.filter_eq_nil_iff]
    intro event hevent
    have hlt : event.task<count := hinv.lately event hevent
    simpa using hlt.ne
  body {task count entry world} _ _ hentry := by
    have hfails : ∀ events : List Event,.failed task∈events → Settled task events :=
      fun _ hfailed _ => .inr hfailed
    have hsettled : ∀ {α : Type} {p : Coroutine α} {F : List Event → Prop}
        {G : α → List Event → Prop},Leads task F p G →
        (∀ a events,G a events → Settled task events) → F (own task world.log) →
        Safe contract task p (fun _ world => Settled task (own task (World.log world))) world := by
      intro α p F G h hG hF
      have hsafe : Safe contract task p (Outcome (fun a => Has task (G a))
          fun _ => Has task fun events => .failed task∈events) world := h hF
      apply hsafe.mono
      intro r world' hr
      cases r with
      | ok a => exact hG a _ hr
      | error failure => exact hfails _ hr
    have hidle : own task (World.log world)=[] := hentry
    have hsingly : RemovedSingly task (own task (World.log world)) := ⟨[],by simp,hidle⟩
    cases entry with
    | joinQueue worker playerId displayName now =>
      have hjoin : Leads task (·=[]) (Matchmaking.body (.joinQueue worker playerId displayName now))
          fun _ => Joined task :=
        (leads_joinQueue worker playerId displayName now).bind fun _ => Leads.pure fun _ h => h
      exact hsettled hjoin (fun _ _ h => h.settled) hidle
    | leaveQueue worker playerId =>
      exact hsettled (leads_leaveQueue worker playerId) (fun _ _ h => h.settled) hsingly
    | matchPlayers worker gameId =>
      refine hsettled (leads_matchPlayers worker gameId) ?_ hidle
      rintro _ _ (h | ⟨tickets,rfl⟩)
      · exact h.settled
      · rintro ⟨event,hevent,-,hlength⟩
        rw [List.mem_singleton.mp hevent] at hlength
        cases hlength
    | checkTimeouts worker now =>
      exact hsettled (leads_checkTimeouts worker now) (fun _ _ h => h.settled) hsingly

end Coroutines

end Contract

section Conservation

variable {config : service.Config} {moves : List service.Move} {task : TaskId}
  {earlier later log : List Event} {event : Event} {ticket : Ticket}

/-- Every run keeps the account, and every task is safe. -/
theorem good_of_run (hrun : initial.run moves=some config) : contract.Good config := by
  have hgood : contract.Good initial := ⟨accounted_initial,fun _ _ htask => by cases htask⟩
  exact hgood.run verified hrun True.intro

/-- What has been done is a matter of the tasks alone. -/
theorem removedTwo_own : RemovedTwo task (own task log) ↔ RemovedTwo task log := by
  simp only [RemovedTwo,mem_own]
  exact exists_congr fun event => ⟨fun h => ⟨h.1.1,h.2⟩,fun h => ⟨⟨h.1,h.2.1⟩,h.2⟩⟩

theorem hasSaved_own : HasSaved task (own task log) ↔ HasSaved task log := by
  simp only [HasSaved,mem_own]
  exact exists_congr fun event => ⟨fun h => ⟨h.1.1,h.2⟩,fun h => ⟨⟨h.1,h.2.1⟩,h.2⟩⟩

/-- The events of a task before and after one of them. -/
theorem own_split (htask : event.task=task) :
    own task (earlier++event::later)=own task earlier++event::own task later := by
  simp [own,htask]

/-- The course of a task up to its failure. -/
theorem Accounted.courseOf {count next : ℕ} {tickets : List Ticket}
    (h : Accounted count next tickets log) (task : TaskId) :
    ∃ course,Course task course ∧
      (own task log=course ∨ own task log=course++[.failed task]) := by
  obtain hcourse | ⟨course,hcourse,hown⟩ := h.course task
  · exact ⟨_,hcourse,.inl rfl⟩
  · exact ⟨course,hcourse,.inr hown⟩

/-- A task does nothing after its failure. -/
theorem Accounted.nothing_after_failure {count next : ℕ} {tickets : List Ticket}
    (h : Accounted count next tickets (earlier++.failed task::later)) : own task later=[] := by
  obtain ⟨course,hcourse,hown⟩ := h.courseOf task
  have hsplit : own task (earlier++.failed task::later)=
      own task earlier++.failed task::own task later := own_split rfl
  rw [hsplit] at hown
  obtain hown | hown := hown
  · have hfailed : Event.failed task∈course := by
      rw [← hown]
      exact List.mem_append_right _ List.mem_cons_self
    exact absurd hfailed hcourse.unfailed
  · have hparts := (List.append_cons_inj_of_notMem hcourse.unfailed List.not_mem_nil).mp hown.symm
    exact hparts.2.2.symm

/-- What it has done has been done before. -/
theorem Accounted.before_failure {count next : ℕ} {tickets : List Ticket}
    (h : Accounted count next tickets (earlier++.failed task::later))
    (hmem : event∈earlier++.failed task::later) (htask : event.task=task)
    (hevent : event≠.failed task) : event∈earlier := by
  obtain hmem | hmem := List.mem_append.mp hmem
  · exact hmem
  · obtain rfl | hmem := List.mem_cons.mp hmem
    · exact absurd rfl hevent
    · have hlater : event∈own task later := mem_own.mpr ⟨hmem,htask⟩
      rw [h.nothing_after_failure] at hlater
      cases hlater

/-- A pass that stores a session has read two entries and has tried to remove them. -/
theorem Accounted.beforeSave {count next : ℕ} {tickets : List Ticket} {session : PvPSessionState}
    (h : Accounted count next tickets (earlier++.saved task session::later)) :
    ∃ t₁ t₂ removed,Takes t₁ t₂ removed ∧ session.player1Id=t₁.player ∧
      session.player2Id=t₂.player ∧
      own task earlier=[.read task [t₁,t₂],.removed task removed] ∧
      (own task later=[] ∨ own task later=[.failed task]) := by
  obtain ⟨course,hcourse,hown⟩ := h.courseOf task
  have hin : Event.saved task session∈course := by
    have hmem : Event.saved task session∈own task (earlier++.saved task session::later) :=
      mem_own.mpr ⟨List.mem_append_right _ List.mem_cons_self,rfl⟩
    obtain hown | hown := hown
    · rwa [← hown]
    · rw [hown] at hmem
      simpa using hmem
  have hparts : own task (earlier++.saved task session::later)=
      own task earlier++.saved task session::own task later := own_split rfl
  rw [hparts] at hown
  cases hcourse with
  | joining | removing | reading | pairing => simp at hin
  | saving t₁ t₂ removed session' htakes h₁ h₂ =>
    obtain rfl : session=session' := by simpa using hin
    have hbefore : Event.saved task session∉[.read task [t₁,t₂],.removed task removed] := by simp
    obtain hown | hown := hown
    · have hsame := (List.append_cons_inj_of_notMem hbefore List.not_mem_nil).mp hown.symm
      exact ⟨t₁,t₂,removed,htakes,h₁,h₂,hsame.1.symm,.inl hsame.2.2.symm⟩
    · have hafter : Event.saved task session∉[.failed task] := by simp
      have hsame := (List.append_cons_inj_of_notMem hbefore hafter).mp hown.symm
      exact ⟨t₁,t₂,removed,htakes,h₁,h₂,hsame.1.symm,.inr hsame.2.2.symm⟩

/-- A removed entry has been removed by one task. -/
theorem Accounted.removedOnce {count next : ℕ} {tickets removed removed' : List Ticket}
    {task' : TaskId} (h : Accounted count next tickets log) (hmem : .removed task removed∈log)
    (hmem' : .removed task' removed'∈log) (hin : ticket∈removed) (hin' : ticket∈removed') :
    task=task' := by
  have hnumbered := h.numbered
  rw [List.map_append,List.nodup_append] at hnumbered
  have hgone : (gone log).Nodup := hnumbered.1.of_map
  have hdisjoint : Std.Symm (Function.onFun List.Disjoint removal) :=
    ⟨fun _ _ h => List.disjoint_symm h⟩
  have hpairwise := (List.nodup_flatMap.mp hgone).2.forall hmem hmem'
  by_contra hne
  exact hpairwise (fun he => hne (congrArg Event.task he)) hin hin'

/-- The events of a task that has stored a session. -/
theorem mem_saver {removed : List Ticket} {session : PvPSessionState} {t₁ t₂ : Ticket}
    (hown : own task earlier=[.read task [t₁,t₂],.removed task removed])
    (hafter : own task later=[] ∨ own task later=[.failed task])
    (hmem : event∈earlier++.saved task session::later) (htask : event.task=task) :
    event=.read task [t₁,t₂] ∨ event=.removed task removed ∨ event=.saved task session ∨
      event=.failed task := by
  have hin : event∈own task (earlier++.saved task session::later) := mem_own.mpr ⟨hmem,htask⟩
  have hparts : own task (earlier++.saved task session::later)=
      own task earlier++.saved task session::own task later := own_split rfl
  rw [hparts,hown] at hin
  obtain hafter | hafter := hafter <;> rw [hafter] at hin
  · have hcases : event=.read task [t₁,t₂] ∨ event=.removed task removed ∨
        event=.saved task session := by simpa using hin
    exact hcases.imp_right fun h => h.imp_right .inl
  · simpa using hin

/-- A task that saves has removed two entries if it has removed those of both players. -/
theorem removedTwo_saver {removed : List Ticket} {t₁ t₂ : Ticket}
    (hown : own task earlier=[.read task [t₁,t₂],.removed task removed]) :
    RemovedTwo task earlier ↔ removed.length=2 := by
  rw [← removedTwo_own,hown]
  simp [RemovedTwo,removal,Event.task]

/-- Regular tasks consume entries by removing them. -/
theorem Accounted.removes_consumed {count next : ℕ} {tickets : List Ticket}
    (h : Accounted count next tickets log) (hregular : Meets Regular log)
    (hconsumes : Consumes log task ticket) :
    ∃ removed,.removed task removed∈log ∧ ticket∈removed := by
  obtain hremoved | ⟨found,session,hread,hin,hsaved,-,hnone⟩ := hconsumes
  · exact hremoved
  · obtain ⟨earlier,later,rfl⟩ := List.append_of_mem hsaved
    obtain ⟨t₁,t₂,removed,htakes,-,-,hown,hafter⟩ := h.beforeSave
    have hboth : removed.length=2 := (removedTwo_saver hown).mp (hregular.at)
    have hfound : found=[t₁,t₂] := by
      have hcases := mem_saver hown hafter hread rfl
      simpa using hcases
    subst hfound
    obtain ⟨other,hother,hplayer⟩ := htakes.length.mp hboth ticket hin
    have hmem : Event.removed task removed∈own task earlier := by
      rw [hown]
      simp
    exact absurd hplayer (hnone removed (List.mem_append_left _ (mem_own.mp hmem).1) other hother)

/-- If no entry is consumed twice, a session is stored only after both players have been
removed. -/
theorem Accounted.removedTwo_of_once {count next : ℕ} {tickets : List Ticket}
    {session : PvPSessionState}
    (h : Accounted count next tickets (earlier++.saved task session::later))
    (honce : ∀ task' ticket,Consumes (earlier++.saved task session::later) task ticket →
      Consumes (earlier++.saved task session::later) task' ticket → task=task') :
    RemovedTwo task earlier := by
  obtain ⟨t₁,t₂,removed,htakes,h₁,h₂,hown,hafter⟩ := h.beforeSave
  have hmem : ∀ event∈own task earlier,event∈earlier++.saved task session::later :=
    fun event hevent => List.mem_append_left _ (mem_own.mp hevent).1
  have hread := hmem (.read task [t₁,t₂]) (by rw [hown]; simp)
  have hremoved := hmem (.removed task removed) (by rw [hown]; simp)
  rw [removedTwo_saver hown,htakes.length]
  by_contra hmissing
  simp only [not_forall,not_exists,not_and] at hmissing
  obtain ⟨ticket,hticket,hnone⟩ := hmissing
  obtain ⟨other,hother,hplayer⟩ | ⟨task',removed',hne,hremoved',hin⟩ :=
    h.missed task [t₁,t₂] removed hread hremoved ticket hticket
  · exact hnone other hother hplayer
  · have hplays : session.isPlayer ticket.player=true := by
      obtain rfl | rfl : ticket=t₁ ∨ ticket=t₂ := by simpa using hticket
      · simp [PvPSessionState.isPlayer,h₁]
      · simp [PvPSessionState.isPlayer,h₂]
    have hsaves : Consumes (earlier++.saved task session::later) task ticket := by
      refine .inr ⟨[t₁,t₂],session,hread,hticket,by simp,hplays,?_⟩
      intro removed₁ hremoved₁ other hother
      have hsame : removed₁=removed := by simpa using mem_saver hown hafter hremoved₁ rfl
      subst hsame
      exact hnone other hother
    exact hne (honce task' ticket hsaves (.inl ⟨removed',hremoved',hin⟩)).symm

/-- A task that has removed two entries has added none. -/
theorem Accounted.adds_nothing {count next : ℕ} {tickets removed : List Ticket}
    (h : Accounted count next tickets log) (hremoved : .removed task removed∈log) :
    .added task ticket∉log := by
  intro hadded
  have hremoved : Event.removed task removed∈own task log := mem_own.mpr ⟨hremoved,rfl⟩
  have hadded : Event.added task ticket∈own task log := mem_own.mpr ⟨hadded,rfl⟩
  have hcourse : ∀ course,Course task course → .removed task removed∈course →
      .added task ticket∉course := by
    intro course hcourse hin
    cases hcourse with
    | joining tickets => simp at hin
    | removing | reading | pairing | saving => simp
  obtain ⟨course,hkept,hown | hown⟩ := h.courseOf task
  · rw [hown] at hremoved hadded
    exact hcourse course hkept hremoved hadded
  · rw [hown] at hremoved hadded
    exact hcourse course hkept (by simpa using hremoved) (by simpa using hadded)

/-- What a task that has removed two entries and has stored a session has removed. -/
theorem Accounted.pair_saved {count next : ℕ} {tickets removed : List Ticket}
    {session : PvPSessionState} (h : Accounted count next tickets log)
    (hremoved : .removed task removed∈log) (hlength : removed.length=2)
    (hsaved : .saved task session∈log) (playerId : UUID) :
    session.isPlayer playerId=true ↔ ∃ ticket∈removed,ticket.player=playerId := by
  obtain ⟨earlier,later,rfl⟩ := List.append_of_mem hsaved
  obtain ⟨t₁,t₂,removed',htakes,h₁,h₂,hown,hafter⟩ := h.beforeSave
  have hsame : removed=removed' := by simpa using mem_saver hown hafter hremoved rfl
  subst hsame
  have hboth := htakes.length.mp hlength
  have hplayer : session.isPlayer playerId=true ↔ playerId=t₁.player ∨ playerId=t₂.player := by
    simp [PvPSessionState.isPlayer,h₁,h₂]
  rw [hplayer]
  constructor
  · rintro (rfl | rfl)
    · exact hboth t₁ (by simp)
    · exact hboth t₂ (by simp)
  · rintro ⟨ticket,hticket,rfl⟩
    exact htakes.among ticket hticket

/-- A task stores one session at most. -/
theorem Accounted.saves_once {count next : ℕ} {tickets : List Ticket}
    (h : Accounted count next tickets log) (task : TaskId) :
    ((own task log).filter stores).length≤1 := by
  obtain ⟨course,hcourse,hown⟩ := h.courseOf task
  have hle : (course.filter stores).length≤1 := by
    cases hcourse with
    | joining tickets => simp [List.filter_map,Function.comp_def,stores]
    | removing removals => simp [List.filter_map,Function.comp_def,stores]
    | reading | pairing | saving => simp [stores,List.filter_cons]
  obtain hown | hown := hown <;> rw [hown]
  · exact hle
  · simpa [stores] using hle

/-- The queue is conserved in a run if and only if a session is stored only by a task that
has removed two entries, and no call of such a task fails before that. -/
theorem conserved_iff (hrun : initial.run moves=some config) :
    Conserved config ↔ Meets Regular config.world.log := by
  have hgood := good_of_run hrun
  have haccount : Accounted config.tasks.length config.world.next config.world.tickets
      config.world.log := hgood.inv
  constructor
  · intro hconserved
    apply meets_of_splits
    intro earlier event later hsplit
    rw [hsplit] at haccount
    cases event with
    | added | read | removed => exact True.intro
    | saved task session =>
      apply haccount.removedTwo_of_once
      rw [← hsplit]
      exact fun task' ticket => hconserved.once task task' ticket
    | failed task =>
      intro htwo
      -- the task has ended with its failure
      have hfailed : .failed task∈config.world.log := by
        rw [hsplit]
        exact List.mem_append_right _ List.mem_cons_self
      have hlt : task<config.tasks.length := hgood.inv.lately _ hfailed
      have hdone : ∃ result,config.tasks[task]?=some (.done result) := by
        cases htask : config.tasks[task]? with
        | none =>
          have hge := List.getElem?_eq_none_iff.mp htask
          exact absurd hlt (Nat.not_lt.mpr hge)
        | some p =>
          cases p with
          | done result => exact ⟨result,rfl⟩
          | op o next => exact absurd hfailed (hgood.ready verified htask)
      obtain ⟨result,hdone⟩ := hdone
      obtain ⟨event,hevent,htask,hlength⟩ := htwo
      cases event with
      | added | read | saved | failed => cases hlength
      | removed task' removed =>
        cases htask
        have hremoved : .removed task' removed∈config.world.log := by
          rw [hsplit]
          exact List.mem_append_left _ hevent
        obtain ⟨session,hsaved,-⟩ | hagain :=
          hconserved.kept task' result removed hdone hremoved hlength
        · rw [hsplit] at hsaved
          exact ⟨_,haccount.before_failure hsaved rfl (by simp),rfl,rfl⟩
        · cases removed with
          | nil => cases hlength
          | cons first rest =>
            obtain ⟨again,hadded,-⟩ := hagain first List.mem_cons_self
            exact absurd hadded (Accounted.adds_nothing hgood.inv hremoved)
  · intro hregular
    refine ⟨?_,haccount.saves_once,?_⟩
    · intro task task' ticket hconsumes hconsumes'
      obtain ⟨removed,hremoved,hin⟩ := haccount.removes_consumed hregular hconsumes
      obtain ⟨removed',hremoved',hin'⟩ := haccount.removes_consumed hregular hconsumes'
      exact haccount.removedOnce hremoved hremoved' hin hin'
    · intro task result removed hdone hremoved hlength
      left
      have htwo : RemovedTwo task config.world.log := ⟨_,hremoved,rfl,hlength⟩
      have hsettled : Settled task (own task config.world.log) := hgood.finish verified hdone
      have hsaved : HasSaved task config.world.log := by
        obtain hsaved | hfailed := hsettled (removedTwo_own.mpr htwo)
        · exact hasSaved_own.mp hsaved
        · obtain ⟨earlier,later,hsplit⟩ := List.append_of_mem (mem_own.mp hfailed).1
          rw [hsplit] at haccount hregular hremoved ⊢
          have hbefore := haccount.before_failure hremoved rfl (by simp)
          obtain ⟨event,hevent,hsaved⟩ := hregular.at ⟨_,hbefore,rfl,hlength⟩
          exact ⟨event,List.mem_append_left _ hevent,hsaved⟩
      obtain ⟨event,hevent,htask,hstores⟩ := hsaved
      cases event with
      | added | read | removed | failed => cases hstores
      | saved task' session =>
        cases htask
        exact ⟨session,hevent,haccount.pair_saved hremoved hlength hevent⟩

/-- Two players join, and one worker pairs them. -/
def paired : List service.Move :=
  [.open (.joinQueue 0 (.small 1) "Alice" 1),.run 0 .proceed,
    .open (.joinQueue 0 (.small 2) "Bob" 2),.run 1 .proceed,
    .open (.matchPlayers 0 (.small 8)),.run 2 .proceed,.run 2 .proceed,.run 2 .proceed,
    .run 2 .proceed,.run 2 .proceed,.run 2 .proceed,.run 2 .proceed]

/-- Nobody is lost. -/
theorem paired_conserved : ∃ config,initial.run paired=some config ∧ Conserved config := by
  have hview : (initial.run paired).map (fun config => decide (Meets Regular config.world.log))=
      some true := by decide
  obtain ⟨config,hrun,hregular⟩ := Option.map_eq_some_iff.mp hview
  exact ⟨config,hrun,(conserved_iff hrun).mpr (of_decide_eq_true hregular)⟩

/-- The same players, and two workers that read the queue one right after the other. -/
def pairedTwice : List service.Move :=
  [.open (.joinQueue 0 (.small 1) "Alice" 1),.run 0 .proceed,
    .open (.joinQueue 0 (.small 2) "Bob" 2),.run 1 .proceed,
    .open (.matchPlayers 0 (.small 8)),.open (.matchPlayers 1 (.small 9)),
    .run 2 .proceed,.run 3 .proceed,.run 2 .proceed,.run 3 .proceed,.run 2 .proceed,.run 3 .proceed]

/-- The same players, and a worker that cannot store the session. -/
def lost : List service.Move :=
  [.open (.joinQueue 0 (.small 1) "Alice" 1),.run 0 .proceed,
    .open (.joinQueue 0 (.small 2) "Bob" 2),.run 1 .proceed,
    .open (.matchPlayers 0 (.small 8)),.run 2 .proceed,.run 2 .proceed,
    .run 2 (.raiseBefore .redisError)]

/-- The task has ended. -/
def ended (config : service.Config) (task : TaskId) : Bool :=
  match config.tasks[task]? with
  | some (.done _) => true
  | _ => false

theorem done_of_ended {config : service.Config} (h : ended config task=true) :
    ∃ result,config.tasks[task]?=some (.done result) := by
  unfold ended at h
  split at h
  · next result htask => exact ⟨result,htask⟩
  · cases h

/-- Both workers put the two players into a game; and without a session the players are
gone. -/
theorem two_games_or_none :
    ¬(∀ moves config,initial.run moves=some config → ∀ task task' ticket,
      Consumes config.world.log task ticket → Consumes config.world.log task' ticket →
        task=task') ∧
    ¬∀ moves config,initial.run moves=some config → Conserved config := by
  constructor
  · intro h
    have hview : (initial.run pairedTwice).map (fun config => decide (
        .read 3 [⟨0,.small 1⟩,⟨1,.small 2⟩]∈config.world.log ∧
        .removed 2 [⟨0,.small 1⟩,⟨1,.small 2⟩]∈config.world.log ∧
        .saved 3 (newSession (.small 9) (.small 1) (.small 2))∈config.world.log ∧
        ∀ event∈config.world.log,event.task=3 → removal event=[]))=some true := by decide
    obtain ⟨config,hrun,hfacts⟩ := Option.map_eq_some_iff.mp hview
    obtain ⟨hread,hremoved,hsaved,hnothing⟩ := of_decide_eq_true hfacts
    have hfirst : Consumes config.world.log 2 ⟨0,.small 1⟩ :=
      .inl ⟨_,hremoved,List.mem_cons_self⟩
    have hsecond : Consumes config.world.log 3 ⟨0,.small 1⟩ := by
      refine .inr ⟨_,_,hread,List.mem_cons_self,hsaved,by decide,?_⟩
      intro removed hmem other hother
      have hempty : removed=[] := hnothing _ hmem rfl
      rw [hempty] at hother
      cases hother
    cases h pairedTwice config hrun 2 3 _ hfirst hsecond
  · intro h
    have hview : (initial.run lost).map (fun config => (ended config 2,decide (
        .removed 2 [⟨0,.small 1⟩,⟨1,.small 2⟩]∈config.world.log ∧
        ∀ event∈config.world.log,event.task=2 → stores event=false)))=some (true,true) := by decide
    obtain ⟨config,hrun,hfacts⟩ := Option.map_eq_some_iff.mp hview
    obtain ⟨hended,hfacts⟩ := Prod.mk.inj hfacts
    obtain ⟨hremoved,hnothing⟩ := of_decide_eq_true hfacts
    obtain ⟨result,hdone⟩ := done_of_ended hended
    obtain ⟨session,hsaved,-⟩ | hagain := (h lost config hrun).kept 2 result _ hdone hremoved rfl
    · cases hnothing _ hsaved rfl
    · obtain ⟨again,hadded,-⟩ := hagain ⟨0,.small 1⟩ List.mem_cons_self
      exact absurd hadded (Accounted.adds_nothing (good_of_run hrun).inv hremoved)

end Conservation

end KiClash.QueueEntries
