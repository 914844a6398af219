import KiClash.GoTransactions

/-!
# Presence in the Go session

When the connected players of a session are those with a live socket. The list
of the connected players does not count sockets: the disconnect transaction of an
old socket removes a player who has a newer one. As long as that does not happen,
and no connect or disconnect transaction gives up, the list is right whenever no
handler of the player is connecting or leaving.
-/

namespace KiClash.GoPresence

open GoTypes AsyncTasks WatchedKey TaskPhases TransactionReads
open GameStore (Pairing)
open GoSessionContracts (p1Of p2Of IsPlayer Belongs)
open GoStore GoSession GoPhases GoTransactions

/-- The socket is live: it has been upgraded, and reading from it has not failed. -/
def live : Stage → Bool
  | .connecting | .starting _ _ | .reloading | .prompting _ | .playing => true
  | _ => false

/-- The socket is live, and its connect transaction is over. -/
def attending : Stage → Bool
  | .starting _ _ | .reloading | .prompting _ | .playing => true
  | _ => false

/-- The connect transaction is over and the disconnect transaction is not. -/
def counted : Stage → Bool
  | .leaving => true
  | stage => attending stage

/-- The handler runs its connect or its disconnect transaction. -/
def changing : Stage → Bool
  | .connecting | .leaving => true
  | _ => false

/-- A socket of the player in such a stage. -/
def socketOf (player : String) (test : Stage → Bool) : Phase → Bool
  | .socket _ other stage _ => other=player && test stage
  | _ => false

/-- A handler of the player gives up a transaction: a command has failed before
it took effect, or the last attempt has conflicted. -/
def givesUp (player : String) (performed : Performed watcher) : Bool :=
  socketOf player changing performed.phase &&
    concludes performed.op performed.effective performed.result=some false

/-- A disconnect transaction of the player commits. -/
def disconnects (player : String) (performed : Performed watcher) : Bool :=
  socketOf player (fun stage => stage=.leaving) performed.phase &&
    concludes performed.op performed.effective performed.result=some true

/-- No transaction of the player's handlers gives up, and none removes him from
the connected players while another socket of his attends. -/
def Orderly (player : String) (seen : Seen watcher) (move : instances.Move) : Prop :=
  ∀ performed∈seen.performed move,givesUp player performed=false ∧
    (disconnects player performed=true →
      ∀ phase∈seen.phases.eraseIdx performed.task,socketOf player attending phase=false)

instance (player : String) (seen : Seen watcher) (move : instances.Move) :
    Decidable (Orderly player seen move) := by
  unfold Orderly
  infer_instance

section Phases

variable {player : String} {o : Op language} {effective : Bool} {r : Except Failure o.Res}

/-- A connect transaction that takes effect. -/
theorem next_connects {instance' : Instance} {marked : Bool} {token retriesLeft : ℕ} {call : Call}
    {sess : PvPSession} (r : Except Failure Bool) :
    (Phase.socket instance' player .connecting marked).next
      (.store (.exec token retriesLeft call sess)) true r=
      .socket instance' player (.starting false false) true := rfl

/-- A disconnect transaction that takes effect. -/
theorem next_disconnects {instance' : Instance} {marked : Bool} {token retriesLeft : ℕ}
    {call : Call} {sess : PvPSession} (r : Except Failure Bool) :
    (Phase.socket instance' player .leaving marked).next
      (.store (.exec token retriesLeft call sess)) true r=
      .socket instance' player (if fails r then .gone true else .pausing) false := rfl

/-- Nothing else commits. -/
theorem effective_of_concludes (h : concludes o effective r=some true) :
    ∃ token retriesLeft call sess,o=.store (.exec token retriesLeft call sess) ∧
      effective=true := by
  unfold concludes at h
  split at h
  · exact ⟨_,_,_,_,rfl,rfl⟩
  · cases h
  · split at h <;> cases h
  all_goals cases h

/-- A stage that no transaction ends. -/
theorem counted_next {stage : Stage} {marked : Bool}
    (h : changing stage=true → outsider player o r=false ∧ concludes o effective r=none) :
    counted (stage.next player marked o effective r).1=counted stage ∧
      (attending (stage.next player marked o effective r).1=true → attending stage=true) := by
  cases stage with
  | arriving =>
    unfold Stage.next
    split <;> simp_all [counted,attending]
  | connecting =>
    obtain ⟨houtsider,hconcludes⟩ := h rfl
    simp [Stage.next,connected,houtsider,hconcludes]
  | starting found ready =>
    unfold Stage.next started
    dsimp only
    split
    · exact ⟨rfl,id⟩
    · split <;> exact ⟨rfl,fun _ => rfl⟩
    · exact ⟨rfl,id⟩
    · exact ⟨rfl,id⟩
  | reloading =>
    unfold Stage.next reloaded
    dsimp only
    split
    · split <;> exact ⟨rfl,fun _ => rfl⟩
    · exact ⟨rfl,fun _ => rfl⟩
    · exact ⟨rfl,fun _ => rfl⟩
  | prompting untold =>
    unfold Stage.next prompted
    dsimp only
    split <;> exact ⟨rfl,fun _ => rfl⟩
  | playing =>
    unfold Stage.next reading
    dsimp only
    split <;> exact ⟨rfl,fun _ => rfl⟩
  | leaving =>
    obtain ⟨-,hconcludes⟩ := h rfl
    simp [Stage.next,disconnected,hconcludes]
  | pausing =>
    unfold Stage.next paused
    dsimp only
    split <;> exact ⟨rfl,id⟩
  | parting | gone written => exact ⟨rfl,id⟩

/-- The same for the sockets of a player. -/
theorem socketOf_next {phase : Phase}
    (h : socketOf player changing phase=true →
      outsider player o r=false ∧ concludes o effective r=none) :
    socketOf player counted (phase.next o effective r)=socketOf player counted phase ∧
      (socketOf player attending (phase.next o effective r)=true →
        socketOf player attending phase=true) := by
  cases phase with
  | turnTimer instance' stage => exact ⟨rfl,id⟩
  | forfeitTimer instance' disconnected opponent stage => exact ⟨rfl,id⟩
  | socket instance' other stage marked =>
    by_cases he : other=player
    · subst he
      simp only [socketOf,decide_true,Bool.true_and,Phase.next] at h ⊢
      exact counted_next h
    · simp [socketOf,Phase.next,he]

end Phases

/-- Whoever is present has a socket that counts, and whoever has a socket that
attends is present. -/
structure Accurate (player : String) (seen : Seen watcher) : Prop where
  /-- A present player has a socket that counts. -/
  counted : ∀ sess,seen.config.world.value=some sess → sess.hasConnected player=true →
    ∃ (task : GoroutineId) (phase : Phase),seen.phases[task]?=some phase ∧
      socketOf player counted phase=true
  /-- A player with a socket that attends is present. -/
  present : ∀ sess,seen.config.world.value=some sess → ∀ (task : GoroutineId) (phase : Phase),
    seen.phases[task]?=some phase → socketOf player attending phase=true →
    sess.hasConnected player=true

section Steps

variable {pairing : Pairing} {player : String} {seen : Seen watcher}

/-- A goroutine that starts has no socket that attends. -/
theorem socketOf_start (entry : Entry) {test : Stage → Bool} (h : test .arriving=false) :
    socketOf player test (watcher.start entry)=false := by
  cases entry with
  | gameWebsocket instance' other frames => simp [socketOf,h]
  | turnTimeoutLoop instance' => rfl
  | forfeitAfterTimeout instance' disconnected opponent => rfl

variable {task : GoroutineId} {phase phase' : Phase} {started : Option Entry} {world world' : World}
  {tasks : List (Goroutine Unit)}

/-- A step that changes neither who is present nor which sockets count. -/
theorem Accurate.unchanged (h : Accurate player seen) (hphase : seen.phases[task]?=some phase)
    (hvalue : ∀ sess',world'.value=some sess' → ∃ sess,seen.config.world.value=some sess ∧
      sess'.hasConnected player=sess.hasConnected player)
    (hcounted : socketOf player GoPresence.counted phase'=socketOf player GoPresence.counted phase)
    (hattending : socketOf player attending phase'=true → socketOf player attending phase=true) :
    Accurate player ⟨⟨world',tasks⟩,
      seen.phases.set task phase'++(started.map watcher.start).toList⟩ where
  counted sess' hsess' hpresent := by
    obtain ⟨sess,hsess,hsame⟩ := hvalue sess' hsess'
    obtain ⟨other,phase₁,hother,hcounts⟩ := h.counted sess hsess (hsame ▸ hpresent)
    by_cases he : other=task
    · subst he
      cases hphase.symm.trans hother
      exact ⟨other,phase',Seen.getElem?_moved_self hphase,hcounted.trans hcounts⟩
    · exact ⟨other,phase₁,Seen.getElem?_moved_other he hother,hcounts⟩
  present sess' hsess' other phase₁ hother hattends := by
    obtain ⟨sess,hsess,hsame⟩ := hvalue sess' hsess'
    rw [hsame]
    obtain ⟨rfl,rfl⟩ | ⟨-,hother⟩ | ⟨-,hstarted⟩ := Seen.getElem?_moved hother
    · exact h.present sess hsess other phase hphase (hattending hattends)
    · exact h.present sess hsess other phase₁ hother hattends
    · obtain ⟨entry,-,rfl⟩ := Option.map_eq_some_iff.mp hstarted
      rw [socketOf_start entry rfl] at hattends
      cases hattends

/-- The player connects. -/
theorem Accurate.connects (hphase : seen.phases[task]?=some phase)
    (hvalue : ∀ sess',world'.value=some sess' → sess'.hasConnected player=true)
    (hcounts : socketOf player GoPresence.counted phase'=true) :
    Accurate player ⟨⟨world',tasks⟩,
      seen.phases.set task phase'++(started.map watcher.start).toList⟩ where
  counted _ _ _ := ⟨task,phase',Seen.getElem?_moved_self hphase,hcounts⟩
  present sess' hsess' _ _ _ _ := hvalue sess' hsess'

/-- The player disconnects, and no other socket of his attends. -/
theorem Accurate.disconnects
    (hvalue : ∀ sess',world'.value=some sess' → sess'.hasConnected player=false)
    (hattends : socketOf player attending phase'=false)
    (hothers : ∀ (other : GoroutineId) (phase : Phase),other≠task →
      seen.phases[other]?=some phase → socketOf player attending phase=false) :
    Accurate player ⟨⟨world',tasks⟩,
      seen.phases.set task phase'++(started.map watcher.start).toList⟩ where
  counted sess' hsess' hpresent := by
    rw [hvalue sess' hsess'] at hpresent
    cases hpresent
  present sess' hsess' other phase₁ hother hattends' := by
    have hnone : socketOf player attending phase₁=false := by
      obtain ⟨-,rfl⟩ | ⟨hne,hother⟩ | ⟨-,hstarted⟩ := Seen.getElem?_moved hother
      · exact hattends
      · exact hothers other phase₁ hne hother
      · obtain ⟨entry,-,rfl⟩ := Option.map_eq_some_iff.mp hstarted
        exact socketOf_start entry rfl
    rw [hnone] at hattends'
    cases hattends'

/-- Who runs the player's connect transaction is connecting. -/
theorem connecting_of_runs (h : phase.Runs (.connect player)) :
    ∃ instance' marked,phase=.socket instance' player .connecting marked := by
  cases phase with
  | turnTimer => exact h.elim
  | forfeitTimer _ _ _ stage => cases stage <;> exact h.elim
  | socket instance' other stage marked =>
    cases stage with
    | connecting =>
      have he : player=other := h
      exact ⟨instance',marked,by rw [he]⟩
    | arriving | starting | reloading | prompting | playing | leaving | pausing | parting | gone => exact h.elim

/-- Who runs the player's disconnect transaction is leaving. -/
theorem leaving_of_runs (h : phase.Runs (.disconnect player)) :
    ∃ instance' marked,phase=.socket instance' player .leaving marked := by
  cases phase with
  | turnTimer => exact h.elim
  | forfeitTimer _ _ _ stage => cases stage <;> exact h.elim
  | socket instance' other stage marked =>
    cases stage with
    | leaving =>
      have he : player=other := h
      exact ⟨instance',marked,by rw [he]⟩
    | arriving | connecting | starting | reloading | prompting | playing | pausing | parting | gone =>
      exact h.elim

/-- A handler that connects or leaves runs no other transaction. -/
theorem runs_changing {call : Call} (h : phase.Runs call)
    (hchanging : socketOf player changing phase=true) :
    call=.connect player ∨ call=.disconnect player := by
  cases phase with
  | turnTimer | forfeitTimer => cases hchanging
  | socket instance' other stage marked =>
    simp only [socketOf,Bool.and_eq_true,decide_eq_true_eq] at hchanging
    obtain ⟨rfl,hstage⟩ := hchanging
    cases stage with
    | connecting =>
      cases call with
      | connect player => exact .inl (congrArg Call.connect h)
      | start | submit | disconnect | resolve | forfeit => exact h.elim
    | leaving =>
      cases call with
      | disconnect player => exact .inr (congrArg Call.disconnect h)
      | start | submit | connect | resolve | forfeit => exact h.elim
    | arriving | starting | reloading | prompting | playing | pausing | parting | gone => cases hstage

/-- What the handler of a player's socket reads is a session that he plays. -/
theorem outsider_eq_false (hplayer : IsPlayer pairing player)
    (hreach : (initial pairing).Reaches seen.config) {choice : Choice} {o : Op language}
    {r : Except Failure o.Res} (hp : WatchedKey.perform (R := runtime) choice task
      seen.config.tasks.length o seen.config.world=some (world',r,started)) :
    outsider player o r=false := by
  obtain ⟨sess₀,hsess₀,h₁,h₂⟩ := stored hreach
  unfold outsider
  split
  · next sess =>
    cases (perform_get hp).trans hsess₀
    simp only [Bool.not_eq_false',PvPSession.isPlayer,h₁,h₂]
    obtain rfl | rfl := hplayer <;> simp
  · rfl

/-- An orderly move keeps presence accurate. -/
theorem Accurate.step (hplayer : IsPlayer pairing player) {seen' : Seen watcher}
    {move : instances.Move} (hreach : (initial pairing).Reaches seen.config)
    (hconforms : seen.Conforms) (h : Accurate player seen) (horderly : Orderly player seen move)
    (hs : Seen.Moved seen move seen') : Accurate player seen' := by
  cases hs with
  | opened entry harrives =>
    constructor
    · intro sess hsess hpresent
      obtain ⟨task,phase,htask,hcounts⟩ := h.counted sess hsess hpresent
      have hlt := (List.getElem?_eq_some_iff.mp htask).1
      exact ⟨task,phase,(List.getElem?_append_left hlt).trans htask,hcounts⟩
    · intro sess hsess task phase htask hattends
      obtain hold | ⟨-,hnew⟩ :=
        @Seen.getElem?_extended _ _ (some (watcher.start entry)) _ _ htask
      · exact h.present sess hsess task phase hold hattends
      · cases hnew
        rw [socketOf_start entry rfl] at hattends
        cases hattends
  | performed task choice phase o rest world r started htask hphase hp =>
    have hallows : phase.Allows o := hconforms.allows hphase htask
    obtain ⟨hgives,hdisconnects⟩ := horderly _ (Seen.performed_eq htask hphase hp)
    obtain ⟨sess₀,hsess₀,hbelongs⟩ := stored hreach
    obtain ⟨token,retriesLeft,call,before,after,rfl,htook,hruns,hbefore,hafter,hmakes⟩ |
      ⟨hsame,hnone⟩ := key_cases hreach htask hallows hp
    · have hpresent : ∀ sess',world.value=some sess' →
          sess'.hasConnected player=presentAfter call player (before.hasConnected player) := by
        intro sess' hsess'
        cases hafter.symm.trans hsess'
        exact hmakes.hasConnected player
      by_cases hconnect : call=.connect player
      · subst hconnect
        obtain ⟨instance',marked,rfl⟩ := connecting_of_runs hruns
        apply Accurate.connects hphase
        · intro sess' hsess'
          simp [hpresent sess' hsess',presentAfter]
        · rw [htook]
          exact (congrArg (socketOf player GoPresence.counted) (next_connects r)).trans
            (by simp [socketOf,GoPresence.counted,attending])
      · by_cases hdisconnect : call=.disconnect player
        · subst hdisconnect
          obtain ⟨instance',marked,rfl⟩ := leaving_of_runs hruns
          rw [htook] at hdisconnects
          apply Accurate.disconnects
          · intro sess' hsess'
            simp [hpresent sess' hsess',presentAfter]
          · rw [htook]
            refine (congrArg (socketOf player attending) (next_disconnects r)).trans ?_
            cases fails r <;> simp [socketOf,attending]
          · intro other phase hne hother
            apply hdisconnects (Bool.and_eq_true_iff.mpr ⟨by simp [socketOf],decide_eq_true rfl⟩)
            exact List.mem_eraseIdx_iff_getElem?.mpr ⟨other,hne,hother⟩
        · obtain ⟨hcounted,hattending⟩ := @socketOf_next player
            (.store (.exec token retriesLeft call after)) true r phase fun hchanging =>
              absurd (runs_changing hruns hchanging) (by simp [hconnect,hdisconnect])
          rw [htook]
          refine h.unchanged hphase (fun sess' hsess' => ⟨before,hbefore,?_⟩) hcounted hattending
          rw [hpresent sess' hsess']
          unfold presentAfter
          split <;> simp_all
    · obtain ⟨hcounted,hattending⟩ := @socketOf_next player o
        (took choice o seen.config.world) r phase fun hchanging => by
          refine ⟨outsider_eq_false hplayer hreach hp,?_⟩
          cases hc : concludes o (took choice o seen.config.world) r with
          | none => rfl
          | some written =>
            cases written with
            | false => simp [givesUp,hchanging,hc] at hgives
            | true =>
              obtain ⟨token,retriesLeft,call,sess,rfl,htook⟩ := effective_of_concludes hc
              rw [hnone token retriesLeft call sess rfl] at htook
              cases htook
      exact h.unchanged hphase (fun sess' hsess' => ⟨sess',hsame ▸ hsess',rfl⟩) hcounted hattending

/-- Nobody is present before the first socket. -/
theorem accurate_initial (pairing : Pairing) (player : String) :
    Accurate player (Seen.initial watcher (initial pairing)) where
  counted sess hsess hpresent := by
    cases hsess
    cases hpresent
  present _ _ _ _ hphase _ := nomatch hphase

/-- Throughout an orderly run presence is accurate. -/
theorem accurate_of_run (hplayer : IsPlayer pairing player) {moves : List instances.Move}
    (hrun : (Seen.initial watcher (initial pairing)).run moves=some seen)
    (horderly : ∀ moment∈(Seen.initial watcher (initial pairing)).moments moves,
      Orderly player moment.1 moment.2) : Accurate player seen :=
  (Seen.invariant body_follows rfl (I := Accurate player) (F := Orderly player)
    (fun hreach hconforms h hf hs => h.step hplayer hreach hconforms hf hs) hrun horderly
    (accurate_initial pairing player)).1

/-- In an orderly run the present players are those with a live socket, whenever
no handler of the player is connecting or leaving. -/
theorem presence_at_rest (pairing : Pairing) {player : String} (hplayer : IsPlayer pairing player)
    {moves : List instances.Move} {seen : Seen watcher}
    (hrun : (Seen.initial watcher (initial pairing)).run moves=some seen)
    (horderly : ∀ moment∈(Seen.initial watcher (initial pairing)).moments moves,
      Orderly player moment.1 moment.2)
    (hrest : ∀ phase∈seen.phases,socketOf player changing phase=false) {sess : PvPSession}
    (hsess : seen.config.world.value=some sess) :
    sess.hasConnected player=true ↔ ∃ phase∈seen.phases,socketOf player live phase=true := by
  have haccurate := accurate_of_run hplayer hrun horderly
  constructor
  · intro hpresent
    obtain ⟨task,phase,hphase,hcounts⟩ := haccurate.counted sess hsess hpresent
    have hmem := List.mem_of_getElem? hphase
    refine ⟨phase,hmem,?_⟩
    have hresting := hrest phase hmem
    cases phase with
    | turnTimer | forfeitTimer => cases hcounts
    | socket instance' other stage marked =>
      simp only [socketOf,Bool.and_eq_true] at hcounts ⊢
      refine ⟨hcounts.1,?_⟩
      cases stage with
      | starting | reloading | prompting | playing => rfl
      | leaving => simp [socketOf,hcounts.1,changing] at hresting
      | arriving | connecting | pausing | parting | gone => cases hcounts.2
  · rintro ⟨phase,hmem,hlive⟩
    obtain ⟨task,hphase⟩ := List.getElem?_of_mem hmem
    apply haccurate.present sess hsess task phase hphase
    have hresting := hrest phase hmem
    cases phase with
    | turnTimer | forfeitTimer => cases hlive
    | socket instance' other stage marked =>
      simp only [socketOf,Bool.and_eq_true] at hlive ⊢
      refine ⟨hlive.1,?_⟩
      cases stage with
      | starting | reloading | prompting | playing => rfl
      | connecting => simp [socketOf,hlive.1,changing] at hresting
      | arriving | leaving | pausing | parting | gone => cases hlive.2

end Steps

/-- Player 1 connects, drops and connects again. -/
def dropsAndReturns : List instances.Move :=
  opens 1 []::proceeds 0 18++opens 1 []::proceeds 2 10

/-- He is present in the end, and the second socket is live. -/
theorem present_after_return : ∃ seen : Seen watcher,∃ sess,
    (Seen.initial watcher (initial .small)).run dropsAndReturns=some seen ∧
      seen.config.world.value=some sess ∧
      (sess.hasConnected (p1Of .small)=true ↔
        ∃ phase∈seen.phases,socketOf (p1Of .small) live phase=true) ∧
      sess.hasConnected (p1Of .small)=true := by
  have horderly : ∀ moment∈(Seen.initial watcher (initial .small)).moments dropsAndReturns,
      Orderly (p1Of .small) moment.1 moment.2 := by decide
  have hrun : ((Seen.initial watcher (initial .small)).run dropsAndReturns).map (fun seen =>
      (seen.phases.all fun phase => !socketOf (p1Of .small) changing phase,
        seen.config.world.value.map fun sess => sess.hasConnected (p1Of .small)))=
      some (true,some true) := by decide
  obtain ⟨seen,hseen,hview⟩ := Option.map_eq_some_iff.mp hrun
  obtain ⟨hrest,hpresent⟩ := Prod.mk.inj hview
  obtain ⟨sess,hsess,hconnected⟩ := Option.map_eq_some_iff.mp hpresent
  refine ⟨seen,sess,hseen,hsess,?_,hconnected⟩
  apply presence_at_rest .small (.inl rfl) hseen horderly _ hsess
  simpa using hrest

/-- Player 1 opens a second socket, and then the handler of the first one finds
that its socket is closed. -/
def supersededSocket : List instances.Move :=
  opens 1 []::proceeds 0 10++opens 1 []::proceeds 1 10++proceeds 0 8

/-- All handlers have finished or wait for their clients, and player 1 is absent
with a live socket. -/
theorem superseded_socket_removes_player :
    ¬∀ (pairing : Pairing) (player : String) (moves : List instances.Move) (seen : Seen watcher)
      (sess : PvPSession),IsPlayer pairing player →
      (Seen.initial watcher (initial pairing)).run moves=some seen →
      seen.config.world.value=some sess →
      (∀ task < seen.phases.length,∀ instance' other stage marked,
        seen.phases[task]?=some (.socket instance' other stage marked) →
          GoSessionSafety.Rests seen.config task) →
      (sess.hasConnected player=true ↔ ∃ phase∈seen.phases,socketOf player live phase=true) := by
  intro h
  have hrun : ((Seen.initial watcher (initial .small)).run supersededSocket).map
      (fun seen : Seen watcher => (seen.phases,
        decide (GoSessionSafety.Rests seen.config 0 ∧ GoSessionSafety.Rests seen.config 1),
        seen.config.world.value.map fun sess => sess.hasConnected (p1Of .small)))=
      some ([.socket 0 (p1Of .small) .parting false,.socket 0 (p1Of .small) .playing true,
        .forfeitTimer 0 (p1Of .small) (p2Of .small) .waiting],true,some false) := by decide
  obtain ⟨seen,hseen,hview⟩ := Option.map_eq_some_iff.mp hrun
  obtain ⟨hphases,hview⟩ := Prod.mk.inj hview
  obtain ⟨hrests,habsent⟩ := Prod.mk.inj hview
  obtain ⟨sess,hsess,hconnected⟩ := Option.map_eq_some_iff.mp habsent
  have hiff := h .small (p1Of .small) supersededSocket seen sess (.inl rfl) hseen hsess ?_
  · rw [hiff.mpr] at hconnected
    · cases hconnected
    · rw [hphases]
      exact ⟨.socket 0 (p1Of .small) .playing true,by simp,by simp [socketOf,live]⟩
  · intro task hlt instance' other stage marked hphase
    obtain ⟨hfirst,hsecond⟩ := of_decide_eq_true hrests
    rw [hphases] at hlt hphase
    match task with
    | 0 => exact hfirst
    | 1 => exact hsecond
    | 2 => cases hphase

end KiClash.GoPresence
