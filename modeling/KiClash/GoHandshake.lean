import KiClash.GoPresence

/-!
# The start of a match in the Go session

Each handler that has connected tries to start the match, and the one whose
transaction sets the started flag prompts the players. The decision is read from
a captured variable, which an aborted attempt leaves set; a handler that has found
the match ready, has lost that attempt and then finds the match started prompts
the players as well. Without such handlers there is one prompting start call, and
if nothing fails there is one.
-/

namespace KiClash.GoHandshake

open GoTypes ServerMessages AsyncTasks WatchedKey TaskPhases TransactionReads Histories
open GameStore (Pairing)
open GoSessionContracts (p1Of p2Of IsPlayer Belongs)
open GoStore GoSession GoPhases GoTransactions GoPresence

/-- A start call prompts the player. -/
def prompts (player : String) (performed : Performed watcher) : Bool :=
  match performed.phase,performed.op with
  | .socket _ _ (.prompting _) _,.act (.send _ other message) => message.isPrompt && other=player
  | _,_ => false

/-- A transaction of start finds the match not started and starts it with both
players connected. -/
def startsMatch (config : instances.Config) (performed : Performed watcher) : Bool :=
  match performed.op,performed.effective with
  | .store (.exec _ _ .start sess'),true =>
    config.world.value.any (fun sess => !sess.started) && sess'.started && bothConnected sess'
  | _,_ => false

/-- The goroutine whose transaction has started the match. -/
def starter (history : List Moment) : Option GoroutineId :=
  history.foldl (fun starter moment =>
    match moment.1.performed moment.2 with
    | none => starter
    | some performed =>
      if startsMatch moment.1.config performed then some performed.task else starter) none

/-- A transaction of start commits after an aborted attempt of its call has found
the match ready, but it does not find it ready itself. -/
def stale (performed : Performed watcher) : Bool :=
  match performed.phase,performed.op,performed.effective with
  | .socket _ _ (.starting false true) _,.store (.exec _ _ _ _),true => true
  | _,_,_ => false

/-- The handler has returned from start and reads from its socket. -/
def reads : Stage → Bool
  | .prompting [] | .playing => true
  | _ => false

/-- The handler is in its connect sequence. -/
def connecting : Stage → Bool
  | .connecting | .starting _ _ | .reloading | .prompting (_::_) => true
  | _ => false

/-- A connect or start transaction gives up or is refused, or start fails after its
transaction has been written, or what it reads then has no open round. -/
def fallsThrough (performed : Performed watcher) : Bool :=
  match performed.phase with
  | .socket _ player .connecting _ =>
    outsider player performed.op performed.result ||
      concludes performed.op performed.effective performed.result=some false
  | .socket _ _ (.starting _ _) _ =>
    concludes performed.op performed.effective performed.result=some false ||
      concludes performed.op performed.effective performed.result=some true &&
        fails performed.result
  | .socket _ player .reloading marked =>
    (Stage.next player marked .reloading performed.op performed.effective performed.result).1=
      .playing
  | _ => false

section Starter

variable {pairing : Pairing} {history : List Moment} {moment : Moment} {seen seen' : Seen watcher}
  {move : instances.Move} {moves : List instances.Move}

/-- What a further operation changes. -/
theorem starter_append {performed : Performed watcher}
    (h : moment.1.performed moment.2=some performed) : starter (history++[moment])=
      if startsMatch moment.1.config performed then some performed.task else starter history := by
  simp [starter,List.foldl_append,h]

/-- A move that performs nothing changes nothing. -/
theorem starter_open (h : moment.1.performed moment.2=none) :
    starter (history++[moment])=starter history := by
  simp [starter,List.foldl_append,h]

/-- The match has started. -/
def startedIn (config : instances.Config) : Bool := config.world.value.any fun sess => sess.started

/-- Only a transaction of start that takes effect starts the match. -/
theorem exec_of_startsMatch {config : instances.Config} {task : GoroutineId} {phase : Phase}
    {o : Op language} {effective : Bool} {r : Except Failure o.Res}
    (h : startsMatch config ⟨task,phase,o,effective,r⟩=true) :
    ∃ token retriesLeft sess,o=.store (.exec token retriesLeft .start sess) ∧ effective=true := by
  unfold startsMatch at h
  split at h
  · next hop heffective => exact ⟨_,_,_,hop,heffective⟩
  · cases h

/-- A transaction starts the match if it sets the started flag. -/
theorem startsMatch_commit (hreach : (initial pairing).Reaches seen.config) {task : GoroutineId}
    {phase : Phase} {token retriesLeft : ℕ} {call : Call} {before after : PvPSession}
    {r : Except Failure Bool} (hbefore : seen.config.world.value=some before)
    (hmakes : Makes call before after) :
    startsMatch seen.config ⟨task,phase,.store (.exec token retriesLeft call after),true,r⟩=
      (!before.started && after.started) := by
  obtain hsame | ⟨rfl,hs,hlength,rfl⟩ := hmakes.started
  · rw [hsame]
    cases call with
    | start => cases hb : before.started <;> simp [startsMatch,hbefore,hsame,hb]
    | connect | submit | disconnect | resolve | forfeit =>
      cases hb : before.started <;> simp [startsMatch]
  · obtain ⟨sess,hsess,hbelongs⟩ := stored hreach
    cases hbefore.symm.trans hsess
    have hlisted := listed hreach before hbefore
    have hboth : bothConnected {before with started := true}=true := by
      rw [bothConnected,Bool.and_eq_true]
      exact ⟨both_of_length hlisted hlength (.inl hbelongs.1),
        both_of_length hlisted hlength (.inr hbelongs.2)⟩
    simp [startsMatch,hbefore,hs,hboth]

/-- The match has started if and only if some goroutine has started it. -/
def Begun (history : List Moment) (seen : Seen watcher) : Prop :=
  startedIn seen.config=(starter history).isSome

/-- The moves keep this. -/
theorem Begun.step (hreach : (initial pairing).Reaches seen.config) (hconforms : seen.Conforms)
    (h : Begun history seen) (hs : Seen.Moved seen move seen') :
    Begun (history++[(seen,move)]) seen' := by
  unfold Begun at h ⊢
  cases hs with
  | opened entry harrives =>
    rw [starter_open rfl]
    exact h
  | performed task choice phase o rest world r started htask hphase hp =>
    have hallows : phase.Allows o := hconforms.allows hphase htask
    rw [starter_append (Seen.performed_eq htask hphase hp)]
    obtain ⟨token,retriesLeft,call,before,after,rfl,htook,hruns,hbefore,hafter,hmakes⟩ |
      ⟨hsame,hnone⟩ := key_cases hreach htask hallows hp
    · rw [startedIn,hbefore,Option.any_some] at h
      change world.value.any _=_
      rw [hafter,Option.any_some,htook,startsMatch_commit hreach hbefore hmakes]
      obtain hsame | ⟨-,hs,-,rfl⟩ := hmakes.started
      · have hnot : (!before.started && before.started)=false := by cases before.started <;> rfl
        rw [hsame,hnot,if_neg Bool.false_ne_true]
        exact h
      · rw [hs]
        rfl
    · have hnot : startsMatch seen.config ⟨task,phase,o,took choice o seen.config.world,r⟩=false := by
        apply Bool.eq_false_iff.mpr
        intro hstarts
        obtain ⟨token,retriesLeft,sess,rfl,htook⟩ := exec_of_startsMatch hstarts
        rw [hnone token retriesLeft .start sess rfl] at htook
        cases htook
      rw [hnot,if_neg Bool.false_ne_true,← h]
      change world.value.any _=_
      rw [hsame]
      rfl

/-- A starter stays the starter. -/
theorem starter_kept (hreach : (initial pairing).Reaches seen.config) (hconforms : seen.Conforms)
    (hbegun : Begun history seen) (hs : Seen.Moved seen move seen') {task : GoroutineId}
    (h : starter history=some task) : starter (history++[(seen,move)])=some task := by
  cases hs with
  | opened entry harrives =>
    rw [starter_open rfl]
    exact h
  | performed other choice phase o rest world r started htask hphase hp =>
    rw [starter_append (Seen.performed_eq htask hphase hp)]
    have hallows : phase.Allows o := hconforms.allows hphase htask
    have hnot : startsMatch seen.config ⟨other,phase,o,took choice o seen.config.world,r⟩=false := by
      obtain ⟨token,retriesLeft,call,before,after,rfl,htook,hruns,hbefore,hafter,hmakes⟩ |
        ⟨hsame,hnone⟩ := key_cases hreach htask hallows hp
      · rw [htook,startsMatch_commit hreach hbefore hmakes]
        rw [Begun,h,startedIn,hbefore,Option.any_some] at hbegun
        simp [hbegun]
      · apply Bool.eq_false_iff.mpr
        intro hstarts
        obtain ⟨token,retriesLeft,sess,rfl,htook⟩ := exec_of_startsMatch hstarts
        rw [hnone token retriesLeft .start sess rfl] at htook
        cases htook
    rw [hnot,if_neg Bool.false_ne_true]
    exact h

end Starter

section Found

variable {pairing : Pairing} {moves : List instances.Move} {seen : Seen watcher}

/-- The instances, watched together with the attempts of their transactions. -/
abbrev attempting : Watcher runtime := withAttempts watcher Makes

/-- The session that start can start. -/
def isReady (sess : PvPSession) : Bool :=
  !sess.started && !(sess.connectedPlayers.length<2 : Bool)

/-- An attempt of start knows whether what it has read is ready; what is left over
from a connect transaction that has failed is not looked at. -/
def Knows (marked found : Bool) (sess : PvPSession) : Prop :=
  isReady sess=found ∨ found=false ∧ marked=false

/-- All attempts of start know it. -/
def Finds (seen : Seen attempting) : Prop :=
  ∀ (task : GoroutineId) (instance' : Instance) (player : String) (found ready marked : Bool)
    (token : ℕ) (sess : PvPSession),
    seen.phases[task]?=some (.socket instance' player (.starting found ready) marked,
      .found token sess) → Knows marked found sess

/-- A step of start's transaction after which its attempt has read the session. -/
theorem finds_next {marked found ready found' ready' : Bool}
    {attempt : Attempt PvPSession} {o : Op language} {effective : Bool}
    {r : Except Failure o.Res} {token : ℕ} {sess : PvPSession}
    (hold : attempt=.found token sess → Knows marked found sess)
    (hstage : started found ready o effective r=.starting found' ready')
    (hattempt : Attempt.next (L := language) attempt o r=.found token sess) :
    Knows marked found' sess := by
  match o with
  | .act o =>
    cases hstage
    exact hold hattempt
  | .store .load | .store .unwatch | .store .delete | .store (.set _ _ _) =>
    cases hstage
    exact hold hattempt
  | .store .watch =>
    cases r with
    | error exc => cases hstage
    | ok token => cases hattempt
  | .store (.exec _ _ _ _) => cases attempt <;> cases hattempt
  | .store .get =>
    rcases r with exc | _ | sess'
    · cases hstage
    · cases hstage
    · obtain ⟨hfound,-⟩ := Stage.starting.inj hstage
      cases attempt with
      | idle => cases hattempt
      | watched token' =>
        cases hattempt
        exact .inl hfound
      | found token' sess₀ =>
        cases hattempt
        exact .inl hfound

/-- A step of connect's transaction after which its handler goes on with start. -/
theorem finds_connected {player : String} {marked found ready : Bool}
    {attempt : Attempt PvPSession} {o : Op language} {effective : Bool}
    {r : Except Failure o.Res} {token : ℕ} {sess : PvPSession}
    (hstage : connected player o effective r=(.starting found ready,marked))
    (hattempt : Attempt.next (L := language) attempt o r=.found token sess) :
    Knows marked found sess := by
  unfold connected at hstage
  split at hstage
  · cases hstage
    exact .inr ⟨rfl,rfl⟩
  · split at hstage
    · cases hstage
    · next written hconcludes =>
      cases hstage
      cases marked with
      | false => exact .inr ⟨rfl,rfl⟩
      | true =>
        obtain ⟨token',retriesLeft,call,sess',rfl,-⟩ := effective_of_concludes hconcludes
        cases attempt <;> cases hattempt

/-- A handler goes on with start in start and after connect. -/
theorem starting_before {stage : Stage} {player : String} {marked marked' found ready : Bool}
    {o : Op language} {effective : Bool} {r : Except Failure o.Res}
    (h : stage.next player marked o effective r=(.starting found ready,marked')) :
    stage=.connecting ∨ marked'=marked ∧ ∃ found' ready',stage=.starting found' ready' := by
  cases stage with
  | connecting => exact .inl rfl
  | starting found' ready' => exact .inr ⟨(Prod.mk.inj h).2.symm,found',ready',rfl⟩
  | arriving =>
    unfold Stage.next at h
    split at h <;> simp_all
  | reloading =>
    unfold Stage.next reloaded at h
    dsimp only at h
    split at h
    · split at h <;> cases h
    · cases h
    · cases h
  | prompting untold =>
    unfold Stage.next prompted at h
    dsimp only at h
    split at h <;> cases h
  | playing =>
    unfold Stage.next GoPhases.reading at h
    dsimp only at h
    split at h <;> cases h
  | leaving =>
    unfold Stage.next disconnected at h
    dsimp only at h
    split at h
    · cases h
    · cases h
    · split at h <;> cases h
  | pausing =>
    unfold Stage.next paused at h
    dsimp only at h
    split at h <;> cases h
  | parting | gone => cases h

/-- The moves keep this. -/
theorem Finds.step {seen seen' : Seen attempting} {move : instances.Move} (h : Finds seen)
    (hs : Seen.Moved seen move seen') : Finds seen' := by
  cases hs with
  | opened entry harrives =>
    intro task instance' player found ready marked token sess hphase
    obtain hold | ⟨-,hnew⟩ :=
      @Seen.getElem?_extended _ _ (some (attempting.start entry)) _ _ hphase
    · exact h task instance' player found ready marked token sess hold
    · cases entry <;> cases hnew
  | performed task choice phase o rest world r started htask hphase hp =>
    intro other instance' player found ready marked token sess hphase'
    obtain ⟨rfl,hnext⟩ | ⟨-,hother⟩ | ⟨-,hstarted⟩ := Seen.getElem?_moved hphase'
    · obtain ⟨hstage,hattempt⟩ := Prod.mk.inj hnext
      obtain ⟨before,attempt⟩ := phase
      cases before with
      | turnTimer | forfeitTimer => cases hstage
      | socket instance₀ player₀ stage₀ marked₀ =>
        obtain ⟨rfl,rfl,hstage,hmarked⟩ := Phase.socket.inj hstage
        have hboth : stage₀.next player marked₀ o (took choice o seen.config.world) r=
            (.starting found ready,marked) := Prod.ext hstage.symm hmarked.symm
        obtain rfl | ⟨rfl,found₀,ready₀,rfl⟩ := starting_before hboth
        · exact finds_connected hboth hattempt.symm
        · apply finds_next _ hstage.symm hattempt.symm
          rintro rfl
          exact h other _ _ _ _ _ token sess hphase
    · exact h other instance' player found ready marked token sess hother
    · obtain ⟨entry,-,hnew⟩ := Option.map_eq_some_iff.mp hstarted
      cases entry <;> cases hnew

/-- A start transaction that commits starts the match if its attempt has found it
ready, and that of a handler that has connected starts it only then. -/
def Finding (moment : Moment) : Prop :=
  ∀ performed∈moment.1.performed moment.2,∀ instance' player found ready marked,
    performed.phase=.socket instance' player (.starting found ready) marked →
    concludes performed.op performed.effective performed.result=some true →
    startsMatch moment.1.config performed=found ∨
      startsMatch moment.1.config performed=true ∧ found=false ∧ marked=false

end Found

section Sole

variable {pairing : Pairing} {history : List Moment} {seen seen' : Seen watcher}
  {move : instances.Move} {moves : List instances.Move}

/-- The handler has concluded that it is to prompt the players. -/
def announcing : Stage → Bool
  | .reloading | .prompting _ => true
  | _ => false

/-- A handler concludes so when its start transaction has committed and one of its
attempts has found the match ready. -/
theorem announcing_before {stage : Stage} {player : String} {marked : Bool} {o : Op language}
    {effective : Bool} {r : Except Failure o.Res}
    (h : announcing (stage.next player marked o effective r).1=true) :
    announcing stage=true ∨ ∃ found ready,stage=.starting found ready ∧
      concludes o effective r=some true ∧ (found || ready)=true := by
  cases stage with
  | reloading | prompting untold => exact .inl rfl
  | arriving =>
    unfold Stage.next at h
    split at h <;> simp_all [announcing]
  | connecting =>
    unfold Stage.next connected at h
    dsimp only at h
    split at h
    · cases h
    · split at h <;> cases h
  | starting found ready =>
    unfold Stage.next started at h
    dsimp only at h
    split at h
    · cases h
    · next written _ hconcludes =>
      split at h
      · next hready =>
        simp only [Bool.and_eq_true] at hready
        obtain ⟨⟨rfl,-⟩,hfound⟩ := hready
        exact .inr ⟨found,ready,rfl,hconcludes,hfound⟩
      · cases h
    · cases h
    · cases h
  | playing =>
    unfold Stage.next GoPhases.reading at h
    dsimp only at h
    split at h <;> cases h
  | leaving =>
    unfold Stage.next disconnected at h
    dsimp only at h
    split at h
    · cases h
    · cases h
    · split at h <;> cases h
  | pausing =>
    unfold Stage.next paused at h
    dsimp only at h
    split at h <;> cases h
  | parting | gone => cases h

/-- Who has concluded that it is to prompt the players has started the match. -/
def Sole (history : List Moment) (seen : Seen watcher) : Prop :=
  ∀ (task : GoroutineId) (instance' : Instance) (player : String) (stage : Stage) (marked : Bool),
    seen.phases[task]?=some (.socket instance' player stage marked) → announcing stage=true →
    starter history=some task

/-- A handler that starts the match. -/
theorem starter_of_found {task : GoroutineId} {choice : Choice} {instance' : Instance}
    {player : String} {found ready marked : Bool} {o : Op language}
    {rest : Except Failure o.Res → Goroutine Unit} {world : World} {r : Except Failure o.Res}
    {started : Option Entry} (hfinding : Finding (seen,.run task choice))
    (hstale : performs stale (seen,.run task choice)=false)
    (htask : seen.config.tasks[task]?=some (.op o rest))
    (hphase : seen.phases[task]?=some (.socket instance' player (.starting found ready) marked))
    (hp : WatchedKey.perform (R := runtime) choice task seen.config.tasks.length o
      seen.config.world=some (world,r,started))
    (hconcludes : concludes o (took choice o seen.config.world) r=some true)
    (hready : (found || ready)=true) :
    starter (history++[(seen,.run task choice)])=some task := by
  have hperformed := Seen.performed_eq htask hphase hp
  rw [performs_run htask hphase hp] at hstale
  obtain ⟨token,retriesLeft,call,after,rfl,htook⟩ := effective_of_concludes hconcludes
  have hfound : found=true := by
    rw [htook] at hstale
    cases found with
    | true => rfl
    | false =>
      have hready' : ready=true := hready
      subst hready'
      cases hstale
  rw [starter_append hperformed]
  obtain hstarts | ⟨-,hfalse,-⟩ := hfinding _ hperformed _ _ _ _ _ rfl hconcludes
  · rw [hstarts,hfound,if_pos rfl]
  · rw [hfound] at hfalse
    cases hfalse

/-- The moves keep this. -/
theorem Sole.step (hreach : (initial pairing).Reaches seen.config) (hconforms : seen.Conforms)
    (hbegun : Begun history seen) (h : Sole history seen) (hfinding : Finding (seen,move))
    (hstale : performs stale (seen,move)=false) (hs : Seen.Moved seen move seen') :
    Sole (history++[(seen,move)]) seen' := by
  intro other instance' player stage marked hphase' hannounces
  have hmoved := hs
  cases hs with
  | opened entry harrives =>
    obtain hold | ⟨-,hnew⟩ := @Seen.getElem?_extended _ _ (some (watcher.start entry)) _ _ hphase'
    · exact starter_kept hreach hconforms hbegun hmoved (h other _ _ _ _ hold hannounces)
    · cases entry <;> cases hnew
      cases hannounces
  | performed task choice phase o rest world r started htask hphase hp =>
    obtain ⟨rfl,hnext⟩ | ⟨-,hold⟩ | ⟨-,hstarted⟩ := Seen.getElem?_moved hphase'
    · cases phase with
      | turnTimer | forfeitTimer => cases hnext
      | socket instance₀ player₀ stage₀ marked₀ =>
        obtain ⟨rfl,rfl,rfl,rfl⟩ := Phase.socket.inj hnext
        obtain hannounces₀ | ⟨found,ready,rfl,hconcludes,hready⟩ := announcing_before hannounces
        · exact starter_kept hreach hconforms hbegun hmoved (h other _ _ _ _ hphase hannounces₀)
        · exact starter_of_found hfinding hstale htask hphase hp hconcludes hready
    · exact starter_kept hreach hconforms hbegun hmoved (h other _ _ _ _ hold hannounces)
    · obtain ⟨entry,-,hnew⟩ := Option.map_eq_some_iff.mp hstarted
      cases entry <;> cases hnew
      cases hannounces

end Sole

section Told

variable {pairing : Pairing} {history : List Moment} {seen seen' : Seen watcher}
  {move : instances.Move} {moves : List instances.Move}

/-- A handler past connect has connected its player. -/
def Present (seen : Seen watcher) : Prop :=
  ∀ (task : GoroutineId) (instance' : Instance) (player : String) (stage : Stage) (marked : Bool),
    seen.phases[task]?=some (.socket instance' player stage marked) → attending stage=true →
    marked=true ∧ connectedIn player seen.config=true

/-- A handler gets past connect by its transaction. -/
theorem attending_before {stage : Stage} {player : String} {marked : Bool} {o : Op language}
    {effective : Bool} {r : Except Failure o.Res}
    (h : attending (stage.next player marked o effective r).1=true) :
    stage=.connecting ∨ attending stage=true ∧ (stage.next player marked o effective r).2=marked := by
  cases stage with
  | connecting => exact .inl rfl
  | starting | reloading | prompting | playing => exact .inr ⟨rfl,rfl⟩
  | arriving =>
    unfold Stage.next at h
    split at h <;> simp_all [attending]
  | leaving =>
    unfold Stage.next disconnected at h
    dsimp only at h
    split at h
    · cases h
    · cases h
    · split at h <;> cases h
  | pausing =>
    unfold Stage.next paused at h
    dsimp only at h
    split at h <;> cases h
  | parting | gone => cases h

/-- A connect transaction that has not failed has written. -/
theorem connecting_next {instance' : Instance} {player : String} {marked marked' : Bool}
    {task : GoroutineId} {o : Op language} {effective : Bool} {r : Except Failure o.Res}
    (hfalls : fallsThrough ⟨task,.socket instance' player .connecting marked,o,effective,r⟩=false)
    {stage : Stage}
    (h : Stage.next player marked .connecting o effective r=(stage,marked')) :
    stage=.connecting ∨ stage=.starting false false ∧ marked'=true ∧
      concludes o effective r=some true := by
  simp only [fallsThrough,Bool.or_eq_false_iff,decide_eq_false_iff_not] at hfalls
  obtain ⟨houtsider,hconcludes⟩ := hfalls
  unfold Stage.next connected at h
  dsimp only at h
  rw [houtsider,if_neg Bool.false_ne_true] at h
  split at h
  · cases h
    exact .inl rfl
  · next written hwritten =>
    cases h
    cases marked' with
    | false => exact absurd hwritten hconcludes
    | true => exact .inr ⟨rfl,rfl,hwritten⟩

/-- Who is connected stays so while nobody is removed. -/
theorem connected_kept {player : String} (hreach : (initial pairing).Reaches seen.config)
    (hconforms : seen.Conforms) (hremoves : performs removes (seen,move)=false)
    (hs : Seen.Moved seen move seen') (h : connectedIn player seen.config=true) :
    connectedIn player seen'.config=true := by
  cases hs with
  | opened entry harrives => exact h
  | performed task choice phase o rest world r started htask hphase hp =>
    rw [performs_run htask hphase hp] at hremoves
    obtain ⟨token,retriesLeft,call,before,after,rfl,htook,hruns,hbefore,hafter,hmakes⟩ |
      ⟨hsame,-⟩ := key_cases hreach htask (hconforms.allows hphase htask) hp
    · rw [connectedIn,hbefore,Option.any_some] at h
      change world.value.any _=true
      rw [hafter,Option.any_some,hmakes.hasConnected,h]
      cases call with
      | disconnect other => simp [removes,htook] at hremoves
      | connect | start | submit | resolve | forfeit => rfl
    · change world.value.any _=true
      rw [hsame]
      exact h

/-- The moves keep this. -/
theorem Present.step (hreach : (initial pairing).Reaches seen.config) (hconforms : seen.Conforms)
    (h : Present seen) (hremoves : performs removes (seen,move)=false)
    (hfalls : performs fallsThrough (seen,move)=false) (hs : Seen.Moved seen move seen') :
    Present seen' := by
  intro other instance' player stage marked hphase' hattends
  have hmoved := hs
  cases hs with
  | opened entry harrives =>
    obtain hold | ⟨-,hnew⟩ := @Seen.getElem?_extended _ _ (some (watcher.start entry)) _ _ hphase'
    · exact h other _ _ _ _ hold hattends
    · cases entry <;> cases hnew
      cases hattends
  | performed task choice phase o rest world r started htask hphase hp =>
    have hallows : phase.Allows o := hconforms.allows hphase htask
    obtain ⟨rfl,hnext⟩ | ⟨-,hold⟩ | ⟨-,hstarted⟩ := Seen.getElem?_moved hphase'
    · cases phase with
      | turnTimer | forfeitTimer => cases hnext
      | socket instance₀ player₀ stage₀ marked₀ =>
        obtain ⟨rfl,rfl,rfl,rfl⟩ := Phase.socket.inj hnext
        obtain rfl | ⟨hattends₀,hmarked⟩ := attending_before hattends
        · rw [performs_run htask hphase hp] at hfalls
          obtain hconnecting | ⟨-,hmarked,hconcludes⟩ := connecting_next hfalls (Prod.mk.eta.symm)
          · rw [hconnecting] at hattends
            cases hattends
          · refine ⟨hmarked,?_⟩
            obtain ⟨token,retriesLeft,call,sess,rfl,htook⟩ := effective_of_concludes hconcludes
            obtain ⟨_,_,_,before,after,he,-,hruns,hbefore,hafter,hmakes⟩ | ⟨-,hnone⟩ :=
              key_cases hreach htask hallows hp
            · cases he
              change world.value.any _=true
              rw [hafter,Option.any_some,hmakes.hasConnected]
              cases call with
              | connect player' =>
                cases (show player'=player from hruns)
                simp [presentAfter]
              | start | submit | disconnect | resolve | forfeit => exact hruns.elim
            · rw [hnone token retriesLeft call sess rfl] at htook
              cases htook
        · obtain ⟨hmarked₀,hconnected⟩ := h other _ _ _ _ hphase hattends₀
          exact ⟨hmarked.trans hmarked₀,
            connected_kept hreach hconforms hremoves hmoved hconnected⟩
    · obtain ⟨hmarked,hconnected⟩ := h other _ _ _ _ hold hattends
      exact ⟨hmarked,connected_kept hreach hconforms hremoves hmoved hconnected⟩
    · obtain ⟨entry,-,hnew⟩ := Option.map_eq_some_iff.mp hstarted
      cases entry <;> cases hnew
      cases hattends

/-- The match has started, or a player has not connected, or a handler is still to
commit its start transaction. -/
def Due (pairing : Pairing) (seen : Seen watcher) : Prop :=
  startedIn seen.config=true ∨
    (∃ player,IsPlayer pairing player ∧ connectedIn player seen.config=false) ∨
    ∃ (task : GoroutineId) (instance' : Instance) (player : String) (found ready marked : Bool),
      seen.phases[task]?=some (.socket instance' player (.starting found ready) marked)

/-- A start transaction that has not failed has written. -/
theorem starting_next {instance' : Instance} {player : String} {found ready marked : Bool}
    {task : GoroutineId} {o : Op language} {effective : Bool} {r : Except Failure o.Res}
    (hfalls : fallsThrough
      ⟨task,.socket instance' player (.starting found ready) marked,o,effective,r⟩=false) :
    (concludes o effective r=none ∧ ∃ found' ready',
      (Stage.next player marked (.starting found ready) o effective r).1=.starting found' ready') ∨
    concludes o effective r=some true ∧
      (Stage.next player marked (.starting found ready) o effective r).1=
        if found || ready then .reloading else .playing := by
  simp only [fallsThrough,Bool.or_eq_false_iff,decide_eq_false_iff_not,Bool.and_eq_false_iff]
    at hfalls
  obtain ⟨hwrites,hfails⟩ := hfalls
  unfold Stage.next started
  dsimp only
  split
  · next hready =>
    refine .inl ⟨?_,_,_,rfl⟩
    unfold findsReady at hready
    split at hready
    · rfl
    · cases hready
  · next written _ hconcludes =>
    cases written with
    | false => exact absurd hconcludes hwrites
    | true =>
      refine .inr ⟨hconcludes,?_⟩
      rw [hfails.resolve_left (fun hnot => hnot hconcludes)]
      rfl
  · next hconcludes => exact .inl ⟨hconcludes,_,_,rfl⟩
  · next hconcludes => exact .inl ⟨hconcludes,_,_,rfl⟩

/-- A player whom the session does not show is not connected. -/
theorem absent_of_length {sess : PvPSession} (h : sess.connectedPlayers.length<2) :
    ∃ player,IsPlayer pairing player ∧ sess.hasConnected player=false := by
  by_contra hall
  have hpresent : ∀ player,IsPlayer pairing player →
      player∈sess.connectedPlayers.elements := by
    intro player hplayer
    cases hc : sess.hasConnected player with
    | false => exact absurd ⟨player,hplayer,hc⟩ hall
    | true =>
      obtain ⟨other,hmem,he⟩ := List.any_eq_true.mp hc
      rwa [← of_decide_eq_true he]
  have hnodup : [p1Of pairing,p2Of pairing].Nodup := by
    simpa using GoSessionSafety.players_distinct pairing
  have hsubset : [p1Of pairing,p2Of pairing] ⊆ sess.connectedPlayers.elements := by
    intro player hmem
    simp only [List.mem_cons,List.not_mem_nil,or_false] at hmem
    exact hpresent player hmem
  have hle := hnodup.length_le_of_subset hsubset
  rw [Slice.length] at h
  simp only [List.length_cons,List.length_nil] at hle
  omega

/-- The moves keep this. -/
theorem Due.step (hreach : (initial pairing).Reaches seen.config) (hconforms : seen.Conforms)
    (h : Due pairing seen) (hfalls : performs fallsThrough (seen,move)=false)
    (hs : Seen.Moved seen move seen') : Due pairing seen' := by
  cases hs with
  | opened entry harrives =>
    obtain hstarted | habsent | ⟨task,instance',player,found,ready,marked,hphase⟩ := h
    · exact .inl hstarted
    · exact .inr (.inl habsent)
    · have hlt := (List.getElem?_eq_some_iff.mp hphase).1
      exact .inr (.inr ⟨task,instance',player,found,ready,marked,
        (List.getElem?_append_left hlt).trans hphase⟩)
  | performed task choice phase o rest world r started htask hphase hp =>
    have hallows : phase.Allows o := hconforms.allows hphase htask
    rw [performs_run htask hphase hp] at hfalls
    obtain ⟨token,retriesLeft,call,before,after,rfl,htook,hruns,hbefore,hafter,hmakes⟩ |
      ⟨hsame,hnone⟩ := key_cases hreach htask hallows hp
    · unfold Due startedIn connectedIn at h ⊢
      rw [hbefore] at h
      dsimp only
      rw [hafter]
      simp only [Option.any_some] at h ⊢
      obtain hstarted | ⟨player,hplayer,habsent⟩ |
        ⟨other,instance',player,found,ready,marked,hstarting⟩ := h
      · left
        obtain hsame | ⟨-,-,-,rfl⟩ := hmakes.started
        · rw [hsame]
          exact hstarted
        · rfl
      · right
        by_cases hconnect : call=.connect player
        · right
          subst hconnect
          obtain ⟨instance',marked,rfl⟩ := connecting_of_runs hruns
          refine ⟨task,instance',player,false,false,true,?_⟩
          rw [Seen.getElem?_moved_self hphase,htook]
          rfl
        · left
          refine ⟨player,hplayer,?_⟩
          rw [hmakes.hasConnected,habsent]
          unfold presentAfter
          split <;> simp_all
      · by_cases he : other=task
        · subst he
          cases hphase.symm.trans hstarting
          cases call with
          | start =>
            cases hmakes with
            | start hm =>
              obtain ⟨rfl,-,hstarted | hlength⟩ | ⟨-,-,rfl,-⟩ := markStarted_cases hm
              · exact .inl hstarted
              · exact .inr (.inl (absent_of_length hlength))
              · exact .inl rfl
          | connect | submit | disconnect | resolve | forfeit => exact hruns.elim
        · exact .inr (.inr ⟨other,instance',player,found,ready,marked,
            Seen.getElem?_moved_other he hstarting⟩)
    · unfold Due startedIn connectedIn at h ⊢
      dsimp only
      rw [hsame]
      obtain hstarted | habsent | ⟨other,instance',player,found,ready,marked,hstarting⟩ := h
      · exact .inl hstarted
      · exact .inr (.inl habsent)
      · refine .inr (.inr ?_)
        by_cases he : other=task
        · subst he
          cases hphase.symm.trans hstarting
          obtain ⟨-,found',ready',hstage⟩ | ⟨hconcludes,-⟩ := starting_next hfalls
          · refine ⟨other,instance',player,found',ready',marked,?_⟩
            rw [Seen.getElem?_moved_self hphase,← hstage]
            rfl
          · obtain ⟨token,retriesLeft,call,sess,rfl,htook⟩ := effective_of_concludes hconcludes
            rw [hnone token retriesLeft call sess rfl] at htook
            cases htook
        · exact ⟨other,instance',player,found,ready,marked,Seen.getElem?_moved_other he hstarting⟩

/-- The handler that has started the match has still to prompt the player. -/
def owes (player : String) : Stage → Bool
  | .reloading => true
  | .prompting untold => player∈untold
  | _ => false

/-- It goes on to prompt the player. -/
theorem owes_next {instance' : Instance} {player own : String} {stage : Stage} {marked : Bool}
    {task : GoroutineId} {choice : Choice} {o : Op language} {world : World}
    {r : Except Failure o.Res} {started : Option Entry}
    (hreach : (initial pairing).Reaches seen.config) (hplayer : IsPlayer pairing player)
    (hallows : (Phase.socket instance' own stage marked).Allows o)
    (hp : WatchedKey.perform (R := runtime) choice task seen.config.tasks.length o
      seen.config.world=some (world,r,started))
    (hfalls : fallsThrough
      ⟨task,.socket instance' own stage marked,o,took choice o seen.config.world,r⟩=false)
    (howes : owes player stage=true) :
    owes player (stage.next own marked o (took choice o seen.config.world) r).1=true ∨
      prompts player
        ⟨task,.socket instance' own stage marked,o,took choice o seen.config.world,r⟩=true := by
  cases stage with
  | reloading =>
    simp only [fallsThrough,decide_eq_false_iff_not] at hfalls
    cases o with
    | act o => exact .inl rfl
    | store o =>
      cases o with
      | load =>
        left
        rcases r with exc | _ | sess
        · exact absurd rfl hfalls
        · exact absurd rfl hfalls
        · obtain ⟨sess₀,hsess₀,hbelongs⟩ := stored hreach
          cases (perform_load hp).trans hsess₀
          simp only [Stage.next,reloaded] at hfalls ⊢
          split
          · simp only [owes,List.mem_cons,List.not_mem_nil,or_false,decide_eq_true_eq]
            rw [hbelongs.1,hbelongs.2]
            exact hplayer
          · next hround => simp [hround] at hfalls
      | watch | get | unwatch | delete | exec | set => exact .inl rfl
  | prompting untold =>
    have hmem : player∈untold := of_decide_eq_true howes
    cases o with
    | store o => exact .inl howes
    | act o =>
      cases o with
      | send instance₀ other message =>
        cases hprompt : message.isPrompt with
        | false =>
          left
          simp only [Stage.next,prompted,hprompt]
          exact howes
        | true =>
          have hhead : untold.head?=some other := hallows.2 hprompt
          cases untold with
          | nil => cases hhead
          | cons first rest =>
            cases hhead
            obtain rfl | hrest := List.mem_cons.mp hmem
            · right
              simp [prompts,hprompt]
            · left
              simp only [Stage.next,prompted,hprompt,if_true,List.tail_cons]
              exact decide_eq_true hrest
      | readMessage frame =>
        obtain ⟨_,_,_,_,he,hnil | hplaying⟩ := hallows
        · cases he
          cases hnil
          cases hmem
        · cases he
          cases hplaying
      | writeJSON | upgrade | selectTimer | sleep | setTurnTimeout | cancelTurnTimeout
      | startDisconnect | cancelDisconnectTimer => exact .inl howes
  | arriving | connecting | starting | playing | leaving | pausing | parting | gone => cases howes

/-- The goroutine has told the player. -/
def Told (player : String) (task : GoroutineId) (history : List Moment) : Prop :=
  ∃ moment∈history,performs
    (fun performed => performed.task=task && prompts player performed) moment=true

/-- The goroutine is the handler of a socket and has still to tell the player. -/
def Owed (player : String) (task : GoroutineId) (seen : Seen watcher) : Prop :=
  ∃ instance' own stage marked,seen.phases[task]?=some (.socket instance' own stage marked) ∧
    owes player stage=true

/-- The handler that has started the match has told both players or is about to. -/
def Announced (pairing : Pairing) (history : List Moment) (seen : Seen watcher) : Prop :=
  ∀ task,starter history=some task → ∀ player,IsPlayer pairing player →
    Owed player task seen ∨ Told player task history

/-- What has been told has been told. -/
theorem Told.append {player : String} {task : GoroutineId} (h : Told player task history)
    (moment : Moment) : Told player task (history++[moment]) := by
  obtain ⟨past,hpast,htold⟩ := h
  exact ⟨past,List.mem_append_left _ hpast,htold⟩

/-- Who runs start's transaction is in start. -/
theorem starting_of_runs {phase : Phase} (h : phase.Runs .start) :
    ∃ instance' player found ready marked,
      phase=.socket instance' player (.starting found ready) marked := by
  cases phase with
  | turnTimer => exact h.elim
  | forfeitTimer _ _ _ stage => cases stage <;> exact h.elim
  | socket instance' player stage marked =>
    cases stage with
    | starting found ready => exact ⟨instance',player,found,ready,marked,rfl⟩
    | arriving | connecting | reloading | prompting | playing | leaving | pausing | parting
    | gone => exact h.elim

/-- The moves keep this. -/
theorem Announced.step (hreach : (initial pairing).Reaches seen.config) (hconforms : seen.Conforms)
    (h : Announced pairing history seen) (hpresent : Present seen) (hfinding : Finding (seen,move))
    (hfalls : performs fallsThrough (seen,move)=false) (hs : Seen.Moved seen move seen') :
    Announced pairing (history++[(seen,move)]) seen' := by
  intro starter' hstarter player hplayer
  cases hs with
  | opened entry harrives =>
    rw [starter_open rfl] at hstarter
    obtain ⟨instance',own,stage,marked,hphase,howes⟩ | htold := h starter' hstarter player hplayer
    · have hlt := (List.getElem?_eq_some_iff.mp hphase).1
      exact .inl ⟨instance',own,stage,marked,(List.getElem?_append_left hlt).trans hphase,howes⟩
    · exact .inr (htold.append _)
  | performed task choice phase o rest world r started htask hphase hp =>
    have hallows : phase.Allows o := hconforms.allows hphase htask
    have hperformed := Seen.performed_eq htask hphase hp
    rw [performs_run htask hphase hp] at hfalls
    rw [starter_append hperformed] at hstarter
    split at hstarter
    · next hstarts =>
      -- the transaction has found the match ready, so its handler goes on to prompt
      cases hstarter
      obtain ⟨token,retriesLeft,sess,rfl,htook⟩ := exec_of_startsMatch hstarts
      obtain ⟨instance',own,found,ready,marked,rfl⟩ := starting_of_runs hallows
      have hconcludes : concludes (.store (.exec token retriesLeft Call.start sess))
          (took choice (.store (.exec token retriesLeft Call.start sess)) seen.config.world) r=
          some true := by
        rw [htook]
        rfl
      have hfound : found=true := by
        obtain hfound | ⟨-,-,hmarked⟩ := hfinding _ hperformed _ _ _ _ _ rfl hconcludes
        · exact hfound.symm.trans hstarts
        · have hmarked' := (hpresent task instance' own _ marked hphase rfl).1
          rw [hmarked] at hmarked'
          cases hmarked'
      left
      obtain ⟨hnone,-⟩ | ⟨-,hstage⟩ := starting_next hfalls
      · rw [hconcludes] at hnone
        cases hnone
      · rw [hfound,Bool.true_or,if_pos rfl] at hstage
        refine ⟨instance',own,_,_,Seen.getElem?_moved_self hphase,?_⟩
        rw [hfound]
        exact (congrArg (owes player) hstage).trans rfl
    · obtain ⟨instance',own,stage,marked,howner,howes⟩ | htold := h starter' hstarter player hplayer
      · by_cases he : starter'=task
        · subst he
          cases hphase.symm.trans howner
          obtain howes' | hprompts := owes_next hreach hplayer hallows hp hfalls howes
          · exact .inl ⟨instance',own,_,_,Seen.getElem?_moved_self hphase,howes'⟩
          · refine .inr ⟨(seen,.run starter' choice),
              List.mem_append_right _ List.mem_cons_self,?_⟩
            rw [performs_run htask hphase hp]
            exact Bool.and_eq_true_iff.mpr ⟨decide_eq_true rfl,hprompts⟩
        · exact .inl ⟨instance',own,stage,marked,Seen.getElem?_moved_other he howner,howes⟩
      · exact .inr (htold.append _)

end Told

section Runs

variable {pairing : Pairing} {history : List Moment} {seen : Seen watcher}
  {moves : List instances.Move}

end Runs

end KiClash.GoHandshake
