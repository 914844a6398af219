import KiClash.PendingPairs
import KiClash.TimerCancellations

/-!
# Which applied turns the Python session announces

After _apply has committed, the same task reads the ids of the players, sends
the results, and prompts for the next turn unless the match is over. What a
task still owes of this is computed from its own events. _resolve_turn cancels
the turn timer, so a timer that resolves a turn cancels itself and announces
nothing; the handler of a socket announces every turn that it applies.
-/

namespace KiClash.TurnAnnouncements

open EngineTypes Engine EngineRuns ServerMessages Histories AsyncTasks AsyncContracts WatchedKey
open RecordContracts GameStore GameSession SessionContracts SessionSafety PendingPairs
open TimerCancellations

/-- What a task still has to do about a turn that it has applied. -/
structure Owed where
  /-- The ids of the players are to be read. -/
  unread : Bool
  /-- These messages are to be sent. -/
  messages : List (UUID×ServerMessage)
  /-- The next prompt is to follow. -/
  prompts : Bool
  deriving DecidableEq, Repr

/-- Nothing is left to do. -/
abbrev Owed.nothing : Owed := ⟨false,[],false⟩

/-- The task whose doing an event is. -/
def taskOf : GameStore.Event → Option TaskId
  | .commit task _ _ _ | .conflict task _ _ | .deleted task | .loaded task _ => some task
  | .note (.received task _) | .note (.sent task _ _) | .note (.raised task _) => some task
  | .note (.started _ _) => none

/-- What the task owes after an event of its own; none if something else was due. -/
def Owed.after (pairing : Pairing) (owed : Owed) : GameStore.Event → Option Owed
  | .commit _ (.resolve p1Action p2Action) before _ =>
    match (submitTurn before.gameState p1Action p2Action).2 with
    | .ok report =>
      if owed=.nothing then
        some ⟨true,announcement pairing report,report.matchResult.isNone⟩
      else none
    | .error _ => none
  | .loaded _ value =>
    if owed=.nothing then some owed
    else if owed.unread then value.map fun _ => {owed with unread := false}
    else if owed.messages=[] then
      (value.bind openRound).map fun round => ⟨false,roundPrompt pairing round,false⟩
    else none
  | .note (.sent _ player message) =>
    if owed=.nothing then some owed
    else if owed.unread then none
    else match owed.messages with
    | [] => none
    | next::messages =>
      if next=(player,message) then some ⟨false,messages,owed.prompts⟩ else none
  | _ => if owed=.nothing then some owed else none

/-- What the task owes after more events, its own and those of others. -/
def track (pairing : Pairing) (task : TaskId) (owed : Option Owed)
    (events : List GameStore.Event) : Option Owed :=
  events.foldl (fun owed event =>
    if taskOf event=some task then owed.bind fun o => o.after pairing event else owed) owed

/-- What the task owes after the whole record. -/
def owed (pairing : Pairing) (task : TaskId) (trace : List GameStore.Event) : Option Owed :=
  track pairing task (some .nothing) trace

/-- The message that the task sends. -/
def sentBy (task : TaskId) : GameStore.Event → Option (UUID×ServerMessage)
  | .note (.sent task' player message) => if task'=task then some (player,message) else none
  | _ => none

/-- The task goes on to announce the turn: the results to both players and, if
the match is not over, the prompt for the open round that it reads. -/
def Announced (pairing : Pairing) (task : TaskId) (report : TurnReport)
    (later : List GameStore.Event) : Prop :=
  if report.matchResult.isNone then
    ∃ session round,.loaded task (some session)∈later ∧ openRound session=some round ∧
      announcement pairing report++roundPrompt pairing round<+:later.filterMap (sentBy task)
  else announcement pairing report<+:later.filterMap (sentBy task)

/-- Every applied turn is announced by the call that has applied it, at the
latest when its task has come to rest or has received the next frame. -/
def EveryTurnAnnounced (pairing : Pairing) (config : workers.Config) : Prop :=
  ∀ earlier task p1Action p2Action before after later,
    config.world.trace=earlier++.commit task (.resolve p1Action p2Action) before after::later →
    Rests config task ∨ (∃ frame,.note (.received task frame)∈later) →
    ∃ report,(submitTurn before.gameState p1Action p2Action).2=.ok report ∧
      Announced pairing task report later

/-- The call is that of _resolve_turn. -/
def appliesTurn : Call → Bool
  | .resolve _ _ => true
  | _ => false

/-- The tasks that have applied turns. -/
def resolvers (trace : List GameStore.Event) : List TaskId :=
  trace.filterMap fun event => match event with
    | .commit task call _ _ => if appliesTurn call then some task else none
    | _ => none

/-- No task still has to prompt for the next turn. -/
def NobodyPrompts (pairing : Pairing) (trace : List GameStore.Event) : Prop :=
  ∀ task∈resolvers trace,∀ o∈owed pairing task trace,o.prompts=false

/-- No task still has to read the ids of the players. -/
def NobodyReads (pairing : Pairing) (trace : List GameStore.Event) : Prop :=
  ∀ task∈resolvers trace,∀ o∈owed pairing task trace,o.unread=false

/-- No timer applies a turn, nothing ends the match before an outstanding
prompt or removes the key before an outstanding read, and no store call of a
task that has something to announce fails. -/
def Announceable (pairing : Pairing) (earlier : List GameStore.Event) :
    GameStore.Event → Prop
  | .commit task call _ after =>
    (appliesTurn call=true → ¬Timer earlier task) ∧
      (after.gameState.status≠.inProgress → NobodyPrompts pairing earlier)
  | .deleted _ => NobodyReads pairing earlier
  | .note (.raised task exc) => exc=.cancelled ∨ owed pairing task earlier=some .nothing
  | _ => True

instance (pairing : Pairing) (trace : List GameStore.Event) :
    Decidable (NobodyPrompts pairing trace) := inferInstanceAs (Decidable (∀ task∈_,∀ o∈_,_))

instance (pairing : Pairing) (trace : List GameStore.Event) :
    Decidable (NobodyReads pairing trace) := inferInstanceAs (Decidable (∀ task∈_,∀ o∈_,_))

instance (pairing : Pairing) (earlier : List GameStore.Event) :
    ∀ event : GameStore.Event,Decidable (Announceable pairing earlier event)
  | .commit task call _ after =>
    inferInstanceAs (Decidable ((appliesTurn call=true → ¬Timer earlier task) ∧
      (after.gameState.status≠.inProgress → NobodyPrompts pairing earlier)))
  | .deleted _ => inferInstanceAs (Decidable (NobodyReads pairing earlier))
  | .note (.raised task exc) =>
    inferInstanceAs (Decidable (exc=.cancelled ∨ owed pairing task earlier=some .nothing))
  | .conflict _ _ _ | .loaded _ _ | .note (.started _ _) | .note (.received _ _)
  | .note (.sent _ _ _) => instDecidableTrue

/-- What a task in this phase owes. -/
def owedIn (pairing : Pairing) : Phase → Owed
  | .resolved report => ⟨true,announcement pairing report,report.matchResult.isNone⟩
  | .telling messages prompts => ⟨false,messages,prompts⟩
  | _ => .nothing

/-- What a task owes can still be done. -/
structure Kept (count : ℕ) (record : SessionRecord) (task : TaskId) (o : Owed) : Prop where
  /-- Only the handler of a socket owes anything. -/
  handler : o≠.nothing → task<count ∧ ¬Timer record.trace task ∧ task∈resolvers record.trace
  /-- There is a session to read. -/
  stored : o.unread=true → record.value≠none
  /-- There is a turn to prompt for. -/
  playing : o.prompts=true → ¬Over record

/-- The invariant: every task has done what was due, and the rest can be done. -/
structure AnnounceInvariant (pairing : Pairing) (count : ℕ) (record : SessionRecord) : Prop where
  /-- The stored session belongs to the two players. -/
  players : ∀ session,record.value=some session →
    session.player1Id=pairing.player1Id ∧ session.player2Id=pairing.player2Id
  /-- A match in progress has an open round. -/
  rounds : ∀ session,record.value=some session → session.gameState.status=.inProgress →
    ∃ round,openRound session=some round
  /-- Nobody has done anything else than what was due. -/
  due : ∀ task,∃ o,owed pairing task record.trace=some o ∧ Kept count record task o

/-- What a task expects of the others. -/
structure ExpectsDue (pairing : Pairing) (task : TaskId) (record record' : SessionRecord) :
    Prop where
  /-- A match that is over stays over. -/
  isOver : Over record → Over record'
  /-- Nobody else does what is due. -/
  same : owed pairing task record'.trace=owed pairing task record.trace

/-- The contract behind the announcements. -/
def announceContract (pairing : Pairing) : SessionContract where
  pairing := pairing
  allowed trace := Meets (Announceable pairing) trace ∧ Meets CancelsTimers trace
  inv := AnnounceInvariant pairing
  expects := ExpectsDue pairing
  phase task phase record := owed pairing task record.trace=some (owedIn pairing phase)

section Tracking

variable {pairing : Pairing} {task : TaskId}

/-- What was due and has not been done stays undone. -/
theorem track_none (events : List GameStore.Event) : track pairing task none events=none := by
  induction events with
  | nil => rfl
  | cons event events ih =>
    unfold track at ih ⊢
    rw [List.foldl_cons]
    split <;> exact ih

/-- Tracking in two parts. -/
theorem track_append (o : Option Owed) (events events' : List GameStore.Event) :
    track pairing task o (events++events')=
      track pairing task (track pairing task o events) events' := List.foldl_append

/-- An event of the task itself. -/
theorem owed_own (event : GameStore.Event) {trace : List GameStore.Event}
    (h : taskOf event=some task) : owed pairing task (trace++[event])=
      (owed pairing task trace).bind fun o => o.after pairing event := by
  unfold owed
  rw [track_append]
  simp [track,h]

/-- An event of another task. -/
theorem owed_other {trace : List GameStore.Event} {event : GameStore.Event}
    (h : taskOf event≠some task) :
    owed pairing task (trace++[event])=owed pairing task trace := by
  unfold owed
  rw [track_append]
  simp [track,h]

/-- What is owed is done in the events that follow. -/
def Pays (pairing : Pairing) (task : TaskId) (o : Owed) (later : List GameStore.Event) : Prop :=
  if o.prompts then
    ∃ session round,.loaded task (some session)∈later ∧ openRound session=some round ∧
      o.messages++roundPrompt pairing round<+:later.filterMap (sentBy task)
  else o.messages<+:later.filterMap (sentBy task)

/-- An event that sends nothing. -/
theorem Pays.cons {o : Owed} {event : GameStore.Event} {later : List GameStore.Event}
    (hs : sentBy task event=none) (h : Pays pairing task o later) :
    Pays pairing task o (event::later) := by
  unfold Pays at h ⊢
  rw [List.filterMap_cons_none hs]
  split
  · next hp =>
    rw [if_pos hp] at h
    obtain ⟨session,round,hmem,hround⟩ := h
    exact ⟨session,round,List.mem_cons_of_mem event hmem,hround⟩
  · next hp => rwa [if_neg hp] at h

/-- Sending the next message. -/
theorem Pays.send {messages : List (UUID×ServerMessage)} {unread prompts : Bool} {player : UUID}
    {message : ServerMessage} {later : List GameStore.Event}
    (h : Pays pairing task ⟨unread,messages,prompts⟩ later) :
    Pays pairing task ⟨unread,(player,message)::messages,prompts⟩
      (.note (.sent task player message)::later) := by
  have hs : sentBy task (.note (.sent task player message))=some (player,message) := if_pos rfl
  unfold Pays at h ⊢
  rw [List.filterMap_cons_some hs]
  cases prompts with
  | true =>
    obtain ⟨session,round,hmem,hround,hbegins⟩ := h
    exact ⟨session,round,List.mem_cons_of_mem _ hmem,hround,
      List.cons_prefix_cons.mpr ⟨rfl,hbegins⟩⟩
  | false => exact List.cons_prefix_cons.mpr ⟨rfl,h⟩

/-- Who owes nothing has paid. -/
theorem Pays.nothing (later : List GameStore.Event) : Pays pairing task .nothing later :=
  List.nil_prefix

/-- Everything that a task which owes something may do. -/
inductive Does (pairing : Pairing) (task : TaskId) : Owed → GameStore.Event → Owed → Prop
  | reads (session : PvPSessionState) (messages : List (UUID×ServerMessage)) (prompts : Bool) :
      Does pairing task ⟨true,messages,prompts⟩ (.loaded task (some session))
        ⟨false,messages,prompts⟩
  | prompts (session : PvPSessionState) (round : RoundState) (h : openRound session=some round) :
      Does pairing task ⟨false,[],true⟩ (.loaded task (some session))
        ⟨false,roundPrompt pairing round,false⟩
  | sends (player : UUID) (message : ServerMessage) (messages : List (UUID×ServerMessage))
      (prompts : Bool) :
      Does pairing task ⟨false,(player,message)::messages,prompts⟩
        (.note (.sent task player message)) ⟨false,messages,prompts⟩

/-- The inversion of what is due. -/
theorem does_of_after {o o₁ : Owed} {event : GameStore.Event} (ho : o≠.nothing)
    (hown : taskOf event=some task) (h : o.after pairing event=some o₁) :
    Does pairing task o event o₁ := by
  obtain ⟨unread,messages,prompts⟩ := o
  cases event with
  | commit task' call before after =>
    cases call with
    | resolve p1Action p2Action =>
      simp only [Owed.after,if_neg ho] at h
      split at h <;> cases h
    | _ => simp only [Owed.after,if_neg ho] at h; cases h
  | conflict | deleted => simp only [Owed.after,if_neg ho] at h; cases h
  | loaded task' value =>
    cases hown
    simp only [Owed.after,if_neg ho] at h
    cases unread with
    | true =>
      cases value with
      | none => cases h
      | some session =>
        cases h
        exact .reads session messages prompts
    | false =>
      simp only [Bool.false_eq_true,if_false] at h
      split at h
      · next hm =>
        obtain ⟨round,hround,rfl⟩ := Option.map_eq_some_iff.mp h
        obtain ⟨session,rfl,hround⟩ := Option.bind_eq_some_iff.mp hround
        cases prompts with
        | false => exact absurd (by rw [hm]) ho
        | true =>
          rw [hm]
          exact .prompts session round hround
      · cases h
  | note note =>
    cases note with
    | sent task' player message =>
      cases hown
      simp only [Owed.after,if_neg ho] at h
      cases unread with
      | true => cases h
      | false =>
        cases messages with
        | nil => cases h
        | cons next messages =>
          simp only [Bool.false_eq_true,if_false] at h
          split at h
          · next hn =>
            cases h
            rw [hn]
            exact .sends player message messages prompts
          · cases h
    | started => cases hown
    | received | raised => simp only [Owed.after,if_neg ho] at h; cases h

/-- If the record ends with nothing owed, or the task has received a frame,
what was owed has been done; by induction on the events. -/
theorem pays_of_track (later : List GameStore.Event) :
    ∀ (o o' : Owed),track pairing task (some o) later=some o' →
      (o'=.nothing ∨ ∃ frame,.note (.received task frame)∈later) → Pays pairing task o later := by
  induction later with
  | nil =>
    rintro o o' ho (rfl | ⟨frame,hf⟩)
    · cases ho
      exact Pays.nothing []
    · cases hf
  | cons event later ih =>
    intro o o' ho hend
    by_cases ho₀ : o=.nothing
    · rw [ho₀]
      exact Pays.nothing _
    have htail : (∀ frame,event≠.note (.received task frame)) →
        o'=.nothing ∨ ∃ frame,.note (.received task frame)∈later := by
      rintro hne
      obtain hend | ⟨frame,hf⟩ := hend
      · exact .inl hend
      · rcases List.mem_cons.mp hf with he | hf
        · exact absurd he.symm (hne frame)
        · exact .inr ⟨frame,hf⟩
    have htrack : track pairing task (if taskOf event=some task then o.after pairing event
        else some o) later=some o' := ho
    by_cases hown : taskOf event=some task
    · rw [if_pos hown] at htrack
      cases hnext : o.after pairing event with
      | none =>
        rw [hnext,track_none] at htrack
        cases htrack
      | some o₁ =>
        rw [hnext] at htrack
        cases does_of_after ho₀ hown hnext with
        | reads session messages prompts =>
          have hpays := ih _ o' htrack (htail fun _ he => nomatch he)
          exact Pays.cons (o := ⟨true,messages,prompts⟩) rfl hpays
        | prompts session round hround =>
          have hpays := ih _ o' htrack (htail fun _ he => nomatch he)
          exact ⟨session,round,List.mem_cons_self,hround,hpays⟩
        | sends player message messages prompts =>
          have hpays := ih _ o' htrack (htail fun _ he => nomatch he)
          exact hpays.send
    · rw [if_neg hown] at htrack
      have hsent : sentBy task event=none := by
        cases event with
        | note note =>
          cases note with
          | sent task' player message => exact if_neg fun he => hown (by rw [he]; rfl)
          | _ => rfl
        | _ => rfl
      have hne : ∀ frame,event≠.note (.received task frame) := by
        rintro frame rfl
        exact hown rfl
      exact (ih o o' htrack (htail hne)).cons hsent

end Tracking

section Steps

variable {pairing : Pairing} {task : TaskId} {count : ℕ} {record : SessionRecord}
  {event : GameStore.Event} {value : Option PvPSessionState}

/-- Nothing owed can always be kept. -/
theorem Kept.nothing : Kept count record task .nothing :=
  ⟨fun h => absurd rfl h,fun h => (nomatch h),fun h => (nomatch h)⟩

/-- What is owed is still known after an event that starts no timer. -/
theorem handler_append {o : Owed} (h : Kept count record task o)
    (hstart : startsTimer task event=false) (ho : o≠.nothing) :
    task<count ∧ ¬Timer (record.trace++[event]) task ∧ task∈resolvers (record.trace++[event]) := by
  obtain ⟨hlt,htimer,hmem⟩ := h.handler ho
  refine ⟨hlt,?_,?_⟩
  · rw [timer_append,hstart]
    simpa using htimer
  · unfold resolvers
    rw [List.filterMap_append]
    exact List.mem_append_left _ hmem

/-- An event of a task starts no timer. -/
theorem startsTimer_of_own (task : TaskId) (h : taskOf event=some task) (other : TaskId) :
    startsTimer other event=false := by
  cases event with
  | note note =>
    cases note with
    | started => cases h
    | _ => rfl
  | _ => rfl

/-- Only tasks that have applied a turn owe anything. -/
theorem AnnounceInvariant.nobody (hinv : AnnounceInvariant pairing count record)
    (select : Owed → Bool) (hnothing : select .nothing=false)
    (h : ∀ task∈resolvers record.trace,∀ o∈owed pairing task record.trace,select o=false)
    {task : TaskId} {o : Owed} (ho : owed pairing task record.trace=some o) :
    select o=false := by
  obtain ⟨o',ho',hkept⟩ := hinv.due task
  rw [ho] at ho'
  cases ho'
  by_cases hn : o=.nothing
  · rw [hn]
    exact hnothing
  · exact h task (hkept.handler hn).2.2 o ho

/-- What a change of the record has to satisfy. -/
def Within (pairing : Pairing) (task : TaskId) (count : ℕ) (record record' : SessionRecord)
    (phase : Phase) : Prop :=
  AnnounceInvariant pairing count record' ∧
    (∀ other,other≠task → ExpectsDue pairing other record record') ∧
    owed pairing task record'.trace=some (owedIn pairing phase)

/-- An event with which the task does what is due. -/
theorem event_within {phase : Phase} (hown : taskOf event=some task)
    (hinv : AnnounceInvariant pairing count record)
    (hplayers : ∀ session,value=some session →
      session.player1Id=pairing.player1Id ∧ session.player2Id=pairing.player2Id)
    (hrounds : ∀ session,value=some session → session.gameState.status=.inProgress →
      ∃ round,openRound session=some round)
    (hgone : value=none → record.value=none ∨ NobodyReads pairing record.trace)
    (hover : Over record → Over ⟨value,record.trace++[event]⟩)
    (hends : Over ⟨value,record.trace++[event]⟩ → Over record ∨
      NobodyPrompts pairing record.trace)
    (hdue : (owed pairing task record.trace).bind (fun o => o.after pairing event)=
      some (owedIn pairing phase))
    (hkept : Kept count ⟨value,record.trace++[event]⟩ task (owedIn pairing phase)) :
    Within pairing task count record ⟨value,record.trace++[event]⟩ phase := by
  have htask : owed pairing task (record.trace++[event])=some (owedIn pairing phase) :=
    (owed_own _ hown).trans hdue
  have hother : ∀ other,other≠task →
      owed pairing other (record.trace++[event])=owed pairing other record.trace := by
    intro other hne
    exact owed_other (by rw [hown]; exact fun he => hne (Option.some.inj he).symm)
  refine ⟨⟨hplayers,hrounds,fun other => ?_⟩,fun other hne => ⟨hover,hother other hne⟩,htask⟩
  by_cases hne : other=task
  · rw [hne]
    exact ⟨_,htask,hkept⟩
  · obtain ⟨o,ho,hk⟩ := hinv.due other
    refine ⟨o,(hother other hne).trans ho,?_,?_,?_⟩
    · exact handler_append hk (startsTimer_of_own _ hown other)
    · intro hu hv
      obtain hnone | hnobody := hgone hv
      · exact hk.stored hu hnone
      · have hread := hinv.nobody Owed.unread rfl hnobody ho
        rw [hu] at hread
        cases hread
    · intro hp hv
      obtain hnone | hnobody := hends hv
      · exact hk.playing hp hnone
      · have hprompt := hinv.nobody Owed.prompts rfl hnobody ho
        rw [hp] at hprompt
        cases hprompt

/-- An event that does not write the key. -/
theorem log_within {phase : Phase} (hown : taskOf event=some task)
    (hinv : AnnounceInvariant pairing count record)
    (hdue : (owed pairing task record.trace).bind (fun o => o.after pairing event)=
      some (owedIn pairing phase))
    (hkept : Kept count (record.log event) task (owedIn pairing phase)) :
    Within pairing task count record (record.log event) phase :=
  event_within hown hinv hinv.players hinv.rounds .inl (fun h => h) .inl hdue hkept

/-- An event of a task that owes nothing, before and after. -/
theorem log_nothing (phase : Phase) (hown : taskOf event=some task)
    (hafter : Owed.after pairing .nothing event=some .nothing)
    (hinv : AnnounceInvariant pairing count record)
    (howed : owed pairing task record.trace=some .nothing)
    (hphase : owedIn pairing phase=.nothing) :
    Within pairing task count record (record.log event) phase := by
  refine log_within hown hinv ?_ ?_
  · rw [howed,hphase]
    exact hafter
  · rw [hphase]
    exact Kept.nothing

/-- Such an event concerns nobody. -/
theorem neutral_event (task : TaskId) {P : SessionRecord → Prop} (hown : taskOf event=some task)
    (hafter : Owed.after pairing .nothing event=some .nothing)
    (hP : ∀ record,P record → owed pairing task record.trace=some .nothing) :
    (announceContract pairing).Neutral P event := by
  intro count record hinv hp _
  obtain ⟨hi,ho,howed⟩ := log_nothing .idle hown hafter hinv (hP record hp) rfl
  refine ⟨hi,fun other => ?_⟩
  by_cases hne : other=task
  · rw [hne]
    exact ⟨fun h => h,howed.trans (hP record hp).symm⟩
  · exact ho other hne

/-- A transaction of a task that owes nothing and still owes nothing. -/
theorem commit_within {call : Call} {phase : Phase} {session session' : PvPSessionState}
    (hcall : ∀ p1Action p2Action,call≠.resolve p1Action p2Action)
    (hinv : AnnounceInvariant pairing count record) (hv : record.value=some session)
    (h₁ : session'.player1Id=session.player1Id) (h₂ : session'.player2Id=session.player2Id)
    (hrounds : session'.gameState.status=.inProgress → ∃ round,openRound session'=some round)
    (hover : Over record → session'.gameState.status≠.inProgress)
    (hends : session'.gameState.status≠.inProgress → Over record ∨
      NobodyPrompts pairing record.trace)
    (howed : owed pairing task record.trace=some .nothing)
    (hphase : owedIn pairing phase=.nothing) :
    Within pairing task count record (record.commit task call session') phase := by
  rw [record.commit_of_value hv]
  have hafter : Owed.after pairing .nothing (.commit task call session session')=
      some .nothing := by
    cases call with
    | resolve p1Action p2Action => exact absurd rfl (hcall p1Action p2Action)
    | _ => rfl
  refine event_within rfl hinv ?_ ?_ (fun hn => nomatch hn) ?_ ?_ ?_ ?_
  · intro s hs
    cases hs
    rw [h₁,h₂]
    exact hinv.players session hv
  · intro s hs
    cases hs
    exact hrounds
  · intro ho s hs
    cases hs
    exact hover ho
  · exact fun ho => hends (ho session' rfl)
  · rw [howed,hphase]
    exact hafter
  · rw [hphase]
    exact Kept.nothing

/-- A transaction that leaves the match alone. -/
theorem commit_unchanged (phase : Phase) (session : PvPSessionState) {call : Call}
    {session' : PvPSessionState}
    (hcall : ∀ p1Action p2Action,call≠.resolve p1Action p2Action)
    (hinv : AnnounceInvariant pairing count record) (hv : record.value=some session)
    (hgame : session'.gameState=session.gameState)
    (h₁ : session'.player1Id=session.player1Id) (h₂ : session'.player2Id=session.player2Id)
    (howed : owed pairing task record.trace=some .nothing)
    (hphase : owedIn pairing phase=.nothing) :
    Within pairing task count record (record.commit task call session') phase := by
  refine commit_within hcall hinv hv h₁ h₂ ?_ ?_ ?_ howed hphase
  · rw [hgame,openRound_congr hgame]
    exact hinv.rounds session hv
  · rw [hgame]
    exact fun ho => ho session hv
  · rw [hgame]
    intro hs
    left
    intro s hs'
    rw [hv] at hs'
    cases hs'
    exact hs

/-- After an accepted turn a match in progress has an open round. -/
theorem openRound_of_accepted {state state' : GameState} {p1Action p2Action : Action}
    {report : TurnReport} (h : Accepted state p1Action p2Action state' report)
    (session : PvPSessionState) (hs : state'.status=.inProgress) :
    ∃ round,openRound {session with gameState := state'}=some round := by
  cases h with
  | roundGoesOn round hr hw => exact ⟨_,openRound_eq_some.mpr ⟨hs,rfl⟩⟩
  | roundCloses round hr roundResult hw hm => exact ⟨_,openRound_eq_some.mpr ⟨hs,rfl⟩⟩
  | matchCloses round hr roundResult hw matchResult hm => cases hs

/-- A turn is applied by the handler of a socket. -/
theorem commit_applies {p1Action p2Action : Action} {session : PvPSessionState}
    {gameState : GameState} {report : TurnReport}
    (hsubmit : submitTurn session.gameState p1Action p2Action=(gameState,.ok report))
    (hfits : Announceable pairing record.trace (.commit task (.resolve p1Action p2Action) session
      {session with gameState := gameState}))
    (hlt : task<count) (hinv : AnnounceInvariant pairing count record)
    (hv : record.value=some session) (howed : owed pairing task record.trace=some .nothing) :
    Within pairing task count record
      (record.commit task (.resolve p1Action p2Action) {session with gameState := gameState})
      (.resolved report) := by
  obtain ⟨round,hopen,-,haccepted⟩ := openRound_of_submitTurn hsubmit
  have hbefore := (openRound_eq_some.mp hopen).1
  obtain ⟨hhandler,hprompts⟩ := hfits
  rw [record.commit_of_value hv]
  refine event_within rfl hinv ?_ ?_ (fun hn => nomatch hn) ?_ ?_ ?_ ?_
  · intro s hs
    cases hs
    exact hinv.players session hv
  · intro s hs
    cases hs
    exact openRound_of_accepted haccepted session
  · exact fun ho => absurd hbefore (ho session hv)
  · exact fun ho => .inr (hprompts (ho _ rfl))
  · rw [howed]
    simp only [Option.bind_some,Owed.after,hsubmit,if_true,owedIn]
  · refine ⟨fun _ => ⟨hlt,?_,?_⟩,fun _ hn => (nomatch hn),?_⟩
    · rw [timer_append,startsTimer_of_own task rfl]
      simpa using hhandler rfl
    · simp [resolvers,appliesTurn]
    · intro hnone ho
      obtain ⟨hm,hafter⟩ | ⟨result,hm,hafter⟩ := accepted_status haccepted hbefore
      · exact ho _ rfl hafter
      · simp [owedIn,hm] at hnone

/-- The ids of the players are read. -/
theorem log_reads {report : TurnReport} {session : PvPSessionState}
    (hinv : AnnounceInvariant pairing count record)
    (howed : owed pairing task record.trace=some (owedIn pairing (.resolved report))) :
    Within pairing task count record (record.log (.loaded task (some session)))
      (.telling (announcement pairing report) report.matchResult.isNone) := by
  obtain ⟨o,ho,hkept⟩ := hinv.due task
  rw [howed] at ho
  cases ho
  refine log_within rfl hinv ?_ ⟨fun _ => ?_,fun h => (nomatch h),hkept.playing⟩
  · rw [howed]
    rfl
  · exact handler_append hkept (startsTimer_of_own task rfl task) (fun h => nomatch h)

/-- The next message is sent. -/
theorem log_sends {player : UUID} {message : ServerMessage}
    {messages : List (UUID×ServerMessage)} {prompts : Bool}
    (hinv : AnnounceInvariant pairing count record)
    (howed : owed pairing task record.trace=
      some (owedIn pairing (.telling ((player,message)::messages) prompts))) :
    Within pairing task count record (record.log (.note (.sent task player message)))
      (.telling messages prompts) := by
  obtain ⟨o,ho,hkept⟩ := hinv.due task
  rw [howed] at ho
  cases ho
  refine log_within rfl hinv ?_ ⟨fun _ => ?_,fun h => (nomatch h),hkept.playing⟩
  · rw [howed]
    simp [owedIn,Owed.after]
  · exact handler_append hkept (startsTimer_of_own task rfl task) (fun h => nomatch h)

/-- The session is read for the next prompt. -/
theorem log_prompts {session : PvPSessionState} (hs : session.gameState.status=.inProgress)
    (hinv : AnnounceInvariant pairing count record) (hv : record.value=some session)
    (howed : owed pairing task record.trace=some (owedIn pairing (.telling [] true))) :
    Within pairing task count record (record.log (.loaded task (some session)))
      (.telling (promptFor pairing session) false) := by
  obtain ⟨o,ho,hkept⟩ := hinv.due task
  rw [howed] at ho
  cases ho
  obtain ⟨round,hround⟩ := hinv.rounds session hv hs
  have hprompt : promptFor pairing session=roundPrompt pairing round := by
    rw [promptFor,(openRound_eq_some.mp hround).2]
    rfl
  refine log_within rfl hinv ?_ ⟨fun _ => ?_,fun h => (nomatch h),fun h => (nomatch h)⟩
  · rw [howed,hprompt]
    simp [owedIn,Owed.after,hround]
  · exact handler_append hkept (startsTimer_of_own task rfl task) (fun h => nomatch h)

/-- A task that still has to prompt finds the match in progress. -/
theorem prompts_not_over (hinv : AnnounceInvariant pairing count record)
    (howed : owed pairing task record.trace=some (owedIn pairing (.telling [] true))) :
    ¬Over record := by
  obtain ⟨o,ho,hkept⟩ := hinv.due task
  rw [howed] at ho
  cases ho
  exact hkept.playing rfl

/-- A task that still has to read finds a session. -/
theorem unread_stored {report : TurnReport} (hinv : AnnounceInvariant pairing count record)
    (howed : owed pairing task record.trace=some (owedIn pairing (.resolved report))) :
    record.value≠none := by
  obtain ⟨o,ho,hkept⟩ := hinv.due task
  rw [howed] at ho
  cases ho
  exact hkept.stored rfl

/-- An exception reaches a task that has nothing to announce. -/
theorem raise_within {exc : Exc}
    (hfits : exc=.cancelled ∨ owed pairing task record.trace=some .nothing)
    (hcancels : CancelsTimers record.trace (.note (.raised task exc)))
    (hinv : AnnounceInvariant pairing count record) :
    Within pairing task count record (record.log (.note (.raised task exc))) .idle := by
  have hnothing : owed pairing task record.trace=some .nothing := by
    obtain rfl | hnothing := hfits
    · obtain ⟨o,ho,hkept⟩ := hinv.due task
      by_cases hn : o=.nothing
      · rw [ho,hn]
      · exact absurd hcancels (hkept.handler hn).2.1
    · exact hnothing
  exact log_nothing _ rfl rfl hinv hnothing rfl

/-- A new task owes nothing. -/
theorem start_nothing {entry : Entry} (hinv : AnnounceInvariant pairing count record) :
    AnnounceInvariant pairing (count+1) (record.log (.note (.started count entry))) ∧
      (∀ task,ExpectsDue pairing task record (record.log (.note (.started count entry)))) ∧
      owed pairing count (record.log (.note (.started count entry))).trace=some .nothing := by
  have hsame : ∀ task,owed pairing task (record.trace++[.note (.started count entry)])=
      owed pairing task record.trace := fun task => owed_other fun he => nomatch he
  refine ⟨⟨hinv.players,hinv.rounds,fun task => ?_⟩,fun task => ⟨fun h => h,hsame task⟩,?_⟩
  · obtain ⟨o,ho,hkept⟩ := hinv.due task
    refine ⟨o,(hsame task).trans ho,fun hn => ?_,hkept.stored,hkept.playing⟩
    have hlt := (hkept.handler hn).1
    have hstart : startsTimer task (.note (.started count entry))=false := by
      have hne : count≠task := Nat.ne_of_gt hlt
      simp [startsTimer,hne]
    obtain ⟨-,hrest⟩ := handler_append hkept hstart hn
    exact ⟨Nat.lt_succ_of_lt hlt,hrest⟩
  · obtain ⟨o,ho,hkept⟩ := hinv.due count
    have hn : o=.nothing := by
      by_contra hn
      exact absurd (hkept.handler hn).1 (Nat.lt_irrefl count)
    exact (hsame count).trans (by rw [ho,hn])

/-- The key is removed while nobody has to read it. -/
theorem delete_within (hover : Over record)
    (hfits : ∀ session,record.value=some session → NobodyReads pairing record.trace)
    (hinv : AnnounceInvariant pairing count record)
    (howed : owed pairing task record.trace=some .nothing) :
    Within pairing task count record (record.delete task) .idle := by
  unfold Record.delete
  split
  · exact ⟨hinv,fun other _ => ⟨fun h => h,rfl⟩,howed⟩
  · next session hv =>
    refine event_within rfl hinv (fun _ hs => nomatch hs) (fun _ hs => nomatch hs)
      (fun _ => .inr (hfits session hv)) (fun _ => over_none _) (fun _ => .inl hover) ?_ ?_
    · rw [howed]
      rfl
    · exact Kept.nothing

end Steps

/-- Whatever the code appends to an announceable record keeps the contract. -/
theorem upheld (pairing : Pairing) : (announceContract pairing).Upheld where
  expects_refl _ _ := ⟨fun h => h,rfl⟩
  expects_trans _ _ _ _ h h' := ⟨fun ho => h'.isOver (h.isOver ho),h'.same.trans h.same⟩
  allowed_prefix hp h := ⟨h.1.before hp,h.2.before hp⟩
  stable _ _ _ _ he h := he.same.trans h
  over_stable he h := he.isOver h
  told h := h
  untold h := h
  players hinv hv := hinv.players _ hv
  starts hinv _ := start_nothing hinv
  loaded task phase value hq := by
    refine neutral_event task rfl rfl fun record h => ?_
    cases phase with
    | resolved | telling => cases hq
    | _ => exact h
  sent task phase player message hq _ := by
    refine neutral_event task rfl rfl fun record h => ?_
    cases phase with
    | resolved | telling => cases hq
    | _ => exact h
  received task frame := neutral_event task rfl rfl fun _ h => h
  deleted task count record _ hinv hp ha := by
    refine delete_within hp.2 (fun session hv => ?_) hinv hp.1
    have hmeets := ha.1
    simp only [Record.delete,hv] at hmeets
    exact (meets_append.mp hmeets).2
  raised task phase exc count record _ hinv hp ha :=
    raise_within (meets_append.mp ha.1).2 (meets_append.mp ha.2).2 hinv
  conflict task call retriesLeft _ count record _ hinv hp _ :=
    log_nothing .idle rfl rfl hinv hp rfl
  resolveConflict := by
    intro task p1Action p2Action retriesLeft count record _ hinv hp _
    split
    · exact log_nothing .idle rfl rfl hinv hp rfl
    · exact log_nothing (.holding p1Action p2Action) rfl rfl hinv hp rfl
  connect _ player session _ _ _ hinv hp _ :=
    commit_unchanged .idle _ (fun _ _ he => nomatch he) hinv hp.2
      (markConnected_gameState player session) (markConnected_player1Id player session)
      (markConnected_player2Id player session) hp.1 rfl
  start _ session _ _ _ hinv hp _ :=
    commit_unchanged .idle session (fun _ _ he => nomatch he) hinv hp.2
      rfl rfl rfl hp.1 rfl
  submit := by
    intro task playerId action stale session captured' session' _ hm count record _ hinv hp _
    have hcall : ∀ p1Action p2Action,Call.submit playerId action stale≠
        .resolve p1Action p2Action := fun _ _ he => nomatch he
    have hphase : owedIn pairing (concluded captured')=.nothing := by
      unfold concluded
      split <;> rfl
    cases storeAction_cases hm with
    | rejected message hreject =>
      exact commit_unchanged _ _ hcall hinv hp.2 rfl rfl rfl hp.1 hphase
    | stored round haccept hnone =>
      exact commit_unchanged _ _ hcall hinv hp.2 (storeInSlot_gameState playerId action session)
        (storeInSlot_player1Id playerId action session)
        (storeInSlot_player2Id playerId action session) hp.1 hphase
    | completed round p1Action p2Action haccept h₁ h₂ hpair =>
      exact commit_unchanged _ _ hcall hinv hp.2 (storeInSlot_gameState playerId action session)
        (storeInSlot_player1Id playerId action session)
        (storeInSlot_player2Id playerId action session) hp.1 hphase
  resolve _ _ _ _ _ _ hsubmit _ _ hlt hinv hp ha :=
    commit_applies hsubmit (meets_commit hp.2 ha.1) hlt hinv hp.2 hp.1
  refused _ hp _ _ := hp
  missing _ hp _ := hp
  forfeit := by
    intro task forfeiting opponent session _ count record _ hinv hp ha
    refine commit_within (fun _ _ he => nomatch he) hinv hp.2 rfl rfl (fun hs => nomatch hs)
      (fun _ hs => nomatch hs) (fun hs => .inr ?_) hp.1 rfl
    exact (meets_commit hp.2 ha.1).2 hs
  read _ _ _ _ _ _ hinv hp _ := log_reads hinv hp.1
  unread _ _ _ _ _ hinv hp _ := absurd hp.2 (unread_stored hinv hp.1)
  tell _ _ _ _ _ _ _ _ hinv hp _ := log_sends hinv hp
  prompt _ _ hs _ _ _ hinv hp _ := log_prompts hs hinv hp.2 hp.1
  unprompted _ value hover _ _ _ hinv hp _ := by
    refine absurd ?_ (prompts_not_over hinv hp.1)
    intro session hs
    exact hover session (hp.2.symm.trans hs)
  informOpponent task opponent _ _ _ _ _ _ hinv hp _ :=
    log_nothing .idle rfl rfl hinv hp rfl

/-- In every run in which only the handlers of sockets apply turns, and in which
nothing comes between an applied turn and its announcement, every applied turn
is announced. -/
theorem every_turn_announced (pairing : Pairing) {config : workers.Config}
    (hrun : (initial pairing).Reaches config)
    (ha : Meets (Announceable pairing) config.world.trace) :
    EveryTurnAnnounced pairing config := by
  have hinitial : AnnounceInvariant pairing 0 ⟨some pairing.session,[]⟩ := by
    refine ⟨?_,?_,fun task => ⟨.nothing,rfl,Kept.nothing⟩⟩
    · intro session hs
      cases hs
      exact ⟨rfl,rfl⟩
    · intro session hs _
      cases hs
      exact ⟨_,rfl⟩
  have hgood := good (upheld pairing) hinitial hrun ⟨ha,cancels_timers hrun⟩
  have hinv : AnnounceInvariant pairing config.tasks.length config.world.record := hgood.inv
  intro earlier task p1Action p2Action before after later htrace hend
  obtain ⟨o,ho,hkept⟩ := hinv.due task
  have hrest : o=.nothing ∨ ∃ frame,.note (.received task frame)∈later := by
    obtain hrests | hreceived := hend
    · left
      by_contra hn
      have hidle := rests_idle (upheld pairing) hgood (hkept.handler hn).1 hrests
      exact hn (Option.some.inj (ho.symm.trans hidle))
    · exact .inr hreceived
  -- the record up to the commit, the commit, and what follows
  have htrack : track pairing task
      ((owed pairing task earlier).bind fun o => o.after pairing
        (.commit task (.resolve p1Action p2Action) before after)) later=some o := by
    rw [← owed_own (.commit task (.resolve p1Action p2Action) before after) rfl]
    unfold owed
    rw [← track_append,List.append_assoc]
    exact (congrArg (owed pairing task) htrace.symm).trans ho
  cases hbefore : owed pairing task earlier with
  | none =>
    rw [hbefore,Option.bind_none,track_none] at htrack
    cases htrack
  | some o₀ =>
    rw [hbefore,Option.bind_some] at htrack
    simp only [Owed.after] at htrack
    split at htrack
    · next report hreport =>
      refine ⟨report,hreport,?_⟩
      split at htrack
      · exact pays_of_track later _ o htrack hrest
      · rw [track_none] at htrack
        cases htrack
    · rw [track_none] at htrack
      cases htrack

/-- Both players connect and submit a charge; the second one's handler applies
the turn and announces it. -/
def announcedTurn : List workers.Move :=
  opens 1 ["charge"]::proceeds 0 8++opens 2 ["charge"]::proceeds 1 14++
    proceeds 0 5++proceeds 1 17

/-- That turn is announced. -/
theorem handler_announces : ∃ config,(initial .small).Reaches config ∧
    (.small 2,.waitingForAction 2 5 1 1 1)∈config.world.trace.filterMap (sentBy 1) ∧
    EveryTurnAnnounced .small config := by
  have hrun : ((initial .small).run announcedTurn).map (fun config =>
      (decide (Meets (Announceable .small) config.world.trace),
        decide ((.small 2,.waitingForAction 2 5 1 1 1)∈
          config.world.trace.filterMap (sentBy 1))))=some (true,true) := by decide
  obtain ⟨config,hreach,hview⟩ := System.Config.reaches_of_map hrun
  obtain ⟨ha,hprompt⟩ := Prod.mk.inj hview
  exact ⟨config,hreach,of_decide_eq_true hprompt,
    every_turn_announced .small hreach (of_decide_eq_true ha)⟩

/-- The first turn that is applied, and what follows it. -/
def firstApplied : List GameStore.Event → Option (TaskId×List GameStore.Event)
  | .commit task (.resolve _ _) _ _::later => some (task,later)
  | _::events => firstApplied events
  | [] => none

/-- It splits the record. -/
theorem split_of_firstApplied {trace later : List GameStore.Event} {task : TaskId}
    (h : firstApplied trace=some (task,later)) :
    ∃ earlier p1Action p2Action before after,
      trace=earlier++.commit task (.resolve p1Action p2Action) before after::later := by
  fun_induction firstApplied trace with
  | case1 task' p1Action p2Action before after later' =>
    cases h
    exact ⟨[],p1Action,p2Action,before,after,rfl⟩
  | case2 event events _ ih =>
    obtain ⟨earlier,p1Action,p2Action,before,after,rfl⟩ := ih h
    exact ⟨event::earlier,p1Action,p2Action,before,after,rfl⟩
  | case3 => cases h

/-- An announced turn is followed by messages of its task. -/
theorem EveryTurnAnnounced.sends {pairing : Pairing} {config : workers.Config}
    (h : EveryTurnAnnounced pairing config) {task : TaskId} {later : List GameStore.Event}
    (hfirst : firstApplied config.world.trace=some (task,later)) (hrests : Rests config task) :
    later.filterMap (sentBy task)≠[] := by
  obtain ⟨earlier,p1Action,p2Action,before,after,htrace⟩ := split_of_firstApplied hfirst
  obtain ⟨report,-,hannounced⟩ := h _ _ _ _ _ _ _ htrace (.inl hrests)
  intro hnone
  unfold Announced at hannounced
  rw [hnone] at hannounced
  split at hannounced
  · obtain ⟨session,round,-,-,hbegins⟩ := hannounced
    cases List.prefix_nil.mp hbegins
  · cases List.prefix_nil.mp hannounced

/-- No store call fails, nobody disconnects and nothing is removed. -/
def calm : GameStore.Event → Bool
  | .deleted _ => false
  | .note (.received _ none) => false
  | .note (.raised _ exc) => exc=.cancelled
  | _ => true

/-- Neither player submits in time, and the turn timer charges for both. -/
def timerTurn : List workers.Move :=
  opens 1 []::proceeds 0 8++opens 2 []::proceeds 1 14++proceeds 2 14++[.run 2 .raiseBefore]

/-- The timer applies the turn, cancels itself and announces nothing. -/
theorem timer_announces_nothing :
    ¬∀ pairing config,(initial pairing).Reaches config →
      config.world.trace.all calm=true → EveryTurnAnnounced pairing config := by
  intro h
  have hrun : ((initial .small).run timerTurn).map (fun config =>
      (config.world.trace.all calm,decide (Rests config 2),
        (firstApplied config.world.trace).map fun first =>
          (first.1,(first.2.filterMap (sentBy 2)).isEmpty)))=
      some (true,true,some (2,true)) := by decide
  obtain ⟨config,hreach,hview⟩ := System.Config.reaches_of_map hrun
  obtain ⟨hcalm,hview⟩ := Prod.mk.inj hview
  obtain ⟨hrests,hview⟩ := Prod.mk.inj hview
  obtain ⟨⟨task,later⟩,hfirst,hview⟩ := Option.map_eq_some_iff.mp hview
  obtain ⟨rfl,hnone⟩ := Prod.mk.inj hview
  exact (h .small config hreach hcalm).sends hfirst (of_decide_eq_true hrests)
    (List.isEmpty_iff.mp hnone)

end KiClash.TurnAnnouncements
