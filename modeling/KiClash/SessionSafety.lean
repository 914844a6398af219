import KiClash.OptimisticTransactions
import KiClash.SessionContracts

/-!
# The Python programs keep every upheld contract

One specification for each coroutine of the game session code, in the order of
the source. A specification says in which phase the coroutine starts and in
which it ends; an exception always leaves the task idle.
-/

namespace KiClash.SessionSafety

open EngineTypes Engine ServerMessages AsyncTasks AsyncContracts WatchedKey
open RecordContracts OptimisticTransactions GameStore GameSession SessionContracts

variable {S : SessionContract} {task : TaskId} {α β : Type}

/-- From A the coroutine is safe; it returns with B or raises in the idle phase. -/
def Spec (S : SessionContract) (task : TaskId) (A : SessionRecord → Prop) (p : Coroutine α)
    (B : α → SessionRecord → Prop) : Prop :=
  Triple S.recordContract.contract task (RecordContract.On A) p
    (fun a => RecordContract.On (B a)) (fun _ => RecordContract.On (S.phase task .idle))

/-- An upheld contract satisfies the laws of record contracts. -/
theorem laws (h : S.Upheld) : S.recordContract.Laws where
  expects_refl := h.expects_refl
  expects_trans := h.expects_trans
  allowed_prefix := h.allowed_prefix
  arrive hinv hentry ha := by
    obtain ⟨hi,he,hidle⟩ := h.starts hinv ha
    refine ⟨hi,he,hidle,?_⟩
    rename_i entry record
    cases entry with
    | gameWs worker player frames => exact True.intro
    | turnTimeout worker => cases hentry
    | forfeitAfterTimeout worker disconnected opponent => cases hentry

section Rules

variable {A A' : SessionRecord → Prop} {B B' : α → SessionRecord → Prop}

theorem idle_stable (h : S.Upheld) (task : TaskId) :
    S.recordContract.Stable task (S.phase task .idle) := h.stable task .idle

/-- A coroutine that returns at once. -/
theorem Spec.pure {a : α} (hB : S.recordContract.Stable task (B a)) (h : ∀ record,A record → B a record) :
    Spec S task A (pure a) B := Triple.pure hB.on fun _ => h _

/-- A coroutine that raises at once. -/
theorem Spec.raise (h : S.Upheld) {e : Exc} (hA : ∀ record,A record → S.phase task .idle record) :
    Spec S task A (.raise e : Coroutine α) B :=
  Triple.raise (idle_stable h task).on fun _ => hA _

/-- Sequencing. -/
theorem Spec.bind (h : S.Upheld) {p : Coroutine α} {f : α → Coroutine β}
    {D : β → SessionRecord → Prop} (hp : Spec S task A p B)
    (hf : ∀ a,Spec S task (B a) (f a) D) : Spec S task A (p >>= f) D :=
  Triple.bind (laws h).tracks.toLawful (fun _ => (idle_stable h task).on) hp hf

/-- Consequence. -/
theorem Spec.consequence {p : Coroutine α} (hp : Spec S task A' p B')
    (hA : ∀ record,A record → A' record) (hB : ∀ a record,B' a record → B a record) :
    Spec S task A p B :=
  Triple.consequence hp (fun _ => hA _) (fun a _ => hB a _) (fun _ _ he => he)

/-- A stronger precondition. -/
theorem Spec.pre {p : Coroutine α} (hp : Spec S task A' p B)
    (hA : ∀ record,A record → A' record) : Spec S task A p B :=
  hp.consequence hA fun _ _ hb => hb

end Rules

section Operations

/-- An exception in the idle phase. -/
theorem idle_raises (h : S.Upheld) (task : TaskId) :
    S.recordContract.Raises task (S.phase task .idle) fun _ => S.phase task .idle :=
  h.raised task .idle

/-- An operation that leaves no trace and starts nothing. -/
theorem act_silent (h : S.Upheld) {o : LocalOp} (phase : Phase) (ho : ∀ frame,o≠.receive frame)
    (heffect : ∀ task fresh memory,(o.effect task fresh memory).2.1=[] ∧
      (∃ a,(o.effect task fresh memory).2.2.1=.ok a) ∧ (o.effect task fresh memory).2.2.2=none) :
    Spec S task (S.phase task phase) (act o) fun _ => S.phase task phase := by
  apply (laws h).act (h.stable task phase) (fun _ => h.stable task phase)
    (fun _ => idle_stable h task)
  · exact fun ⟨frame,hf⟩ => absurd hf (ho frame)
  · intro pick count record memory memory' notes result started he ht hinv hA ha
    obtain ⟨hn,⟨a,hr⟩,hs⟩ := heffect task count memory
    have he' : o.effect task count memory=(memory',notes,result,started) := he
    rw [he'] at hn hr hs
    dsimp only at hn hr hs
    subst hn hr hs
    exact (laws h).silent hinv hA
  · exact h.raised task phase
  · exact fun _ => h.raised task phase
  · exact fun _ => idle_raises h task

/-- What a single note does to the record. -/
theorem acted_note (record : SessionRecord) (fresh : ℕ) (note : Note) :
    record.acted fresh [note] none=record.log (.note note) := rfl

/-- send_to_player changes the phase as its event does. -/
theorem send_moves (h : S.Upheld) {phase phase' : Phase} {worker : Worker} {player : UUID}
    {message : ServerMessage}
    (hm : S.recordContract.Moves task (S.phase task phase)
      (fun record => record.log (.note (.sent task player message))) (S.phase task phase')) :
    Spec S task (S.phase task phase) (send worker player message)
      fun _ => S.phase task phase' := by
  apply (laws h).act (h.stable task phase) (fun _ => h.stable task phase')
    (fun _ => idle_stable h task)
  · exact fun ⟨frame,hf⟩ => nomatch hf
  · intro pick count record memory memory' notes result started he ht hinv hA ha
    cases he
    rw [acted_note] at ha
    obtain ⟨hi,ho,hB⟩ := hm ht hinv hA ha
    exact ⟨hi,ho,(fun _ hne => nomatch hne),hB⟩
  · exact h.raised task phase
  · exact fun _ => h.raised task phase'
  · exact fun _ => idle_raises h task

/-- A message that is not a match result leaves a quiet phase alone. -/
theorem send_neutral (h : S.Upheld) {phase : Phase} (hq : phase.quiet=true) (worker : Worker)
    (player : UUID) {message : ServerMessage} (hm : message.isMatchResult=false) :
    Spec S task (S.phase task phase) (send worker player message)
      fun _ => S.phase task phase := by
  apply send_moves h
  intro count record ht hinv hA ha
  obtain ⟨hi,he⟩ := h.sent task phase player message hq hm hinv hA ha
  exact ⟨hi,fun other _ => he other,h.stable task phase (he task) hA⟩

/-- An operation that creates a timer. -/
theorem act_starts (h : S.Upheld) (entry : Entry) {o : LocalOp} (ho : ∀ frame,o≠.receive frame)
    (heffect : ∀ task fresh memory,(o.effect task fresh memory).2.1=[] ∧
      (∃ a,(o.effect task fresh memory).2.2.1=.ok a) ∧
      (o.effect task fresh memory).2.2.2=some entry)
    (hentry : StartedFor S.pairing entry) :
    Spec S task (S.phase task .idle) (act o) fun _ => S.phase task .idle := by
  apply (laws h).act (idle_stable h task) (fun _ => idle_stable h task)
    (fun _ => idle_stable h task)
  · exact fun ⟨frame,hf⟩ => absurd hf (ho frame)
  · intro pick count record memory memory' notes result started he ht hinv hA ha
    obtain ⟨hn,⟨a,hr⟩,hs⟩ := heffect task count memory
    have he' : o.effect task count memory=(memory',notes,result,started) := he
    rw [he'] at hn hr hs
    dsimp only at hn hr hs
    subst hn hr hs
    obtain ⟨hi,hexp,hidle⟩ := h.starts hinv ha
    refine ⟨hi,fun other _ => hexp other,fun entry' hne => ?_,idle_stable h task (hexp task) hA⟩
    cases hne
    exact ⟨hidle,hentry⟩
  · exact idle_raises h task
  · exact fun _ => idle_raises h task
  · exact fun _ => idle_raises h task

/-- receive_json: the task rests until a frame arrives. -/
theorem receive_idle (h : S.Upheld) (frame : Option Frame) :
    Spec S task (S.phase task .idle) (act (.receive frame)) fun _ => S.phase task .idle := by
  apply (laws h).act (idle_stable h task) (fun _ => idle_stable h task)
    (fun _ => idle_stable h task)
  · exact fun _ record hA => hA
  · intro pick count record memory memory' notes result started he ht hinv hA ha
    have hnote : notes=[.received task frame] ∧ started=none := by
      cases frame <;> cases he <;> exact ⟨rfl,rfl⟩
    obtain ⟨rfl,rfl⟩ := hnote
    rw [acted_note] at ha
    obtain ⟨hi,hexp⟩ := h.received task frame hinv hA ha
    have hidle := idle_stable h task (hexp task) hA
    refine ⟨hi,fun other _ => hexp other,(fun _ hne => nomatch hne),?_⟩
    cases result <;> exact hidle
  · exact idle_raises h task
  · exact fun _ => idle_raises h task
  · exact fun _ => idle_raises h task

/-- What a load has told about the session: whose it is, and that the match is
over if it says so. -/
def Loaded (S : SessionContract) (value : Option PvPSessionState) (record : SessionRecord) : Prop :=
  (∀ session,value=some session →
    session.player1Id=S.pairing.player1Id ∧ session.player2Id=S.pairing.player2Id) ∧
  ((∀ session,value=some session → session.gameState.status≠.inProgress) → Over record)

/-- load changes the phase as what it reads has it. -/
theorem load_moves (h : S.Upheld) (phase : Phase) (next : Option PvPSessionState → Phase)
    (hm : ∀ value,S.recordContract.Moves task
      (fun record => S.phase task phase record ∧ record.value=value)
      (fun record => record.log (.loaded task value)) (S.phase task (next value))) :
    Spec S task (S.phase task phase) load
      fun value record => S.phase task (next value) record ∧ Loaded S value record := by
  apply (laws h).load (h.stable task phase) _ (fun _ => idle_stable h task)
  · intro value count record ht hinv hA ha
    obtain ⟨hi,ho,hnext⟩ := hm value ht hinv hA ha
    refine ⟨hi,ho,hnext,?_,?_⟩
    · intro session hs
      exact h.players hinv (hA.2.trans hs)
    · intro hover session hs
      exact hover session (hA.2.symm.trans hs)
  · exact h.raised task phase
  · intro value exc count record ht hinv hA ha
    exact h.raised task (next value) exc ht hinv hA.1 ha
  · intro value record record' hexp hA
    exact ⟨h.stable task (next value) hexp hA.1,hA.2.1,fun hover =>
      h.over_stable hexp (hA.2.2 hover)⟩

/-- load leaves a quiet phase alone. -/
theorem load_spec (h : S.Upheld) {phase : Phase} (hq : phase.quiet=true) :
    Spec S task (S.phase task phase) load
      fun value record => S.phase task phase record ∧ Loaded S value record := by
  apply load_moves h phase (fun _ => phase)
  intro value count record ht hinv hA ha
  obtain ⟨hi,hexp⟩ := h.loaded task phase value hq hinv hA.1 ha
  exact ⟨hi,fun other _ => hexp other,h.stable task phase (hexp task) hA.1⟩

end Operations

section Transactions

variable {M : Type} {A : SessionRecord → Prop} {B : M×PvPSessionState → SessionRecord → Prop}

/-- A transaction of a task that leads from A to B. -/
structure Transaction (S : SessionContract) (task : TaskId) (A : SessionRecord → Prop)
    (call : M → Call) (mutator : Mutator M) (B : M×PvPSessionState → SessionRecord → Prop) :
    Prop where
  /-- Other tasks do not end A. -/
  pre_stable : S.recordContract.Stable task A
  /-- Other tasks do not end B. -/
  post_stable : ∀ x,S.recordContract.Stable task (B x)
  /-- An exception before the commit. -/
  pre_raises : S.recordContract.Raises task A fun _ => S.phase task .idle
  /-- An exception after the commit. -/
  post_raises : ∀ x,S.recordContract.Raises task (B x) fun _ => S.phase task .idle
  /-- There is no session. -/
  missing : ∀ {count record},S.inv count record → A record → record.value=none →
    S.phase task .idle record
  /-- The mutator raises. -/
  refused : ∀ {count record captured session error},S.inv count record → A record →
    record.value=some session → mutator captured session=.error error →
    S.phase task .idle record
  /-- An attempt commits. -/
  commit : ∀ captured session captured' session',
    mutator captured session=.ok (captured',session') →
    S.recordContract.Moves task (fun record => A record ∧ record.value=some session)
      (fun record => record.commit task (call captured) session') (B (captured',session'))
  /-- An attempt conflicts; the last one gives up. -/
  conflict : ∀ captured retriesLeft,S.recordContract.Moves task A
    (fun record => record.log (.conflict task (call captured) retriesLeft))
    (if retriesLeft=0 then S.phase task .idle else A)

/-- What is asserted when so many attempts are left. -/
abbrev Attempting (S : SessionContract) (task : TaskId) (A : SessionRecord → Prop)
    (attempts : ℕ) : SessionRecord → Prop :=
  if attempts=0 then S.phase task .idle else A

/-- What an attempt of a transaction owes. -/
theorem Transaction.attempt (h : S.Upheld) {call : M → Call} {mutator : Mutator M}
    (ht : Transaction S task A call mutator B) (captured : M) (attempts : ℕ) :
    Attempt S.recordContract task (call captured) attempts (mutator captured) (fun _ => True) A
      (S.phase task .idle) (Attempting S task A attempts) B fun _ => S.phase task .idle where
  stable := by
    refine ⟨ht.pre_stable,idle_stable h task,?_,ht.post_stable,fun _ => idle_stable h task⟩
    unfold Attempting
    split
    · exact idle_stable h task
    · exact ht.pre_stable
  raises := by
    refine ⟨ht.pre_raises,idle_raises h task,?_,ht.post_raises⟩
    unfold Attempting
    split
    · exact idle_raises h task
    · exact ht.pre_raises
  missing := ht.missing
  refused := ht.refused
  told _ _ _ _ := True.intro
  commit session captured' session' hm := ht.commit captured session captured' session' hm
  conflict := ht.conflict captured attempts

/-- An iteration of the retry loop is an attempt. -/
theorem watchAndUpdate_succ (call : M → Call) (mutator : Mutator M) (attempts : ℕ)
    (captured : M) :
    watchAndUpdate call mutator (attempts+1) captured=
      attempt (call captured) attempts (mutator captured)
        (do
          redis .unwatch
          .raise .gameNotFound)
        Prog.raise pure (watchAndUpdate call mutator attempts) := by
  unfold watchAndUpdate attempt
  apply congrArg
  funext token
  apply congrArg
  funext raw
  cases raw with
  | none => rfl
  | some session =>
    cases h : mutator captured session with
    | error e => simp only [h]
    | ok x =>
      simp only [h]
      rfl

/-- The retry loop, by induction on the attempts that are left. -/
theorem attempts_spec (h : S.Upheld) {call : M → Call} {mutator : Mutator M}
    (ht : Transaction S task A call mutator B) (attempts : ℕ) (captured : M) :
    Spec S task (Attempting S task A attempts) (watchAndUpdate call mutator attempts captured)
      B := by
  have hidle := idle_stable h task
  induction attempts generalizing captured with
  | zero => exact Spec.raise h fun _ ha => ha
  | succ attempts ih =>
    simp only [Attempting,Nat.add_one_ne_zero,if_false]
    rw [watchAndUpdate_succ]
    apply (ht.attempt h captured attempts).triple (laws h)
    · have hunwatch : Spec S task (S.phase task .idle) (redis .unwatch)
          fun _ => S.phase task .idle :=
        (laws h).unwatch hidle (fun _ => hidle) (idle_raises h task)
      exact Spec.bind h hunwatch fun _ => Spec.raise h fun _ ha => ha
    · exact fun e => Spec.raise h fun _ ha => ha
    · exact fun x _ => Spec.pure (ht.post_stable x) fun _ hb => hb
    · exact fun captured' _ => ih captured'

/-- watch_and_update. -/
theorem watchAndUpdate_spec (h : S.Upheld) {call : M → Call} {mutator : Mutator M}
    (ht : Transaction S task A call mutator B) (captured : M) :
    Spec S task A (watchAndUpdate call mutator defaultMaxRetries captured) B :=
  attempts_spec h ht defaultMaxRetries captured

/-- The assertion after try: ... except: idle if something was caught. -/
abbrev Caught (S : SessionContract) (task : TaskId) (D : α → SessionRecord → Prop) :
    Option α → SessionRecord → Prop
  | none => S.phase task .idle
  | some a => D a

/-- try: ... except, whatever is caught. -/
theorem except_spec (h : S.Upheld) {catches : Exc → Bool} {p : Coroutine α}
    {D : α → SessionRecord → Prop} (hD : ∀ a,S.recordContract.Stable task (D a))
    (hp : Spec S task A p D) : Spec S task A (except catches p) (Caught S task D) := by
  have hstable : ∀ outcome,S.recordContract.Stable task (Caught S task D outcome) := by
    intro outcome
    cases outcome with
    | none => exact idle_stable h task
    | some a => exact hD a
  apply Triple.handle (laws h).tracks.toLawful (fun outcome => (hstable outcome).on)
  · exact Spec.bind h hp fun a => Spec.pure (hstable (some a)) fun _ ha => ha
  · intro e
    dsimp only
    split
    · exact Triple.pure (hstable none).on fun _ ha => ha
    · exact Spec.raise h fun _ ha => ha

end Transactions

section Connecting

/-- Nothing more to do. -/
theorem done_idle (h : S.Upheld) :
    Spec S task (S.phase task .idle) (pure ()) fun _ => S.phase task .idle :=
  Spec.pure (idle_stable h task) fun _ ha => ha

/-- A transaction from the idle phase, other than that of a resolution. -/
theorem transaction_spec (h : S.Upheld) {M : Type} {call : M → Call} {mutator : Mutator M}
    (phase : M → Phase)
    (hcall : ∀ captured p1Action p2Action,call captured≠.resolve p1Action p2Action)
    (hcommit : ∀ captured session captured' session',
      mutator captured session=.ok (captured',session') →
      S.recordContract.Moves task
        (fun record => S.phase task .idle record ∧ record.value=some session)
        (fun record => record.commit task (call captured) session')
        (S.phase task (phase captured'))) (captured : M) :
    Spec S task (S.phase task .idle)
      (exceptNotFound (watchAndUpdate call mutator defaultMaxRetries captured))
      (Caught S task fun x => S.phase task (phase x.1)) := by
  apply except_spec (D := fun x : M×PvPSessionState => S.phase task (phase x.1)) h
    (fun x => h.stable task (phase x.1))
  apply watchAndUpdate_spec h
  exact {
    pre_stable := idle_stable h task
    post_stable := fun x => h.stable task (phase x.1)
    pre_raises := idle_raises h task
    post_raises := fun x => h.raised task (phase x.1)
    missing := fun _ hidle _ => hidle
    refused := fun _ hidle _ _ => hidle
    commit := hcommit
    conflict := fun captured retriesLeft => by
      simpa only [ite_self] using h.conflict task (call captured) retriesLeft (hcall captured) }

/-- _send_waiting_for_action. -/
theorem sendWaitingForAction_spec (h : S.Upheld) (worker : Worker) (session : PvPSessionState) :
    Spec S task (S.phase task .idle) (sendWaitingForAction worker session)
      fun _ => S.phase task .idle := by
  unfold sendWaitingForAction
  split
  · exact done_idle h
  · apply Spec.bind h (send_neutral h rfl worker _ rfl)
    intro _
    apply Spec.bind h (send_neutral h rfl worker _ rfl)
    intro _
    exact act_starts h (.turnTimeout worker) (by simp)
      (fun _ _ _ => ⟨rfl,⟨(),rfl⟩,rfl⟩) True.intro

/-- A prompt that is only sent while the match is in progress. -/
theorem promptWhileInProgress_spec (h : S.Upheld) (worker : Worker)
    (session : PvPSessionState) :
    Spec S task (S.phase task .idle)
      (if session.gameState.status=.inProgress then sendWaitingForAction worker session
        else pure ()) fun _ => S.phase task .idle := by
  split
  · exact sendWaitingForAction_spec h worker session
  · exact done_idle h

/-- handle_connect. -/
theorem handleConnect_spec (h : S.Upheld) (worker : Worker) (playerId : UUID) :
    Spec S task (S.phase task .idle) (handleConnect worker playerId)
      fun _ => S.phase task .idle := by
  unfold handleConnect
  apply Spec.bind h (transaction_spec h (fun _ => .idle) (by simp) _ _)
  · intro outcome
    cases outcome with
    | none => exact send_neutral h rfl worker playerId rfl
    | some x =>
      dsimp only
      split
      · apply Spec.bind h
          (act_silent h .idle (by simp) fun _ _ _ => ⟨rfl,⟨(),rfl⟩,rfl⟩)
        intro _
        apply Spec.bind h (send_neutral h rfl worker _ rfl)
        intro _
        split
        · exact done_idle h
        · exact promptWhileInProgress_spec h worker _
      · exact done_idle h
  · intro captured session captured' session' hm
    have hs : session'=session.markConnected playerId := by
      unfold markConnected at hm
      split at hm
      · next hc =>
        cases hm
        have hmem : playerId∈session.connectedPlayers := by
          simpa [PvPSessionState.hasConnected] using hc
        rw [PvPSessionState.markConnected,if_pos hmem]
      · cases hm
        rfl
    rw [hs]
    exact h.connect task playerId session

/-- start. -/
theorem start_spec (h : S.Upheld) (worker : Worker) :
    Spec S task (S.phase task .idle) (start worker) fun _ => S.phase task .idle := by
  unfold start
  apply Spec.bind h (transaction_spec h (fun _ => .idle) (by simp) _ _)
  · intro outcome
    cases outcome with
    | none => exact done_idle h
    | some x =>
      dsimp only
      split
      · exact done_idle h
      · split
        · exact done_idle h
        · exact sendWaitingForAction_spec h worker _
  · intro captured session captured' session' hm
    have hs : session'={session with started := true} := by
      unfold markStarted at hm
      split at hm
      · next hstarted =>
        cases hm
        rw [← hstarted]
      · cases hm
        rfl
    rw [hs]
    exact h.start task session

end Connecting

section Resolving

variable {report : TurnReport}

/-- A phase that may be left for the idle one. -/
theorem settle {A : SessionRecord → Prop} {p : Coroutine Unit}
    (hA : ∀ record,A record → S.phase task .idle record)
    (hp : Spec S task (S.phase task .idle) p fun _ => S.phase task .idle) :
    Spec S task A p fun _ => S.phase task .idle := hp.pre hA

/-- The next message of an announcement. -/
theorem tell_spec (h : S.Upheld) (worker : Worker) (player : UUID) (message : ServerMessage)
    (messages : List (UUID×ServerMessage)) (prompts : Bool) :
    Spec S task (S.phase task (.telling ((player,message)::messages) prompts))
      (send worker player message) fun _ => S.phase task (.telling messages prompts) :=
  send_moves h (h.tell task player message messages prompts)

/-- Nothing is left to tell. -/
theorem done_telling (h : S.Upheld) :
    Spec S task (S.phase task (.telling [] false)) (pure ()) fun _ => S.phase task .idle :=
  settle (fun _ => h.told) (done_idle h)

/-- The next prompt, as the session that has been read has it. -/
theorem tellPrompt_spec (h : S.Upheld) (worker : Worker) {session : PvPSessionState}
    (h₁ : session.player1Id=S.pairing.player1Id) (h₂ : session.player2Id=S.pairing.player2Id) :
    Spec S task (S.phase task (.telling (promptFor S.pairing session) false))
      (sendWaitingForAction worker session) fun _ => S.phase task .idle := by
  unfold sendWaitingForAction promptFor
  rw [h₁,h₂]
  cases session.gameState.currentRound with
  | none => exact done_telling h
  | some round =>
    apply Spec.bind h (tell_spec h worker _ _ _ false)
    intro _
    apply Spec.bind h (tell_spec h worker _ _ _ false)
    intro _
    apply settle fun _ => h.told
    exact act_starts h (.turnTimeout worker) (by simp)
      (fun _ _ _ => ⟨rfl,⟨(),rfl⟩,rfl⟩) True.intro

/-- What the read before the next prompt leads to. -/
def afterPause (S : SessionContract) : Option PvPSessionState → Phase
  | some session =>
    if session.gameState.status=.inProgress then .telling (promptFor S.pairing session) false
    else .idle
  | none => .idle

/-- The pause and the next prompt. -/
theorem promptNextTurn_spec (h : S.Upheld) (worker : Worker) (roundEnded : Bool) :
    Spec S task (S.phase task (.telling [] true)) (promptNextTurn worker roundEnded)
      fun _ => S.phase task .idle := by
  unfold promptNextTurn
  apply Spec.bind h
    (act_silent h (.telling [] true) (by simp) fun _ _ _ => ⟨rfl,⟨(),rfl⟩,rfl⟩)
  intro _
  apply Spec.bind h (load_moves h (.telling [] true) (afterPause S) _)
  · intro value
    cases value with
    | none => exact settle (fun _ ha => ha.1) (done_idle h)
    | some session =>
      rintro world ⟨hp,hloaded⟩
      obtain ⟨h₁,h₂⟩ := hloaded.1 session rfl
      by_cases hs : session.gameState.status=.inProgress
      · simp only [afterPause,if_pos hs] at hp ⊢
        exact tellPrompt_spec h worker h₁ h₂ hp
      · simp only [afterPause,if_neg hs] at hp ⊢
        exact done_idle h hp
  · intro value
    cases value with
    | none => exact h.unprompted task none fun _ he => nomatch he
    | some session =>
      by_cases hs : session.gameState.status=.inProgress
      · simp only [afterPause,if_pos hs]
        exact h.prompt task session hs
      · simp only [afterPause,if_neg hs]
        have hover : ∀ session',some session=some session' →
            session'.gameState.status≠.inProgress := fun _ he => Option.some.inj he ▸ hs
        exact h.unprompted task (some session) hover

/-- One message to each player. -/
theorem tellBoth_spec (h : S.Upheld) (worker : Worker) (p1Id p2Id : UUID)
    (message₁ message₂ : ServerMessage) (messages : List (UUID×ServerMessage)) (prompts : Bool) :
    Spec S task
      (S.phase task (.telling ((p1Id,message₁)::(p2Id,message₂)::messages) prompts))
      (do
        send worker p1Id message₁
        send worker p2Id message₂)
      fun _ => S.phase task (.telling messages prompts) := by
  apply Spec.bind h (tell_spec h worker p1Id message₁ _ prompts)
  exact fun _ => tell_spec h worker p2Id message₂ messages prompts

/-- The end of an announcement: the match result or the next prompt. -/
theorem announceEnd_spec (h : S.Upheld) (worker : Worker) (roundEnded : Bool)
    (matchResult : Option MatchResult) :
    Spec S task
      (S.phase task (.telling (matchResult.elim [] fun result =>
        [(S.pairing.player1Id,matchResultMessage result S.pairing.player1Id S.pairing.player1Id),
          (S.pairing.player2Id,matchResultMessage result S.pairing.player2Id S.pairing.player1Id)])
        matchResult.isNone))
      (match matchResult with
        | some result => sendMatchResult worker result S.pairing.player1Id S.pairing.player2Id
        | none => promptNextTurn worker roundEnded) fun _ => S.phase task .idle := by
  cases matchResult with
  | none => exact promptNextTurn_spec h worker roundEnded
  | some result =>
    exact (tellBoth_spec h worker _ _ _ _ [] false).consequence (fun _ ha => ha)
      fun _ _ => h.told

/-- The announcement of a turn. -/
theorem announceTurn_spec (h : S.Upheld) (worker : Worker) :
    Spec S task
      (S.phase task (.telling (announcement S.pairing report) report.matchResult.isNone))
      (announceTurn worker report.turnResult
        ⟨some report.turnResult,report.roundResult,report.matchResult⟩ S.pairing.player1Id
        S.pairing.player2Id) fun _ => S.phase task .idle := by
  obtain ⟨turnResult,roundResult,matchResult⟩ := report
  unfold announceTurn announcement
  apply Spec.bind h (tell_spec h worker S.pairing.player1Id (turnResultForP1 turnResult) _ _)
  intro _
  apply Spec.bind h (tell_spec h worker S.pairing.player2Id (turnResultForP2 turnResult) _ _)
  intro _
  cases roundResult with
  | none => exact announceEnd_spec h worker false matchResult
  | some result =>
    apply Spec.bind h (tellBoth_spec h worker S.pairing.player1Id S.pairing.player2Id
      (roundResultFor result S.pairing.player1Id S.pairing.player1Id)
      (roundResultFor result S.pairing.player2Id S.pairing.player1Id) _ _)
    exact fun _ => announceEnd_spec h worker true matchResult

/-- What the read of the players' ids leads to. -/
def afterRead (S : SessionContract) (report : TurnReport) : Option PvPSessionState → Phase
  | some _ => .telling (announcement S.pairing report) report.matchResult.isNone
  | none => .idle

/-- What follows the commit of a resolution. -/
theorem concludeResolve_spec (h : S.Upheld) (worker : Worker) {captured : ResolveCaptured}
    (hcaptured : captured=⟨some report.turnResult,report.roundResult,report.matchResult⟩) :
    Spec S task (S.phase task (.resolved report)) (concludeResolve worker captured)
      fun _ => S.phase task .idle := by
  unfold concludeResolve
  rw [hcaptured]
  apply Spec.bind h
    (act_silent h (.resolved report) (by simp) fun _ _ _ => ⟨rfl,⟨(),rfl⟩,rfl⟩)
  intro _
  apply Spec.bind h (load_moves h (.resolved report) (afterRead S report) _)
  · intro value
    cases value with
    | none => exact settle (fun _ ha => ha.1) (done_idle h)
    | some session =>
      rintro world ⟨hp,hloaded⟩
      obtain ⟨h₁,h₂⟩ := hloaded.1 session rfl
      dsimp only
      rw [h₁,h₂]
      exact announceTurn_spec h worker hp
  · intro value
    cases value with
    | none => exact h.unread task report
    | some session => exact h.read task report session

/-- _resolve_turn. -/
theorem resolveTurn_spec (h : S.Upheld) (worker : Worker) (p1Action p2Action : Action) :
    Spec S task (S.phase task (.holding p1Action p2Action))
      (resolveTurn worker p1Action p2Action) fun _ => S.phase task .idle := by
  -- after the commit the captured results are those of the report
  let D : ResolveCaptured×PvPSessionState → SessionRecord → Prop := fun x record =>
    ∃ report : TurnReport,
      x.1=⟨some report.turnResult,report.roundResult,report.matchResult⟩ ∧
      S.phase task (.resolved report) record
  have hD : ∀ x,S.recordContract.Stable task (D x) := by
    rintro x record record' he ⟨report,hx,hp⟩
    exact ⟨report,hx,h.stable task _ he hp⟩
  have hDraises : ∀ x,S.recordContract.Raises task (D x) fun _ => S.phase task .idle := by
    rintro x exc count record ht hinv ⟨report,hx,hp⟩ ha
    exact h.raised task _ exc ht hinv hp ha
  have hwatch : Spec S task (S.phase task (.holding p1Action p2Action))
      (watchAndUpdate (fun _ => .resolve p1Action p2Action) (applyTurn p1Action p2Action)
        defaultMaxRetries ⟨none,none,none⟩) D := by
    apply watchAndUpdate_spec h
    refine {
      pre_stable := h.stable task _
      post_stable := hD
      pre_raises := h.raised task _
      post_raises := hDraises
      missing := fun hinv hp hv => h.missing hinv hp hv
      refused := ?refused
      commit := ?commit
      conflict := fun _ retriesLeft => h.resolveConflict task p1Action p2Action retriesLeft }
    case refused =>
      intro count record captured session error hinv hp hv hm
      unfold GameSession.applyTurn at hm
      split at hm
      · next gameState e he =>
        have hrefused : (submitTurn session.gameState p1Action p2Action).2=.error e := by
          rw [he]
        exact h.refused hinv hp hv hrefused
      · cases hm
    case commit =>
      intro captured session captured' session' hm
      unfold GameSession.applyTurn at hm
      split at hm
      · cases hm
      · next gameState report he =>
        cases hm
        intro count record ht hinv hA ha
        obtain ⟨hi,ho,hp⟩ :=
          h.resolve task p1Action p2Action session gameState report he ht hinv hA ha
        exact ⟨hi,ho,report,rfl,hp⟩
  unfold resolveTurn
  apply Spec.bind h (except_spec h hD hwatch)
  intro outcome
  cases outcome with
  | none => exact done_idle h
  | some x =>
    rintro world ⟨report,hcaptured,hp⟩
    exact concludeResolve_spec h worker hcaptured hp

end Resolving

section Submitting

/-- submit_action after its transaction has committed. -/
theorem concludeSubmit_spec (h : S.Upheld) (worker : Worker) (playerId : UUID) (action : Action)
    (captured : SubmitCaptured) :
    Spec S task (S.phase task (concluded captured))
      (concludeSubmit worker playerId action captured) fun _ => S.phase task .idle := by
  unfold concludeSubmit
  obtain ⟨validationError,shouldResolve,p1Action,p2Action,turn⟩ := captured
  cases validationError with
  | some message => exact send_neutral h rfl worker playerId rfl
  | none =>
    apply Spec.bind h (send_neutral h ?quiet worker playerId rfl)
    case quiet =>
      unfold concluded
      split <;> rfl
    intro _
    cases shouldResolve with
    | false => exact done_idle h
    | true =>
      cases p1Action with
      | none => exact done_idle h
      | some a₁ =>
        cases p2Action with
        | none => exact done_idle h
        | some a₂ => exact resolveTurn_spec h worker a₁ a₂

/-- One of the two players. -/
abbrev IsPlayer (S : SessionContract) (playerId : UUID) : Prop :=
  playerId=S.pairing.player1Id ∨ playerId=S.pairing.player2Id

/-- submit_action. -/
theorem submitAction_spec (h : S.Upheld) (worker : Worker) {playerId : UUID}
    (hplayer : IsPlayer S playerId) (action : Action) :
    Spec S task (S.phase task .idle) (submitAction worker playerId action)
      fun _ => S.phase task .idle := by
  unfold submitAction
  apply Spec.bind h (transaction_spec h concluded (by simp) _ _)
  · intro outcome
    cases outcome with
    | none => exact send_neutral h rfl worker playerId rfl
    | some x => exact concludeSubmit_spec h worker playerId action x.1
  · intro captured session captured' session' hm
    exact h.submit task playerId action captured session captured' session' hplayer hm

end Submitting

section Timers

/-- load with its exceptions caught. -/
theorem loadCaught_spec (h : S.Upheld) :
    Spec S task (S.phase task .idle) (exceptException load)
      (Caught S task fun value record => S.phase task .idle record ∧ Loaded S value record) := by
  apply except_spec h _ (load_spec h rfl)
  intro value record record' he hA
  exact ⟨idle_stable h task he hA.1,hA.2.1,fun hover => h.over_stable he (hA.2.2 hover)⟩

/-- A wait. -/
theorem sleep_spec (h : S.Upheld) (tenths : ℕ) :
    Spec S task (S.phase task .idle) (act (.sleep tenths)) fun _ => S.phase task .idle :=
  act_silent h .idle (by simp) fun _ _ _ => ⟨rfl,⟨(),rfl⟩,rfl⟩

/-- The action of a player who has missed his turn. -/
theorem submitDefault_spec (h : S.Upheld) (worker : Worker) (needs : Bool) {playerId : UUID}
    (hplayer : IsPlayer S playerId) :
    Spec S task (S.phase task .idle) (submitDefault worker needs playerId)
      fun _ => S.phase task .idle := by
  unfold submitDefault
  split
  · exact submitAction_spec h worker hplayer _
  · exact done_idle h

/-- _turn_timeout. -/
theorem turnTimeout_spec (h : S.Upheld) (worker : Worker) :
    Spec S task (S.phase task .idle) (turnTimeout worker) fun _ => S.phase task .idle := by
  unfold turnTimeout
  apply Spec.bind h (sleep_spec h _)
  intro _
  apply Spec.bind h (loadCaught_spec h)
  intro outcome
  cases outcome with
  | none => exact done_idle h
  | some value =>
    cases value with
    | none => exact settle (fun _ ha => ha.1) (done_idle h)
    | some session =>
      rintro world ⟨hidle,hloaded⟩
      obtain ⟨h₁,h₂⟩ := hloaded.1 session rfl
      have hrest : Spec S task (S.phase task .idle)
          (if session.gameState.status≠.inProgress then pure ()
            else do
              submitDefault worker session.p1Action.isNone session.player1Id
              submitDefault worker session.p2Action.isNone session.player2Id)
          fun _ => S.phase task .idle := by
        split
        · exact done_idle h
        · apply Spec.bind h (submitDefault_spec h worker _ (.inl h₁))
          intro _
          exact submitDefault_spec h worker _ (.inr h₂)
      exact hrest hidle

/-- The forfeit and its announcement. -/
theorem writeForfeit_spec (h : S.Upheld) (worker : Worker) {forfeiting : RoundWinner}
    {opponent : UUID} (hopposes : Opposes S.pairing forfeiting opponent) :
    Spec S task (S.phase task .idle) (writeForfeit worker opponent forfeiting)
      fun _ => S.phase task .idle := by
  unfold writeForfeit
  apply Spec.bind h
    (transaction_spec h (fun _ => .forfeited opponent) (by simp) _ _)
  · intro outcome
    cases outcome with
    | none => exact done_idle h
    | some x =>
      apply Spec.bind h (load_spec h rfl)
      intro value
      cases value with
      | none => exact settle (fun _ ha => h.untold ha.1) (done_idle h)
      | some session =>
        rintro world ⟨hp,hloaded⟩
        obtain ⟨h₁,h₂⟩ := hloaded.1 session rfl
        have hlabel : opponentLabel opponent forfeiting session="you" := by
          unfold opponentLabel
          obtain ⟨hf,ho⟩ | ⟨hf,ho⟩ := hopposes
          · rw [if_pos ⟨ho.trans h₂.symm,hf⟩]
          · rw [if_neg (by simp [hf]),if_pos ⟨ho.trans h₁.symm,hf⟩]
        have hsend : Spec S task (S.phase task (.forfeited opponent))
            (send worker opponent (forfeitResult opponent forfeiting session))
            fun _ => S.phase task .idle := by
          apply send_moves h
          unfold forfeitResult
          rw [hlabel]
          exact h.informOpponent task opponent _ _ _
        exact hsend hp
  · intro captured session captured' session' hm
    cases hm
    exact h.forfeit task forfeiting opponent session hopposes

/-- _forfeit_after_timeout. -/
theorem forfeitAfterTimeout_spec (h : S.Upheld) (worker : Worker) {disconnected opponent : UUID}
    (hfor : StartedFor S.pairing (.forfeitAfterTimeout worker disconnected opponent)) :
    Spec S task (S.phase task .idle) (forfeitAfterTimeout worker disconnected opponent)
      fun _ => S.phase task .idle := by
  unfold forfeitAfterTimeout
  apply Spec.bind h (sleep_spec h _)
  intro _
  apply Spec.bind h (act_silent h .idle (by simp) fun _ _ _ => ⟨rfl,⟨_,rfl⟩,rfl⟩)
  intro connected
  split
  · exact done_idle h
  · apply Spec.bind h (loadCaught_spec h)
    intro outcome
    cases outcome with
    | none => exact done_idle h
    | some value =>
      cases value with
      | none => exact settle (fun _ ha => ha.1) (done_idle h)
      | some session =>
        rintro world ⟨hidle,hloaded⟩
        obtain ⟨h₁,h₂⟩ := hloaded.1 session rfl
        have hopposes : Opposes S.pairing (forfeitingSide disconnected session) opponent := by
          have ho : opponent=if disconnected=S.pairing.player1Id then S.pairing.player2Id
            else S.pairing.player1Id := hfor
          unfold forfeitingSide
          rw [h₁]
          by_cases hd : disconnected=S.pairing.player1Id
          · rw [if_pos hd] at ho ⊢
            exact .inl ⟨rfl,ho⟩
          · rw [if_neg hd] at ho ⊢
            exact .inr ⟨rfl,ho⟩
        exact writeForfeit_spec h worker hopposes hidle

end Timers

section Sockets

/-- handle_disconnect. -/
theorem handleDisconnect_spec (h : S.Upheld) (worker : Worker) (playerId : UUID) :
    Spec S task (S.phase task .idle) (handleDisconnect worker playerId)
      fun _ => S.phase task .idle := by
  unfold handleDisconnect
  apply Spec.bind h (loadCaught_spec h)
  intro outcome
  cases outcome with
  | none => exact done_idle h
  | some value =>
    cases value with
    | none => exact settle (fun _ ha => ha.1) (done_idle h)
    | some session =>
      rintro world ⟨hidle,hloaded⟩
      obtain ⟨h₁,h₂⟩ := hloaded.1 session rfl
      have hrest : ∀ opponent,
          opponent=(if playerId=S.pairing.player1Id then S.pairing.player2Id
            else S.pairing.player1Id) →
          Spec S task (S.phase task .idle)
            (do
              send worker opponent (.opponentDisconnected disconnectTimeoutSeconds)
              act (.startDisconnect worker playerId opponent))
            fun _ => S.phase task .idle := by
        intro opponent ho
        apply Spec.bind h (send_neutral h rfl worker opponent rfl)
        intro _
        exact act_starts h (.forfeitAfterTimeout worker playerId opponent) (by simp)
          (fun _ _ _ => ⟨rfl,⟨(),rfl⟩,rfl⟩) ho
      dsimp only
      rw [h₁,h₂]
      exact hrest _ rfl hidle

/-- What a frame leads to. -/
theorem handleFrame_spec (h : S.Upheld) (worker : Worker) {playerId : UUID}
    (hplayer : IsPlayer S playerId) (frame : Frame) :
    Spec S task (S.phase task .idle) (handleFrame worker playerId frame)
      fun _ => S.phase task .idle := by
  cases frame with
  | submitAction text =>
    unfold handleFrame
    dsimp only
    split
    · exact act_silent h .idle (by simp) fun _ _ _ => ⟨rfl,⟨(),rfl⟩,rfl⟩
    · exact submitAction_spec h worker hplayer _
  | ping => exact act_silent h .idle (by simp) fun _ _ _ => ⟨rfl,⟨(),rfl⟩,rfl⟩
  | other => exact done_idle h
  | malformed => exact Spec.raise h fun _ ha => ha

/-- The receive loop, by induction on the frames. -/
theorem receiveLoop_spec (h : S.Upheld) (worker : Worker) {playerId : UUID}
    (hplayer : IsPlayer S playerId) (frames : List Frame) :
    Spec S task (S.phase task .idle) (receiveLoop worker playerId frames)
      fun _ => S.phase task .idle := by
  induction frames with
  | nil => exact receive_idle h none
  | cons frame frames ih =>
    unfold receiveLoop
    apply Spec.bind h (receive_idle h (some frame))
    intro _
    apply Spec.bind h (handleFrame_spec h worker hplayer frame)
    intro _
    exact ih

/-- The finally block of game_ws. -/
theorem closeSocket_spec (h : S.Upheld) (worker : Worker) (playerId : UUID) :
    Spec S task (S.phase task .idle) (closeSocket worker playerId)
      fun _ => S.phase task .idle := by
  unfold closeSocket
  apply Spec.bind h (act_silent h .idle (by simp) fun _ _ _ => ⟨rfl,⟨(),rfl⟩,rfl⟩)
  intro _
  apply Spec.bind h (load_spec h rfl)
  intro value
  cases value with
  | none => exact settle (fun _ ha => ha.1) (done_idle h)
  | some session =>
    dsimp only
    split
    · next hstatus =>
      -- the loaded session was over, so the match still is when the key is removed
      let A : SessionRecord → Prop := fun record => S.phase task .idle record ∧ Over record
      have hA : S.recordContract.Stable task A := fun _ _ he ha =>
        ⟨idle_stable h task he ha.1,h.over_stable he ha.2⟩
      have hraise : S.recordContract.Raises task A fun _ => S.phase task .idle :=
        fun exc _ _ ht hinv ha => idle_raises h task exc ht hinv ha.1
      have hcleanup : Spec S task A (act (.cleanup worker)) fun _ => A := by
        apply (laws h).act hA (fun _ => hA) (fun _ => idle_stable h task)
        · exact fun ⟨frame,hf⟩ => nomatch hf
        · intro pick count record memory memory' notes result started he ht hinv ha _
          cases he
          exact (laws h).silent hinv ha
        · exact hraise
        · exact fun _ => hraise
        · exact fun _ => idle_raises h task
      have hrest := Spec.bind h hcleanup (f := fun _ => redis .delete) fun _ =>
        (laws h).delete hA (idle_stable h task) (fun _ => idle_stable h task) (h.deleted task)
          hraise (idle_raises h task)
      apply hrest.pre
      intro record ha
      refine ⟨ha.1,ha.2.2 ?_⟩
      intro session' hs
      cases hs
      exact hstatus
    · exact settle (fun _ ha => ha.1) (done_idle h)

/-- game_ws after a refusal. -/
theorem refuse_spec (h : S.Upheld) (worker : Worker) (playerId : UUID) (message : String) :
    Spec S task (S.phase task .idle) (refuse worker playerId message)
      fun _ => S.phase task .idle := by
  apply Spec.bind h (act_silent h .idle (by simp) fun _ _ _ => ⟨rfl,⟨(),rfl⟩,rfl⟩)
  intro _
  exact act_silent h .idle (by simp) fun _ _ _ => ⟨rfl,⟨(),rfl⟩,rfl⟩

/-- game_ws with both players present. -/
theorem startWhenFull_spec (h : S.Upheld) (worker : Worker) :
    Spec S task (S.phase task .idle) (startWhenFull worker) fun _ => S.phase task .idle := by
  apply Spec.bind h (act_silent h .idle (by simp) fun _ _ _ => ⟨rfl,⟨_,rfl⟩,rfl⟩)
  intro size
  split
  · exact start_spec h worker
  · exact done_idle h

/-- game_ws after the checks. -/
theorem playGame_spec (h : S.Upheld) (worker : Worker) {playerId : UUID}
    (hplayer : IsPlayer S playerId) (frames : List Frame) :
    Spec S task (S.phase task .idle) (playGame worker playerId frames)
      fun _ => S.phase task .idle := by
  have hlawful := (laws h).tracks.toLawful
  have hidle := (idle_stable h task).on
  unfold playGame
  apply Spec.bind h (handleConnect_spec h worker playerId)
  intro _
  apply Spec.bind h (startWhenFull_spec h worker)
  intro _
  apply Triple.cleanupWith hlawful (fun _ => hidle) (fun _ => hidle)
  · apply Triple.handle hlawful (fun _ => hidle) (receiveLoop_spec h worker hplayer frames)
    intro e
    split
    · exact handleDisconnect_spec h worker playerId
    · exact Spec.raise h fun _ ha => ha
  · exact fun _ => closeSocket_spec h worker playerId
  · exact fun _ => closeSocket_spec h worker playerId

/-- game_ws. -/
theorem gameWs_spec (h : S.Upheld) (worker : Worker) (playerId : UUID) (frames : List Frame) :
    Spec S task (S.phase task .idle) (gameWs worker playerId frames)
      fun _ => S.phase task .idle := by
  unfold gameWs
  apply Spec.bind h (act_silent h .idle (by simp) fun _ _ _ => ⟨rfl,⟨(),rfl⟩,rfl⟩)
  intro _
  apply Spec.bind h (act_silent h .idle (by simp) fun _ _ _ => ⟨rfl,⟨(),rfl⟩,rfl⟩)
  intro _
  apply Spec.bind h (act_silent h .idle (by simp) fun _ _ _ => ⟨rfl,⟨(),rfl⟩,rfl⟩)
  intro _
  apply Spec.bind h (load_spec h rfl)
  intro value
  cases value with
  | none => exact settle (fun _ ha => ha.1) (refuse_spec h worker playerId _)
  | some session =>
    rintro world ⟨hidle,hloaded⟩
    obtain ⟨h₁,h₂⟩ := hloaded.1 session rfl
    dsimp only
    split
    · exact refuse_spec h worker playerId _ hidle
    · next hplayer =>
      have hmember : session.isPlayer playerId=true := by simpa using hplayer
      have hplayer : IsPlayer S playerId := by
        simpa only [PvPSessionState.isPlayer,Bool.or_eq_true,decide_eq_true_eq,h₁,h₂]
          using hmember
      exact playGame_spec h worker hplayer frames hidle

end Sockets

/-- Every task of the workers is safe, so an upheld contract is verified. -/
theorem verified (h : S.Upheld) : S.recordContract.contract.Verified := by
  apply (laws h).tracks.verified
  intro task count entry world _ _ hentry
  have hbody : Spec S task (S.phase task .idle) (body entry) fun _ => S.phase task .idle := by
    cases entry with
    | gameWs worker player frames => exact gameWs_spec h worker player frames
    | turnTimeout worker => exact turnTimeout_spec h worker
    | forfeitAfterTimeout worker disconnected opponent =>
      exact forfeitAfterTimeout_spec h worker hentry.2
  apply (hbody hentry.1).mono
  intro r world hr
  cases r <;> exact hr

/-- In every run whose record is allowed, every task stays safe. -/
theorem good (h : S.Upheld) (hinitial : S.inv 0 ⟨some S.pairing.session,[]⟩)
    {config : workers.Config} (hrun : (initial S.pairing).Reaches config)
    (ha : S.allowed config.world.trace) : S.recordContract.contract.Good config := by
  obtain ⟨moves,hmoves⟩ := hrun
  have hstart : S.recordContract.contract.Good (initial S.pairing) := by
    refine ⟨hinitial,fun task p hp => ?_⟩
    cases hp
  exact hstart.run (verified h) hmoves ha

/-- The task has ended or waits for its client, so nothing it has begun is left
undone. -/
def Rests (config : workers.Config) (task : TaskId) : Prop :=
  match config.tasks[task]? with
  | some (.op (.act (.receive _)) _) => True
  | some (.op _ _) => False
  | _ => True

instance (config : workers.Config) (task : TaskId) : Decidable (Rests config task) := by
  unfold Rests
  split <;> infer_instance

/-- A task that rests is idle. -/
theorem rests_idle (h : S.Upheld) {config : workers.Config}
    (hgood : S.recordContract.contract.Good config) (hlt : task<config.tasks.length)
    (hrests : Rests config task) : S.phase task .idle config.world.record := by
  have hv := verified h
  unfold Rests at hrests
  cases ht : config.tasks[task]? with
  | none =>
    exact absurd hlt (Nat.not_lt.mpr (List.getElem?_eq_none_iff.mp ht))
  | some p =>
    rw [ht] at hrests
    cases p with
    | done r => exact hgood.finish hv ht
    | op o next =>
      cases o with
      | store o => exact absurd hrests id
      | act o =>
        cases o with
        | receive frame => exact hgood.ready hv ht ⟨frame,rfl⟩
        | _ => exact absurd hrests id

end KiClash.SessionSafety
