import KiClash.GoSessionContracts
import KiClash.Identifiers
import KiClash.OptimisticTransactions

/-!
# The Go programs keep every upheld contract

One specification for each function of the Go session code, in the order of
the source. An error that a function returns is an outcome like any other, so
a specification also says in which phase an error leaves the goroutine.
-/

namespace KiClash.GoSessionSafety

open GoTypes GoEngine ServerMessages AsyncTasks AsyncContracts WatchedKey RecordContracts
open OptimisticTransactions GoStore GoSession GoSessionContracts
open GoSessionContracts.SessionContract (Keeps)

variable {S : SessionContract} {task : GoroutineId} {α β : Type}

/-- From A the function is safe; it returns with B or fails with E. -/
def Spec (S : SessionContract) (task : GoroutineId) (A : SessionRecord → Prop) (p : Goroutine α)
    (B : α → SessionRecord → Prop) (E : SessionRecord → Prop) : Prop :=
  Triple S.recordContract.contract task (RecordContract.On A) p
    (fun a => RecordContract.On (B a)) (fun _ => RecordContract.On E)

/-- From the given phase to the idle one. -/
abbrev Walk (S : SessionContract) (task : GoroutineId) (phase : Phase) (p : Goroutine Unit) : Prop :=
  Spec S task (S.phase task phase) p (fun _ => S.phase task .idle) (S.phase task .idle)

/-- An upheld contract satisfies the laws of record contracts. -/
theorem laws (h : S.Upheld) : S.recordContract.Laws where
  expects_refl := h.expects_refl
  expects_trans := h.expects_trans
  allowed_prefix := h.allowed_prefix
  arrive hinv hentry ha := by
    obtain ⟨hi,he,hphase⟩ := h.starts hinv ha
    refine ⟨hi,he,hphase,?_⟩
    rename_i entry record
    cases entry with
    | gameWebsocket instance' player frames => exact True.intro
    | turnTimeoutLoop instance' => cases hentry
    | forfeitAfterTimeout instance' disconnected opponent => cases hentry

section Rules

variable {A A' : SessionRecord → Prop} {B B' : α → SessionRecord → Prop}
  {E E' : SessionRecord → Prop}

/-- A function that returns at once. -/
theorem Spec.pure {a : α} (hB : S.recordContract.Stable task (B a))
    (h : ∀ record,A record → B a record) : Spec S task A (pure a) B E :=
  Triple.pure hB.on fun _ => h _

/-- A function that fails at once. -/
theorem Spec.raise {e : Failure} (hE : S.recordContract.Stable task E)
    (h : ∀ record,A record → E record) : Spec S task A (.raise e : Goroutine α) B E :=
  Triple.raise hE.on fun _ => h _

/-- Sequencing. -/
theorem Spec.bind (h : S.Upheld) (hE : S.recordContract.Stable task E) {p : Goroutine α}
    {f : α → Goroutine β} {D : β → SessionRecord → Prop} (hp : Spec S task A p B E)
    (hf : ∀ a,Spec S task (B a) (f a) D E) : Spec S task A (p >>= f) D E :=
  Triple.bind (laws h).tracks.toLawful (fun _ => hE.on) hp hf

/-- Consequence. -/
theorem Spec.consequence {p : Goroutine α} (hp : Spec S task A' p B' E')
    (hA : ∀ record,A record → A' record) (hB : ∀ a record,B' a record → B a record)
    (hE : ∀ record,E' record → E record) : Spec S task A p B E :=
  Triple.consequence hp (fun _ => hA _) (fun a _ => hB a _) (fun _ _ => hE _)

/-- A stronger precondition. -/
theorem Spec.pre {p : Goroutine α} (hp : Spec S task A' p B E)
    (hA : ∀ record,A record → A' record) : Spec S task A p B E :=
  hp.consequence hA (fun _ _ hb => hb) fun _ he => he

/-- The assertion after a call whose error is looked at. -/
def Returned (B : α → SessionRecord → Prop) (E : SessionRecord → Prop) :
    Except Failure α → SessionRecord → Prop
  | .ok a => B a
  | .error _ => E

/-- A call whose error is looked at does not fail. -/
theorem Spec.returned (h : S.Upheld) {p : Goroutine α} (hB : ∀ a,S.recordContract.Stable task (B a))
    (hE : S.recordContract.Stable task E) (hp : Spec S task A p B E) :
    Spec S task A (returned p) (Returned B E) E' := by
  intro world ha
  apply Safe.andThen (laws h).tracks.toLawful
  apply (hp ha).mono
  intro r world hr
  cases r with
  | ok a => exact fun _ _ _ hrely => (hB a).on hrely hr
  | error e => exact fun _ _ _ hrely => hE.on hrely hr

end Rules

section Operations

variable {A E : SessionRecord → Prop} {phase : Phase}

/-- An operation that leaves no trace and starts nothing. -/
theorem act_silent (h : S.Upheld) (hA : S.recordContract.Stable task A)
    (hE : S.recordContract.Stable task E) {o : LocalOp} (ho : ∀ frame,o≠.readMessage frame)
    (heffect : ∀ pick task fresh memory,(o.effect pick task fresh memory).2.1=[] ∧
      (∃ a,(o.effect pick task fresh memory).2.2.1=.ok a) ∧
      (o.effect pick task fresh memory).2.2.2=none) :
    Spec S task A (act o) (fun _ => A) E := by
  apply (laws h).actFree hA (fun _ => hA) (fun _ => hE)
  · exact fun ⟨frame,hf⟩ => absurd hf (ho frame)
  · intro pick count record memory memory' notes result started he ht hinv ha _
    obtain ⟨hn,⟨a,hr⟩,hs⟩ := heffect pick task count memory
    have he' : o.effect pick task count memory=(memory',notes,result,started) := he
    rw [he'] at hn hr hs
    dsimp only at hn hr hs
    subst hn hr hs
    exact (laws h).silent hinv ha
  · exact fun _ => rfl

/-- What a single note does to the record. -/
theorem acted_note (record : SessionRecord) (fresh : ℕ) (note : Note) :
    record.acted fresh [note] none=record.log (.note note) := rfl

/-- sendToPlayer changes the phase as its event does. -/
theorem send_moves (h : S.Upheld) {phase' : Phase} (hE : S.recordContract.Stable task E)
    (instance' : Instance) {player : String} {message : ServerMessage}
    (hm : S.recordContract.Moves task (S.phase task phase)
      (fun record => record.log (.note (.sent task player message))) (S.phase task phase')) :
    Spec S task (S.phase task phase) (send instance' player message)
      (fun _ => S.phase task phase') E := by
  apply (laws h).actFree (h.stable task phase) (fun _ => h.stable task phase') (fun _ => hE)
  · exact fun ⟨frame,hf⟩ => nomatch hf
  · intro pick count record memory memory' notes result started he ht hinv hA ha
    cases he
    rw [acted_note] at ha
    obtain ⟨hi,ho,hB⟩ := hm ht hinv hA ha
    exact ⟨hi,ho,(fun _ hne => nomatch hne),hB⟩
  · exact fun _ => rfl

/-- A message that is not a match result changes nothing. -/
theorem send_neutral (h : S.Upheld) (hE : S.recordContract.Stable task E) (instance' : Instance)
    (player : String) {message : ServerMessage} (hm : message.isMatchResult=false) :
    Spec S task (S.phase task phase) (send instance' player message)
      (fun _ => S.phase task phase) E := by
  apply send_moves h hE
  intro count record ht hinv hA ha
  obtain ⟨hi,he⟩ := h.sent task player message hm hinv True.intro ha
  exact ⟨hi,fun other _ => he other,h.stable task phase (he task) hA⟩

/-- An operation that starts a timer. -/
theorem act_starts (h : S.Upheld) (entry : Entry) {o : LocalOp}
    (ho : ∀ frame,o≠.readMessage frame)
    (heffect : ∀ pick task fresh memory,(o.effect pick task fresh memory).2.1=[] ∧
      (∃ a,(o.effect pick task fresh memory).2.2.1=.ok a) ∧
      (o.effect pick task fresh memory).2.2.2=some entry)
    (hentry : StartedFor S.pairing entry) :
    Spec S task (S.phase task .idle) (act o) (fun _ => S.phase task .idle)
      (S.phase task .idle) := by
  have hidle := h.stable task .idle
  apply (laws h).actFree hidle (fun _ => hidle) (fun _ => hidle)
  · exact fun ⟨frame,hf⟩ => absurd hf (ho frame)
  · intro pick count record memory memory' notes result started he ht hinv hA ha
    obtain ⟨hn,⟨a,hr⟩,hs⟩ := heffect pick task count memory
    have he' : o.effect pick task count memory=(memory',notes,result,started) := he
    rw [he'] at hn hr hs
    dsimp only at hn hr hs
    subst hn hr hs
    obtain ⟨hi,hexp,hfirst⟩ := h.starts hinv ha
    refine ⟨hi,fun other _ => hexp other,fun entry' hne => ?_,hidle (hexp task) hA⟩
    cases hne
    exact ⟨hfirst,hentry⟩
  · exact fun _ => rfl

/-- ReadMessage: the goroutine rests until a frame arrives. -/
theorem readMessage_idle (h : S.Upheld) (frame : Option Frame) :
    Walk S task .idle (act (.readMessage frame)) := by
  have hidle := h.stable task .idle
  apply (laws h).actFree hidle (fun _ => hidle) (fun _ => hidle)
  · exact fun _ record hA => hA
  · intro pick count record memory memory' notes result started he ht hinv hA ha
    cases he
    rw [acted_note] at ha
    obtain ⟨hi,hexp⟩ := h.received task frame hinv hA ha
    exact ⟨hi,fun other _ => hexp other,(fun _ hne => nomatch hne),hidle (hexp task) hA⟩
  · exact fun _ => rfl

/-- Any command on the key can fail. -/
theorem raises_phase (h : S.Upheld) (task : GoroutineId) (phase : Phase) :
    S.recordContract.Raises task (S.phase task phase)
      fun _ => S.phase task phase.afterFailure := h.failed task phase

/-- A failure that follows a failure leads nowhere else. -/
theorem afterFailure_afterFailure (phase : Phase) :
    phase.afterFailure.afterFailure=phase.afterFailure := by
  cases phase <;> rfl

/-- loadSession leaves every phase alone; the session belongs to the players. -/
theorem loadSession_spec (h : S.Upheld) (phase : Phase) :
    Spec S task (S.phase task phase) loadSession
      (fun sess record => S.phase task phase record ∧ Belongs S.pairing sess)
      (S.phase task phase.afterFailure) := by
  have hE := h.stable task phase.afterFailure
  -- there always is a session
  let K : Option PvPSession → SessionRecord → Prop := fun value record =>
    S.phase task phase record ∧ ∃ sess,value=some sess ∧ Belongs S.pairing sess
  have hK : ∀ value,S.recordContract.Stable task (K value) := fun value _ _ hexp hk =>
    ⟨h.stable task phase hexp hk.1,hk.2⟩
  have hload : Spec S task (S.phase task phase) (redis .load) K
      (S.phase task phase.afterFailure) := by
    apply (laws h).load (h.stable task phase) hK (fun _ => hE)
    · intro value count record ht hinv hA ha
      obtain ⟨hi,hexp⟩ := h.loaded task value hinv True.intro ha
      obtain ⟨sess,hs,hbelongs⟩ := h.stored hinv
      exact ⟨hi,fun other _ => hexp other,h.stable task phase (hexp task) hA.1,sess,
        hA.2.symm.trans hs,hbelongs⟩
    · exact raises_phase h task phase
    · exact fun value exc count record ht hinv hk ha => h.failed task phase exc ht hinv hk.1 ha
  apply Spec.bind h hE hload
  intro value
  cases value with
  | none =>
    apply Spec.raise hE
    rintro record ⟨-,sess,hs,-⟩
    cases hs
  | some sess =>
    apply Spec.pure (B := fun sess record => S.phase task phase record ∧ Belongs S.pairing sess)
      fun _ _ hexp hk => ⟨h.stable task phase hexp hk.1,hk.2⟩
    rintro record ⟨hp,sess',hs,hbelongs⟩
    cases hs
    exact ⟨hp,hbelongs⟩

end Operations

section Transactions

variable {L : Type} {call : L → Call} {mutator : Mutator L} {K T : L → Prop} {phase : Phase}
  {next : L → Phase}

/-- A transaction of a goroutine that leads from a phase to the next one; K
holds of the captured variables, and T once the mutator has assigned them. -/
structure Transaction (S : SessionContract) (task : GoroutineId) (phase : Phase)
    (call : L → Call) (mutator : Mutator L) (K T : L → Prop) (next : L → Phase) : Prop where
  /-- The mutator assigns the captured variables. -/
  captured : ∀ {count record captured sess captured' sess'},S.inv count record →
    record.value=some sess → K captured → mutator captured sess=.ok (captured',sess') → T captured'
  /-- The assigned variables are those of the next attempt. -/
  known : ∀ captured,T captured → K captured
  /-- The mutator returns an error. -/
  refused : ∀ {count record captured sess error},S.inv count record → S.phase task phase record →
    record.value=some sess → mutator captured sess=.error error →
    S.phase task phase.afterFailure record
  /-- An attempt commits. -/
  commit : ∀ captured sess captured' sess',K captured →
    mutator captured sess=.ok (captured',sess') →
    S.recordContract.Moves task (fun record => S.phase task phase record ∧ record.value=some sess)
      (fun record => record.commit task (call captured) sess') (S.phase task (next captured'))
  /-- An attempt conflicts; the last one gives up. -/
  conflict : ∀ captured retriesLeft,S.recordContract.Moves task (S.phase task phase)
    (fun record => record.log (.conflict task (call captured) retriesLeft))
    (S.phase task (if retriesLeft=0 then phase.afterFailure else phase))
  /-- A failure after the commit is like one before it. -/
  failing : ∀ captured,(next captured).afterFailure=phase.afterFailure

/-- What an attempt of a transaction owes. -/
theorem Transaction.attempt (h : S.Upheld)
    (ht : Transaction S task phase call mutator K T next) {captured : L} (hK : K captured)
    (attempts : ℕ) :
    Attempt S.recordContract task (call captured) attempts (mutator captured) T
      (S.phase task phase) (S.phase task phase.afterFailure)
      (S.phase task (if attempts=0 then phase.afterFailure else phase))
      (fun x => S.phase task (next x.1)) fun _ => S.phase task phase.afterFailure where
  stable := ⟨h.stable task _,h.stable task _,h.stable task _,fun _ => h.stable task _,
    fun _ => h.stable task _⟩
  raises := by
    refine ⟨h.failed task phase,?_,?_,fun x => ?_⟩
    · simpa only [afterFailure_afterFailure] using raises_phase h task phase.afterFailure
    · split
      · simpa only [afterFailure_afterFailure] using raises_phase h task phase.afterFailure
      · exact h.failed task phase
    · simpa only [ht.failing] using raises_phase h task (next x.1)
  missing hinv _ hv := by
    obtain ⟨sess,hs,-⟩ := h.stored hinv
    rw [hv] at hs
    cases hs
  refused := ht.refused
  told hinv _ hv hm := ht.captured hinv hv hK hm
  commit sess captured' sess' hm := ht.commit captured sess captured' sess' hK hm
  conflict := ht.conflict captured attempts

/-- An iteration of the retry loop is an attempt. -/
theorem watchAndUpdate_succ (call : L → Call) (mutator : Mutator L) (attempts : ℕ)
    (captured : L) :
    watchAndUpdate call mutator (attempts+1) captured=
      OptimisticTransactions.attempt (call captured) attempts (mutator captured)
        (.raise Failure.gameNotFound) (fun e => .raise (Failure.mutator e))
        (fun x => do
          let sess ← loadSession
          pure (x.1,sess))
        (watchAndUpdate call mutator attempts) := by
  unfold watchAndUpdate OptimisticTransactions.attempt
  apply congrArg
  funext token
  apply congrArg
  funext raw
  cases raw with
  | none => rfl
  | some sess =>
    cases h : mutator captured sess with
    | error e => simp only [h]
    | ok x =>
      simp only [h]
      rfl

/-- What watchAndUpdate returns: the captured variables and a session of the players. -/
abbrev Updated (S : SessionContract) (task : GoroutineId) (T : L → Prop) (next : L → Phase)
    (x : L×PvPSession) (record : SessionRecord) : Prop :=
  S.phase task (next x.1) record ∧ T x.1 ∧ Belongs S.pairing x.2

/-- This does not change. -/
theorem updated_stable (h : S.Upheld) (x : L×PvPSession) :
    S.recordContract.Stable task (Updated S task T next x) :=
  fun _ _ hexp hx => ⟨h.stable task _ hexp hx.1,hx.2⟩

/-- The read after a commit. -/
theorem reload_spec (h : S.Upheld) (ht : Transaction S task phase call mutator K T next)
    {captured : L} (hT : T captured) :
    Spec S task (S.phase task (next captured))
      (do
        let sess ← loadSession
        pure (captured,sess))
      (Updated S task T next) (S.phase task phase.afterFailure) := by
  rw [← ht.failing captured]
  apply Spec.bind h (h.stable task _) (loadSession_spec h (next captured))
  intro sess
  exact Spec.pure (updated_stable h (captured,sess)) fun _ hx => ⟨hx.1,hT,hx.2⟩

/-- The retry loop, by induction on the attempts that are left. -/
theorem attempts_spec (h : S.Upheld) (ht : Transaction S task phase call mutator K T next)
    (attempts : ℕ) {captured : L} (hK : K captured) :
    Spec S task (S.phase task (if attempts=0 then phase.afterFailure else phase))
      (watchAndUpdate call mutator attempts captured) (Updated S task T next)
      (S.phase task phase.afterFailure) := by
  have hE := h.stable task phase.afterFailure
  induction attempts generalizing captured with
  | zero => exact Spec.raise hE fun _ ha => ha
  | succ attempts ih =>
    simp only [Nat.add_one_ne_zero,if_false]
    rw [watchAndUpdate_succ]
    apply (ht.attempt h hK attempts).triple (laws h)
    · exact Spec.raise hE fun _ ha => ha
    · exact fun e => Spec.raise hE fun _ ha => ha
    · exact fun x hx => reload_spec h ht hx
    · exact fun captured' hT => ih (ht.known captured' hT)

/-- watchAndUpdate whose error is looked at. -/
theorem watchAndUpdate_spec (h : S.Upheld) (ht : Transaction S task phase call mutator K T next)
    {captured : L} (hK : K captured) {E : SessionRecord → Prop} :
    Spec S task (S.phase task phase)
      (returned (watchAndUpdate call mutator defaultMaxWatchRetries captured))
      (Returned (Updated S task T next) (S.phase task phase.afterFailure)) E :=
  Spec.returned h (updated_stable h) (h.stable task _)
    (attempts_spec h ht defaultMaxWatchRetries hK)

/-- A transaction from the idle phase whose captured variables nobody follows. -/
theorem idle_transaction (h : S.Upheld)
    (hcall : ∀ captured p1 p2,call captured≠.resolve p1 p2)
    (hcommit : ∀ captured sess captured' sess',mutator captured sess=.ok (captured',sess') →
      S.recordContract.Moves task
        (fun record => S.phase task .idle record ∧ record.value=some sess)
        (fun record => record.commit task (call captured) sess') (S.phase task .idle)) :
    Transaction S task .idle call mutator (fun _ => True) (fun _ => True) fun _ => .idle where
  captured _ _ _ _ := True.intro
  known _ _ := True.intro
  refused _ hidle _ _ := hidle
  commit captured sess captured' sess' _ hm := hcommit captured sess captured' sess' hm
  conflict captured retriesLeft := by
    have hm := h.conflict task (call captured) retriesLeft .idle (hcall captured) (by simp)
    simpa only [Phase.afterFailure,ite_self] using hm
  failing _ := rfl

end Transactions

/-- loadSession whose error is looked at. -/
theorem loadReturned_spec (h : S.Upheld) (phase : Phase) {E : SessionRecord → Prop} :
    Spec S task (S.phase task phase) (returned loadSession)
      (Returned (fun sess record => S.phase task phase record ∧ Belongs S.pairing sess)
        (S.phase task phase.afterFailure)) E :=
  Spec.returned h (fun _ _ _ hexp hx => ⟨h.stable task phase hexp hx.1,hx.2⟩)
    (h.stable task _) (loadSession_spec h phase)

section Connecting

/-- Nothing more to do. -/
theorem done_idle (h : S.Upheld) : Walk S task .idle (pure ()) :=
  Spec.pure (h.stable task .idle) fun _ ha => ha

/-- A phase that may be left for the idle one. -/
theorem settle {A E : SessionRecord → Prop} {p : Goroutine Unit}
    (hA : ∀ record,A record → S.phase task .idle record)
    (hp : Spec S task (S.phase task .idle) p (fun _ => S.phase task .idle) E) :
    Spec S task A p (fun _ => S.phase task .idle) E := hp.pre hA

/-- startTurnTimeout. -/
theorem startTurnTimeout_spec (h : S.Upheld) (instance' : Instance) :
    Walk S task .idle (startTurnTimeout instance') := by
  have hidle := h.stable task .idle
  apply Spec.bind h hidle
    (act_silent h hidle hidle (by simp) fun _ _ _ _ => ⟨rfl,⟨(),rfl⟩,rfl⟩)
  intro _
  exact act_starts h (.turnTimeoutLoop instance') (by simp)
    (fun _ _ _ _ => ⟨rfl,⟨(),rfl⟩,rfl⟩) True.intro

/-- sendWaitingForAction. -/
theorem sendWaitingForAction_spec (h : S.Upheld) (instance' : Instance) (sess : PvPSession) :
    Walk S task .idle (sendWaitingForAction instance' sess) := by
  have hidle := h.stable task .idle
  unfold sendWaitingForAction
  split
  · exact done_idle h
  · apply Spec.bind h hidle (send_neutral h hidle instance' _ rfl)
    intro _
    apply Spec.bind h hidle (send_neutral h hidle instance' _ rfl)
    intro _
    exact startTurnTimeout_spec h instance'

/-- A prompt that is only sent while the match is in progress. -/
theorem promptWhileInProgress_spec (h : S.Upheld) (instance' : Instance) (sess : PvPSession) :
    Walk S task .idle
      (if sess.gameState.status=matchInProgress then sendWaitingForAction instance' sess
        else pure ()) := by
  split
  · exact sendWaitingForAction_spec h instance' sess
  · exact done_idle h

/-- The players of the session are the two players. -/
theorem isPlayer_of_belongs {sess : PvPSession} {playerId : String}
    (hbelongs : Belongs S.pairing sess) (hmember : sess.isPlayer playerId=true) :
    IsPlayer S.pairing playerId := by
  unfold IsPlayer
  simpa only [PvPSession.isPlayer,Bool.or_eq_true,decide_eq_true_eq,hbelongs.1,hbelongs.2]
    using hmember

/-- Marking a player as connected keeps the session otherwise. -/
theorem markConnected_keeps {playerId : String} {captured captured' : ConnectCaptured}
    {sess sess' : PvPSession} (hbelongs : Belongs S.pairing sess)
    (hm : markConnected playerId captured sess=.ok (captured',sess')) :
    Keeps S.pairing sess sess' := by
  unfold GoSession.markConnected at hm
  split at hm
  · cases hm
  · next hplayer =>
    have hplayer := isPlayer_of_belongs hbelongs (by simpa using hplayer)
    have hs : sess'=sess ∨
        sess'={sess with connectedPlayers := sess.connectedPlayers.append playerId} := by
      cases hc : sess.hasConnected playerId with
      | true =>
        simp only [hc,Bool.not_true,Bool.false_eq_true,if_false,Except.ok.injEq,
          Prod.mk.injEq] at hm
        exact .inl hm.2.symm
      | false =>
        simp only [PvPSession.markConnected,hc,Bool.not_false,Bool.false_eq_true,if_false,if_true,
          Except.ok.injEq,Prod.mk.injEq] at hm
        exact .inr hm.2.symm
    obtain rfl | rfl := hs
    · exact ⟨rfl,rfl,rfl,rfl,rfl,id,fun _ hp => .inl hp⟩
    · refine ⟨rfl,rfl,rfl,rfl,rfl,fun _ => rfl,fun player hp => ?_⟩
      have hp : player∈sess.connectedPlayers.elements ∨ player=playerId := by
        simpa [Slice.append,Slice.elements] using hp
      cases hp with
      | inl hp => exact .inl hp
      | inr hp => exact .inr (hp ▸ hplayer)

/-- A transaction that keeps the session, from the record of the world. -/
theorem keeps_moves (h : S.Upheld) {call : Call} {sess sess' : PvPSession}
    (hcall : call=.start ∨ ∃ player,call=.connect player ∨ call=.disconnect player)
    (hkeeps : Belongs S.pairing sess → Keeps S.pairing sess sess') :
    S.recordContract.Moves task
      (fun record => S.phase task .idle record ∧ record.value=some sess)
      (fun record => record.commit task call sess') (S.phase task .idle) := by
  intro count record ht hinv hA ha
  obtain ⟨sess₀,hs,hbelongs⟩ := h.stored hinv
  have he : sess₀=sess := Option.some.inj (hs.symm.trans hA.2)
  exact h.keeps task call sess sess' hcall (hkeeps (he ▸ hbelongs)) ht hinv hA ha

/-- handleConnect. -/
theorem handleConnect_spec (h : S.Upheld) (instance' : Instance) (playerId : String) :
    Walk S task .idle (handleConnect instance' playerId) := by
  have hidle := h.stable task .idle
  have ht : Transaction S task .idle (fun _ => .connect playerId) (markConnected playerId)
      (fun _ => True) (fun _ => True) fun _ => .idle := by
    apply idle_transaction h (by simp)
    intro captured sess captured' sess' hm
    exact keeps_moves h (.inr ⟨playerId,.inl rfl⟩) fun hbelongs => markConnected_keeps hbelongs hm
  unfold handleConnect
  apply Spec.bind h hidle (watchAndUpdate_spec h ht True.intro)
  intro result
  cases result with
  | error e =>
    cases e with
    | gameNotFound => exact send_neutral h hidle instance' playerId rfl
    | tooManyWatchRetries => exact done_idle h
    | mutator text => exact done_idle h
    | store => exact done_idle h
  | ok x =>
    apply settle fun _ hx => hx.1
    dsimp only
    split
    · apply Spec.bind h hidle
        (act_silent h hidle hidle (by simp) fun _ _ _ _ => ⟨rfl,⟨(),rfl⟩,rfl⟩)
      intro _
      apply Spec.bind h hidle (send_neutral h hidle instance' _ rfl)
      intro _
      exact promptWhileInProgress_spec h instance' x.2
    · exact done_idle h

/-- start. -/
theorem start_spec (h : S.Upheld) (instance' : Instance) :
    Walk S task .idle (start instance') := by
  have hidle := h.stable task .idle
  have ht : Transaction S task .idle (fun _ => .start) markStarted (fun _ => True)
      (fun _ => True) fun _ => .idle := by
    apply idle_transaction h (by simp)
    intro captured sess captured' sess' hm
    apply keeps_moves h (.inl rfl)
    intro _
    unfold markStarted at hm
    split at hm
    · cases hm
      exact ⟨rfl,rfl,rfl,rfl,rfl,id,fun _ hp => .inl hp⟩
    · split at hm <;> cases hm <;> exact ⟨rfl,rfl,rfl,rfl,rfl,id,fun _ hp => .inl hp⟩
  unfold start
  apply Spec.bind h hidle (watchAndUpdate_spec h ht True.intro)
  intro result
  cases result with
  | error e => exact done_idle h
  | ok x =>
    apply settle fun _ hx => hx.1
    dsimp only
    split
    · exact done_idle h
    · exact sendWaitingForAction_spec h instance' x.2

end Connecting

section Resolving

variable {report : TurnReport}

/-- The next message of an announcement. -/
theorem tell_spec (h : S.Upheld) (instance' : Instance) (player : String)
    (message : ServerMessage) (messages : List (String×ServerMessage)) :
    Spec S task (S.phase task (.telling ((player,message)::messages)))
      (send instance' player message) (fun _ => S.phase task (.telling messages))
      (S.phase task .idle) :=
  send_moves h (h.stable task .idle) _ (h.tell task player message messages)

/-- One message to each player. -/
theorem tellBoth_spec (h : S.Upheld) (instance' : Instance) (p1id p2id : String)
    (message₁ message₂ : ServerMessage) (messages : List (String×ServerMessage)) :
    Spec S task (S.phase task (.telling ((p1id,message₁)::(p2id,message₂)::messages)))
      (do
        send instance' p1id message₁
        send instance' p2id message₂)
      (fun _ => S.phase task (.telling messages)) (S.phase task .idle) := by
  apply Spec.bind h (h.stable task .idle) (tell_spec h instance' p1id message₁ _)
  exact fun _ => tell_spec h instance' p2id message₂ messages

/-- The pause and the next prompt. -/
theorem promptNextTurn_spec (h : S.Upheld) (instance' : Instance) (roundEnded : Bool) :
    Walk S task .idle (promptNextTurn instance' roundEnded) := by
  have hidle := h.stable task .idle
  unfold promptNextTurn
  apply Spec.bind h hidle
    (act_silent h hidle hidle (by simp) fun _ _ _ _ => ⟨rfl,⟨(),rfl⟩,rfl⟩)
  intro _
  apply Spec.bind h hidle (loadReturned_spec h .idle)
  intro result
  cases result with
  | error e => exact done_idle h
  | ok fresh => exact settle (fun _ hx => hx.1) (promptWhileInProgress_spec h instance' fresh)

/-- The end of an announcement: the match result or the next prompt. -/
theorem announceEnd_spec (h : S.Upheld) (instance' : Instance) (roundEnded : Bool)
    (matchResult : Option MatchResult) :
    Walk S task
      (.telling (matchResult.elim [] fun mr =>
        [(p1Of S.pairing,matchResultFor mr (p1Of S.pairing) (p1Of S.pairing)),
          (p2Of S.pairing,matchResultFor mr (p2Of S.pairing) (p1Of S.pairing))]))
      (match matchResult with
        | some mr => do
          send instance' (p1Of S.pairing) (matchResultFor mr (p1Of S.pairing) (p1Of S.pairing))
          send instance' (p2Of S.pairing) (matchResultFor mr (p2Of S.pairing) (p1Of S.pairing))
        | none => promptNextTurn instance' roundEnded) := by
  have htold : ∀ record,S.phase task (.telling []) record → S.phase task .idle record :=
    fun _ => h.untold.2.1 []
  cases matchResult with
  | none => exact settle htold (promptNextTurn_spec h instance' roundEnded)
  | some mr =>
    exact (tellBoth_spec h instance' _ _ _ _ []).consequence (fun _ ha => ha) (fun _ => htold)
      fun _ he => he

/-- What follows the commit of a resolution. -/
theorem concludeResolve_spec (h : S.Upheld) (instance' : Instance) {sess : PvPSession}
    (hbelongs : Belongs S.pairing sess) :
    Walk S task (.resolved report)
      (concludeResolve instance' ⟨report.turnResult,report.roundResult,report.matchResult⟩
        sess) := by
  have hidle := h.stable task .idle
  have hresolved := h.stable task (.resolved report)
  obtain ⟨turnResult,roundResult,matchResult⟩ := report
  unfold concludeResolve
  rw [hbelongs.1,hbelongs.2]
  apply Spec.bind h hidle
    (act_silent h hresolved hidle (by simp) fun _ _ _ _ => ⟨rfl,⟨(),rfl⟩,rfl⟩)
  intro _
  apply Spec.pre _ fun _ => h.announces
  apply Spec.bind h hidle
    (tell_spec h instance' (p1Of S.pairing) (turnResultForP1 turnResult) _)
  intro _
  apply Spec.bind h hidle
    (tell_spec h instance' (p2Of S.pairing) (turnResultForP2 turnResult) _)
  intro _
  cases roundResult with
  | none => exact announceEnd_spec h instance' false matchResult
  | some rr =>
    apply Spec.bind h hidle (tellBoth_spec h instance' (p1Of S.pairing) (p2Of S.pairing)
      (roundResultFor rr (p1Of S.pairing) (p1Of S.pairing))
      (roundResultFor rr (p2Of S.pairing) (p1Of S.pairing)) _)
    exact fun _ => announceEnd_spec h instance' true matchResult

/-- The turn that the captured variables of resolveTurn tell of. -/
def reported (captured : ResolveCaptured) : Phase :=
  .resolved ⟨captured.turnResult,captured.roundResult,captured.matchResult⟩

/-- The transaction of resolveTurn. -/
theorem resolve_transaction (h : S.Upheld) (p1 p2 : Action) :
    Transaction S task (.holding p1 p2) (fun _ => .resolve p1 p2) (applyTurn p1 p2)
      (fun _ => True) (fun _ => True) reported where
  captured _ _ _ _ := True.intro
  known _ _ := True.intro
  refused := by
    intro count record captured sess error hinv hp hv hm
    unfold GoSession.applyTurn at hm
    split at hm
    · next gameState e he =>
      have hrefused : (submitTurn sess.gameState p1 p2).2=.error e := by
        rw [he]
      exact h.refused hinv hp hv hrefused
    · cases hm
  commit := by
    intro captured sess captured' sess' _ hm
    unfold GoSession.applyTurn at hm
    split at hm
    · cases hm
    · next gameState report he =>
      cases hm
      exact h.resolve task p1 p2 sess gameState report he
  conflict captured retriesLeft := by
    have hm := h.resolveConflict task p1 p2 retriesLeft
    split at hm <;> split <;> first | exact hm | contradiction
  failing _ := rfl

/-- resolveTurn. -/
theorem resolveTurn_spec (h : S.Upheld) (instance' : Instance) (p1 p2 : Action) :
    Walk S task (.holding p1 p2) (GoSession.resolveTurn instance' p1 p2) := by
  unfold GoSession.resolveTurn
  apply Spec.bind h (h.stable task .idle)
    (watchAndUpdate_spec h (resolve_transaction h p1 p2) True.intro)
  intro result
  cases result with
  | error e => exact done_idle h
  | ok x =>
    rintro world ⟨hp,-,hbelongs⟩
    exact concludeResolve_spec h instance' hbelongs hp

end Resolving

section Submitting

/-- A failure after a submission has committed. -/
theorem concluded_afterFailure (captured : SubmitCaptured) :
    (concluded captured).afterFailure=.idle := by
  unfold concluded
  split <;> rfl

/-- submitAction after its transaction has committed. -/
theorem concludeSubmit_spec (h : S.Upheld) (instance' : Instance) (playerId : String)
    (action : Action) (captured : SubmitCaptured) :
    Walk S task (concluded captured) (concludeSubmit instance' playerId action captured) := by
  have hidle := h.stable task .idle
  obtain ⟨validationErr,shouldResolve,p1,p2,turn⟩ := captured
  unfold concludeSubmit concluded
  by_cases hv : validationErr=""
  · subst hv
    apply Spec.bind h hidle (send_neutral h hidle instance' playerId rfl)
    intro _
    cases shouldResolve with
    | true => exact resolveTurn_spec h instance' p1 p2
    | false => exact done_idle h
  · simp only [ne_eq,hv,not_false_eq_true,if_true,false_and,if_false]
    exact send_neutral h hidle instance' playerId rfl

/-- submitAction. -/
theorem submitAction_spec (h : S.Upheld) (instance' : Instance) {playerId : String}
    (hplayer : IsPlayer S.pairing playerId) (action : Action) :
    Walk S task .idle (submitAction instance' playerId action) := by
  have hidle := h.stable task .idle
  have ht : Transaction S task .idle (.submit playerId action) (storeAction playerId action)
      (S.captures action) (S.captures action) concluded := {
    captured := h.captured
    known := fun _ hK => hK
    refused := fun _ hidle _ _ => hidle
    commit := fun captured sess captured' sess' hK hm =>
      h.submit task playerId action captured sess captured' sess' hplayer hK hm
    conflict := fun captured retriesLeft => by
      have hm := h.conflict task (.submit playerId action captured) retriesLeft .idle (by simp)
        (by simp)
      simpa only [Phase.afterFailure,ite_self] using hm
    failing := concluded_afterFailure }
  unfold submitAction
  apply Spec.bind h hidle (watchAndUpdate_spec h ht (h.captures_zero action))
  intro result
  cases result with
  | error e =>
    cases e with
    | gameNotFound => exact send_neutral h hidle instance' playerId rfl
    | tooManyWatchRetries => exact send_neutral h hidle instance' playerId rfl
    | mutator text => exact send_neutral h hidle instance' playerId rfl
    | store => exact send_neutral h hidle instance' playerId rfl
  | ok x =>
    exact (concludeSubmit_spec h instance' playerId action x.1).pre fun _ hx => hx.1

end Submitting

section Timers

/-- The action of a player who has missed his turn. -/
theorem submitDefault_spec (h : S.Upheld) (instance' : Instance) (needs : Bool)
    {playerId : String} (hplayer : IsPlayer S.pairing playerId) :
    Walk S task .idle (submitDefault instance' needs playerId) := by
  unfold submitDefault
  split
  · exact submitAction_spec h instance' hplayer _
  · exact done_idle h

/-- turnTimeoutLoop. -/
theorem turnTimeoutLoop_spec (h : S.Upheld) (instance' : Instance) :
    Walk S task .idle (turnTimeoutLoop instance') := by
  have hidle := h.stable task .idle
  unfold turnTimeoutLoop
  apply Spec.bind h hidle
    (act_silent h hidle hidle (by simp) fun _ _ _ _ => ⟨rfl,⟨_,rfl⟩,rfl⟩)
  intro passed
  split
  · exact done_idle h
  · apply Spec.bind h hidle (loadReturned_spec h .idle)
    intro result
    cases result with
    | error e => exact done_idle h
    | ok sess =>
      rintro world ⟨hp,hbelongs⟩
      have hrest : Walk S task .idle
          (if sess.gameState.status≠matchInProgress then pure ()
            else do
              submitDefault instance' sess.p1Action.isNone sess.player1Id
              submitDefault instance' sess.p2Action.isNone sess.player2Id) := by
        split
        · exact done_idle h
        · apply Spec.bind h hidle (submitDefault_spec h instance' _ (.inl hbelongs.1))
          intro _
          exact submitDefault_spec h instance' _ (.inr hbelongs.2)
      exact hrest hp

/-- The two players have different identifiers. -/
theorem players_distinct (pairing : GameStore.Pairing) : p1Of pairing≠p2Of pairing :=
  fun he => pairing.distinct (Identifiers.text_injective he)

/-- The opponent of the player who is gone is always told that he has won. -/
theorem forfeitResult_you {disconnected opponent : String} {sess : PvPSession}
    (hopposes : Opposes S.pairing disconnected opponent)
    (hbelongs : Belongs S.pairing sess) :
    forfeitResult disconnected opponent sess=.matchResult "you" sess.gameState.roundsWonP1
      sess.gameState.roundsWonP2 (forfeitTurns sess.gameState) := by
  have hp : p1Of S.pairing≠p2Of S.pairing := players_distinct S.pairing
  have hlabel : winnerLabelFor (forfeitWinner disconnected sess) opponent sess.player1Id="you" := by
    unfold forfeitWinner
    rw [hbelongs.1,hbelongs.2]
    obtain ⟨rfl,rfl⟩ | ⟨rfl,rfl⟩ := hopposes
    · rw [if_neg hp]
      simp [winnerLabelFor,winnerDraw,winnerP2,winnerP1,hp.symm]
    · rw [if_pos rfl]
      simp [winnerLabelFor,winnerDraw,winnerP1]
  unfold forfeitResult
  rw [hlabel]

/-- The forfeit and its announcement. -/
theorem writeForfeit_spec (h : S.Upheld) (instance' : Instance) {disconnected opponent : String}
    {sess : PvPSession} (hopposes : Opposes S.pairing disconnected opponent)
    (hbelongs : Belongs S.pairing sess) :
    Walk S task (.forfeiting opponent) (writeForfeit instance' disconnected opponent sess) := by
  have hidle := h.stable task .idle
  have ht : Transaction S task (.forfeiting opponent) (fun _ => .forfeit disconnected)
      markAbandoned (fun _ => True) (fun _ => True) fun _ => .forfeiting opponent := {
    captured := fun _ _ _ _ => True.intro
    known := fun _ _ => True.intro
    refused := fun _ hp _ _ => hp
    commit := fun captured sess captured' sess' _ hm => by
      cases hm
      exact h.forfeit task disconnected opponent sess hopposes
    conflict := fun captured retriesLeft => by
      have hm := h.conflict task (.forfeit disconnected) retriesLeft (.forfeiting opponent)
        (by simp) (by simp)
      simpa only [Phase.afterFailure,ite_self] using hm
    failing := fun _ => rfl }
  unfold writeForfeit
  apply Spec.bind h hidle (watchAndUpdate_spec h ht True.intro)
  intro result
  rw [forfeitResult_you hopposes hbelongs]
  have hsend := send_moves h hidle instance' (h.informOpponent task opponent
    sess.gameState.roundsWonP1 sess.gameState.roundsWonP2 (forfeitTurns sess.gameState))
  cases result with
  | error e => exact hsend
  | ok x => exact hsend.pre fun _ hx => hx.1

/-- forfeitAfterTimeout. -/
theorem forfeitAfterTimeout_spec (h : S.Upheld) (instance' : Instance)
    {disconnected opponent : String} (hopposes : Opposes S.pairing disconnected opponent) :
    Walk S task (.forfeiting opponent)
      (forfeitAfterTimeout instance' disconnected opponent) := by
  have hidle := h.stable task .idle
  have hforfeiting := h.stable task (.forfeiting opponent)
  have hdone : Walk S task (.forfeiting opponent) (pure ()) :=
    settle (fun _ => h.untold.2.2 opponent) (done_idle h)
  unfold forfeitAfterTimeout
  apply Spec.bind h hidle
    (act_silent h hforfeiting hidle (by simp) fun _ _ _ _ => ⟨rfl,⟨_,rfl⟩,rfl⟩)
  intro passed
  split
  · exact hdone
  · apply Spec.bind h hidle (loadReturned_spec h (.forfeiting opponent))
    intro result
    cases result with
    | error e => exact hdone
    | ok sess =>
      rintro world ⟨hp,hbelongs⟩
      dsimp only
      split
      · exact hdone hp
      · split
        · exact hdone hp
        · exact writeForfeit_spec h instance' hopposes hbelongs hp

end Timers

section Sockets

/-- The opponent that handleDisconnect picks is the other player. -/
theorem opponentOf_opposes {playerId : String} {sess : PvPSession}
    (hplayer : IsPlayer S.pairing playerId) (hbelongs : Belongs S.pairing sess) :
    Opposes S.pairing playerId (opponentOf playerId sess) := by
  unfold opponentOf
  rw [hbelongs.1,hbelongs.2]
  obtain rfl | rfl := hplayer
  · exact .inl ⟨rfl,if_pos rfl⟩
  · exact .inr ⟨rfl,if_neg (players_distinct S.pairing).symm⟩

/-- Marking a player as disconnected keeps the session otherwise. -/
theorem markDisconnected_keeps (playerId : String) (sess : PvPSession) :
    Keeps S.pairing sess {sess with
      connectedPlayers := sess.connectedPlayers.map fun players =>
        players.filter fun c => c≠playerId} := by
  refine ⟨rfl,rfl,rfl,rfl,rfl,fun hsome => by simpa using hsome,fun player hp => .inl ?_⟩
  cases hc : sess.connectedPlayers with
  | none => simp [hc,Slice.elements] at hp
  | some players =>
    simp only [hc,Slice.elements,Option.map_some,Option.getD_some,List.mem_filter] at hp ⊢
    exact hp.1

/-- handleDisconnect. -/
theorem handleDisconnect_spec (h : S.Upheld) (instance' : Instance) {playerId : String}
    (hplayer : IsPlayer S.pairing playerId) :
    Walk S task .idle (handleDisconnect instance' playerId) := by
  have hidle := h.stable task .idle
  have ht : Transaction S task .idle (fun _ => .disconnect playerId) (markDisconnected playerId)
      (fun _ => True) (Opposes S.pairing playerId) fun _ => .idle := {
    captured := fun hinv hv _ hm => by
      obtain ⟨sess₀,hs,hbelongs⟩ := h.stored hinv
      cases hv.symm.trans hs
      cases hm
      exact opponentOf_opposes hplayer hbelongs
    known := fun _ _ => True.intro
    refused := fun _ hidle _ _ => hidle
    commit := fun captured sess captured' sess' _ hm => by
      apply keeps_moves h (.inr ⟨playerId,.inr rfl⟩)
      intro _
      cases hm
      exact markDisconnected_keeps playerId sess
    conflict := fun captured retriesLeft => by
      have hm := h.conflict task (.disconnect playerId) retriesLeft .idle (by simp) (by simp)
      simpa only [Phase.afterFailure,ite_self] using hm
    failing := fun _ => rfl }
  unfold handleDisconnect
  apply Spec.bind h hidle (watchAndUpdate_spec h ht True.intro)
  intro result
  cases result with
  | error e => exact done_idle h
  | ok x =>
    rintro world ⟨hp,hopposes,-⟩
    refine Spec.bind h hidle
      (act_silent h hidle hidle (by simp) fun _ _ _ _ => ⟨rfl,⟨(),rfl⟩,rfl⟩) ?_ hp
    intro _
    apply Spec.bind h hidle (send_neutral h hidle instance' x.1 rfl)
    intro _
    exact act_starts h (.forfeitAfterTimeout instance' playerId x.1) (by simp)
      (fun _ _ _ _ => ⟨rfl,⟨(),rfl⟩,rfl⟩) hopposes

/-- What a message leads to. -/
theorem handleMessage_spec (h : S.Upheld) (instance' : Instance) {playerId : String}
    (hplayer : IsPlayer S.pairing playerId) (frame : Frame) :
    Walk S task .idle (handleMessage instance' playerId frame) := by
  have hidle := h.stable task .idle
  have hwrite : ∀ message,Walk S task .idle (act (.writeJSON message)) := fun message =>
    act_silent h hidle hidle (by simp) fun _ _ _ _ => ⟨rfl,⟨(),rfl⟩,rfl⟩
  cases frame with
  | submitAction action =>
    unfold handleMessage
    dsimp only
    split
    · exact hwrite _
    · exact submitAction_spec h instance' hplayer action
  | ping => exact hwrite _
  | other => exact done_idle h
  | malformed => exact done_idle h

/-- The read loop, by induction on the frames. -/
theorem readLoop_spec (h : S.Upheld) (instance' : Instance) {playerId : String}
    (hplayer : IsPlayer S.pairing playerId) (frames : List Frame) :
    Walk S task .idle (readLoop instance' playerId frames) := by
  have hidle := h.stable task .idle
  induction frames with
  | nil =>
    apply Spec.bind h hidle (readMessage_idle h none)
    exact fun _ => handleDisconnect_spec h instance' hplayer
  | cons frame frames ih =>
    unfold readLoop
    apply Spec.bind h hidle (readMessage_idle h (some frame))
    intro _
    apply Spec.bind h hidle (handleMessage_spec h instance' hplayer frame)
    exact fun _ => ih

/-- gameWebsocket. -/
theorem gameWebsocket_spec (h : S.Upheld) (instance' : Instance) (playerId : String)
    (frames : List Frame) : Walk S task .idle (gameWebsocket instance' playerId frames) := by
  have hidle := h.stable task .idle
  unfold gameWebsocket
  apply Spec.bind h hidle (loadReturned_spec h .idle)
  intro result
  cases result with
  | error e => exact done_idle h
  | ok sess =>
    rintro world ⟨hp,hbelongs⟩
    dsimp only
    split
    · exact done_idle h hp
    · next hmember =>
      have hplayer := isPlayer_of_belongs hbelongs (by simpa using hmember)
      refine Spec.bind h hidle
        (act_silent h hidle hidle (by simp) fun _ _ _ _ => ⟨rfl,⟨_,rfl⟩,rfl⟩) ?_ hp
      intro upgraded
      split
      · exact done_idle h
      · apply Spec.bind h hidle (handleConnect_spec h instance' playerId)
        intro _
        apply Spec.bind h hidle (start_spec h instance')
        exact fun _ => readLoop_spec h instance' hplayer frames

end Sockets

/-- Every goroutine of the instances is safe, so an upheld contract is verified. -/
theorem verified (h : S.Upheld) : S.recordContract.contract.Verified := by
  apply (laws h).tracks.verified
  intro task count entry world _ _ hentry
  have hbody : Walk S task (firstPhase entry) (body entry) := by
    cases entry with
    | gameWebsocket instance' player frames => exact gameWebsocket_spec h instance' player frames
    | turnTimeoutLoop instance' => exact turnTimeoutLoop_spec h instance'
    | forfeitAfterTimeout instance' disconnected opponent =>
      exact forfeitAfterTimeout_spec h instance' hentry.2
  apply (hbody hentry.1).mono
  intro r world hr
  cases r <;> exact hr

/-- In every run whose record is allowed, every goroutine stays safe. -/
theorem good (h : S.Upheld) (hinitial : S.inv 0 ⟨some (goSession S.pairing.session),[]⟩)
    {config : instances.Config} (hrun : (initial S.pairing).Reaches config)
    (ha : S.allowed config.world.trace) : S.recordContract.contract.Good config := by
  obtain ⟨moves,hmoves⟩ := hrun
  have hstart : S.recordContract.contract.Good (initial S.pairing) := by
    refine ⟨hinitial,fun task p hp => ?_⟩
    cases hp
  exact hstart.run (verified h) hmoves ha

/-- The goroutine has ended or waits for its client, so nothing it has begun is
left undone. -/
def Rests (config : instances.Config) (task : GoroutineId) : Prop :=
  match config.tasks[task]? with
  | some (.op (.act (.readMessage _)) _) => True
  | some (.op _ _) => False
  | _ => True

instance (config : instances.Config) (task : GoroutineId) : Decidable (Rests config task) := by
  unfold Rests
  split <;> infer_instance

/-- A goroutine that rests is idle. -/
theorem rests_idle (h : S.Upheld) {config : instances.Config}
    (hgood : S.recordContract.contract.Good config) (hlt : task<config.tasks.length)
    (hrests : Rests config task) : S.phase task .idle config.world.record := by
  have hv := verified h
  unfold Rests at hrests
  cases ht : config.tasks[task]? with
  | none =>
    exact absurd hlt (Nat.not_lt.mpr (List.getElem?_eq_none_iff.mp ht))
  | some p =>
    rw [ht] at hrests
    cases p with
    | done r => exact hgood.finish hv ht
    | op o next =>
      cases o with
      | store o => exact absurd hrests id
      | act o =>
        cases o with
        | readMessage frame => exact hgood.ready hv ht ⟨frame,rfl⟩
        | _ => exact absurd hrests id

end KiClash.GoSessionSafety
