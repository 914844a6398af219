import KiClash.EngineRuns
import KiClash.GoChronicle
import KiClash.SessionFormat

/-!
# When the Go server stays inside the shared session format

An action is a text for Go, and a text that names no action costs the zero
value of a missing key, so a player can pay for it. If no such submission meets
an open round, everything that Go writes is the image of a Python session, and
Python reads it.
-/

namespace KiClash.SharedFormat

open EngineTypes Engine EngineRuns EngineSimulation Histories AsyncTasks WatchedKey RecordContracts
open RecordedTasks
open GameStore (Pairing PvPSessionState)
open GoStore GoSession GoSessionContracts GoSessionContracts.SessionContract GoSessionSafety
open GoPendingPairs
open GoChronicle (Follows chronicle sessionAfter)
open SessionFormat (InBounds inBounds_of_session marshalSession pvpSessionState session_marshal)

/-- The text names one of the five actions. -/
def Known (action : GoTypes.Action) : Prop := ∃ a : Action,action=a.value

/-- A text that is read as an action names one, and no other text does. -/
theorem known_iff {action : GoTypes.Action} : Known action ↔ Action.ofValue? action≠none := by
  constructor
  · rintro ⟨a,rfl⟩
    rw [Action.ofValue?_value]
    exact Option.some_ne_none a
  · intro h
    obtain ⟨a,ha⟩ := Option.ne_none_iff_exists'.mp h
    exact ⟨a,(Action.value_of_ofValue? ha).symm⟩

/-- submitAction refuses the action and leaves the session. -/
def Refuses (player : String) (action : GoTypes.Action) (stale : GoStore.SubmitCaptured)
    (before after : GoTypes.PvPSession) : Prop :=
  ∃ captured,storeAction player action stale before=.ok (captured,after) ∧
    captured.validationErr≠"" ∧ after=before

/-- The Python side reads what has been written, and it is the session meant. -/
def Readable (sess : GoTypes.PvPSession) : Prop :=
  ∃ session : PvPSessionState,sess=goSession session ∧
    ∀ uuid4,pvpSessionState uuid4 (marshalSession sess)=some session

/-- A transaction writes what Python reads, and a submission of an unknown action
is refused. -/
def InFormat : GoStore.Event → Prop
  | .commit _ call before after => Readable after ∧
    match call with
    | .submit player action stale =>
      Action.ofValue? action=none → Refuses player action stale before after
    | _ => True
  | _ => True

/-- No submission with an unknown action meets an open round. -/
def Guarded (_ : List GoStore.Event) : GoStore.Event → Prop
  | .commit _ (.submit _ action _) before _ =>
    Action.ofValue? action=none → openRound before=none
  | _ => True

instance (earlier : List GoStore.Event) : ∀ event : GoStore.Event,Decidable (Guarded earlier event)
  | .commit _ (.submit _ action _) before _ =>
    inferInstanceAs (Decidable (Action.ofValue? action=none → openRound before=none))
  | .commit _ (.connect _) _ _ | .commit _ .start _ _ | .commit _ (.disconnect _) _ _
  | .commit _ (.resolve _ _) _ _ | .commit _ (.forfeit _) _ _ | .conflict _ _ _ | .deleted _
  | .loaded _ _ | .note _ => instDecidableTrue

section Sessions

/-- A session of the pairing whose match the engine has played, or has played
before it was abandoned. -/
structure Sound (pairing : Pairing) (session : PvPSessionState) : Prop where
  /-- The match. -/
  played : ∃ state accepted,MatchInvariant state accepted ∧
    (session.gameState=state ∨ session.gameState={state with status := .abandoned})
  /-- Player 1. -/
  player1Id : session.player1Id=pairing.player1Id
  /-- Player 2. -/
  player2Id : session.player2Id=pairing.player2Id

/-- The stored session is the image of such a session. -/
def Stored (pairing : Pairing) (sess : GoTypes.PvPSession) : Prop :=
  ∃ session,sess=goSession session ∧ Sound pairing session

variable {pairing : Pairing} {sess sess' : GoTypes.PvPSession} {session : PvPSessionState}

/-- A match that the engine has played is within its bounds. -/
theorem inBounds_of_invariant {state : GameState} {accepted : ℕ}
    (h : MatchInvariant state accepted) : InBounds state := by
  have h₁ : 0≤ state.roundsWonP1 := by
    rw [h.p1Score]
    omega
  have h₂ : 0≤ state.roundsWonP2 := by
    rw [h.p2Score]
    omega
  constructor
  · exact ⟨⟨h₁,h.p1AtMostTwo⟩,h₂,h.p2AtMostTwo⟩
  · intro round hr
    have hround := h.openRound round hr
    have hnumbered := hround.numbered
    have hrecorded := hround.recorded
    have hfirst : 1≤round.roundNumber := by omega
    have hturns : 0≤round.turnNumber := by omega
    exact ⟨⟨hfirst,hround.atMostThree⟩,hround.p1Ki,hround.p2Ki,hturns⟩

/-- Python reads every sound session. -/
theorem Stored.readable (h : Stored pairing sess) : Readable sess := by
  obtain ⟨session,rfl,hsound⟩ := h
  have hbounds : InBounds session.gameState := by
    obtain ⟨state,accepted,hinv,hs | hs⟩ := hsound.played
    · rw [hs]
      exact inBounds_of_invariant hinv
    · have hstate := inBounds_of_invariant hinv
      rw [hs]
      exact ⟨hstate.score,hstate.round⟩
  exact ⟨session,rfl,session_marshal hbounds⟩

/-- The session of a pairing is sound. -/
theorem stored_initial (pairing : Pairing) : Stored pairing (goSession pairing.session) :=
  ⟨pairing.session,rfl,⟨_,0,startMatch_invariant pairing.gameId .pvp,.inl rfl⟩,rfl,rfl⟩

/-- A sound session belongs to the two players. -/
theorem Stored.belongs (h : Stored pairing sess) : Belongs pairing sess := by
  obtain ⟨session,rfl,hsound⟩ := h
  exact ⟨congrArg UUID.text hsound.player1Id,congrArg UUID.text hsound.player2Id⟩

/-- Names of players are texts of identifiers. -/
theorem ids_of_texts {texts : List String} (h : ∀ text∈texts,∃ id : UUID,text=id.text) :
    ∃ ids : List UUID,texts=ids.map UUID.text := by
  induction texts with
  | nil => exact ⟨[],rfl⟩
  | cons text texts ih =>
    obtain ⟨id,rfl⟩ := h text List.mem_cons_self
    obtain ⟨ids,rfl⟩ := ih fun text' hin => h text' (List.mem_cons_of_mem _ hin)
    exact ⟨id::ids,rfl⟩

/-- Connections, disconnections and the start keep a session sound. -/
theorem Stored.keeps (h : Stored pairing sess) (hkeeps : Keeps pairing sess sess') :
    Stored pairing sess' := by
  obtain ⟨session,rfl,hsound⟩ := h
  have hsome := hkeeps.connected rfl
  obtain ⟨players,hplayers⟩ := Option.isSome_iff_exists.mp hsome
  have htexts : ∀ text∈players,∃ id : UUID,text=id.text := by
    intro text hin
    obtain hold | hnew := hkeeps.present text (by rw [hplayers]; exact hin)
    · obtain ⟨id,-,rfl⟩ := List.mem_map.mp hold
      exact ⟨id,rfl⟩
    · cases hnew with
      | inl h₁ => exact ⟨_,h₁⟩
      | inr h₂ => exact ⟨_,h₂⟩
  obtain ⟨ids,hids⟩ := ids_of_texts htexts
  refine ⟨{session with connectedPlayers := ids,started := sess'.started},?_,
    hsound.played,hsound.player1Id,hsound.player2Id⟩
  obtain ⟨gameState,player1Id,player2Id,connectedPlayers,started,p1Action,p2Action⟩ := sess'
  obtain ⟨hgame,hp₁,hp₂,ha₁,ha₂,-,-⟩ := hkeeps
  cases hplayers
  cases hids
  cases hgame
  cases hp₁
  cases hp₂
  cases ha₁
  cases ha₂
  rfl

/-- Storing a known action keeps a session sound. -/
theorem Stored.storeInSlot (h : Stored pairing sess) (player : String) (a : Action) :
    Stored pairing (GoPendingPairs.storeInSlot player a.value sess) := by
  obtain ⟨session,rfl,hsound⟩ := h
  unfold GoPendingPairs.storeInSlot
  split
  · exact ⟨{session with p1Action := some a},rfl,hsound.played,hsound.player1Id,hsound.player2Id⟩
  · exact ⟨{session with p2Action := some a},rfl,hsound.played,hsound.player1Id,hsound.player2Id⟩

/-- So does taking a pair out. -/
theorem Stored.cleared (h : Stored pairing sess) : Stored pairing (cleared sess) := by
  obtain ⟨session,rfl,hsound⟩ := h
  exact ⟨{session with p1Action := none,p2Action := none},rfl,hsound.played,hsound.player1Id,
    hsound.player2Id⟩

/-- What is pending in a sound session is known. -/
theorem Stored.known (h : Stored pairing sess) :
    (∀ p1,sess.p1Action=some p1 → Known p1) ∧ ∀ p2,sess.p2Action=some p2 → Known p2 := by
  obtain ⟨session,rfl,-⟩ := h
  have hslot : ∀ (slot : Option Action) text,slot.map Action.value=some text → Known text := by
    intro slot text ht
    obtain ⟨a,-,ha⟩ := Option.map_eq_some_iff.mp ht
    exact ⟨a,ha.symm⟩
  exact ⟨hslot session.p1Action,hslot session.p2Action⟩

/-- Resolving a turn with known actions keeps a session sound. -/
theorem Stored.resolve (h : Stored pairing sess) {p1 p2 : GoTypes.Action} (h₁ : Known p1)
    (h₂ : Known p2) {gameState : GoTypes.GameState} {report : GoEngine.TurnReport}
    (hsubmit : GoEngine.submitTurn sess.gameState p1 p2=(gameState,.ok report)) :
    Stored pairing {sess with gameState := gameState} := by
  obtain ⟨session,rfl,hsound⟩ := h
  obtain ⟨a₁,rfl⟩ := h₁
  obtain ⟨a₂,rfl⟩ := h₂
  obtain ⟨hstate,hagree⟩ := submitTurn_value session.gameState a₁ a₂
  change GoEngine.submitTurn (goGameState session.gameState) a₁.value a₂.value=_ at hsubmit
  rw [hsubmit] at hstate hagree
  obtain ⟨e,he,-⟩ | ⟨hs,round,state',report',-,-,he,haccepted⟩ :=
    submitTurn_cases session.gameState a₁ a₂
  · rw [he] at hagree
    exact hagree.elim
  · rw [he] at hstate
    obtain ⟨state,accepted,hinv,hstate' | hstate'⟩ := hsound.played
    · rw [hstate'] at hs haccepted
      refine ⟨{session with gameState := state'},?_,
        ⟨state',accepted+1,haccepted.invariant hinv hs,.inl rfl⟩,hsound.player1Id,hsound.player2Id⟩
      exact congrArg (fun gs => {goSession session with gameState := gs}) hstate
    · rw [hstate'] at hs
      cases hs

/-- A forfeit keeps a session sound. -/
theorem Stored.forfeit (h : Stored pairing sess) :
    Stored pairing
      {sess with gameState := {sess.gameState with status := GoTypes.matchAbandoned}} := by
  obtain ⟨session,rfl,hsound⟩ := h
  refine ⟨{session with gameState := {session.gameState with status := .abandoned}},rfl,?_,
    hsound.player1Id,hsound.player2Id⟩
  obtain ⟨state,accepted,hinv,hs | hs⟩ := hsound.played
  · exact ⟨state,accepted,hinv,.inr (by rw [hs])⟩
  · exact ⟨state,accepted,hinv,.inr (by rw [hs])⟩

end Sessions

section Contract

/-- Every transaction so far is in the format, and so is the stored session. -/
structure FormatInvariant (pairing : Pairing) (record : SessionRecord) : Prop where
  /-- The stored session. -/
  stored : ∃ sess,record.value=some sess ∧ Stored pairing sess
  /-- The transactions. -/
  written : ∀ event∈record.trace,InFormat event

/-- A goroutine only ever holds known actions. -/
def HoldsKnown : Phase → Prop
  | .holding p1 p2 => Known p1 ∧ Known p2
  | _ => True

/-- A pair that a submission of a known action has taken out is known. -/
def TakesKnown (action : GoTypes.Action) (captured : GoStore.SubmitCaptured) : Prop :=
  Known action → captured.shouldResolve=true →
    Known captured.p1ToResolve ∧ Known captured.p2ToResolve

/-- The contract behind the format. -/
def formatContract (pairing : Pairing) : SessionContract where
  pairing := pairing
  allowed := Meets Guarded
  inv _ := FormatInvariant pairing
  expects _ _ _ := True
  phase _ phase _ := HoldsKnown phase
  captures := TakesKnown

variable {pairing : Pairing} {record : SessionRecord} {task : GoroutineId} {call : Call}
  {sess sess' : GoTypes.PvPSession} {phase : Phase}

/-- An event that is no transaction keeps the format. -/
theorem FormatInvariant.logged (h : FormatInvariant pairing record) {event : GoStore.Event}
    (hevent : InFormat event) : FormatInvariant pairing (record.log event) where
  stored := h.stored
  written := by
    intro event' hin
    rcases List.mem_append.mp hin with hin | hin
    · exact h.written event' hin
    · rw [List.mem_singleton.mp hin]
      exact hevent

/-- A transaction that keeps the session sound keeps the format. -/
theorem FormatInvariant.committed (h : FormatInvariant pairing record)
    (hv : record.value=some sess) (hstored : Stored pairing sess')
    (hevent : InFormat (.commit task call sess sess')) :
    FormatInvariant pairing (record.commit task call sess') := by
  rw [record.commit_of_value hv]
  refine ⟨⟨sess',rfl,hstored⟩,fun event hin => ?_⟩
  rcases List.mem_append.mp hin with hin | hin
  · exact h.written event hin
  · rw [List.mem_singleton.mp hin]
    exact hevent

/-- The stored session is sound. -/
theorem FormatInvariant.value (h : FormatInvariant pairing record)
    (hv : record.value=some sess) : Stored pairing sess := by
  obtain ⟨sess',hv',hstored⟩ := h.stored
  cases hv.symm.trans hv'
  exact hstored

/-- An event that is no transaction moves a goroutine on. -/
theorem log_moves {A B : SessionRecord → Prop} {event : GoStore.Event} (hevent : InFormat event)
    (hB : ∀ {record record'},A record → B record') :
    (formatContract pairing).recordContract.Moves task A (fun record => record.log event) B := by
  intro count record _ hinv ha _
  have hformat : FormatInvariant pairing record := hinv
  exact ⟨hformat.logged hevent,fun _ _ => True.intro,hB ha⟩

/-- A transaction other than a submission moves a goroutine on. -/
theorem commit_moves {A B : SessionRecord → Prop}
    (hcall : ∀ player action stale,call≠.submit player action stale)
    (hstored : ∀ record,A record → Stored pairing sess → Stored pairing sess')
    (hA : ∀ record,A record → record.value=some sess) (hB : ∀ record,B record) :
    (formatContract pairing).recordContract.Moves task A
      (fun record => record.commit task call sess') B := by
  intro count record _ hinv ha _
  have hformat : FormatInvariant pairing record := hinv
  have hv := hA record ha
  have hs := hstored record ha (hformat.value hv)
  have hevent : InFormat (.commit task call sess sess') := by
    refine ⟨hs.readable,?_⟩
    cases call with
    | submit player action stale => exact absurd rfl (hcall player action stale)
    | connect | start | disconnect | resolve | forfeit => exact True.intro
  exact ⟨hformat.committed hv hs hevent,fun _ _ => True.intro,hB _⟩

/-- An attempt of a known action captures known actions. -/
theorem TakesKnown.attempt {player : String} {action : GoTypes.Action}
    {stale captured : GoStore.SubmitCaptured} (h : TakesKnown action stale)
    (hstored : Stored pairing sess)
    (hm : storeAction player action stale sess=.ok (captured,sess')) :
    TakesKnown action captured := by
  intro hknown hresolve
  cases storeAction_cases hm with
  | rejected message hmessage hreject => exact h hknown hresolve
  | stored cr haccept hpair => exact h hknown hresolve
  | completed cr p1 p2 haccept h₁ h₂ hpair =>
    obtain ⟨a,rfl⟩ := hknown
    obtain ⟨hk₁,hk₂⟩ := (hstored.storeInSlot player a).known
    exact ⟨hk₁ p1 h₁,hk₂ p2 h₂⟩

/-- What submitAction concludes from known actions. -/
theorem holdsKnown_concluded {captured : GoStore.SubmitCaptured}
    (h : captured.validationErr="" → captured.shouldResolve=true →
      Known captured.p1ToResolve ∧ Known captured.p2ToResolve) :
    HoldsKnown (concluded captured) := by
  unfold concluded
  split
  · next hc => exact h hc.1 hc.2
  · exact True.intro

/-- A guarded submission keeps the format. -/
theorem submit_moves {player : String} {action : GoTypes.Action}
    {stale captured : GoStore.SubmitCaptured} (hcaptures : TakesKnown action stale)
    (hm : storeAction player action stale sess=.ok (captured,sess')) :
    (formatContract pairing).recordContract.Moves task
      (fun record => HoldsKnown .idle ∧ record.value=some sess)
      (fun record => record.commit task (.submit player action stale) sess')
      (fun _ => HoldsKnown (concluded captured)) := by
  intro count record _ hinv ha hallowed
  have hformat : FormatInvariant pairing record := hinv
  have hv := ha.2
  have hs := hformat.value hv
  have hguard : Action.ofValue? action=none → openRound sess=none := meets_commit hv hallowed
  have hfinish : Stored pairing sess' → (Action.ofValue? action=none →
      Refuses player action stale sess sess') →
      HoldsKnown (concluded captured) →
      FormatInvariant pairing (record.commit task (.submit player action stale) sess') ∧
        (∀ other,other≠task → True) ∧ HoldsKnown (concluded captured) :=
    fun hs' hrefuses hconcluded =>
      ⟨hformat.committed hv hs' ⟨hs'.readable,hrefuses⟩,fun _ _ => True.intro,hconcluded⟩
  by_cases hknown : Known action
  · have hsome := known_iff.mp hknown
    have hsound : Stored pairing sess' := by
      obtain ⟨a,rfl⟩ := hknown
      cases storeAction_cases hm with
      | rejected => exact hs
      | stored => exact hs.storeInSlot player a
      | completed => exact (hs.storeInSlot player a).cleared
    exact hfinish hsound (fun hnone => absurd hnone hsome)
      (holdsKnown_concluded fun _ hr => hcaptures.attempt hs hm hknown hr)
  · -- an unknown action has met no open round
    have hnone : Action.ofValue? action=none := by
      by_contra hsome
      exact hknown (known_iff.mpr hsome)
    have hclosed := hguard hnone
    have hopen : ∀ {cr},acceptingRound player action sess≠some cr := by
      intro cr haccept
      rw [(acceptingRound_eq_some.mp haccept).1] at hclosed
      cases hclosed
    cases storeAction_cases hm with
    | rejected message hmessage hreject =>
      exact hfinish hs (fun _ => ⟨_,hm,hmessage,rfl⟩)
        (holdsKnown_concluded fun he _ => absurd he hmessage)
    | stored cr haccept hpair => exact absurd haccept hopen
    | completed cr p1 p2 haccept h₁ h₂ hpair => exact absurd haccept hopen

/-- Whatever the code appends to a guarded record keeps the format. -/
theorem upheld (pairing : Pairing) : (formatContract pairing).Upheld where
  expects_refl _ _ := True.intro
  expects_trans _ _ _ _ _ _ := True.intro
  allowed_prefix := Meets.before
  stable _ _ _ _ _ h := h
  stored hinv := by
    have hformat : FormatInvariant pairing _ := hinv
    obtain ⟨sess,hv,hs⟩ := hformat.stored
    exact ⟨sess,hv,hs.belongs⟩
  untold := ⟨fun _ _ => True.intro,fun _ _ => True.intro,fun _ _ => True.intro⟩
  announces _ := True.intro
  starts := by
    intro count entry record hinv _
    have hformat : FormatInvariant pairing record := hinv
    refine ⟨hformat.logged True.intro,fun _ => True.intro,?_⟩
    cases entry <;> exact True.intro
  loaded _ _ _ _ hinv _ _ := ⟨FormatInvariant.logged hinv True.intro,fun _ => True.intro⟩
  sent _ _ _ _ _ _ hinv _ _ := ⟨FormatInvariant.logged hinv True.intro,fun _ => True.intro⟩
  received _ _ _ _ hinv _ _ := ⟨FormatInvariant.logged hinv True.intro,fun _ => True.intro⟩
  failed task phase exc := by
    refine log_moves True.intro fun hp => ?_
    cases phase <;> exact True.intro
  conflict _ _ _ _ _ _ := log_moves True.intro fun h => h
  resolveConflict task p1 p2 retriesLeft := by
    refine log_moves True.intro fun hp => ?_
    split
    · exact True.intro
    · exact hp
  keeps task call sess sess' hcall hkeeps := by
    refine commit_moves ?_ (fun _ _ hs => hs.keeps hkeeps) (fun _ h => h.2) fun _ => True.intro
    rintro player action stale rfl
    obtain he | ⟨player',he | he⟩ := hcall <;> cases he
  captures_zero _ _ h := nomatch h
  captured := by
    intro count record player action captured sess captured' sess' hinv hv hcaptures hm
    have hformat : FormatInvariant pairing record := hinv
    exact TakesKnown.attempt hcaptures (hformat.value hv) hm
  submit _ _ _ _ _ _ _ _ hcaptures hm := submit_moves hcaptures hm
  resolve task p1 p2 sess gameState report hsubmit := by
    refine commit_moves (fun _ _ _ h => nomatch h) (fun record hp hs => ?_) (fun _ h => h.2)
      fun _ => True.intro
    exact hs.resolve hp.1.1 hp.1.2 hsubmit
  refused _ _ _ _ := True.intro
  forfeit task disconnected opponent sess _ :=
    commit_moves (fun _ _ _ h => nomatch h) (fun _ _ hs => hs.forfeit) (fun _ h => h.2)
      fun _ => True.intro
  tell _ _ _ _ := log_moves True.intro fun _ => True.intro
  informOpponent _ _ _ _ _ := log_moves True.intro fun _ => True.intro

end Contract

section Necessity

variable {pairing : Pairing} {trace : List GoStore.Event} {sess : GoTypes.PvPSession}

/-- While every transaction is in the format, Python reads the stored session. -/
theorem readable_of_inFormat (h : ∀ event∈trace,InFormat event)
    (hs : sessionAfter pairing trace=some sess) : Readable sess := by
  induction trace using List.reverseRecOn generalizing sess with
  | nil =>
    cases hs
    exact (stored_initial pairing).readable
  | append_singleton trace event ih =>
    have hbefore : ∀ event'∈trace,InFormat event' := fun event' hin =>
      h event' (List.mem_append_left _ hin)
    have hevent := h event (List.mem_append_right _ (List.mem_singleton_self _))
    rw [sessionAfter,valueAfter_append] at hs
    cases event with
    | commit task call before after =>
      cases hs
      exact hevent.1
    | deleted => cases hs
    | conflict | loaded | note => exact ih hbefore hs

/-- An unknown action costs nothing. -/
theorem actionKiCost_unknown {action : GoTypes.Action} (h : Action.ofValue? action=none) :
    GoTypes.actionKiCost action=0 := by
  have hne : ∀ a : Action,(action==a.value)=false := by
    intro a
    rw [beq_eq_false_iff_ne]
    rintro rfl
    rw [Action.ofValue?_value] at h
    cases h
  have h₁ : (action==GoTypes.actionCharge)=false := hne .charge
  have h₂ : (action==GoTypes.actionBlock)=false := hne .block
  have h₃ : (action==GoTypes.actionAttack)=false := hne .attack
  have h₄ : (action==GoTypes.actionEnergyWave)=false := hne .energyWave
  have h₅ : (action==GoTypes.actionTeleport)=false := hne .teleport
  simp [GoTypes.actionKiCost,GoTypes.mapGet,List.lookup_cons,h₁,h₂,h₃,h₄,h₅]

/-- A readable session with an open round accepts every unknown action. -/
theorem accepts_unknown (hread : Readable sess) (hbelongs : Belongs pairing sess)
    {player : String} (hplayer : IsPlayer pairing player) {action : GoTypes.Action}
    (hunknown : Action.ofValue? action=none) {cr : GoTypes.RoundState}
    (hopen : openRound sess=some cr) : acceptingRound player action sess=some cr := by
  obtain ⟨session,rfl,hdecoded⟩ := hread
  have hbounds := inBounds_of_session (hdecoded pairing.gameId)
  obtain ⟨-,hround⟩ := openRound_eq_some.mp hopen
  obtain ⟨round,hr,rfl⟩ := Option.map_eq_some_iff.mp hround
  obtain ⟨-,⟨hp₁,-⟩,⟨hp₂,-⟩,-⟩ := hbounds.round round hr
  have hki : 0≤kiOf player (goSession session) (goRoundState round) := by
    unfold kiOf
    split
    · exact hp₂
    · exact hp₁
  have hpays : GoEngine.validateAction action
      (kiOf player (goSession session) (goRoundState round))=true := by
    rw [GoEngine.validateAction,actionKiCost_unknown hunknown]
    exact decide_eq_true hki
  refine acceptingRound_eq_some.mpr ⟨hopen,hpays,?_⟩
  obtain hp | hp := hplayer
  · simp [GoTypes.PvPSession.isPlayer,hp,hbelongs.1]
  · simp [GoTypes.PvPSession.isPlayer,hp,hbelongs.2]

/-- Storing an unknown action changes a readable session. -/
theorem storeInSlot_ne (hread : Readable sess) {player : String} {action : GoTypes.Action}
    (hunknown : Action.ofValue? action=none) : storeInSlot player action sess≠sess := by
  obtain ⟨session,rfl,-⟩ := hread
  have hslot : ∀ slot : Option Action,slot.map Action.value≠some action := by
    intro slot he
    obtain ⟨a,-,ha⟩ := Option.map_eq_some_iff.mp he
    rw [← ha,Action.ofValue?_value] at hunknown
    cases hunknown
  intro he
  unfold storeInSlot at he
  split at he
  · exact hslot session.p1Action (congrArg GoTypes.PvPSession.p1Action he).symm
  · exact hslot session.p2Action (congrArg GoTypes.PvPSession.p2Action he).symm

/-- A session from which a pair has been taken out is not what it was. -/
theorem cleared_ne {player : String} {action p1 p2 : GoTypes.Action}
    (h₁ : (storeInSlot player action sess).p1Action=some p1)
    (h₂ : (storeInSlot player action sess).p2Action=some p2) :
    cleared (storeInSlot player action sess)≠sess := by
  intro he
  have hnone₁ : sess.p1Action=none := (congrArg GoTypes.PvPSession.p1Action he).symm
  have hnone₂ : sess.p2Action=none := (congrArg GoTypes.PvPSession.p2Action he).symm
  unfold storeInSlot at h₁ h₂
  split at h₁
  · next hplayer =>
    rw [if_pos hplayer] at h₂
    exact absurd (hnone₂.symm.trans h₂) nofun
  · exact absurd (hnone₁.symm.trans h₁) nofun

/-- If every transaction of a run is in the format, no unknown action has met an
open round. -/
theorem guarded_of_inFormat {config : instances.Config} (hrun : (initial pairing).Reaches config)
    (h : ∀ event∈config.world.trace,InFormat event) : Meets Guarded config.world.trace := by
  have hfollows : Meets (Follows pairing) config.world.trace := (chronicle hrun).follows
  apply meets_of_splits
  intro earlier event later hsplit
  rw [hsplit] at h hfollows
  cases event with
  | conflict | deleted | loaded | note => exact True.intro
  | commit task call before after =>
    cases call with
    | connect | start | disconnect | resolve | forfeit => exact True.intro
    | submit player action stale =>
      intro hunknown
      obtain ⟨hv,hbelongs,heffect⟩ := hfollows.at
      have hread : Readable before :=
        readable_of_inFormat (fun event hin => h event (List.mem_append_left _ hin)) hv
      obtain ⟨captured,hm,-,hsame⟩ :=
        (h _ (List.mem_append_right _ List.mem_cons_self)).2 hunknown
      cases hopen : openRound before with
      | none => rfl
      | some cr =>
        have hplayer : IsPlayer pairing player := by
          cases heffect with
          | submit hplayer _ => exact hplayer
          | keeps hcall _ => obtain he | ⟨player',he | he⟩ := hcall <;> cases he
        have haccept := accepts_unknown hread hbelongs hplayer hunknown hopen
        cases storeAction_cases hm with
        | rejected message hmessage hreject => exact absurd (hreject.symm.trans haccept) nofun
        | stored => exact absurd hsame (storeInSlot_ne hread hunknown)
        | completed cr p1 p2 _ h₁ h₂ => exact absurd hsame (cleared_ne h₁ h₂)

end Necessity

/-- In a run every transaction is in the shared format if and only if no unknown
action meets an open round. -/
theorem writes_in_format (pairing : Pairing) {config : instances.Config}
    (hrun : (initial pairing).Reaches config) :
    (∀ event∈config.world.trace,InFormat event) ↔ Meets Guarded config.world.trace := by
  constructor
  · exact guarded_of_inFormat hrun
  · intro hguarded
    have hinitial : FormatInvariant pairing ⟨some (goSession pairing.session),[]⟩ :=
      ⟨⟨_,rfl,stored_initial pairing⟩,fun _ hin => absurd hin List.not_mem_nil⟩
    have hinv : FormatInvariant pairing config.world.record :=
      (good (upheld pairing) hinitial hrun hguarded).inv
    exact hinv.written

/-- Both players connect and player 1 charges. -/
def knownAction : List instances.Move :=
  opens 1 ["charge"]::proceeds 0 10++opens 2 []::proceeds 1 14++proceeds 0 6

/-- The stored charge is in the format. -/
theorem charge_in_format : ∃ config,(initial .small).Reaches config ∧
    config.world.value.map GoTypes.PvPSession.p1Action=some (some "charge") ∧
    ∀ event∈config.world.trace,InFormat event := by
  have hrun : ((initial .small).run knownAction).map (fun config =>
      (config.world.value.map GoTypes.PvPSession.p1Action,
        decide (Meets Guarded config.world.trace)))=some (some (some "charge"),true) := by decide
  obtain ⟨config,hreach,hview⟩ := System.Config.reaches_of_map hrun
  obtain ⟨hstored,hguarded⟩ := Prod.mk.inj hview
  exact ⟨config,hreach,hstored,(writes_in_format .small hreach).mpr (of_decide_eq_true hguarded)⟩

/-- Player 1 submits a text that names no action. -/
def unknownAction : List instances.Move :=
  opens 1 ["foo"]::proceeds 0 10++opens 2 []::proceeds 1 14++proceeds 0 6

/-- A submission of an unknown action has changed the session. -/
def storesUnknown : GoStore.Event → Bool
  | .commit _ (.submit _ action _) before after =>
    (Action.ofValue? action).isNone && decide (after≠before)
  | _ => false

/-- The text is stored as his pending action. -/
theorem unknown_action_stored :
    ¬∀ pairing config,(initial pairing).Reaches config → ∀ event∈config.world.trace,
      InFormat event := by
  intro h
  have hrun : ((initial .small).run unknownAction).map (fun config =>
      config.world.trace.any storesUnknown)=some true := by decide
  obtain ⟨config,hreach,hstored⟩ := System.Config.reaches_of_map hrun
  obtain ⟨event,hin,hevent⟩ := List.any_eq_true.mp hstored
  have hformat := h .small config hreach event hin
  cases event with
  | conflict | deleted | loaded | note => cases hevent
  | commit task call before after =>
    cases call with
    | connect | start | disconnect | resolve | forfeit => cases hevent
    | submit player action stale =>
      obtain ⟨hunknown,hne⟩ := Bool.and_eq_true_iff.mp hevent
      obtain ⟨captured,-,-,he⟩ := hformat.2 (Option.isNone_iff_eq_none.mp hunknown)
      exact of_decide_eq_true hne he

end KiClash.SharedFormat
