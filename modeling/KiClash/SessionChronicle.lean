import KiClash.PendingPairs
import KiClash.RecordedTasks
import KiClash.SlottedTurns
import Mathlib.Data.Prod.Lex

/-!
# The chronicle of the Python session

Each transaction of a run starts from the session that the record before it
has left, and does with it what its call does. Read as steps of two slots and a
clock, the record tells which submission every pending action comes from, and
in which turn it was accepted.
-/

namespace KiClash.SessionChronicle

open EngineTypes OutcomeMatrix Engine EngineRuns Histories AsyncTasks WatchedKey RecordContracts
open RecordedTasks SlottedTurns GameStore GameSession SessionContracts SessionSafety PendingPairs

/-- What a call makes of the session that its committed attempt finds. -/
inductive Effect (pairing : Pairing) : Call → PvPSessionState → PvPSessionState → Prop
  | connect (player : UUID) (session : PvPSessionState) :
      Effect pairing (.connect player) session (session.markConnected player)
  | start (session : PvPSessionState) :
      Effect pairing .start session {session with started := true}
  | submit {player : UUID} {action : Action} {stale captured : SubmitCaptured}
      {session session' : PvPSessionState}
      (hplayer : player=pairing.player1Id ∨ player=pairing.player2Id)
      (h : Stores player action stale session captured session') :
      Effect pairing (.submit player action stale) session session'
  | resolve {p1Action p2Action : Action} {session : PvPSessionState} {gameState : GameState}
      {report : TurnReport}
      (h : submitTurn session.gameState p1Action p2Action=(gameState,.ok report)) :
      Effect pairing (.resolve p1Action p2Action) session {session with gameState := gameState}
  | forfeit (forfeiting : RoundWinner) (session : PvPSessionState) :
      Effect pairing (.forfeit forfeiting) session
        {session with gameState := (Engine.forfeit session.gameState forfeiting).1}

/-- The session after so many events of a run. -/
abbrev sessionAfter (pairing : Pairing) (trace : List GameStore.Event) :
    Option PvPSessionState :=
  valueAfter (L := language) (R := runtime) (some pairing.session) trace

/-- The session belongs to the two players. -/
def BelongsTo (pairing : Pairing) (session : PvPSessionState) : Prop :=
  session.player1Id=pairing.player1Id ∧ session.player2Id=pairing.player2Id

/-- A transaction continues the record. -/
def Follows (pairing : Pairing) (earlier : List GameStore.Event) : GameStore.Event → Prop
  | .commit _ call before after => sessionAfter pairing earlier=some before ∧
      BelongsTo pairing before ∧ Effect pairing call before after
  | _ => True

/-- The record tells the stored session, and every transaction continues it. -/
structure Chronicle (pairing : Pairing) (record : SessionRecord) : Prop where
  /-- The stored session. -/
  value : record.value=sessionAfter pairing record.trace
  /-- It belongs to the two players. -/
  players : ∀ session,record.value=some session → BelongsTo pairing session
  /-- How it came about. -/
  follows : Meets (Follows pairing) record.trace

/-- The contract behind the chronicle. -/
def chronicleContract (pairing : Pairing) : SessionContract where
  pairing := pairing
  allowed _ := True
  inv _ := Chronicle pairing
  expects _ record record' := Over record → Over record'
  phase _ _ _ := True

section Steps

variable {pairing : Pairing} {record : SessionRecord} {event : GameStore.Event}
  {session session' : PvPSessionState} {task : TaskId} {call : Call}

/-- An event that is no transaction and leaves the key alone. -/
theorem Chronicle.logged (h : Chronicle pairing record)
    (hvalue : ∀ value : Option PvPSessionState,
      written (L := language) (R := runtime) value event=value)
    (hfits : Follows pairing record.trace event) : Chronicle pairing (record.log event) where
  value := by
    change record.value=valueAfter (L := language) (R := runtime) _ (record.trace++[event])
    rw [valueAfter_append,hvalue]
    exact h.value
  players := h.players
  follows := meets_append.mpr ⟨h.follows,hfits⟩

/-- A transaction. -/
theorem Chronicle.committed (h : Chronicle pairing record) (hv : record.value=some session)
    (heffect : Effect pairing call session session') (hplayers : BelongsTo pairing session') :
    Chronicle pairing (record.commit task call session') := by
  rw [record.commit_of_value hv]
  constructor
  · change _=valueAfter (L := language) (R := runtime) _ (record.trace++[_])
    rw [valueAfter_append]
    rfl
  · intro s hs
    cases hs
    exact hplayers
  · refine meets_append.mpr ⟨h.follows,?_,h.players session hv,heffect⟩
    rw [← h.value,hv]

/-- The key is removed. -/
theorem Chronicle.removed (h : Chronicle pairing record) :
    Chronicle pairing (record.delete task) := by
  unfold Record.delete
  split
  · exact h
  · constructor
    · change _=valueAfter (L := language) (R := runtime) _ (record.trace++[_])
      rw [valueAfter_append]
      rfl
    · intro s hs
      cases hs
    · exact meets_append.mpr ⟨h.follows,True.intro⟩

/-- What a task owes for one of its events. -/
theorem Chronicle.moves {A : SessionRecord → Prop} {change : SessionRecord → SessionRecord}
    {B : SessionRecord → Prop} (hB : ∀ record,B record)
    (h : ∀ record,A record → Chronicle pairing record →
      Chronicle pairing (change record) ∧ (Over record → Over (change record))) :
    (chronicleContract pairing).recordContract.Moves task A change B := by
  intro count record _ hinv ha _
  obtain ⟨hchronicle,hover⟩ := h record ha hinv
  exact ⟨hchronicle,fun _ _ => hover,hB _⟩

/-- An event that is no transaction concerns nobody. -/
theorem neutral_event {P : SessionRecord → Prop}
    (hvalue : ∀ value : Option PvPSessionState,
      written (L := language) (R := runtime) value event=value)
    (hfits : ∀ earlier,Follows pairing earlier event) :
    (chronicleContract pairing).Neutral P event := by
  intro count record hinv _ _
  have hchronicle : Chronicle pairing record := hinv
  exact ⟨hchronicle.logged hvalue (hfits _),fun _ hover => hover⟩

/-- Every call leaves the session with the two players. -/
theorem Effect.belongsTo (h : Effect pairing call session session')
    (hplayers : BelongsTo pairing session) : BelongsTo pairing session' := by
  obtain ⟨h₁,h₂⟩ := hplayers
  cases h with
  | connect player session =>
    exact ⟨(markConnected_player1Id player session).trans h₁,
      (markConnected_player2Id player session).trans h₂⟩
  | start | resolve | forfeit => exact ⟨h₁,h₂⟩
  | submit _ hstores =>
    cases hstores with
    | rejected => exact ⟨h₁,h₂⟩
    | stored | completed =>
      exact ⟨(storeInSlot_player1Id _ _ session).trans h₁,
        (storeInSlot_player2Id _ _ session).trans h₂⟩

/-- A match that is over stays over. -/
theorem Effect.over (h : Effect pairing call session session')
    (hover : session.gameState.status≠.inProgress) :
    session'.gameState.status≠.inProgress := by
  cases h with
  | connect player session =>
    rw [markConnected_gameState]
    exact hover
  | start => exact hover
  | submit _ hstores =>
    cases hstores with
    | rejected => exact hover
    | stored | completed =>
      have hgame : ∀ player action,(storeInSlot player action session).gameState=
          session.gameState := fun player action => storeInSlot_gameState player action session
      simp only [cleared,hgame]
      exact hover
  | resolve hsubmit =>
    obtain ⟨round,hopen,-,-⟩ := openRound_of_submitTurn hsubmit
    exact absurd (openRound_eq_some.mp hopen).1 hover
  | forfeit => exact nofun

/-- A transaction of the code. -/
theorem commit_moves {A : SessionRecord → Prop} {B : SessionRecord → Prop}
    (hB : ∀ record,B record) (hA : ∀ record,A record → record.value=some session)
    (heffect : Effect pairing call session session') :
    (chronicleContract pairing).recordContract.Moves task A
      (fun record => record.commit task call session') B := by
  refine Chronicle.moves hB fun record ha h => ?_
  have hv := hA record ha
  refine ⟨h.committed hv heffect (heffect.belongsTo (h.players session hv)),fun hover => ?_⟩
  rw [record.commit_of_value hv]
  intro s hs
  cases hs
  exact heffect.over (hover session hv)

/-- An event that the code appends without a transaction. -/
theorem log_moves {A B : SessionRecord → Prop} (hB : ∀ record,B record)
    (hvalue : ∀ value : Option PvPSessionState,
      written (L := language) (R := runtime) value event=value)
    (hfits : ∀ earlier,Follows pairing earlier event) :
    (chronicleContract pairing).recordContract.Moves task A (fun record => record.log event) B :=
  Chronicle.moves hB fun record _ h => ⟨h.logged hvalue (hfits record.trace),fun hover => hover⟩

end Steps

/-- Whatever the code appends continues the chronicle. -/
theorem upheld (pairing : Pairing) : (chronicleContract pairing).Upheld where
  expects_refl _ _ hover := hover
  expects_trans _ _ _ _ h h' hover := h' (h hover)
  allowed_prefix _ _ := True.intro
  stable _ _ _ _ _ _ := True.intro
  over_stable h hover := h hover
  told _ := True.intro
  untold _ := True.intro
  players hinv hv := Chronicle.players hinv _ hv
  starts hinv _ :=
    ⟨Chronicle.logged hinv (fun _ => rfl) True.intro,fun _ hover => hover,True.intro⟩
  loaded _ _ _ _ := neutral_event (fun _ => rfl) fun _ => True.intro
  sent _ _ _ _ _ _ := neutral_event (fun _ => rfl) fun _ => True.intro
  received _ _ := neutral_event (fun _ => rfl) fun _ => True.intro
  deleted task := by
    refine Chronicle.moves (fun _ => True.intro) fun record _ h => ⟨h.removed,fun hover => ?_⟩
    unfold Record.delete
    split
    · exact hover
    · exact over_none _
  raised _ _ exc := log_moves (fun _ => True.intro) (fun _ => rfl) fun _ => True.intro
  conflict _ _ _ _ := log_moves (fun _ => True.intro) (fun _ => rfl) fun _ => True.intro
  resolveConflict task p1Action p2Action retriesLeft := by
    refine log_moves (fun _ => ?_) (fun _ => rfl) fun _ => True.intro
    split <;> exact True.intro
  connect _ player session :=
    commit_moves (fun _ => True.intro) (fun _ h => h.2) (.connect player session)
  start _ session := commit_moves (fun _ => True.intro) (fun _ h => h.2) (.start session)
  submit _ _ _ _ _ _ _ hplayer hm :=
    commit_moves (fun _ => True.intro) (fun _ h => h.2) (.submit hplayer (storeAction_cases hm))
  resolve _ _ _ _ _ _ hsubmit :=
    commit_moves (fun _ => True.intro) (fun _ h => h.2) (.resolve hsubmit)
  refused _ _ _ _ := True.intro
  missing _ _ _ := True.intro
  forfeit _ forfeiting _ session _ :=
    commit_moves (fun _ => True.intro) (fun _ h => h.2) (.forfeit forfeiting session)
  read _ _ _ := log_moves (fun _ => True.intro) (fun _ => rfl) fun _ => True.intro
  unread _ _ := log_moves (fun _ => True.intro) (fun _ => rfl) fun _ => True.intro
  tell _ _ _ _ _ := log_moves (fun _ => True.intro) (fun _ => rfl) fun _ => True.intro
  prompt _ _ _ := log_moves (fun _ => True.intro) (fun _ => rfl) fun _ => True.intro
  unprompted _ _ _ := log_moves (fun _ => True.intro) (fun _ => rfl) fun _ => True.intro
  informOpponent _ _ _ _ _ := log_moves (fun _ => True.intro) (fun _ => rfl) fun _ => True.intro

/-- Every run writes a chronicle. -/
theorem chronicle {pairing : Pairing} {config : workers.Config}
    (hrun : (initial pairing).Reaches config) : Chronicle pairing config.world.record := by
  have hinitial : Chronicle pairing ⟨some pairing.session,[]⟩ := by
    refine ⟨rfl,fun session hs => ?_,True.intro⟩
    cases hs
    exact ⟨rfl,rfl⟩
  exact (good (upheld pairing) hinitial hrun True.intro).inv

/-- At any time of a chronicle the session belongs to the two players. -/
theorem belongsTo_of_follows {pairing : Pairing} {trace : List GameStore.Event}
    {session : PvPSessionState} (h : Meets (Follows pairing) trace)
    (hs : sessionAfter pairing trace=some session) : BelongsTo pairing session := by
  induction trace using List.reverseRecOn generalizing session with
  | nil =>
    cases hs
    exact ⟨rfl,rfl⟩
  | append_singleton trace event ih =>
    obtain ⟨hbefore,hlast⟩ := meets_append.mp h
    rw [sessionAfter,valueAfter_append] at hs
    cases event with
    | commit task call before after =>
      cases hs
      obtain ⟨-,hplayers,heffect⟩ := hlast
      exact heffect.belongsTo hplayers
    | deleted => cases hs
    | conflict | loaded | note => exact ih hbefore hs

end KiClash.SessionChronicle
