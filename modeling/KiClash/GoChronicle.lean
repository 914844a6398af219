import KiClash.GoPendingPairs
import KiClash.RecordedTasks

/-!
# The chronicle of the Go session

The counterpart of the Python chronicle: each transaction of a run starts from
the session that the record before it has left, and does with it what its call
does. The session is never removed.
-/

namespace KiClash.GoChronicle

open GoTypes GoEngine Histories AsyncTasks WatchedKey RecordContracts RecordedTasks
open GameStore (Pairing)
open GoStore GoSession GoSessionContracts GoSessionContracts.SessionContract GoSessionSafety
open GoPendingPairs

/-- What a call makes of the session that its committed attempt finds. -/
inductive Effect (pairing : Pairing) : Call → PvPSession → PvPSession → Prop
  | keeps {call : Call} {sess sess' : PvPSession}
      (hcall : call=.start ∨ ∃ player,call=.connect player ∨ call=.disconnect player)
      (h : Keeps pairing sess sess') : Effect pairing call sess sess'
  | submit {player : String} {action : Action} {stale captured : SubmitCaptured}
      {sess sess' : PvPSession} (hplayer : IsPlayer pairing player)
      (h : Stores player action stale sess captured sess') :
      Effect pairing (.submit player action stale) sess sess'
  | resolve {p1 p2 : Action} {sess : PvPSession} {gameState : GameState} {report : TurnReport}
      (h : submitTurn sess.gameState p1 p2=(gameState,.ok report)) :
      Effect pairing (.resolve p1 p2) sess {sess with gameState := gameState}
  | forfeit (disconnected : String) (sess : PvPSession) :
      Effect pairing (.forfeit disconnected) sess
        {sess with gameState := {sess.gameState with status := matchAbandoned}}

/-- The session after so many events of a run. -/
abbrev sessionAfter (pairing : Pairing) (trace : List GoStore.Event) : Option PvPSession :=
  valueAfter (L := language) (R := runtime) (some (goSession pairing.session)) trace

/-- A transaction continues the record. -/
def Follows (pairing : Pairing) (earlier : List GoStore.Event) : GoStore.Event → Prop
  | .commit _ call before after => sessionAfter pairing earlier=some before ∧
      Belongs pairing before ∧ Effect pairing call before after
  | _ => True

/-- The record tells the stored session, and every transaction continues it. -/
structure Chronicle (pairing : Pairing) (record : SessionRecord) : Prop where
  /-- The stored session. -/
  value : record.value=sessionAfter pairing record.trace
  /-- There always is one, and it belongs to the two players. -/
  stored : ∃ sess,record.value=some sess ∧ Belongs pairing sess
  /-- How it came about. -/
  follows : Meets (Follows pairing) record.trace

/-- The contract behind the chronicle. -/
def chronicleContract (pairing : Pairing) : SessionContract where
  pairing := pairing
  allowed _ := True
  inv _ := Chronicle pairing
  expects _ _ _ := True
  phase _ _ _ := True
  captures _ _ := True

section Steps

variable {pairing : Pairing} {record : SessionRecord} {event : GoStore.Event}
  {sess sess' : PvPSession} {task : GoroutineId} {call : Call}

/-- An event that is no transaction leaves the key alone. -/
theorem Chronicle.logged (h : Chronicle pairing record)
    (hvalue : ∀ value : Option PvPSession,
      written (L := language) (R := runtime) value event=value)
    (hfits : Follows pairing record.trace event) : Chronicle pairing (record.log event) where
  value := by
    change record.value=valueAfter (L := language) (R := runtime) _ (record.trace++[event])
    rw [valueAfter_append,hvalue]
    exact h.value
  stored := h.stored
  follows := meets_append.mpr ⟨h.follows,hfits⟩

/-- Every call leaves the session with the two players. -/
theorem Effect.belongs (h : Effect pairing call sess sess') (hplayers : Belongs pairing sess) :
    Belongs pairing sess' := by
  obtain ⟨h₁,h₂⟩ := hplayers
  cases h with
  | keeps _ hkeeps => exact ⟨hkeeps.player1Id.trans h₁,hkeeps.player2Id.trans h₂⟩
  | submit _ hstores =>
    obtain ⟨-,hp₁,hp₂⟩ := hstores.unchanged
    exact ⟨hp₁.trans h₁,hp₂.trans h₂⟩
  | resolve | forfeit => exact ⟨h₁,h₂⟩

/-- A transaction. -/
theorem Chronicle.committed (h : Chronicle pairing record) (hv : record.value=some sess)
    (heffect : Effect pairing call sess sess') :
    Chronicle pairing (record.commit task call sess') := by
  obtain ⟨stored,hstored,hplayers⟩ := h.stored
  cases hv.symm.trans hstored
  rw [record.commit_of_value hv]
  constructor
  · change _=valueAfter (L := language) (R := runtime) _ (record.trace++[_])
    rw [valueAfter_append]
    rfl
  · exact ⟨sess',rfl,heffect.belongs hplayers⟩
  · refine meets_append.mpr ⟨h.follows,?_,hplayers,heffect⟩
    rw [← h.value,hv]

/-- A transaction of the code. -/
theorem commit_moves {A B : SessionRecord → Prop} (hB : ∀ record,B record)
    (hA : ∀ record,A record → record.value=some sess) (heffect : Effect pairing call sess sess') :
    (chronicleContract pairing).recordContract.Moves task A
      (fun record => record.commit task call sess') B := by
  intro count record _ hinv ha _
  have hchronicle : Chronicle pairing record := hinv
  exact ⟨hchronicle.committed (hA record ha) heffect,fun _ _ => True.intro,hB _⟩

/-- An event that the code appends without a transaction. -/
theorem log_moves {A B : SessionRecord → Prop} (hB : ∀ record,B record)
    (hvalue : ∀ value : Option PvPSession,
      written (L := language) (R := runtime) value event=value)
    (hfits : ∀ earlier,Follows pairing earlier event) :
    (chronicleContract pairing).recordContract.Moves task A (fun record => record.log event) B := by
  intro count record _ hinv _ _
  have hchronicle : Chronicle pairing record := hinv
  exact ⟨hchronicle.logged hvalue (hfits _),fun _ _ => True.intro,hB _⟩

/-- An event that is no transaction concerns nobody. -/
theorem neutral_event {P : SessionRecord → Prop}
    (hvalue : ∀ value : Option PvPSession,
      written (L := language) (R := runtime) value event=value)
    (hfits : ∀ earlier,Follows pairing earlier event) :
    (chronicleContract pairing).Neutral P event := by
  intro count record hinv _ _
  have hchronicle : Chronicle pairing record := hinv
  exact ⟨hchronicle.logged hvalue (hfits _),fun _ => True.intro⟩

end Steps

/-- Whatever the code appends continues the chronicle. -/
theorem upheld (pairing : Pairing) : (chronicleContract pairing).Upheld where
  expects_refl _ _ := True.intro
  expects_trans _ _ _ _ _ _ := True.intro
  allowed_prefix _ _ := True.intro
  stable _ _ _ _ _ _ := True.intro
  stored hinv := Chronicle.stored hinv
  untold := ⟨fun _ _ => True.intro,fun _ _ => True.intro,fun _ _ => True.intro⟩
  announces _ := True.intro
  starts hinv _ :=
    ⟨Chronicle.logged hinv (fun _ => rfl) True.intro,fun _ => True.intro,True.intro⟩
  loaded _ _ := neutral_event (fun _ => rfl) fun _ => True.intro
  sent _ _ _ _ := neutral_event (fun _ => rfl) fun _ => True.intro
  received _ _ := neutral_event (fun _ => rfl) fun _ => True.intro
  failed _ _ _ := log_moves (fun _ => True.intro) (fun _ => rfl) fun _ => True.intro
  conflict _ _ _ _ _ _ := log_moves (fun _ => True.intro) (fun _ => rfl) fun _ => True.intro
  resolveConflict task p1 p2 retriesLeft := by
    refine log_moves (fun _ => ?_) (fun _ => rfl) fun _ => True.intro
    split <;> exact True.intro
  keeps _ _ _ _ hcall hkeeps :=
    commit_moves (fun _ => True.intro) (fun _ h => h.2) (.keeps hcall hkeeps)
  captures_zero _ := True.intro
  captured _ _ _ _ := True.intro
  submit _ _ _ _ _ _ _ hplayer _ hm :=
    commit_moves (fun _ => True.intro) (fun _ h => h.2) (.submit hplayer (storeAction_cases hm))
  resolve _ _ _ _ _ _ hsubmit :=
    commit_moves (fun _ => True.intro) (fun _ h => h.2) (.resolve hsubmit)
  refused _ _ _ _ := True.intro
  forfeit _ disconnected _ sess _ :=
    commit_moves (fun _ => True.intro) (fun _ h => h.2) (.forfeit disconnected sess)
  tell _ _ _ _ := log_moves (fun _ => True.intro) (fun _ => rfl) fun _ => True.intro
  informOpponent _ _ _ _ _ := log_moves (fun _ => True.intro) (fun _ => rfl) fun _ => True.intro

/-- Every run writes a chronicle. -/
theorem chronicle {pairing : Pairing} {config : instances.Config}
    (hrun : (initial pairing).Reaches config) : Chronicle pairing config.world.record := by
  have hinitial : Chronicle pairing ⟨some (goSession pairing.session),[]⟩ :=
    ⟨rfl,⟨_,rfl,rfl,rfl⟩,True.intro⟩
  exact (good (upheld pairing) hinitial hrun True.intro).inv

/-- At any time of a chronicle the session belongs to the two players. -/
theorem belongs_of_follows {pairing : Pairing} {trace : List GoStore.Event} {sess : PvPSession}
    (h : Meets (Follows pairing) trace) (hs : sessionAfter pairing trace=some sess) :
    Belongs pairing sess := by
  induction trace using List.reverseRecOn generalizing sess with
  | nil =>
    cases hs
    exact ⟨rfl,rfl⟩
  | append_singleton trace event ih =>
    obtain ⟨hbefore,hlast⟩ := meets_append.mp h
    rw [sessionAfter,valueAfter_append] at hs
    cases event with
    | commit task call before after =>
      cases hs
      obtain ⟨-,hplayers,heffect⟩ := hlast
      exact heffect.belongs hplayers
    | deleted => cases hs
    | conflict | loaded | note => exact ih hbefore hs

end KiClash.GoChronicle
