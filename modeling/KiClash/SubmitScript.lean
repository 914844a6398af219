import KiClash.GameSession
import KiClash.SessionCodec

/-!
# Three implementations of storing an action

The Lua script go-server/submit_action.lua with Store.submitActionAtomic next to the
mutators of submit_action and submitAction. cjson is taken to decode and encode
faithfully: a table of the script is a JSON value here, cjson.null is null, and a field
that is absent is nil. Lua would also convert a text that spells a number; no session
has one where the script calculates.
-/

namespace KiClash.SubmitScript

open JsonValues EngineTypes
open GameStore (PvPSessionState)
open GoSession (goSession)
open SessionFormat SessionCodec

section Lua

/-- A value of the script; none is nil. -/
abbrev Value := Option Json

/-- A field of a value. The library of texts has no functions of these names, and
anything else cannot be indexed. -/
def field (name : String) : Value → Option Value
  | some (.obj fields) => some (member name (.obj fields))
  | some (.arr _) | some (.str _) => some none
  | _ => none

/-- Assign a field of a table. -/
def assign (name : String) (value : Json) : Json → Json
  | .obj fields => .obj ((fields.filter fun entry => entry.1≠name)++[(name,value)])
  | json => json

/-- Equality with a text. -/
def isText (text : String) : Value → Bool
  | some (.str text') => text'=text
  | _ => false

/-- Only nil and false are not true. -/
def truthy : Value → Bool
  | none => false
  | some (.bool value) => value
  | some _ => true

/-- The value, if it is neither nil nor cjson.null. -/
def present : Value → Option Json
  | none => none
  | some .null => none
  | some json => some json

/-- A number, which is all that the script compares or calculates with. -/
def number : Value → Option ℤ
  | some (.num value) => some value
  | _ => none

end Lua

section Script

/-- An element of the script's result as Redis returns it. -/
inductive Reply
  | bulk (text : String)
  | integer (value : ℤ)
  | nil
  | multiBulk
  deriving DecidableEq, Repr

/-- What Redis makes of a value. -/
def reply : Json → Reply
  | .str text => .bulk text
  | .num value => .integer value
  | .bool true => .integer 1
  | .bool false | .null => .nil
  | .arr _ | .obj _ => .multiBulk

/-- costs. -/
def costs : List (String×ℤ) :=
  [("charge",0),("block",0),("attack",1),("energy_wave",3),("teleport",1)]

/-- The end of the script: take out a complete pair, and save. -/
def takePair (sess : Json) (turnNumber : ℤ) : List Reply×Json :=
  match present (member "p1_action" sess),present (member "p2_action" sess) with
  | some p1a,some p2a =>
    ([.bulk "resolve",.integer turnNumber,reply p1a,reply p2a],
      assign "p2_action" .null (assign "p1_action" .null sess))
  | _,_ => ([.bulk "stored",.integer turnNumber],sess)

/-- The script from the affordability check on. -/
def storeAffordable (sess cr : Json) (isP1 : Bool) (action : String) (cost : ℤ) :
    Option (List Reply×Json) := do
  let p1Ki ← field "p1_ki" (some cr)
  let p2Ki ← field "p2_ki" (some cr)
  let ki ← number (if isP1 && truthy p1Ki then p1Ki else p2Ki)
  if ki<cost then pure ([.bulk "cant_afford",.integer ki],sess)
  else
    let sess := assign (if isP1 then "p1_action" else "p2_action") (.str action) sess
    let turnNumber ← number (← field "turn_number" (some cr))
    pure (takePair sess (turnNumber+1))

/-- submit_action.lua for the decoded value of the key: the result, and the value that
the key has then. There is none when the script fails. -/
def submitAction (sess : Json) (pid action : String) : Option (List Reply×Json) := do
  let gameState ← field "game_state" (some sess)
  let status ← field "status" gameState
  if !isText "in_progress" status then pure ([.bulk "not_in_progress"],sess)
  else
    let currentRound ← field "current_round" gameState
    match present currentRound with
    | none => pure ([.bulk "no_round"],sess)
    | some cr =>
      match costs.lookup action with
      | none => pure ([.bulk "unknown_action"],sess)
      | some cost =>
        let isP1 := isText pid (← field "player1_id" (some sess))
        let isP2 := isText pid (← field "player2_id" (some sess))
        if !isP1 && !isP2 then pure ([.bulk "not_in_game"],sess)
        else storeAffordable sess cr isP1 action cost

/-- The script on the key, which may hold nothing. -/
def runScript (stored : Option Json) (pid action : String) :
    Option (List Reply×Option Json) :=
  match stored with
  | none => some ([.bulk "missing"],none)
  | some sess => (submitAction sess pid action).map fun result => (result.1,some result.2)

/-- SubmitResult. -/
structure SubmitResult where
  /-- Status. -/
  status : String
  /-- TurnNumber. -/
  turnNumber : ℤ
  /-- P1Action. -/
  p1Action : GoTypes.Action
  /-- P2Action. -/
  p2Action : GoTypes.Action
  /-- Ki. -/
  ki : ℤ
  deriving DecidableEq, Repr

/-- The assertion to string, with the zero value when it fails. -/
def Reply.string : Reply → String
  | .bulk text => text
  | _ => ""

/-- The assertion to int64, with the zero value when it fails. -/
def Reply.int64 : Reply → ℤ
  | .integer value => value
  | _ => 0

/-- The typed parse of the script's result; an empty result is an error. -/
def parse : List Reply → Option SubmitResult
  | [] => none
  | first::arr =>
    let out : SubmitResult := ⟨first.string,0,"","",0⟩
    match first.string,arr with
    | "cant_afford",ki::_ => some {out with ki := ki.int64}
    | "stored",tn::_ => some {out with turnNumber := tn.int64}
    | "resolve",tn::p1::p2::_ =>
      some {out with turnNumber := tn.int64,p1Action := p1.string,p2Action := p2.string}
    | _,_ => some out

/-- submitActionAtomic: its result and the value of the key; none is an error. -/
def submitActionAtomic (stored : Option Json) (playerId action : String) :
    Option (SubmitResult×Option Json) := do
  let (replies,stored') ← runScript stored playerId action
  let result ← parse replies
  pure (result,stored')

end Script

section Verdicts

/-- What becomes of an action of one of the two players. -/
inductive Verdict
  | notInProgress
  | noRound
  | cannotAfford (ki : ℤ)
  | stored (turnNumber : ℤ)
  | complete (turnNumber : ℤ) (p1Action p2Action : Action)
  deriving DecidableEq, Repr

/-- The verdict in the variables of submit_action. -/
def Verdict.python (action : Action) : Verdict → GameStore.SubmitCaptured
  | .notInProgress => ⟨some "Game is not in progress",false,none,none,0⟩
  | .noRound => ⟨some "Round not active",false,none,none,0⟩
  | .cannotAfford ki => ⟨some (GameSession.cannotAfford action ki),false,none,none,0⟩
  | .stored turnNumber => ⟨none,false,none,none,turnNumber⟩
  | .complete turnNumber p1Action p2Action => ⟨none,true,some p1Action,some p2Action,turnNumber⟩

/-- The verdict in the variables of submitAction. -/
def Verdict.go (action : Action) : Verdict → GoStore.SubmitCaptured
  | .notInProgress => ⟨"Game is not in progress",false,"","",0⟩
  | .noRound => ⟨"Round not active",false,"","",0⟩
  | .cannotAfford ki => ⟨GoSession.cannotAfford action.value ki,false,"","",0⟩
  | .stored turnNumber => ⟨"",false,"","",turnNumber⟩
  | .complete turnNumber p1Action p2Action =>
    ⟨"",true,p1Action.value,p2Action.value,turnNumber⟩

/-- The verdict in the result of submitActionAtomic. -/
def Verdict.result : Verdict → SubmitResult
  | .notInProgress => ⟨"not_in_progress",0,"","",0⟩
  | .noRound => ⟨"no_round",0,"","",0⟩
  | .cannotAfford ki => ⟨"cant_afford",0,"","",ki⟩
  | .stored turnNumber => ⟨"stored",turnNumber,"","",0⟩
  | .complete turnNumber p1Action p2Action =>
    ⟨"resolve",turnNumber,p1Action.value,p2Action.value,0⟩

/-- The player's slot with his action in it. -/
def fill (player : UUID) (action : Action) (session : PvPSessionState) : PvPSessionState :=
  if player=session.player1Id then {session with p1Action := some action}
  else {session with p2Action := some action}

/-- Storing an action of one of the two players. -/
def store (player : UUID) (action : Action) (session : PvPSessionState) :
    Verdict×PvPSessionState :=
  if session.gameState.status≠.inProgress then (.notInProgress,session)
  else match session.gameState.currentRound with
  | none => (.noRound,session)
  | some round =>
    let ki := if player=session.player1Id then round.p1Ki else round.p2Ki
    if ki<actionKiCost action then (.cannotAfford ki,session)
    else
      let session := fill player action session
      match session.p1Action,session.p2Action with
      | some p1Action,some p2Action =>
        (.complete (round.turnNumber+1) p1Action p2Action,
          {session with p1Action := none,p2Action := none})
      | _,_ => (.stored (round.turnNumber+1),session)

end Verdicts

section Tables

variable {α : Type} {name other : String} {value stored : Json}

/-- An assigned field has the value. -/
theorem member_assign (fields : List (String×Json)) (name : String) (value : Json) :
    member name (assign name value (.obj fields))=some value := by
  simp [assign,member]

/-- The other entries of an association list stay when one name is left out. -/
theorem lookup_filter_ne (h : other≠name) (fields : List (String×Json)) :
    (fields.filter fun entry => entry.1≠name).lookup other=fields.lookup other := by
  induction fields with
  | nil => rfl
  | cons entry fields ih =>
    obtain ⟨key,value⟩ := entry
    by_cases hkey : key=name
    · have hother : (other==key)=false := by
        rw [hkey]
        exact beq_eq_false_iff_ne.mpr h
      rw [List.filter_cons_of_neg (by simp [hkey]),ih,List.lookup_cons,hother]
    · rw [List.filter_cons_of_pos (by simp [hkey]),List.lookup_cons,List.lookup_cons,ih]

/-- Assigning a field leaves the others. -/
theorem member_assign_ne (h : other≠name) (value stored : Json) :
    member other (assign name value stored)=member other stored := by
  cases stored with
  | null | bool | num | str | arr => rfl
  | obj fields =>
    have hother : (other==name)=false := beq_eq_false_iff_ne.mpr h
    have hrest := lookup_filter_ne h fields.reverse
    rw [List.filter_reverse] at hrest
    simp only [assign,member,List.reverse_append,List.reverse_cons,List.reverse_nil,
      List.nil_append,List.cons_append,List.lookup_cons,hother]
    exact hrest

/-- Readers of another field do not see the assignment. -/
@[simp] theorem required_assign_ne (h : other≠name) (decode : Decoder α) (value stored : Json) :
    required other decode (assign name value stored)=required other decode stored := by
  rw [required,required,member_assign_ne h]

@[simp] theorem defaulted_assign_ne (h : other≠name) (fallback : α) (decode : Decoder α)
    (value stored : Json) :
    defaulted other fallback decode (assign name value stored)=
      defaulted other fallback decode stored := by
  rw [defaulted,defaulted,member_assign_ne h]

/-- A reader of the field reads the value. -/
@[simp] theorem defaulted_assign (fallback : α) (decode : Decoder α)
    (fields : List (String×Json)) :
    defaulted name fallback decode (assign name value (.obj fields))=decode value := by
  rw [defaulted,member_assign]
  rfl

end Tables

section Sessions

/-- A stored value that both servers read as the session, with the numbers of an open
round written out, as both servers do, and a turn number that a number of Lua holds. -/
structure StoredAs (session : PvPSessionState) (stored : Json) : Prop where
  /-- Python reads the session. -/
  python : ∀ uuid4,pvpSessionState uuid4 stored=some session
  /-- Go reads the session. -/
  go : unmarshalSession stored=some (goSession session)
  /-- The numbers of the open round. -/
  written : ∀ gameState currentRound,member "game_state" stored=some gameState →
    present (member "current_round" gameState)=some currentRound →
    ∀ name∈["p1_ki","p2_ki","turn_number"],(member name currentRound).isSome
  /-- The turn number. -/
  small : ∀ round,session.gameState.currentRound=some round → round.turnNumber<2^53

variable {session : PvPSessionState} {stored : Json}

/-- What either server writes of a valid session is stored so. -/
theorem storedAs_dump (hbounds : InBounds session.gameState) (hfits : Fits session)
    (hexact : ∀ round,session.gameState.currentRound=some round → round.turnNumber<2^53) :
    StoredAs session (dumpSession session) where
  python := pvpSessionState_dump hbounds
  go := unmarshalSession_dump hfits
  written := by
    intro gameState currentRound hgame hround
    cases hgame
    cases hr : session.gameState.currentRound with
    | none =>
      have hnone : present (member "current_round" (dumpGameState session.gameState))=none := by
        simp [dumpGameState,member,List.lookup_cons,hr,dumpOptional,present]
      cases hnone.symm.trans hround
    | some round =>
      have hsome : present (member "current_round" (dumpGameState session.gameState))=
          some (dumpRoundState round) := by
        simp [dumpGameState,member,List.lookup_cons,hr,dumpOptional,present,dumpRoundState]
      cases hsome.symm.trans hround
      simp [dumpRoundState,member,List.lookup_cons]
  small := hexact

/-- A value that Go reads as a session is a table. -/
theorem StoredAs.fields (h : StoredAs session stored) : ∃ fields,stored=.obj fields := by
  have hgo := h.go
  cases stored with
  | obj fields => exact ⟨fields,rfl⟩
  | bool | num | str | arr => cases hgo
  | null =>
    have hstatus := congrArg (Option.map fun sess => sess.gameState.status) hgo
    cases hs : session.gameState.status <;> simp [hs, unmarshalSession,unmarshalStruct,defaulted,
      member,zeroGameState,goSession,EngineSimulation.goGameState,MatchStatus.value] at hstatus

/-- A text that Go reads and that is not empty is written. -/
theorem text_of_unmarshal {name text : String} (htext : text≠"")
    (h : defaulted name "" unmarshalString stored=some text) :
    member name stored=some (.str text) := by
  unfold defaulted at h
  cases hm : member name stored with
  | none =>
    rw [hm] at h
    exact absurd (Option.some.inj h).symm htext
  | some json =>
    rw [hm] at h
    cases json with
    | str text' =>
      have htext' : text'=text := Option.some.inj h
      rw [htext']
    | null => exact absurd (Option.some.inj h).symm htext
    | bool | num | arr | obj => cases h

/-- What Go reads behind a pointer is what the script finds. -/
theorem present_of_unmarshal {α : Type} {name : String} {decode : Decoder α} {value : Option α}
    (h : defaulted name none (unmarshalPointer decode) stored=some value) :
    value.elim (present (member name stored)=none) fun value =>
      ∃ json,present (member name stored)=some json ∧ decode json=some value := by
  unfold defaulted at h
  cases hm : member name stored with
  | none =>
    rw [hm] at h
    cases h
    rfl
  | some json =>
    rw [hm] at h
    cases json with
    | null =>
      cases h
      rfl
    | bool | num | str | arr | obj =>
      obtain ⟨value',hread,rfl⟩ := Option.map_eq_some_iff.mp h
      exact ⟨_,rfl,hread⟩

/-- A pending action that Go reads is the text that the script finds. -/
theorem action_of_unmarshal {name : String} {slot : Option String}
    (h : defaulted name none (unmarshalPointer unmarshalString) stored=some slot)
    (hnonempty : ∀ text,slot=some text → text≠"") :
    present (member name stored)=slot.map .str := by
  have hpresent := present_of_unmarshal h
  cases slot with
  | none => exact hpresent
  | some text =>
    obtain ⟨json,hjson,hread⟩ := hpresent
    have htext := hnonempty text rfl
    cases json with
    | str text' =>
      have htext' : text'=text := Option.some.inj hread
      rw [hjson,htext']
      rfl
    | null => exact absurd (Option.some.inj hread).symm htext
    | bool | num | arr | obj => cases hread

/-- A number that Python reads and that is written is the number that is written. -/
theorem number_of_integer {name : String} {fallback value : ℤ}
    (h : defaulted name fallback integer stored=some value)
    (hwritten : (member name stored).isSome) :
    member name stored=some (.num value) := by
  obtain ⟨json,hm⟩ := Option.isSome_iff_exists.mp hwritten
  unfold defaulted at h
  rw [hm] at h ⊢
  cases json with
  | num value' =>
    have hvalue : value'=value := Option.some.inj h
    rw [hvalue]
  | null | bool | str | arr | obj => cases h

/-- The numbers of an open round as the script finds them. -/
structure RoundFound (round : RoundState) (cr : Json) : Prop where
  /-- It is a table. -/
  table : ∃ fields,cr=.obj fields
  /-- p1_ki. -/
  p1Ki : member "p1_ki" cr=some (.num round.p1Ki)
  /-- p2_ki. -/
  p2Ki : member "p2_ki" cr=some (.num round.p2Ki)
  /-- turn_number. -/
  turnNumber : member "turn_number" cr=some (.num round.turnNumber)

/-- A stored match as the script finds it. -/
structure GameFound (state : GameState) (gameState : Json) : Prop where
  /-- It is a table. -/
  table : ∃ fields,gameState=.obj fields
  /-- status. -/
  status : member "status" gameState=some (.str state.status.value)
  /-- current_round. -/
  round : state.currentRound.elim (present (member "current_round" gameState)=none) fun round =>
    ∃ cr,present (member "current_round" gameState)=some cr ∧ RoundFound round cr

/-- A stored session as the script finds it. -/
structure SessionFound (session : PvPSessionState) (stored : Json) : Prop where
  /-- It is a table. -/
  table : ∃ fields,stored=.obj fields
  /-- game_state. -/
  game : ∃ gameState,member "game_state" stored=some gameState ∧
    GameFound session.gameState gameState
  /-- player1_id. -/
  player1Id : member "player1_id" stored=some (.str session.player1Id.text)
  /-- player2_id. -/
  player2Id : member "player2_id" stored=some (.str session.player2Id.text)
  /-- p1_action. -/
  p1Action : present (member "p1_action" stored)=session.p1Action.map fun a => .str a.value
  /-- p2_action. -/
  p2Action : present (member "p2_action" stored)=session.p2Action.map fun a => .str a.value

/-- The text of an identifier is not empty. -/
theorem text_ne_empty (id : UUID) : id.text≠"" := by
  intro hempty
  have hread := Identifiers.uuid_text id
  rw [hempty] at hread
  have hnone : Identifiers.uuid? ""=none := by decide
  cases hnone.symm.trans hread

/-- The text of an action is not empty. -/
theorem value_ne_empty (slot : Option Action) (text : String)
    (h : slot.map Action.value=some text) : text≠"" := by
  obtain ⟨a,-,rfl⟩ := Option.map_eq_some_iff.mp h
  cases a <;> decide

/-- The script finds the numbers of the round that Python reads. -/
theorem roundFound {round : RoundState} {cr : Json} (hpython : roundState cr=some round)
    (hgo : unmarshalRoundState cr=some (EngineSimulation.goRoundState round))
    (hwritten : ∀ name∈["p1_ki","p2_ki","turn_number"],(member name cr).isSome)
    (hnull : cr≠.null) : RoundFound round cr := by
  simp only [roundState,Option.bind_eq_bind,Option.bind_eq_some_iff] at hpython
  obtain ⟨_,-,p1Ki,hp₁,p2Ki,hp₂,turnNumber,ht,_,-,hchecked⟩ := hpython
  unfold checked at hchecked
  split at hchecked
  case isFalse => cases hchecked
  cases hchecked
  refine ⟨?_,number_of_integer hp₁ (hwritten _ (by simp)),
    number_of_integer hp₂ (hwritten _ (by simp)),number_of_integer ht (hwritten _ (by simp))⟩
  cases cr with
  | obj fields => exact ⟨fields,rfl⟩
  | null => exact absurd rfl hnull
  | bool | num | str | arr => cases hgo

/-- A value that is present is not null. -/
theorem present_eq_some {value : Value} {json : Json} (h : present value=some json) :
    value=some json ∧ json≠.null := by
  cases value with
  | none => cases h
  | some json' =>
    cases json' with
    | null => cases h
    | bool | num | str | arr | obj =>
      cases h
      exact ⟨rfl,nofun⟩

/-- The script finds the match that both servers read. -/
theorem gameFound {state : GameState} {gameState : Json}
    (hpython : ∀ uuid4,SessionFormat.gameState uuid4 gameState=some state)
    (hgo : unmarshalGameState gameState=some (EngineSimulation.goGameState state))
    (hwritten : ∀ currentRound,present (member "current_round" gameState)=some currentRound →
      ∀ name∈["p1_ki","p2_ki","turn_number"],(member name currentRound).isSome) :
    GameFound state gameState := by
  have htable : ∃ fields,gameState=.obj fields := by
    cases gameState with
    | obj fields => exact ⟨fields,rfl⟩
    | null => cases hpython (.small 0)
    | bool | num | str | arr => cases hgo
  obtain ⟨fields,rfl⟩ := htable
  simp only [unmarshalGameState,unmarshalStruct,Option.bind_eq_bind,Option.bind_eq_some_iff] at hgo
  obtain ⟨_,-,_,-,status,hstatus,_,-,_,-,currentRound,hround,_,-,hgame⟩ := hgo
  cases hgame
  have hvalue : state.status.value≠"" := by cases state.status <;> decide
  refine ⟨⟨fields,rfl⟩,text_of_unmarshal hvalue hstatus,?_⟩
  have hfound := present_of_unmarshal hround
  cases hr : state.currentRound with
  | none =>
    rw [hr] at hfound
    exact hfound
  | some round =>
    rw [hr] at hfound
    obtain ⟨cr,hcr,hread⟩ := hfound
    obtain ⟨hmember,hnull⟩ := present_eq_some hcr
    have hpythonRound : roundState cr=some round := by
      have h := hpython (.small 0)
      simp only [SessionFormat.gameState,Option.bind_eq_bind,Option.bind_eq_some_iff] at h
      obtain ⟨_,-,_,-,_,-,_,-,_,-,currentRound,hcurrent,_,-,hchecked⟩ := h
      unfold checked at hchecked
      split at hchecked
      case isFalse => cases hchecked
      cases hchecked
      have hcurrent' : currentRound=some round := hr
      rw [hcurrent',defaulted,hmember] at hcurrent
      change nullable roundState cr=some (some round) at hcurrent
      unfold nullable at hcurrent
      split at hcurrent
      · cases hcurrent
      · obtain ⟨round',hread',he⟩ := Option.map_eq_some_iff.mp hcurrent
        cases he
        exact hread'
    exact ⟨cr,hcr,roundFound hpythonRound hread (hwritten cr hcr) hnull⟩

/-- The script finds the session that both servers read. -/
theorem StoredAs.found (h : StoredAs session stored) : SessionFound session stored := by
  obtain ⟨fields,rfl⟩ := h.fields
  have hgo := h.go
  simp only [unmarshalSession,unmarshalStruct,Option.bind_eq_bind,Option.bind_eq_some_iff] at hgo
  obtain ⟨gameState,hgame,_,h₁,_,h₂,_,-,_,-,_,ha₁,_,ha₂,hsession⟩ := hgo
  cases hsession
  have hmember : ∃ json,member "game_state" (.obj fields)=some json := by
    cases hm : member "game_state" (.obj fields) with
    | some json => exact ⟨json,rfl⟩
    | none =>
      have hnone := h.python (.small 0)
      simp [pvpSessionState,required,hm] at hnone
  obtain ⟨json,hm⟩ := hmember
  have hgo : unmarshalGameState json=
      some (EngineSimulation.goGameState session.gameState) := by
    rw [defaulted,hm] at hgame
    exact hgame
  have hpython : ∀ uuid4,SessionFormat.gameState uuid4 json=some session.gameState := by
    intro uuid4
    have hread := h.python uuid4
    simp only [pvpSessionState,Option.bind_eq_bind,Option.bind_eq_some_iff] at hread
    obtain ⟨gameState,hgameState,_,-,_,-,_,-,_,-,_,-,_,-,hsession⟩ := hread
    cases hsession
    rw [required,hm] at hgameState
    exact hgameState
  have htext₁ : present (member "p1_action" (.obj fields))=
      (session.p1Action.map Action.value).map .str :=
    action_of_unmarshal ha₁ (value_ne_empty _)
  have htext₂ : present (member "p2_action" (.obj fields))=
      (session.p2Action.map Action.value).map .str :=
    action_of_unmarshal ha₂ (value_ne_empty _)
  rw [Option.map_map] at htext₁ htext₂
  exact {
    table := ⟨fields,rfl⟩
    game := ⟨json,hm,gameFound hpython hgo fun cr hcr => h.written json cr hm hcr⟩
    player1Id := text_of_unmarshal (text_ne_empty _) h₁
    player2Id := text_of_unmarshal (text_ne_empty _) h₂
    p1Action := htext₁
    p2Action := htext₂ }

end Sessions

section Slots

variable {session : PvPSessionState} {stored : Json} {value : Json} {slot : Option Action}

/-- A value that both servers read as a pending action. -/
def Slot (slot : Option Action) (value : Json) : Prop :=
  nullable action value=some slot ∧
    unmarshalPointer unmarshalString value=some (slot.map Action.value)

/-- An action. -/
theorem slot_action (a : Action) : Slot (some a) (.str a.value) :=
  ⟨nullable_some nofun (action_value a),rfl⟩

/-- Nothing. -/
theorem slot_null : Slot none .null := ⟨rfl,rfl⟩

/-- A player's slot with the given content. -/
def setSlot (isP1 : Bool) (slot : Option Action) (session : PvPSessionState) : PvPSessionState :=
  if isP1 then {session with p1Action := slot} else {session with p2Action := slot}

/-- Its field. -/
def slotName (isP1 : Bool) : String := if isP1 then "p1_action" else "p2_action"

/-- Python sees the assignment of a slot in that slot alone. -/
theorem pvpSessionState_assign {uuid4 : UUID} {fields : List (String×Json)}
    (h : pvpSessionState uuid4 (.obj fields)=some session) (hslot : Slot slot value) (isP1 : Bool) :
    pvpSessionState uuid4 (assign (slotName isP1) value (.obj fields))=
      some (setSlot isP1 slot session) := by
  simp only [pvpSessionState,Option.bind_eq_bind,Option.bind_eq_some_iff] at h ⊢
  obtain ⟨gameState,hgame,_,h₁,_,h₂,_,hc,_,hs,_,ha₁,_,ha₂,hsession⟩ := h
  cases hsession
  cases isP1 with
  | true =>
    exact ⟨_,by simpa [slotName] using hgame,_,by simpa [slotName] using h₁,
      _,by simpa [slotName] using h₂,_,by simpa [slotName] using hc,
      _,by simpa [slotName] using hs,_,by simpa [slotName] using hslot.1,
      _,by simpa [slotName] using ha₂,rfl⟩
  | false =>
    exact ⟨_,by simpa [slotName] using hgame,_,by simpa [slotName] using h₁,
      _,by simpa [slotName] using h₂,_,by simpa [slotName] using hc,
      _,by simpa [slotName] using hs,_,by simpa [slotName] using ha₁,
      _,by simpa [slotName] using hslot.1,rfl⟩

/-- So does Go. -/
theorem unmarshalSession_assign {fields : List (String×Json)}
    (h : unmarshalSession (.obj fields)=some (goSession session)) (hslot : Slot slot value)
    (isP1 : Bool) :
    unmarshalSession (assign (slotName isP1) value (.obj fields))=
      some (goSession (setSlot isP1 slot session)) := by
  simp only [unmarshalSession,unmarshalStruct,Option.bind_eq_bind,Option.bind_eq_some_iff] at h
  obtain ⟨gameState,hgame,_,h₁,_,h₂,_,hc,_,hs,_,ha₁,_,ha₂,hsession⟩ := h
  cases hsession
  obtain ⟨fields',hfields⟩ : ∃ fields',assign (slotName isP1) value (.obj fields)=.obj fields' :=
    ⟨_,rfl⟩
  rw [hfields]
  simp only [unmarshalSession,unmarshalStruct,Option.bind_eq_bind,Option.bind_eq_some_iff]
  rw [← hfields]
  cases isP1 with
  | true =>
    exact ⟨_,by simpa [slotName,setSlot] using hgame,_,by simpa [slotName,setSlot] using h₁,
      _,by simpa [slotName,setSlot] using h₂,_,by simpa [slotName,setSlot] using hc,
      _,by simpa [slotName,setSlot] using hs,_,by simpa [slotName,setSlot] using hslot.2,
      _,by simpa [slotName,setSlot] using ha₂,rfl⟩
  | false =>
    exact ⟨_,by simpa [slotName,setSlot] using hgame,_,by simpa [slotName,setSlot] using h₁,
      _,by simpa [slotName,setSlot] using h₂,_,by simpa [slotName,setSlot] using hc,
      _,by simpa [slotName,setSlot] using hs,_,by simpa [slotName,setSlot] using ha₁,
      _,by simpa [slotName,setSlot] using hslot.2,rfl⟩

/-- Assigning a slot changes that slot alone. -/
theorem StoredAs.assign (h : StoredAs session stored) (hslot : Slot slot value) (isP1 : Bool) :
    StoredAs (setSlot isP1 slot session) (assign (slotName isP1) value stored) := by
  obtain ⟨fields,rfl⟩ := h.fields
  have hstate : (setSlot isP1 slot session).gameState=session.gameState := by
    cases isP1 <;> rfl
  have hname : "game_state"≠slotName isP1 := by cases isP1 <;> decide
  constructor
  · exact fun uuid4 => pvpSessionState_assign (h.python uuid4) hslot isP1
  · exact unmarshalSession_assign h.go hslot isP1
  · intro gameState currentRound hgame
    rw [member_assign_ne hname] at hgame
    exact h.written gameState currentRound hgame
  · rw [hstate]
    exact h.small

end Slots

section Agreement

variable {session : PvPSessionState} {stored : Json} {player : UUID}

/-- The end of the abstract store: take out a complete pair. -/
def settle (turnNumber : ℤ) (session : PvPSessionState) : Verdict×PvPSessionState :=
  match session.p1Action,session.p2Action with
  | some p1Action,some p2Action =>
    (.complete turnNumber p1Action p2Action,{session with p1Action := none,p2Action := none})
  | _,_ => (.stored turnNumber,session)

/-- Storing for an open round that can be paid in. -/
theorem store_affordable {round : RoundState} (hs : session.gameState.status=.inProgress)
    (hr : session.gameState.currentRound=some round) {action : Action}
    (hki : ¬(if player=session.player1Id then round.p1Ki else round.p2Ki)<actionKiCost action) :
    store player action session=settle (round.turnNumber+1) (fill player action session) := by
  rw [store,if_neg (not_not.mpr hs),hr]
  dsimp only
  rw [if_neg hki]
  rfl

/-- Filling is setting the player's slot. -/
theorem fill_eq (player : UUID) (action : Action) (session : PvPSessionState) :
    fill player action session=setSlot (player=session.player1Id) (some action) session := by
  unfold fill setSlot
  by_cases h : player=session.player1Id
  · simp [h]
  · simp [h]

/-- The costs of the script are those of the engine. -/
theorem costs_lookup (action : Action) :
    costs.lookup action.value=some (actionKiCost action) := by
  cases action <;> decide

/-- The script's answer to a verdict that reads so, and what is stored then. -/
def Answers (outcome : Option (List Reply×Json)) (verdict : Verdict)
    (session : PvPSessionState) : Prop :=
  ∃ replies stored',outcome=some (replies,stored') ∧ parse replies=some verdict.result ∧
    StoredAs session stored'

/-- The script takes out a complete pair as the others do. -/
theorem takePair_answers (h : StoredAs session stored) (turnNumber : ℤ) :
    Answers (some (takePair stored turnNumber)) (settle turnNumber session).1
      (settle turnNumber session).2 := by
  have hfound := h.found
  have h₁ := hfound.p1Action
  have h₂ := hfound.p2Action
  unfold takePair settle
  rw [h₁,h₂]
  cases hp₁ : session.p1Action with
  | none => exact ⟨_,_,rfl,rfl,h⟩
  | some p1Action =>
    cases hp₂ : session.p2Action with
    | none => exact ⟨_,_,rfl,rfl,h⟩
    | some p2Action =>
      exact ⟨_,_,rfl,rfl,(h.assign slot_null true).assign slot_null false⟩

/-- Equality with a text in the script. -/
theorem isText_str (text text' : String) : isText text (some (.str text'))=decide (text'=text) :=
  rfl

/-- A field of a table is its member. -/
theorem field_obj (name : String) {json : Json} (h : ∃ fields,json=.obj fields) :
    field name (some json)=some (member name json) := by
  obtain ⟨fields,rfl⟩ := h
  rfl

/-- The script for an open round. -/
theorem storeAffordable_answers (h : StoredAs session stored) {round : RoundState} {cr : Json}
    (hs : session.gameState.status=.inProgress)
    (hr : session.gameState.currentRound=some round) (hround : RoundFound round cr)
    (player : UUID) (action : Action) :
    Answers
      (storeAffordable stored cr (player=session.player1Id) action.value (actionKiCost action))
      (store player action session).1 (store player action session).2 := by
  have hki : number (if decide (player=session.player1Id) && truthy (member "p1_ki" cr)
      then member "p1_ki" cr else member "p2_ki" cr)=
        some (if player=session.player1Id then round.p1Ki else round.p2Ki) := by
    rw [hround.p1Ki,hround.p2Ki]
    by_cases hp : player=session.player1Id
    · simp [hp,truthy,number]
    · simp [hp,number]
  have hturn : number (member "turn_number" cr)=some round.turnNumber := by
    rw [hround.turnNumber]
    rfl
  unfold storeAffordable
  simp only [field_obj _ hround.table,Option.bind_eq_bind,Option.bind_some,hki]
  by_cases hlow : (if player=session.player1Id then round.p1Ki else round.p2Ki)<actionKiCost action
  · have hstore : store player action session=
        (.cannotAfford (if player=session.player1Id then round.p1Ki else round.p2Ki),session) := by
      rw [store,if_neg (not_not.mpr hs),hr]
      dsimp only
      rw [if_pos hlow]
    rw [if_pos hlow,hstore]
    exact ⟨_,_,rfl,rfl,h⟩
  · rw [if_neg hlow,store_affordable hs hr hlow]
    simp only [hturn,Option.bind_some]
    have hfill := h.assign (slot_action action) (player=session.player1Id)
    rw [← fill_eq] at hfill
    exact takePair_answers hfill (round.turnNumber+1)

/-- The script stores an action of one of the two players as the abstract store says. -/
theorem submitAction_answers (h : StoredAs session stored)
    (hplayer : player=session.player1Id ∨ player=session.player2Id) (action : Action) :
    Answers (submitAction stored player.text action.value) (store player action session).1
      (store player action session).2 := by
  have hfound := h.found
  obtain ⟨gameState,hm,hgame⟩ := hfound.game
  unfold submitAction
  simp only [field_obj _ hfound.table,field_obj _ hgame.table,hm,Option.bind_eq_bind,
    Option.bind_some]
  have hstatus : isText "in_progress" (member "status" gameState)=
      decide (session.gameState.status=.inProgress) := by
    rw [hgame.status,isText_str]
    cases session.gameState.status <;> decide
  rw [hstatus]
  by_cases hs : session.gameState.status=.inProgress
  · rw [if_neg (by simp [hs])]
    have hround := hgame.round
    cases hr : session.gameState.currentRound with
    | none =>
      rw [hr] at hround
      have hnone : present (member "current_round" gameState)=none := hround
      have hstore : store player action session=(.noRound,session) := by
        rw [store,if_neg (not_not.mpr hs),hr]
      rw [hnone,hstore]
      exact ⟨_,_,rfl,rfl,h⟩
    | some round =>
      rw [hr] at hround
      obtain ⟨cr,hcr,hcr'⟩ := hround
      have h₁ : isText player.text (member "player1_id" stored)=
          decide (player=session.player1Id) := by
        rw [hfound.player1Id,isText_str]
        exact decide_eq_decide.mpr (Identifiers.text_injective.eq_iff.trans eq_comm)
      have h₂ : isText player.text (member "player2_id" stored)=
          decide (player=session.player2Id) := by
        rw [hfound.player2Id,isText_str]
        exact decide_eq_decide.mpr (Identifiers.text_injective.eq_iff.trans eq_comm)
      have hmember : ¬(!decide (player=session.player1Id) && !decide (player=session.player2Id))=
          true := by
        obtain hp | hp := hplayer <;> simp [hp]
      rw [hcr,costs_lookup]
      simp only [h₁,h₂]
      rw [if_neg hmember]
      exact storeAffordable_answers h hs hr hcr' player action
  · rw [if_pos (by simp [hs])]
    have hstore : store player action session=(.notInProgress,session) := by
      rw [store,if_pos hs]
    rw [hstore]
    exact ⟨_,_,rfl,rfl,h⟩

/-- Python's mutator stores as the abstract store does. -/
theorem python_store (hplayer : player=session.player1Id ∨ player=session.player2Id)
    (action : Action) :
    GameSession.storeAction player action .fresh session=
      .ok ((store player action session).1.python action,(store player action session).2) := by
  have hfill : GameSession.storeInSlot player action session=fill player action session := by
    unfold GameSession.storeInSlot fill
    by_cases h₁ : player=session.player1Id
    · rw [if_pos h₁,if_pos h₁]
    · rw [if_neg h₁,if_neg h₁,if_pos (hplayer.resolve_left h₁)]
  unfold GameSession.storeAction
  by_cases hs : session.gameState.status=.inProgress
  · rw [if_neg (not_not.mpr hs)]
    cases hr : session.gameState.currentRound with
    | none =>
      rw [store,if_neg (not_not.mpr hs),hr]
      rfl
    | some round =>
      dsimp only
      have hvalid := OutcomeMatrix.validateAction_iff action
        (if player=session.player1Id then round.p1Ki else round.p2Ki)
      by_cases hlow :
          (if player=session.player1Id then round.p1Ki else round.p2Ki)<actionKiCost action
      · rw [if_pos (hvalid.not.mpr (not_le.mpr hlow)),store,if_neg (not_not.mpr hs),hr]
        dsimp only
        rw [if_pos hlow]
        rfl
      · rw [if_neg (not_not.mpr (hvalid.mpr (not_lt.mp hlow))),store_affordable hs hr hlow,hfill]
        unfold settle
        cases (fill player action session).p1Action with
        | none => rfl
        | some p1Action => cases (fill player action session).p2Action <;> rfl
  · rw [if_pos hs,store,if_pos hs]
    rfl

/-- Go takes out a complete pair as the abstract store does. -/
theorem go_settle (turnNumber : ℤ) (action : Action) (session : PvPSessionState) :
    GoSession.takePair ⟨"",false,"","",turnNumber⟩ (goSession session)=
      ((settle turnNumber session).1.go action,goSession (settle turnNumber session).2) := by
  unfold settle
  obtain ⟨gameState,player1Id,player2Id,connectedPlayers,started,p1Action,p2Action⟩ := session
  cases p1Action with
  | none => rfl
  | some p1 => cases p2Action <;> rfl

/-- So does the Go closure as a whole. -/
theorem go_store (hdistinct : session.player1Id≠session.player2Id)
    (hplayer : player=session.player1Id ∨ player=session.player2Id) (action : Action) :
    GoSession.storeAction player.text action.value .zero (goSession session)=
      .ok ((store player action session).1.go action,
        goSession (store player action session).2) := by
  have htext : ∀ {id id' : UUID},id.text=id'.text ↔ id=id' := Identifiers.text_injective.eq_iff
  unfold GoSession.storeAction
  have hstatus : (goSession session).gameState.status=GoTypes.matchInProgress ↔
      session.gameState.status=.inProgress := by
    change session.gameState.status.value=_ ↔ _
    cases session.gameState.status <;> decide
  by_cases hs : session.gameState.status=.inProgress
  · rw [if_neg (not_not.mpr (hstatus.mpr hs))]
    have hround : (goSession session).gameState.currentRound=
        session.gameState.currentRound.map EngineSimulation.goRoundState := rfl
    cases hr : session.gameState.currentRound with
    | none =>
      rw [hround,hr,store,if_neg (not_not.mpr hs),hr]
      rfl
    | some round =>
      rw [hround,hr]
      -- Go asks for player 2 where the others ask for player 1
      have hki : (if player.text=(goSession session).player2Id
          then (EngineSimulation.goRoundState round).p2Ki
          else (EngineSimulation.goRoundState round).p1Ki)=
            if player=session.player1Id then round.p1Ki else round.p2Ki := by
        change (if player.text=session.player2Id.text then round.p2Ki else round.p1Ki)=_
        obtain rfl | rfl := hplayer
        · rw [if_neg (htext.not.mpr hdistinct),if_pos rfl]
        · rw [if_pos rfl,if_neg hdistinct.symm]
      have hvalid := OutcomeMatrix.validateAction_iff action
        (if player=session.player1Id then round.p1Ki else round.p2Ki)
      rw [← EngineSimulation.validateAction_value] at hvalid
      rw [Option.map_some]
      simp only [hki]
      by_cases hlow :
          (if player=session.player1Id then round.p1Ki else round.p2Ki)<actionKiCost action
      · rw [if_pos (hvalid.not.mpr (not_le.mpr hlow)),store,if_neg (not_not.mpr hs),hr]
        dsimp only
        rw [if_pos hlow]
        rfl
      · rw [if_neg (not_not.mpr (hvalid.mpr (not_lt.mp hlow))),store_affordable hs hr hlow]
        have hsettle := go_settle (round.turnNumber+1) action (fill player action session)
        by_cases h₁ : player=session.player1Id
        · have hfill : goSession (fill player action session)=
              {goSession session with p1Action := some action.value} := by
            rw [fill,if_pos h₁]
            rfl
          rw [hfill] at hsettle
          have hfirst : player.text=(goSession session).player1Id := htext.mpr h₁
          rw [if_pos hfirst]
          exact congrArg Except.ok hsettle
        · have hfill : goSession (fill player action session)=
              {goSession session with p2Action := some action.value} := by
            rw [fill,if_neg h₁]
            rfl
          rw [hfill] at hsettle
          have hnot : player.text≠(goSession session).player1Id := htext.not.mpr h₁
          have hsecond : player.text=(goSession session).player2Id :=
            htext.mpr (hplayer.resolve_left h₁)
          rw [if_neg hnot,if_pos hsecond]
          exact congrArg Except.ok hsettle
  · rw [if_pos (hstatus.not.mpr hs),store,if_pos hs]
    rfl

/-- What both servers write of a valid session is a stored session. Python's mutator, the
Go closure and the script come to the same verdict about an action of one of its two
players and leave the same session, and what the script leaves is stored so again. -/
theorem stores_alike :
    (∀ session : PvPSessionState,InBounds session.gameState → Fits session →
      (∀ round,session.gameState.currentRound=some round → round.turnNumber<2^53) →
      StoredAs session (dumpSession session) ∧
        marshalSession (goSession session)=dumpSession session) ∧
    ∀ (session : PvPSessionState) (stored : Json) (player : UUID) (action : Action),
      StoredAs session stored → session.player1Id≠session.player2Id →
      player=session.player1Id ∨ player=session.player2Id →
      ∃ (verdict : Verdict) (session' : PvPSessionState) (stored' : Json),
        GameSession.storeAction player action .fresh session=
          .ok (verdict.python action,session') ∧
        GoSession.storeAction player.text action.value .zero (goSession session)=
          .ok (verdict.go action,goSession session') ∧
        submitActionAtomic (some stored) player.text action.value=
          some (verdict.result,some stored') ∧ StoredAs session' stored' := by
  constructor
  · intro session hbounds hfits hexact
    exact ⟨storedAs_dump hbounds hfits hexact,marshalSession_eq session⟩
  · intro session stored player action h hdistinct hplayer
    obtain ⟨replies,stored',hscript,hparse,hstored⟩ := submitAction_answers h hplayer action
    refine ⟨_,_,stored',python_store hplayer action,go_store hdistinct hplayer action,?_,hstored⟩
    simp [submitActionAtomic,runScript,hscript,hparse]

/-- The session of two players in which player 1 has charged. -/
def charged : PvPSessionState := {GameStore.Pairing.small.session with p1Action := some .charge}

/-- Player 2 blocks, and all three take the pair out. -/
theorem stores_alike_charged : StoredAs charged (dumpSession charged) ∧
    ∃ (verdict : Verdict) (session' : PvPSessionState) (stored' : Json),
      GameSession.storeAction (.small 2) .block .fresh charged=
        .ok (verdict.python .block,session') ∧
      GoSession.storeAction (UUID.small 2).text Action.block.value .zero (goSession charged)=
        .ok (verdict.go .block,goSession session') ∧
      submitActionAtomic (some (dumpSession charged)) (UUID.small 2).text Action.block.value=
        some (verdict.result,some stored') ∧ StoredAs session' stored' := by
  have hreached : Reached charged.gameState := ⟨.small 0,.pvp,[],.inl rfl⟩
  have hplayed := hreached.played
  have hexact : ∀ round,charged.gameState.currentRound=some round → round.turnNumber<2^53 := by
    intro round hround
    cases hround
    decide
  have hstored := (stores_alike.1 charged hplayed.inBounds hplayed.fits hexact).1
  exact ⟨hstored,stores_alike.2 charged _ (.small 2) .block hstored (by decide) (.inr rfl)⟩

end Agreement

end KiClash.SubmitScript
