import KiClash.Accounts
import KiClash.GrowingWorlds
import Mathlib.Data.List.Nodup
import Mathlib.Data.List.Pairwise

/-!
# Who acts for an account

Whatever requests run against each other, the server acts for a player only if somebody asks
who owns the account: who has been given it as a guest, or has logged in with credentials that
an owner has registered. What a player can log in with is what has been registered last; an
earlier registration is replaced only by one that ran at the same time.
-/

namespace KiClash.AccountOwners

open EngineTypes AsyncTasks GrowingWorlds Accounts

section Texts

/-- Nothing is left out of a text that lacks the first letter. -/
theorem without_of_notMem {c : Char} {part chars : List Char} (h : c∉chars) :
    Purchases.without (c::part) 0 chars=chars := by
  induction chars with
  | nil => rfl
  | cons first chars ih =>
    rw [List.mem_cons,not_or] at h
    have hno : (c::part).isPrefixOf (first::chars)=false := by
      simp [List.isPrefixOf,h.1]
    simp only [Purchases.without,hno,Bool.false_eq_true,if_false,ih h.2]

/-- The letters of an identifier. -/
theorem mem_text {id : UUID} {c : Char} (h : c∈id.text.toList) :
    c= '-' ∨ ∃ digit : Fin 16,c=Nat.digitChar digit.val := by
  simp only [UUID.text,String.toList_ofList,List.mem_append,List.mem_cons] at h
  have hdigits : c= '-' ∨ c∈id.digits.map fun digit => Nat.digitChar digit.val := by
    grind [List.mem_of_mem_take,List.mem_of_mem_drop]
  obtain hhyphen | hmem := hdigits
  · exact .inl hhyphen
  · obtain ⟨digit,-,rfl⟩ := List.mem_map.mp hmem
    exact .inr ⟨digit,rfl⟩

/-- None of them is special to the UUID constructor. -/
theorem text_plain {id : UUID} {c : Char} (h : c∈id.text.toList) : c≠ 'u' ∧ c≠ '{' ∧ c≠ '}' := by
  have hdigit : ∀ digit : Fin 16,Nat.digitChar digit.val≠ 'u' ∧ Nat.digitChar digit.val≠ '{' ∧
      Nat.digitChar digit.val≠ '}' := by decide
  obtain rfl | ⟨digit,rfl⟩ := mem_text h
  · decide
  · exact hdigit digit

/-- The UUID constructor reads the text of an identifier back. -/
theorem uuid_text (id : UUID) : Purchases.uuid id.text=some id := by
  have hu : 'u'∉id.text.toList := fun h => (text_plain h).1 rfl
  have hbrace : ∀ c∈id.text.toList,¬(c= '{' ∨ c= '}') := by
    intro c hc
    obtain ⟨-,hopen,hclose⟩ := text_plain hc
    exact not_or.mpr ⟨hopen,hclose⟩
  have hfirst : ∀ chars : List Char,(∀ c∈chars,¬(c= '{' ∨ c= '}')) →
      chars.dropWhile (fun c => c= '{' || c= '}')=chars := by
    intro chars hchars
    cases chars with
    | nil => rfl
    | cons c chars =>
      rw [List.dropWhile_cons_of_neg]
      simpa using hchars c List.mem_cons_self
  have hread := Identifiers.uuid_text id
  unfold Identifiers.uuid? at hread
  obtain ⟨-,-,hread⟩ := Option.bind_eq_some_iff.mp hread
  obtain ⟨digits,hdigits,hid⟩ := Option.bind_eq_some_iff.mp hread
  have hurn : Purchases.without "urn:".toList 0 id.text.toList=id.text.toList :=
    without_of_notMem hu
  have huuid : Purchases.without "uuid:".toList 0 id.text.toList=id.text.toList :=
    without_of_notMem hu
  unfold Purchases.uuid
  simp only [hurn,huuid]
  rw [hfirst _ hbrace,hfirst _ (fun c hc => hbrace c (List.mem_reverse.mp hc)),List.reverse_reverse,
    hdigits]
  exact hid

/-- The text of an identifier is not empty. -/
theorem text_ne_empty (id : UUID) : id.text≠"" := by
  intro hempty
  have hlength := congrArg (fun text : String => text.toList.length) hempty
  simp [UUID.text] at hlength

end Texts

section Owners

variable {Token : Type} (server : Server Token)

/-- The task has registered these credentials for the player. -/
structure Registers (log : List (Event Token)) (task : ℕ) (arrival : Arrival Token)
    (playerId : UUID) (email passwordHash : String) : Prop where
  /-- It serves this request. -/
  arrived : .arrived task arrival∈log
  /-- The client has chosen them. -/
  request : ∃ token password salt,arrival.request=.register token email password salt ∧
    server.pwdContext.hash salt password=.ok passwordHash
  /-- They have been committed. -/
  committed : .performed task (.commit (some (.register playerId email passwordHash)))∈log

/-- The client owns the account: it has been made for him, or he has logged in with credentials
that an owner has registered for it. -/
inductive Owns (log : List (Event Token)) : ℕ → UUID → Prop
  | created (task : ℕ) (arrival : Arrival Token) (id guestToken : UUID) (displayName : String)
      (harrived : .arrived task arrival∈log)
      (hrequest : arrival.request=.createGuestSession id guestToken displayName) :
    Owns log arrival.client id
  | loggedIn (task : ℕ) (arrival : Arrival Token) (email password : String)
      (harrived : .arrived task arrival∈log) (hrequest : arrival.request=.login email password)
      (task' : ℕ) (arrival' : Arrival Token) (playerId : UUID) (passwordHash : String)
      (hregisters : Registers server log task' arrival' playerId email passwordHash)
      (howner : Owns log arrival'.client playerId)
      (hverify : server.pwdContext.verify password passwordHash=.ok true) :
    Owns log arrival.client playerId

variable {server} {log log' : List (Event Token)}

/-- A registration stays one. -/
theorem Registers.mono (hlog : log⊆log') {task : ℕ} {arrival : Arrival Token} {playerId : UUID}
    {email passwordHash : String}
    (h : Registers server log task arrival playerId email passwordHash) :
    Registers server log' task arrival playerId email passwordHash :=
  ⟨hlog h.arrived,h.request,hlog h.committed⟩

/-- An owner stays one. -/
theorem Owns.mono (hlog : log⊆log') {client : ℕ} {playerId : UUID}
    (h : Owns server log client playerId) : Owns server log' client playerId := by
  induction h with
  | created task arrival id guestToken displayName harrived hrequest =>
    exact .created task arrival id guestToken displayName (hlog harrived) hrequest
  | loggedIn task arrival email password harrived hrequest task' arrival' playerId passwordHash
      hregisters _ hverify ih =>
    exact .loggedIn task arrival email password (hlog harrived) hrequest task' arrival' playerId
      passwordHash (hregisters.mono hlog) ih hverify

/-- The credentials that an event registers. -/
def registration : Event Token → Option (UUID×String×String)
  | .performed _ (.commit (some (.register playerId email passwordHash))) =>
    some (playerId,email,passwordHash)
  | _ => none

/-- What has been registered last for a player. -/
def lastRegistration (log : List (Event Token)) (playerId : UUID) : Option (String×String) :=
  ((log.filterMap registration).filter (·.1=playerId)).getLast?.map Prod.snd

/-- What comes later counts. -/
theorem lastRegistration_append (log log' : List (Event Token)) (playerId : UUID) :
    lastRegistration (log++log') playerId=
      (lastRegistration log' playerId).or (lastRegistration log playerId) := by
  unfold lastRegistration
  rw [List.filterMap_append,List.filter_append,List.getLast?_append,Option.map_or]

/-- What registers nothing for the player does not matter. -/
theorem lastRegistration_other {event : Event Token} {playerId : UUID}
    (h : ∀ credentials,registration event≠some (playerId,credentials)) :
    lastRegistration (log++[event]) playerId=lastRegistration log playerId := by
  have hnone : lastRegistration [event] playerId=none := by
    unfold lastRegistration
    cases hevent : registration event with
    | none => simp [hevent]
    | some registered =>
      obtain ⟨other,credentials⟩ := registered
      have hne : other≠playerId := by
        rintro rfl
        exact h credentials hevent
      simp [hevent,hne]
  rw [lastRegistration_append,hnone,Option.none_or]

/-- A registration is the last one for now. -/
theorem lastRegistration_registered (task : ℕ) (playerId : UUID) (email passwordHash : String) :
    lastRegistration
      (log++[.performed task (.commit (some (.register playerId email passwordHash)))]) playerId=
        some (email,passwordHash) := by
  have hlast : lastRegistration
      [(.performed task (.commit (some (.register playerId email passwordHash))) : Event Token)]
        playerId=some (email,passwordHash) := by
    simp [lastRegistration,registration]
  rw [lastRegistration_append,hlast,Option.some_or]

/-- Where nothing has been registered no event registers anything. -/
theorem lastRegistration_eq_none {playerId : UUID} : lastRegistration log playerId=none ↔
    ∀ event∈log,∀ credentials,registration event≠some (playerId,credentials) := by
  unfold lastRegistration
  rw [Option.map_eq_none_iff,List.getLast?_eq_none_iff,List.filter_eq_nil_iff]
  constructor
  · intro h event hevent credentials hregistration
    have hmem := List.mem_filterMap.mpr ⟨event,hevent,hregistration⟩
    exact h _ hmem (by simp)
  · intro h registered hmem hsame
    obtain ⟨event,hevent,hregistration⟩ := List.mem_filterMap.mp hmem
    obtain ⟨other,credentials⟩ := registered
    rw [decide_eq_true_eq] at hsame
    subst hsame
    exact h event hevent credentials hregistration

/-- What has been registered last has been registered by some task. -/
theorem registered_of_last {playerId : UUID} {email passwordHash : String}
    (h : lastRegistration log playerId=some (email,passwordHash)) :
    ∃ task,.performed task (.commit (some (.register playerId email passwordHash)))∈log := by
  unfold lastRegistration at h
  obtain ⟨⟨other,credentials⟩,hlast,rfl⟩ := Option.map_eq_some_iff.mp h
  have hmem := List.mem_of_getLast? hlast
  rw [List.mem_filter,decide_eq_true_eq] at hmem
  obtain ⟨hin,hsame⟩ := hmem
  dsimp only at hsame
  subst hsame
  obtain ⟨event,hevent,hregistration⟩ := List.mem_filterMap.mp hin
  unfold registration at hregistration
  split at hregistration
  · next task _ _ _ =>
    cases hregistration
    exact ⟨task,hevent⟩
  · cases hregistration

end Owners

section Invariant

variable {Token : Type}

/-- The tokens of a response have been made for its player when the request was served. -/
def Issued (server : Server Token) (log : List (Event Token)) (task client : ℕ)
    (response : TokenResponse Token) : Prop :=
  ∃ arrival,.arrived task arrival∈log ∧ arrival.client=client ∧
    response.accessToken=createAccessToken server arrival.accessAt response.playerId ∧
    response.refreshToken=createRefreshToken server arrival.refreshAt response.playerId

/-- They stay so. -/
theorem Issued.mono {server : Server Token} {log log' : List (Event Token)} (hlog : log⊆log')
    {task client : ℕ} {response : TokenResponse Token}
    (h : Issued server log task client response) : Issued server log' task client response := by
  obtain ⟨arrival,harrived,hrest⟩ := h
  exact ⟨arrival,hlog harrived,hrest⟩

/-- The player has a row. -/
def HasRow (players : List Player) (playerId : UUID) : Prop :=
  ∃ player∈players,player.id=playerId

/-- A registration that follows another one of the same player had loaded him before that one
was committed. -/
def Overlap (log : List (Event Token)) : Prop :=
  ∀ before after task task' playerId email passwordHash email' passwordHash',
    log=before++.performed task (.commit (some (.register playerId email passwordHash)))::after →
    .performed task' (.commit (some (.register playerId email' passwordHash')))∈after →
    .performed task' (.selectById playerId)∈before

/-- What holds of the table and of what has happened. -/
structure Consistent (server : Server Token) (world : World Token) : Prop where
  /-- A player has one row. -/
  ids : (world.players.map Player.id).Nodup
  /-- An email has one player. -/
  emails : ∀ player∈world.players,∀ other∈world.players,∀ email,
    player.email=some email → other.email=some email → other.id=player.id
  /-- The credentials of a player are those that have been registered last. -/
  credentials : ∀ player∈world.players,
    player.email=(lastRegistration world.log player.id).map Prod.fst ∧
      player.passwordHash=(lastRegistration world.log player.id).map Prod.snd
  /-- Who has registered has a row. -/
  rows : ∀ task playerId email passwordHash,
    .performed task (.commit (some (.register playerId email passwordHash)))∈world.log →
    HasRow world.players playerId
  /-- An owner has asked for it. -/
  registrations : ∀ task playerId email passwordHash,
    .performed task (.commit (some (.register playerId email passwordHash)))∈world.log →
    ∃ arrival,Registers server world.log task arrival playerId email passwordHash ∧
      Owns server world.log arrival.client playerId
  /-- Only owners get tokens. -/
  answered : ∀ task client response,.performed task (.answer client response)∈world.log →
    Owns server world.log client response.playerId ∧ Issued server world.log task client response
  /-- They have a row, if the commit comes first. -/
  stored : server.commitsFirst=true → ∀ task client response,
    .performed task (.answer client response)∈world.log → HasRow world.players response.playerId
  /-- A player is loaded for his owners. -/
  loaded : ∀ task playerId,.performed task (.selectById playerId)∈world.log →
    ∃ arrival,.arrived task arrival∈world.log ∧ Owns server world.log arrival.client playerId
  /-- A socket is served as a player whom the client owns. -/
  served : ∀ task client playerId,.performed task (.serve client playerId)∈world.log →
    ∃ id : UUID,playerId=id.text ∧ Owns server world.log client id
  /-- Registrations of one player overlap. -/
  overlap : Overlap world.log
  /-- No identifier is drawn twice. -/
  draws : (world.log.filterMap drawn).Nodup

variable {server : Server Token} {players : List Player} {log : List (Event Token)}
  {event : Event Token}

/-- A log that ends with this event, split somewhere. -/
theorem concat_split {before after : List (Event Token)} {middle : Event Token}
    (h : log++[event]=before++middle::after) :
    after=[] ∧ event=middle ∧ log=before ∨
      ∃ after',after=after'++[event] ∧ log=before++middle::after' := by
  obtain rfl | ⟨after',last,rfl⟩ := List.eq_nil_or_concat' after
  · obtain ⟨hlog,hevent⟩ := List.append_inj' h rfl
    exact .inl ⟨rfl,List.head_eq_of_cons_eq hevent,hlog⟩
  · have hsplit : log++[event]=(before++middle::after')++[last] := by
      rw [h,List.append_assoc,List.cons_append]
    obtain ⟨hlog,hevent⟩ := List.append_inj' hsplit rfl
    exact .inr ⟨after',by rw [List.head_eq_of_cons_eq hevent],hlog⟩

/-- At first there is nothing. -/
theorem initial_consistent : Consistent server ⟨[],[]⟩ := by
  refine ⟨List.nodup_nil,?_,?_,?_,?_,?_,?_,?_,?_,?_,List.nodup_nil⟩
  · exact fun _ hmem => by cases hmem
  · exact fun _ hmem => by cases hmem
  · exact fun _ _ _ _ hmem => by cases hmem
  · exact fun _ _ _ _ hmem => by cases hmem
  · exact fun _ _ _ hmem => by cases hmem
  · exact fun _ _ _ _ hmem => by cases hmem
  · exact fun _ _ hmem => by cases hmem
  · exact fun _ _ _ hmem => by cases hmem
  · intro before after _ _ _ _ _ _ _ hsplit
    cases before <;> cases hsplit

/-- Answers go to owners when one more thing happens, if that does. -/
theorem Consistent.answered_append (h : Consistent server ⟨players,log⟩)
    (hanswer : ∀ task client response,event=.performed task (.answer client response) →
      Owns server log client response.playerId ∧ Issued server log task client response)
    {task client : ℕ} {response : TokenResponse Token}
    (hmem : .performed task (.answer client response)∈log++[event]) :
    Owns server (log++[event]) client response.playerId ∧
      Issued server (log++[event]) task client response := by
  have hsub : log⊆log++[event] := List.subset_append_left _ _
  obtain ⟨howns,hissued⟩ :
      Owns server log client response.playerId ∧ Issued server log task client response := by
    obtain hold | hnew := List.mem_append.mp hmem
    · exact h.answered task client response hold
    · exact hanswer task client response (List.mem_singleton.mp hnew).symm
  exact ⟨howns.mono hsub,hissued.mono hsub⟩

/-- So are players loaded for owners. -/
theorem Consistent.loaded_append (h : Consistent server ⟨players,log⟩)
    (hload : ∀ task playerId,event=.performed task (.selectById playerId) →
      ∃ arrival,.arrived task arrival∈log ∧ Owns server log arrival.client playerId)
    {task : ℕ} {playerId : UUID} (hmem : .performed task (.selectById playerId)∈log++[event]) :
    ∃ arrival,.arrived task arrival∈log++[event] ∧
      Owns server (log++[event]) arrival.client playerId := by
  have hsub : log⊆log++[event] := List.subset_append_left _ _
  obtain ⟨arrival,harrived,howns⟩ :
      ∃ arrival,.arrived task arrival∈log ∧ Owns server log arrival.client playerId := by
    obtain hold | hnew := List.mem_append.mp hmem
    · exact h.loaded task playerId hold
    · exact hload task playerId (List.mem_singleton.mp hnew).symm
  exact ⟨arrival,hsub harrived,howns.mono hsub⟩

/-- So are they served. -/
theorem Consistent.served_append (h : Consistent server ⟨players,log⟩)
    (hserve : ∀ task client playerId,event=.performed task (.serve client playerId) →
      ∃ id : UUID,playerId=id.text ∧ Owns server log client id)
    {task client : ℕ} {playerId : String}
    (hmem : .performed task (.serve client playerId)∈log++[event]) :
    ∃ id : UUID,playerId=id.text ∧ Owns server (log++[event]) client id := by
  have hsub : log⊆log++[event] := List.subset_append_left _ _
  obtain ⟨id,hid,howns⟩ : ∃ id : UUID,playerId=id.text ∧ Owns server log client id := by
    obtain hold | hnew := List.mem_append.mp hmem
    · exact h.served task client playerId hold
    · exact hserve task client playerId (List.mem_singleton.mp hnew).symm
  exact ⟨id,hid,howns.mono hsub⟩

/-- No identifier is drawn twice, if one more is new. -/
theorem Consistent.draws_append (h : Consistent server ⟨players,log⟩)
    (hdraw : ∀ id,drawn event=some id → id∉log.filterMap drawn) :
    ((log++[event]).filterMap drawn).Nodup := by
  have hdraws : (log.filterMap drawn).Nodup := h.draws
  rw [List.filterMap_append]
  cases hdrawn : drawn event with
  | none => simpa [hdrawn] using hdraws
  | some id =>
    have hfresh := hdraw id hdrawn
    have hsingle : [event].filterMap drawn=[id] := by simp [hdrawn]
    rw [hsingle]
    refine List.nodup_append.mpr ⟨hdraws,by simp,fun other hother new hnew => ?_⟩
    rw [List.mem_singleton.mp hnew]
    exact fun heq => hfresh (heq ▸ hother)

/-- Something happens that is no registration. -/
theorem Consistent.append (h : Consistent server ⟨players,log⟩) (hother : registration event=none)
    (hanswer : ∀ task client response,event=.performed task (.answer client response) →
      Owns server log client response.playerId ∧ Issued server log task client response ∧
        (server.commitsFirst=true → HasRow players response.playerId))
    (hload : ∀ task playerId,event=.performed task (.selectById playerId) →
      ∃ arrival,.arrived task arrival∈log ∧ Owns server log arrival.client playerId)
    (hserve : ∀ task client playerId,event=.performed task (.serve client playerId) →
      ∃ id : UUID,playerId=id.text ∧ Owns server log client id)
    (hdraw : ∀ id,drawn event=some id → id∉log.filterMap drawn) :
    Consistent server ⟨players,log++[event]⟩ := by
  have hsub : log⊆log++[event] := List.subset_append_left _ _
  have hlast : ∀ playerId,lastRegistration (log++[event]) playerId=lastRegistration log playerId :=
    fun playerId => lastRegistration_other fun _ hsome => by cases hother.symm.trans hsome
  have hcommit : ∀ task playerId email passwordHash,
      .performed task (.commit (some (.register playerId email passwordHash)))∈log++[event] →
      .performed task (.commit (some (.register playerId email passwordHash)))∈log := by
    intro task playerId email passwordHash hmem
    obtain hold | hnew := List.mem_append.mp hmem
    · exact hold
    · rw [←List.mem_singleton.mp hnew] at hother
      cases hother
  refine ⟨h.ids,h.emails,?_,?_,?_,?_,?_,fun _ _ hmem => h.loaded_append hload hmem,
    fun _ _ _ hmem => h.served_append hserve hmem,?_,h.draws_append hdraw⟩
  · intro player hplayer
    rw [hlast]
    exact h.credentials player hplayer
  · exact fun task playerId email passwordHash hmem =>
      h.rows task playerId email passwordHash (hcommit _ _ _ _ hmem)
  · intro task playerId email passwordHash hmem
    obtain ⟨arrival,hregisters,howns⟩ :=
      h.registrations task playerId email passwordHash (hcommit _ _ _ _ hmem)
    exact ⟨arrival,hregisters.mono hsub,howns.mono hsub⟩
  · intro task client response hmem
    refine h.answered_append (fun task' client' response' hevent => ?_) hmem
    obtain ⟨howns,hissued,-⟩ := hanswer task' client' response' hevent
    exact ⟨howns,hissued⟩
  · intro hfirst task client response hmem
    obtain hold | hnew := List.mem_append.mp hmem
    · exact h.stored hfirst task client response hold
    · exact (hanswer task client response (List.mem_singleton.mp hnew).symm).2.2 hfirst
  · intro before after task task' playerId email passwordHash email' passwordHash' hsplit hlater
    obtain ⟨-,hevent,-⟩ | ⟨after',rfl,hlog⟩ := concat_split hsplit
    · rw [hevent] at hother
      cases hother
    · refine h.overlap before after' task task' playerId email passwordHash email' passwordHash'
        hlog ?_
      obtain hold | hnew := List.mem_append.mp hlater
      · exact hold
      · rw [←List.mem_singleton.mp hnew] at hother
        cases hother

/-- The operation registers, answers, loads and serves nobody. -/
def quiet : AccountOp Token → Bool
  | .selectByEmail _ | .flush _ | .commit none | .commit (some (.insert _)) => true
  | _ => false

/-- Such an operation is only recorded. -/
theorem Consistent.silent {o : AccountOp Token} {world : World Token} {task : ℕ}
    (h : Consistent server world) (ho : quiet o=true) :
    Consistent server ⟨world.players,world.log++[.performed task o]⟩ := by
  refine Consistent.append h ?_ ?_ ?_ ?_ ?_
  · unfold registration
    split
    · next heq =>
      cases heq
      cases ho
    · rfl
  · intro task' client response heq
    cases heq
    cases ho
  · intro task' playerId heq
    cases heq
    cases ho
  · intro task' client playerId heq
    cases heq
    cases ho
  · intro id hdrawn
    cases hdrawn

/-- A guest gets a row. -/
theorem Consistent.insert (h : Consistent server ⟨players,log⟩) {player : Player}
    (hconflicts : conflicts players (.insert player)=false) (hemail : player.email=none)
    (hhash : player.passwordHash=none) : Consistent server ⟨players++[player],log⟩ := by
  have hfresh : ∀ other∈players,other.id≠player.id := by
    intro other hother heq
    have hno := List.any_eq_false.mp hconflicts other hother
    simp [heq] at hno
  refine ⟨?_,?_,?_,?_,h.registrations,h.answered,?_,h.loaded,h.served,h.overlap,h.draws⟩
  · dsimp only
    rw [List.map_append]
    refine List.nodup_append.mpr ⟨h.ids,by simp,?_⟩
    intro id hid new hnew
    obtain ⟨other,hother,rfl⟩ := List.mem_map.mp hid
    rw [List.map_singleton,List.mem_singleton] at hnew
    rw [hnew]
    exact hfresh other hother
  · intro player' hplayer' other hother email hsome hsome'
    obtain hplayer' | hplayer' := List.mem_append.mp hplayer'
    · obtain hother | hother := List.mem_append.mp hother
      · exact h.emails player' hplayer' other hother email hsome hsome'
      · rw [List.mem_singleton.mp hother,hemail] at hsome'
        cases hsome'
    · rw [List.mem_singleton.mp hplayer',hemail] at hsome
      cases hsome
  · intro player' hplayer'
    obtain hplayer' | hplayer' := List.mem_append.mp hplayer'
    · exact h.credentials player' hplayer'
    · rw [List.mem_singleton.mp hplayer',hemail,hhash]
      cases hlast : lastRegistration log player.id with
      | none => exact ⟨rfl,rfl⟩
      | some credentials =>
        -- whoever has registered has a row already
        obtain ⟨task,hmem⟩ := registered_of_last hlast
        obtain ⟨other,hother,hid⟩ := h.rows task player.id _ _ hmem
        exact absurd hid (hfresh other hother)
  · intro task playerId email passwordHash hmem
    obtain ⟨other,hother,hid⟩ := h.rows task playerId email passwordHash hmem
    exact ⟨other,List.mem_append_left _ hother,hid⟩
  · intro hfirst task client response hmem
    obtain ⟨other,hother,hid⟩ := h.stored hfirst task client response hmem
    exact ⟨other,List.mem_append_left _ hother,hid⟩

/-- The task has loaded the player, and nobody had registered him by then. -/
def LoadedFresh (log : List (Event Token)) (task : ℕ) (playerId : UUID) : Prop :=
  ∃ earlier,earlier<+:log ∧ .performed task (.selectById playerId)∈earlier ∧
    lastRegistration earlier playerId=none

@[simp] theorem registered_id (playerId : UUID) (email passwordHash : String) (player : Player) :
    (registered playerId email passwordHash player).id=player.id := by
  unfold registered
  split <;> rfl

/-- What has been loaded before a registration comes before every other one of the player. -/
theorem LoadedFresh.before {before after : List (Event Token)} {task task' : ℕ} {playerId : UUID}
    {email passwordHash : String} (h : LoadedFresh log task playerId)
    (hlog : log=before++
      .performed task' (.commit (some (.register playerId email passwordHash)))::after) :
    .performed task (.selectById playerId)∈before := by
  obtain ⟨earlier,hupto,hload,hnone⟩ := h
  -- at the time of the load there was no registration, so that one is not in `earlier`
  have hnot : .performed task' (.commit (some (.register playerId email passwordHash)))∉earlier :=
    fun hmem => lastRegistration_eq_none.mp hnone _ hmem (email,passwordHash) rfl
  have hupto' : before++
      [.performed task' (.commit (some (.register playerId email passwordHash)))]<+:log :=
    ⟨after,by rw [hlog]; simp⟩
  obtain hle | hge := List.prefix_or_prefix_of_prefix hupto hupto'
  · obtain heq | hle := List.prefix_concat_iff.mp hle
    · rw [heq] at hnot
      exact absurd (List.mem_append_right _ (List.mem_singleton_self _)) hnot
    · exact hle.subset hload
  · exact absurd (hge.subset (List.mem_append_right _ (List.mem_singleton_self _))) hnot

/-- A registration keeps the rows. -/
theorem HasRow.registered {playerId playerId' : UUID} (email passwordHash : String)
    (h : HasRow players playerId') :
    HasRow (players.map (registered playerId email passwordHash)) playerId' := by
  obtain ⟨player,hplayer,hid⟩ := h
  exact ⟨_,List.mem_map_of_mem hplayer,(registered_id _ _ _ _).trans hid⟩

/-- A registration that conflicts with nobody leaves each email to one player. -/
theorem Consistent.emails_registered (h : Consistent server ⟨players,log⟩) {playerId : UUID}
    {email passwordHash : String}
    (hconflicts : conflicts players (.register playerId email passwordHash)=false) :
    ∀ player∈players.map (registered playerId email passwordHash),
      ∀ other∈players.map (registered playerId email passwordHash),∀ email',
        player.email=some email' → other.email=some email' → other.id=player.id := by
  have hother : ∀ player∈players,player.id≠playerId → player.email≠some email := by
    intro player hplayer hid hemail
    have hno := List.any_eq_false.mp hconflicts player hplayer
    simp [hid,hemail] at hno
  intro player' hplayer' other' hother' email' hsome hsome'
  obtain ⟨player,hplayer,rfl⟩ := List.mem_map.mp hplayer'
  obtain ⟨other,hother'',rfl⟩ := List.mem_map.mp hother'
  rw [registered_id,registered_id]
  unfold registered at hsome hsome'
  split at hsome
  · next hid =>
    split at hsome'
    · next hid' => exact hid'.trans hid.symm
    · next hid' =>
      cases hsome
      exact absurd hsome' (hother other hother'' hid')
  · next hid =>
    split at hsome'
    · cases hsome'
      exact absurd hsome (hother player hplayer hid)
    · exact h.emails player hplayer other hother'' email' hsome hsome'

/-- The player has the new credentials, and the others keep theirs. -/
theorem Consistent.credentials_registered (h : Consistent server ⟨players,log⟩) (task : ℕ)
    (playerId : UUID) (email passwordHash : String) :
    ∀ player∈players.map (registered playerId email passwordHash),
      player.email=(lastRegistration (log++
          [.performed task (.commit (some (.register playerId email passwordHash)))])
        player.id).map Prod.fst ∧
      player.passwordHash=(lastRegistration (log++
          [.performed task (.commit (some (.register playerId email passwordHash)))])
        player.id).map Prod.snd := by
  intro player' hplayer'
  obtain ⟨player,hplayer,rfl⟩ := List.mem_map.mp hplayer'
  rw [registered_id]
  unfold registered
  split
  · next hid =>
    rw [hid,lastRegistration_registered]
    exact ⟨rfl,rfl⟩
  · next hid =>
    have hlast : lastRegistration (log++
        [.performed task (.commit (some (.register playerId email passwordHash)))]) player.id=
          lastRegistration log player.id := by
      refine lastRegistration_other fun credentials hsome => hid ?_
      cases hsome
      rfl
    rw [hlast]
    exact h.credentials player hplayer

/-- A player is registered. -/
theorem Consistent.register (h : Consistent server ⟨players,log⟩) {task : ℕ}
    {arrival : Arrival Token} {playerId : UUID} {email passwordHash : String}
    (hconflicts : conflicts players (.register playerId email passwordHash)=false)
    (harrived : .arrived task arrival∈log)
    (hrequest : ∃ token password salt,arrival.request=.register token email password salt ∧
      server.pwdContext.hash salt password=.ok passwordHash)
    (howns : Owns server log arrival.client playerId)
    (hrow : HasRow players playerId) (hfresh : LoadedFresh log task playerId) :
    Consistent server ⟨players.map (registered playerId email passwordHash),
      log++[.performed task (.commit (some (.register playerId email passwordHash)))]⟩ := by
  have hsub : log⊆log++
      [.performed task (.commit (some (.register playerId email passwordHash)))] :=
    List.subset_append_left _ _
  refine ⟨?_,h.emails_registered hconflicts,
    h.credentials_registered task playerId email passwordHash,?_,?_,
    fun _ _ _ hmem => h.answered_append (fun _ _ _ heq => by cases heq) hmem,?_,
    fun _ _ hmem => h.loaded_append (fun _ _ heq => by cases heq) hmem,
    fun _ _ _ hmem => h.served_append (fun _ _ _ heq => by cases heq) hmem,?_,
    h.draws_append fun _ hdrawn => nomatch hdrawn⟩
  · have hids := h.ids
    simpa [Function.comp_def] using hids
  · intro task' playerId' email' passwordHash' hmem
    refine HasRow.registered email passwordHash ?_
    obtain hmem | hmem := List.mem_append.mp hmem
    · exact h.rows task' playerId' email' passwordHash' hmem
    · cases List.mem_singleton.mp hmem
      exact hrow
  · intro task' playerId' email' passwordHash' hmem
    obtain hmem' | hmem' := List.mem_append.mp hmem
    · obtain ⟨arrival',hregisters,howns'⟩ :=
        h.registrations task' playerId' email' passwordHash' hmem'
      exact ⟨arrival',hregisters.mono hsub,howns'.mono hsub⟩
    · cases List.mem_singleton.mp hmem'
      exact ⟨arrival,⟨hsub harrived,hrequest,hmem⟩,howns.mono hsub⟩
  · intro hfirst task' client response hmem
    refine HasRow.registered email passwordHash ?_
    obtain hmem | hmem := List.mem_append.mp hmem
    · exact h.stored hfirst task' client response hmem
    · cases List.mem_singleton.mp hmem
  · intro before after task₁ task₂ playerId' email₁ hash₁ email₂ hash₂ hsplit hlater
    obtain ⟨rfl,-,-⟩ | ⟨after',rfl,hlog⟩ := concat_split hsplit
    · cases hlater
    · obtain hlater | hlater := List.mem_append.mp hlater
      · exact h.overlap before after' task₁ task₂ playerId' email₁ hash₁ email₂ hash₂ hlog hlater
      · cases List.mem_singleton.mp hlater
        exact hfresh.before hlog

/-- What is left of a list without repetitions when one element is sought. -/
theorem eq_singleton_of_nodup {rows : List Player} {player : Player} (hnodup : rows.Nodup)
    (hmem : player∈rows) (honly : ∀ other∈rows,other=player) : rows=[player] := by
  have hreplicate : rows=List.replicate rows.length player :=
    List.eq_replicate_of_mem honly
  have hcount := List.count_eq_one_of_mem hnodup hmem
  rw [hreplicate,List.count_replicate_self] at hcount
  rw [hreplicate,hcount,List.replicate_one]

/-- The query for an email finds the player who has it. -/
theorem filter_email {players : List Player} {log : List (Event Token)}
    (h : Consistent server ⟨players,log⟩) {player : Player} {email : String}
    (hplayer : player∈players) (hemail : player.email=some email) :
    (players.filter fun other => other.email=some email)=[player] := by
  have hnodup : players.Nodup := List.Nodup.of_map _ h.ids
  refine eq_singleton_of_nodup (hnodup.filter _) ?_ fun other hother => ?_
  · exact List.mem_filter.mpr ⟨hplayer,decide_eq_true hemail⟩
  · rw [List.mem_filter,decide_eq_true_eq] at hother
    obtain ⟨hother,hemail'⟩ := hother
    have hid := h.emails player hplayer other hother email hemail hemail'
    exact List.inj_on_of_nodup_map h.ids hother hplayer hid

end Invariant

section Credentials

variable {Token : Type} {server : Server Token} {world : World Token} {token : Token}

/-- An owner has registered the email and the password of the player. -/
def Known (server : Server Token) (log : List (Event Token)) (email : String) (player : Player) :
    Prop :=
  ∃ task arrival passwordHash,player.passwordHash=some passwordHash ∧
    Registers server log task arrival player.id email passwordHash ∧
    Owns server log arrival.client player.id

/-- It stays known. -/
theorem Known.mono {log log' : List (Event Token)} (hlog : log⊆log') {email : String}
    {player : Player} (h : Known server log email player) : Known server log' email player := by
  obtain ⟨task',arrival,passwordHash,hhash,hregisters,howns⟩ := h
  exact ⟨task',arrival,passwordHash,hhash,hregisters.mono hlog,howns.mono hlog⟩

/-- The client has received the token, or it bears no signature. -/
def Presented (server : Server Token) (log : List (Event Token)) (client : ℕ) (token : Token) :
    Prop :=
  ((server.jwt.signed token).isOk || (server.jwt.parsed token).isOk)=true → ∃ task response,
    .performed task (.answer client response)∈log ∧
      (response.accessToken=token ∨ response.refreshToken=token)

/-- The request has arrived, and its client may present its token. -/
structure Admits (server : Server Token) (task : ℕ) (arrival : Arrival Token)
    (world : World Token) : Prop where
  /-- It has arrived. -/
  arrived : .arrived task arrival∈world.log
  /-- Its token. -/
  presented : ∀ token,arrival.request.token=some token →
    Presented server world.log arrival.client token

/-- What a token of the server is worth to verify_token. -/
theorem verifyToken_made {payload : Payload} {playerId : UUID} {expectedType : String}
    (hsub : payload.sub=some playerId.text) (htype : payload.type=some expectedType) (now : ℤ) :
    verifyToken server now (server.jwt.encode payload) expectedType=.ok playerId ↔
      now≤payload.exp := by
  unfold verifyToken decode
  rw [server.jwt.signed_encode]
  dsimp only
  split
  · next hexpired =>
    refine ⟨fun hok => ?_,fun hle => absurd hexpired (Int.not_lt.mpr hle)⟩
    cases hok
  · next hvalid =>
    refine ⟨fun _ => Int.not_lt.mp hvalid,fun _ => ?_⟩
    simp only [bind,Except.bind,htype,ne_eq,not_true_eq_false,if_false,hsub,uuid_text]

/-- What it is worth to the other server. -/
theorem verifyAccessToken_made [DecidableEq Token] {payload : Payload} {playerId : UUID}
    (hsub : payload.sub=some playerId.text) (htype : payload.type=some "access") (now : ℤ) :
    verifyAccessToken server now (server.jwt.encode payload)=.ok playerId.text ↔
      now<payload.exp := by
  unfold verifyAccessToken parseWithClaims
  rw [if_neg (server.jwt.encode_ne_empty payload),server.jwt.parsed_encode]
  dsimp only
  by_cases hvalid : now<payload.exp
  · rw [if_pos hvalid]
    simp only [htype,hsub,Option.getD_some,ne_eq,not_true_eq_false,if_false,text_ne_empty,hvalid]
  · rw [if_neg hvalid]
    refine ⟨fun hok => ?_,fun hlt => absurd hlt hvalid⟩
    cases hok

/-- A token that is presented, if it is signed, has been made for an owner. -/
theorem Presented.made {client : ℕ} (h : Consistent server world)
    (hpresented : Presented server world.log client token)
    (hsigned : ((server.jwt.signed token).isOk || (server.jwt.parsed token).isOk)=true) :
    ∃ payload playerId,token=server.jwt.encode payload ∧ payload.sub=some playerId.text ∧
      Owns server world.log client playerId := by
  obtain ⟨task,response,hanswer,htoken⟩ := hpresented hsigned
  obtain ⟨howns,arrival,-,-,haccess,hrefresh⟩ := h.answered task client response hanswer
  obtain rfl | rfl := htoken
  · exact ⟨_,response.playerId,haccess,rfl,howns⟩
  · exact ⟨_,response.playerId,hrefresh,rfl,howns⟩

/-- A token that is accepted is one of an owner. -/
theorem verifyToken_owns {now : ℤ} {expectedType : String} {playerId : UUID} {client : ℕ}
    (h : Consistent server world) (hpresented : Presented server world.log client token)
    (hverify : verifyToken server now token expectedType=.ok playerId) :
    Owns server world.log client playerId := by
  unfold verifyToken decode at hverify
  cases hsigned : server.jwt.signed token with
  | error message =>
    rw [hsigned] at hverify
    cases hverify
  | ok payload =>
    obtain ⟨payload',owned,rfl,hsub,howns⟩ := hpresented.made h (by rw [hsigned]; rfl)
    cases hsigned.symm.trans (server.jwt.signed_encode payload')
    rw [hsigned] at hverify
    dsimp only at hverify
    split at hverify
    · cases hverify
    · simp only [bind,Except.bind] at hverify
      split at hverify
      · cases hverify
      · rw [hsub] at hverify
        dsimp only at hverify
        rw [uuid_text] at hverify
        cases hverify
        exact howns

/-- So is one that the other server accepts. -/
theorem verifyAccessToken_owns [DecidableEq Token] {now : ℤ} {playerId : String} {client : ℕ}
    (h : Consistent server world) (hpresented : Presented server world.log client token)
    (hverify : verifyAccessToken server now token=.ok playerId) :
    ∃ id : UUID,playerId=id.text ∧ Owns server world.log client id := by
  unfold verifyAccessToken parseWithClaims at hverify
  split at hverify
  · cases hverify
  · cases hparsed : server.jwt.parsed token with
    | error message =>
      rw [hparsed] at hverify
      cases hverify
    | ok payload =>
      obtain ⟨payload',owned,rfl,hsub,howns⟩ :=
        hpresented.made h (by rw [hparsed]; simp [Except.isOk,Except.toBool])
      cases hparsed.symm.trans (server.jwt.parsed_encode payload')
      rw [hparsed] at hverify
      dsimp only at hverify
      by_cases hexp : now<payload.exp
      · rw [if_pos hexp] at hverify
        dsimp only at hverify
        split at hverify
        · cases hverify
        · rw [hsub,Option.getD_some] at hverify
          split at hverify
          · cases hverify
          · cases hverify
            exact ⟨owned,rfl,howns⟩
      · rw [if_neg hexp] at hverify
        cases hverify

end Credentials

section Growth

variable {Token : Type} [DecidableEq Token] (server : Server Token)

/-- The log grows at its end, and no row is deleted. -/
def accounts : Growth (requests server) where
  Grows world world' := world.log<+:world'.log ∧
    ∀ player∈world.players,∃ player'∈world'.players,player'.id=player.id
  Holds := Consistent server
  Admits := Admits server
  refl _ := ⟨List.prefix_rfl,fun player hplayer => ⟨player,hplayer,rfl⟩⟩
  trans h h' := ⟨h.1.trans h'.1,fun player hplayer => by
    obtain ⟨player',hplayer',hid⟩ := h.2 player hplayer
    obtain ⟨player'',hplayer'',hid'⟩ := h'.2 player' hplayer'
    exact ⟨player'',hplayer'',hid'.trans hid⟩⟩

variable {server} {world : World Token} {task : ℕ}

/-- An operation, judged by what it does when it takes effect. -/
theorem sound_op {o : AccountOp Token} {Q : o.Res → World Token → Prop}
    (h : ∀ world',(accounts server).Grows world world' → Consistent server world' →
      ∀ players res,effect world'.players o=(players,.ok res) →
        Consistent server ⟨players,world'.log++[.performed task o]⟩ ∧
        (∀ player∈world'.players,∃ player'∈players,player'.id=player.id) ∧
        ∀ later,(accounts server).Grows ⟨players,world'.log++[.performed task o]⟩ later →
          Consistent server later → Q res later) :
    Sound (accounts server) task (perform o) Q world := by
  refine sound_perform fun world' hgrows hholds choice fresh world'' r started hperform => ?_
  cases hperform' : effect world'.players o with
  | mk players result =>
    have hidle : ∀ exc,(world',(.error exc : Except Exc o.Res),(none : Option (Arrival Token)))=
        (world'',r,started) → started=none ∧ Consistent server world'' ∧
          (accounts server).Grows world' world'' ∧ ∀ a,r=.ok a → ∀ later,
            (accounts server).Grows world'' later → Consistent server later → Q a later := by
      intro exc heq
      cases heq
      exact ⟨rfl,hholds,(accounts server).refl world',fun a ha => by cases ha⟩
    cases result with
    | error exc =>
      have hafter : world'.after task o=(world',.error exc) := by
        simp only [World.after,hperform']
      cases choice with
      | proceeds =>
        refine hidle exc ?_
        simpa [hafter] using hperform
      | failsBefore => exact hidle .databaseError (Option.some.inj hperform)
      | failsAfter =>
        refine hidle .databaseError ?_
        simpa [hafter] using hperform
    | ok res =>
      have hafter : world'.after task o=
          (⟨players,world'.log++[.performed task o]⟩,.ok res) := by
        simp only [World.after,hperform']
      obtain ⟨hholds',hkept,hright⟩ := h world' hgrows hholds players res hperform'
      have hgrows' : (accounts server).Grows world' ⟨players,world'.log++[.performed task o]⟩ :=
        ⟨List.prefix_append _ _,hkept⟩
      cases choice with
      | proceeds =>
        simp only [hafter,Option.some.injEq,Prod.mk.injEq] at hperform
        obtain ⟨rfl,rfl,rfl⟩ := hperform
        exact ⟨rfl,hholds',hgrows',fun a ha => by cases ha; exact hright⟩
      | failsBefore => exact hidle .databaseError (Option.some.inj hperform)
      | failsAfter =>
        simp only [hafter,Option.some.injEq,Prod.mk.injEq] at hperform
        obtain ⟨rfl,rfl,rfl⟩ := hperform
        exact ⟨rfl,hholds',hgrows',fun a ha => by cases ha⟩

/-- A row stays. -/
theorem HasRow.grows {world' : World Token} {playerId : UUID} (h : HasRow world.players playerId)
    (hgrows : (accounts server).Grows world world') : HasRow world'.players playerId := by
  obtain ⟨row,hrow,hid⟩ := h
  obtain ⟨row',hrow',hid'⟩ := hgrows.2 row hrow
  exact ⟨row',hrow',hid'.trans hid⟩

/-- The rows are kept. -/
theorem kept_self (players : List Player) :
    ∀ player∈players,∃ player'∈players,player'.id=player.id :=
  fun player hplayer => ⟨player,hplayer,rfl⟩

/-- An event that leaves the table alone. -/
theorem grows_event (world : World Token) (event : Event Token) :
    (accounts server).Grows world ⟨world.players,world.log++[event]⟩ :=
  ⟨List.prefix_append _ _,kept_self _⟩

end Growth

section Operations

variable {Token : Type} [DecidableEq Token] {server : Server Token} {world : World Token} {task : ℕ}

/-- A player is loaded for an owner. Of a player without an email it is known that nobody has
registered him before. -/
theorem sound_selectById {playerId : UUID}
    (h : ∃ arrival,.arrived task arrival∈world.log ∧
      Owns server world.log arrival.client playerId) :
    Sound (accounts server) task (perform (.selectById playerId)) (fun found later =>
      ∀ player,found=some player → player.id=playerId ∧
        HasRow later.players playerId ∧
        (player.email=none → LoadedFresh later.log task playerId)) world := by
  refine sound_op fun world' hgrows hholds players res heffect => ?_
  cases heffect
  obtain ⟨arrival,harrived,howns⟩ := h
  refine ⟨?_,kept_self _,?_⟩
  · refine Consistent.append hholds rfl (fun _ _ _ heq => by cases heq) ?_
      (fun _ _ _ heq => by cases heq) fun _ heq => by cases heq
    intro task' playerId' heq
    cases heq
    exact ⟨arrival,hgrows.1.subset harrived,howns.mono hgrows.1.subset⟩
  · intro later hlater _ player hfound
    have hmem := List.mem_of_find?_eq_some hfound
    have hid : player.id=playerId := by simpa using List.find?_some hfound
    have hrow : HasRow world'.players playerId := ⟨player,hmem,hid⟩
    have hgrown := (accounts server).trans (grows_event world' _) hlater
    refine ⟨hid,hrow.grows hgrown,fun hemail => ?_⟩
    refine ⟨_,hlater.1,List.mem_append_right _ (List.mem_singleton_self _),?_⟩
    have hcredentials := (hholds.credentials player hmem).1
    rw [hemail,hid] at hcredentials
    rw [lastRegistration_other fun _ heq => by cases heq]
    exact Option.map_eq_none_iff.mp hcredentials.symm

/-- The players with an email have been registered with it by an owner. -/
theorem sound_selectByEmail (email : String) :
    Sound (accounts server) task (perform (.selectByEmail email)) (fun found later =>
      ∀ player∈found,Known server later.log email player ∧ HasRow later.players player.id)
      world := by
  refine sound_op fun world' hgrows hholds players res heffect => ?_
  cases heffect
  refine ⟨hholds.silent rfl,kept_self _,?_⟩
  intro later hlater _ player hfound
  rw [List.mem_filter,decide_eq_true_eq] at hfound
  obtain ⟨hmem,hemail⟩ := hfound
  have hcredentials := hholds.credentials player hmem
  rw [hemail] at hcredentials
  cases hlast : lastRegistration world'.log player.id with
  | none =>
    rw [hlast] at hcredentials
    cases hcredentials.1
  | some credentials =>
    obtain ⟨email',passwordHash⟩ := credentials
    rw [hlast] at hcredentials
    obtain ⟨hsame,hhash⟩ := hcredentials
    cases hsame
    obtain ⟨task',hcommitted⟩ := registered_of_last hlast
    obtain ⟨arrival,hregisters,howns⟩ := hholds.registrations task' player.id _ _ hcommitted
    have hsub := ((List.prefix_append _ _).trans hlater.1).subset
    have hrow : HasRow world'.players player.id := ⟨player,hmem,rfl⟩
    have hgrown := (accounts server).trans (grows_event world' _) hlater
    exact ⟨⟨task',arrival,passwordHash,hhash,hregisters.mono hsub,howns.mono hsub⟩,
      hrow.grows hgrown⟩

/-- A flush changes nothing. -/
theorem sound_flush (write : Write) :
    Sound (accounts server) task (perform (.flush write)) (fun _ _ => True) world := by
  refine sound_op fun world' hgrows hholds players res heffect => ?_
  simp only [effect] at heffect
  split at heffect
  · cases heffect
  · cases heffect
    exact ⟨hholds.silent rfl,kept_self _,fun _ _ _ => True.intro⟩

/-- A commit without a write. -/
theorem sound_commit_none {Q : World Token → Prop}
    (h : ∀ later,(accounts server).Grows world later → Q later) :
    Sound (accounts server) task (perform (.commit none)) (fun _ => Q) world := by
  refine sound_op fun world' hgrows hholds players res heffect => ?_
  cases heffect
  refine ⟨hholds.silent rfl,kept_self _,fun later hlater _ => h later ?_⟩
  exact (accounts server).trans hgrows
    ((accounts server).trans (grows_event world' _) hlater)

/-- The commit of a guest. -/
theorem sound_commit_insert {player : Player} (hemail : player.email=none)
    (hhash : player.passwordHash=none) :
    Sound (accounts server) task (perform (.commit (some (.insert player))))
      (fun _ later => HasRow later.players player.id) world := by
  refine sound_op fun world' hgrows hholds players res heffect => ?_
  simp only [effect] at heffect
  split at heffect
  · cases heffect
  · next hconflicts =>
    cases heffect
    rw [Bool.not_eq_true] at hconflicts
    have hinserted := Consistent.insert hholds hconflicts hemail hhash
    have hrow : HasRow (world'.players++[player]) player.id :=
      ⟨player,List.mem_append_right _ (List.mem_singleton_self player),rfl⟩
    refine ⟨hinserted.silent rfl,?_,fun later hlater _ => HasRow.grows hrow hlater⟩
    exact fun other hother => ⟨other,List.mem_append_left _ hother,rfl⟩

/-- The commit of a registration. -/
theorem sound_commit_register {arrival : Arrival Token} {playerId : UUID}
    {email passwordHash : String} (harrived : .arrived task arrival∈world.log)
    (hrequest : ∃ token password salt,arrival.request=.register token email password salt ∧
      server.pwdContext.hash salt password=.ok passwordHash)
    (howns : Owns server world.log arrival.client playerId)
    (hrow : HasRow world.players playerId) (hfresh : LoadedFresh world.log task playerId) :
    Sound (accounts server) task (perform (.commit (some (.register playerId email passwordHash))))
      (fun _ later => HasRow later.players playerId) world := by
  refine sound_op fun world' hgrows hholds players res heffect => ?_
  simp only [effect] at heffect
  split at heffect
  · cases heffect
  · next hconflicts =>
    cases heffect
    rw [Bool.not_eq_true] at hconflicts
    obtain ⟨row,hmem,hid⟩ := hrow.grows hgrows
    obtain ⟨earlier,hupto,hload,hnone⟩ := hfresh
    have hkept : ∀ player∈world'.players,
        ∃ player'∈world'.players.map (registered playerId email passwordHash),
          player'.id=player.id :=
      fun player hplayer => ⟨_,List.mem_map_of_mem hplayer,registered_id _ _ _ _⟩
    refine ⟨Consistent.register hholds hconflicts (hgrows.1.subset harrived) hrequest
      (howns.mono hgrows.1.subset) ⟨row,hmem,hid⟩
      ⟨earlier,hupto.trans hgrows.1,hload,hnone⟩,hkept,fun later hlater _ => ?_⟩
    obtain ⟨row',hmem',hid'⟩ := hkept row hmem
    exact HasRow.grows ⟨row',hmem',hid'.trans hid⟩ hlater

/-- An answer to an owner. -/
theorem sound_answer {arrival : Arrival Token} {player : Player}
    (harrived : .arrived task arrival∈world.log)
    (howns : Owns server world.log arrival.client player.id)
    (hrow : server.commitsFirst=true → HasRow world.players player.id) :
    Sound (accounts server) task
      (perform (.answer arrival.client
        (tokenResponse server arrival.accessAt arrival.refreshAt player)))
      (fun _ _ => True) world := by
  refine sound_op fun world' hgrows hholds players res heffect => ?_
  cases heffect
  refine ⟨Consistent.append hholds rfl ?_ (fun _ _ heq => by cases heq)
    (fun _ _ _ heq => by cases heq) (fun _ heq => by cases heq),
    kept_self _,fun _ _ _ => True.intro⟩
  intro task' client' response heq
  cases heq
  exact ⟨howns.mono hgrows.1.subset,⟨arrival,hgrows.1.subset harrived,rfl,rfl,rfl⟩,
    fun hfirst => (hrow hfirst).grows hgrows⟩

/-- A socket of an owner. -/
theorem sound_serve {client : ℕ} {playerId : String}
    (howns : ∃ id : UUID,playerId=id.text ∧ Owns server world.log client id) :
    Sound (accounts server) task (perform (.serve client playerId)) (fun _ _ => True) world := by
  refine sound_op fun world' hgrows hholds players res heffect => ?_
  cases heffect
  refine ⟨Consistent.append hholds rfl (fun _ _ _ heq => by cases heq)
    (fun _ _ heq => by cases heq) ?_ (fun _ heq => by cases heq),kept_self _,
    fun _ _ _ => True.intro⟩
  intro task' client' playerId' heq
  cases heq
  obtain ⟨id,hid,howns⟩ := howns
  exact ⟨id,hid,howns.mono hgrows.1.subset⟩

end Operations

section Endpoints

variable {Token : Type} [DecidableEq Token] {server : Server Token} {world : World Token} {task : ℕ}
  {arrival : Arrival Token} {token : Token}

/-- A result whose exception is renamed. -/
theorem mapError_eq_ok {α ε ε' : Type} {f : ε → ε'} {result : Except ε α} {a : α} :
    result.mapError f=.ok a ↔ result=.ok a := by
  cases result <;> simp [Except.mapError]

/-- A check that the program makes on its own. -/
theorem sound_ofExcept {α : Type} {result : Except Exc α} {Q : α → World Token → Prop}
    (h : ∀ a,result=.ok a → ∀ later,(accounts server).Grows world later →
      Consistent server later → Q a later) :
    Sound (accounts server) task (ofExcept result) Q world := by
  cases result with
  | error exc => exact sound_raise
  | ok a => exact sound_pure (h a rfl)

/-- A token stays presented. -/
theorem Presented.grows {world' : World Token}
    (h : Presented server world.log arrival.client token)
    (hgrows : (accounts server).Grows world world') :
    Presented server world'.log arrival.client token := by
  intro hsigned
  obtain ⟨task',response,hanswer,htoken⟩ := h hsigned
  exact ⟨task',response,hgrows.1.subset hanswer,htoken⟩

/-- A token is verified. -/
theorem sound_verifyToken {now : ℤ} {expectedType : String}
    (hpresented : Presented server world.log arrival.client token) :
    Sound (accounts server) task (ofExcept (verifyToken server now token expectedType))
      (fun playerId later => Owns server later.log arrival.client playerId) world := by
  refine sound_ofExcept fun playerId hverify later hgrows hholds => ?_
  exact verifyToken_owns hholds (hpresented.grows hgrows) hverify

/-- A token is verified by the other server. -/
theorem sound_verifyAccessToken {now : ℤ}
    (hpresented : Presented server world.log arrival.client token) :
    Sound (accounts server) task (ofExcept ((verifyAccessToken server now token).mapError
        fun message => .unauthorized ("unauthorized: "++message)))
      (fun playerId later => ∃ id : UUID,playerId=id.text ∧
        Owns server later.log arrival.client id) world := by
  refine sound_ofExcept fun playerId hverify later hgrows hholds => ?_
  exact verifyAccessToken_owns hholds (hpresented.grows hgrows) (mapError_eq_ok.mp hverify)

/-- What a request knows of the player that it has loaded. -/
structure Loaded (server : Server Token) (task client : ℕ) (player : Player)
    (world : World Token) : Prop where
  /-- The client owns the account. -/
  owns : Owns server world.log client player.id
  /-- It has a row. -/
  row : HasRow world.players player.id
  /-- Without an email it has not been registered before. -/
  fresh : player.email=none → LoadedFresh world.log task player.id

/-- It knows it from then on. -/
theorem Loaded.grows {client : ℕ} {player : Player} {world' : World Token}
    (h : Loaded server task client player world) (hgrows : (accounts server).Grows world world') :
    Loaded server task client player world' := by
  obtain ⟨howns,hrow,hfresh⟩ := h
  refine ⟨howns.mono hgrows.1.subset,hrow.grows hgrows,fun hemail => ?_⟩
  obtain ⟨earlier,hupto,hload,hnone⟩ := hfresh hemail
  exact ⟨earlier,hupto.trans hgrows.1,hload,hnone⟩

/-- get_current_player. -/
theorem sound_getCurrentPlayer {now : ℤ} (harrived : .arrived task arrival∈world.log)
    (hpresented : Presented server world.log arrival.client token) :
    Sound (accounts server) task (getCurrentPlayer server now token)
      (fun player later => Loaded server task arrival.client player later) world := by
  refine (sound_verifyToken hpresented).bind fun playerId world₁ hgrows₁ _ howns => ?_
  refine (sound_selectById ⟨arrival,hgrows₁.1.subset harrived,howns⟩).bind
    fun found world₂ hgrows₂ _ hfound => ?_
  cases found with
  | none => exact sound_raise
  | some player =>
    obtain ⟨hid,hrow,hfresh⟩ := hfound player rfl
    refine sound_pure fun later hlater _ => Loaded.grows ?_ hlater
    rw [←hid] at howns hrow hfresh
    exact ⟨howns.mono hgrows₂.1.subset,hrow,hfresh⟩

/-- The response to an owner, before or after the commit. -/
theorem sound_respond {player : Player} {write : Option Write}
    (harrived : .arrived task arrival∈world.log)
    (howns : Owns server world.log arrival.client player.id)
    (hcommit : ∀ later,(accounts server).Grows world later →
      Sound (accounts server) task (perform (.commit write))
        (fun _ after => HasRow after.players player.id) later) :
    Sound (accounts server) task (respond server arrival player write)
      (fun _ _ => True) world := by
  unfold respond
  dsimp only
  split
  · refine (hcommit world ((accounts server).refl world)).bind fun _ later hlater _ hrow => ?_
    exact sound_answer (hlater.1.subset harrived) (howns.mono hlater.1.subset) fun _ => hrow
  · next hlast =>
    refine (sound_answer harrived howns fun hfirst => absurd hfirst hlast).bind
      fun _ later hlater _ _ => ?_
    exact (hcommit later hlater).consequence fun _ _ _ => True.intro

/-- create_guest. -/
theorem sound_createGuest (id guestToken : UUID) (displayName : String) :
    Sound (accounts server) task (createGuest id guestToken displayName)
      (fun player _ => player=⟨id,guestToken,none,none,displayName⟩) world :=
  (sound_flush _).bind fun _ _ _ _ _ => sound_pure fun _ _ _ => rfl

/-- scalar_one_or_none returns one of the rows. -/
theorem sound_scalarOneOrNone {rows : List Player} {Q : Option Player → World Token → Prop}
    (h : ∀ found,(∀ player,found=some player → player∈rows) →
      ∀ later,(accounts server).Grows world later → Q found later) :
    Sound (accounts server) task (scalarOneOrNone rows) Q world := by
  rcases rows with _ | ⟨first,_ | ⟨second,rows⟩⟩
  · refine sound_pure fun later hlater _ => h none (fun player hfound => ?_) later hlater
    cases hfound
  · refine sound_pure fun later hlater _ => h (some first) (fun player hfound => ?_) later hlater
    cases hfound
    exact List.mem_singleton_self first
  · exact sound_raise

/-- The player with an email. -/
theorem sound_lookup (email : String) :
    Sound (accounts server) task (perform (.selectByEmail email) >>= scalarOneOrNone)
      (fun found later => ∀ player,found=some player →
        Known server later.log email player ∧ HasRow later.players player.id) world := by
  refine (sound_selectByEmail email).bind fun rows world₁ _ _ hrows => ?_
  refine sound_scalarOneOrNone fun found hfound later hlater player hplayer => ?_
  obtain ⟨hknown,hrow⟩ := hrows player (hfound player hplayer)
  exact ⟨hknown.mono hlater.1.subset,hrow.grows hlater⟩

/-- register_player gives the player, who has had no email, his credentials. -/
theorem sound_registerPlayer (player : Player) (email password : String) (salt : ℕ) :
    Sound (accounts server) task (registerPlayer server player email password salt)
      (fun player' _ => player.email=none ∧ ∃ passwordHash,
        server.pwdContext.hash salt password=.ok passwordHash ∧
        player'={player with email := some email,passwordHash := some passwordHash}) world := by
  unfold registerPlayer
  split
  · exact sound_raise
  · next hnone =>
    rw [Option.not_isSome_iff_eq_none] at hnone
    refine (sound_lookup email).bind fun existing world₁ _ _ _ => ?_
    split
    · exact sound_raise
    · refine Sound.bind (Q := fun passwordHash _ =>
        server.pwdContext.hash salt password=.ok passwordHash) (sound_ofExcept ?_)
        fun passwordHash _ _ _ hhash => ?_
      · exact fun passwordHash hhash _ _ _ => mapError_eq_ok.mp hhash
      · exact (sound_flush _).bind fun _ _ _ _ _ => sound_pure fun _ _ _ =>
          ⟨hnone,passwordHash,hhash,rfl⟩

/-- authenticate_by_email finds a player for credentials that an owner has registered. -/
theorem sound_authenticateByEmail (email password : String) :
    Sound (accounts server) task (authenticateByEmail server email password)
      (fun found later => ∀ player,found=some player → ∃ task' arrival' passwordHash,
        Registers server later.log task' arrival' player.id email passwordHash ∧
        Owns server later.log arrival'.client player.id ∧
        server.pwdContext.verify password passwordHash=.ok true ∧
        HasRow later.players player.id) world := by
  unfold authenticateByEmail
  refine (sound_lookup email).bind fun found world₁ _ _ hfound => ?_
  cases found with
  | none => exact sound_pure fun _ _ _ player hplayer => by cases hplayer
  | some player =>
    obtain ⟨⟨task',arrival',passwordHash,hhash,hregisters,howns⟩,hrow⟩ := hfound player rfl
    dsimp only
    rw [hhash]
    refine Sound.bind (Q := fun verified _ =>
      server.pwdContext.verify password passwordHash=.ok verified) (sound_ofExcept ?_)
      fun verified world₂ hgrows₂ _ hverify => ?_
    · exact fun verified hverify _ _ _ => mapError_eq_ok.mp hverify
    · refine sound_pure fun later hlater _ player' hplayer' => ?_
      split at hplayer'
      · next hverified =>
        cases hplayer'
        rw [hverified] at hverify
        have hsub := (hgrows₂.1.trans hlater.1).subset
        exact ⟨task',arrival',passwordHash,hregisters.mono hsub,howns.mono hsub,hverify,
          (hrow.grows hgrows₂).grows hlater⟩
      · cases hplayer'

/-- The endpoint of a request that has arrived with such a token. -/
theorem sound_handler (harrived : .arrived task arrival∈world.log)
    (hpresented : ∀ token,arrival.request.token=some token →
      Presented server world.log arrival.client token) :
    Sound (accounts server) task (handler server arrival) (fun _ _ => True) world := by
  unfold handler
  cases hrequest : arrival.request with
  | createGuestSession id guestToken displayName =>
    refine (sound_createGuest id guestToken displayName).bind
      fun player world₁ hgrows₁ _ hplayer => ?_
    subst hplayer
    refine sound_respond (hgrows₁.1.subset harrived) ?_ fun _ _ => sound_commit_insert rfl rfl
    exact .created task arrival id guestToken displayName (hgrows₁.1.subset harrived) hrequest
  | register token email password salt =>
    have htoken := hpresented token (by rw [hrequest]; rfl)
    refine (sound_getCurrentPlayer harrived htoken).bind fun player world₁ hgrows₁ _ hloaded => ?_
    refine Sound.bind (Sound.handle (sound_registerPlayer player email password salt) ?_) ?_
    · intro exc later _
      cases exc <;> exact sound_raise
    · intro player' world₂ hgrows₂ _ hplayer'
      obtain ⟨hemail,passwordHash,hhash,rfl⟩ := hplayer'
      have hloaded' := hloaded.grows hgrows₂
      have harrived' := (hgrows₁.1.trans hgrows₂.1).subset harrived
      refine sound_respond harrived' hloaded'.owns fun later hlater => ?_
      have hlast := hloaded'.grows hlater
      exact sound_commit_register (hlater.1.subset harrived')
        ⟨token,password,salt,hrequest,hhash⟩ hlast.owns hlast.row (hlast.fresh hemail)
  | login email password =>
    refine (sound_authenticateByEmail email password).bind fun found world₁ hgrows₁ _ hfound => ?_
    cases found with
    | none => exact sound_raise
    | some player =>
      obtain ⟨task',arrival',passwordHash,hregisters,howns,hverify,hrow⟩ := hfound player rfl
      refine sound_respond (hgrows₁.1.subset harrived) ?_ fun later hlater =>
        sound_commit_none fun _ => (hrow.grows hlater).grows
      exact .loggedIn task arrival email password (hgrows₁.1.subset harrived) hrequest task'
        arrival' player.id passwordHash hregisters howns hverify
  | refreshToken token =>
    have htoken := hpresented token (by rw [hrequest]; rfl)
    refine (sound_verifyToken htoken).bind fun playerId world₁ hgrows₁ _ howns => ?_
    refine (sound_selectById ⟨arrival,hgrows₁.1.subset harrived,howns⟩).bind
      fun found world₂ hgrows₂ _ hfound => ?_
    cases found with
    | none => exact sound_raise
    | some player =>
      obtain ⟨hid,hrow,-⟩ := hfound player rfl
      rw [←hid] at hrow
      refine sound_respond ((hgrows₁.1.trans hgrows₂.1).subset harrived) ?_ fun later hlater =>
        sound_commit_none fun _ => (hrow.grows hlater).grows
      rw [hid]
      exact howns.mono hgrows₂.1.subset
  | other token =>
    have htoken := hpresented token (by rw [hrequest]; rfl)
    exact (sound_getCurrentPlayer harrived htoken).bind fun _ _ _ _ _ =>
      sound_commit_none fun _ _ => True.intro
  | gameWs token =>
    have htoken := hpresented token (by rw [hrequest]; rfl)
    exact (sound_verifyToken htoken).bind fun playerId _ _ _ howns =>
      sound_serve ⟨playerId,rfl,howns⟩
  | gameWebsocket token =>
    have htoken := hpresented token (by rw [hrequest]; rfl)
    exact (sound_verifyAccessToken htoken).bind fun _ _ _ _ howns => sound_serve howns

end Endpoints

section Runs

variable {Token : Type} [DecidableEq Token] {server : Server Token}

/-- A client that holds a token has been sent it. -/
theorem presented_of_holds {log : List (Event Token)} {client : ℕ} {token : Token}
    (h : !((server.jwt.signed token).isOk || (server.jwt.parsed token).isOk) ||
      holds log client token) :
    Presented server log client token := by
  intro hsigned
  rw [hsigned,Bool.not_true,Bool.false_or,holds,List.any_eq_true] at h
  obtain ⟨event,hevent,hholds⟩ := h
  split at hholds
  · next task client' response =>
    rw [Bool.and_eq_true,decide_eq_true_eq,Bool.or_eq_true,decide_eq_true_eq,
      decide_eq_true_eq] at hholds
    obtain ⟨rfl,htoken⟩ := hholds
    exact ⟨task,response,hevent,htoken⟩
  · cases hholds

/-- An arrival keeps the invariant, and every request is served soundly. -/
theorem accounts_tended : Tended (accounts server) where
  arrive {task arrival world world'} hholds harrive := by
    dsimp only [requests] at harrive
    split at harrive
    · next hpossible =>
      cases harrive
      rw [possible,Bool.and_eq_true] at hpossible
      obtain ⟨htoken,hdraw⟩ := hpossible
      refine ⟨?_,⟨List.prefix_append _ _,kept_self _⟩,
        ⟨List.mem_append_right _ (List.mem_singleton_self _),fun token hsome => ?_⟩⟩
      · refine Consistent.append hholds rfl (fun _ _ _ heq => by cases heq)
          (fun _ _ heq => by cases heq) (fun _ _ _ heq => by cases heq) fun id hid => ?_
        obtain ⟨client,request,verifiedAt,accessAt,refreshAt⟩ := arrival
        cases request with
        | createGuestSession id' guestToken displayName =>
          cases hid
          exact of_decide_eq_true hdraw
        | _ => cases hid
      · rw [hsome,Option.all_some] at htoken
        intro hsigned
        obtain ⟨task',response,hanswer,hsame⟩ := presented_of_holds htoken hsigned
        exact ⟨task',response,List.mem_append_left _ hanswer,hsame⟩
    · cases harrive
  body hadmits := sound_handler hadmits.arrived hadmits.presented

variable {config : (requests server).Config}

/-- The invariant holds in every run. -/
theorem consistent_of_reaches (hr : (initial server).Reaches config) :
    Consistent server config.world := by
  obtain ⟨moves,hrun⟩ := hr
  exact accounts_tended.holds initial_consistent hrun

/-- Nothing of an account is read, handed out, served or registered but for an owner, and no two
sessions have created it. -/
theorem owners_act (hr : (initial server).Reaches config) :
    (∀ task playerId,.performed task (.selectById playerId)∈config.world.log →
      ∃ arrival,.arrived task arrival∈config.world.log ∧
        Owns server config.world.log arrival.client playerId) ∧
    (∀ task client response,.performed task (.answer client response)∈config.world.log →
      Owns server config.world.log client response.playerId) ∧
    (∀ task client playerId,.performed task (.serve client playerId)∈config.world.log →
      ∃ id : UUID,playerId=id.text ∧ Owns server config.world.log client id) ∧
    (∀ task playerId email passwordHash,
      .performed task (.commit (some (.register playerId email passwordHash)))∈config.world.log →
      ∃ arrival,Registers server config.world.log task arrival playerId email passwordHash ∧
        Owns server config.world.log arrival.client playerId) ∧
    ∀ event∈config.world.log,∀ event'∈config.world.log,∀ id,
      drawn event=some id → drawn event'=some id → event=event' := by
  have hconsistent := consistent_of_reaches hr
  refine ⟨hconsistent.loaded,fun task client response hanswer => ?_,hconsistent.served,
    hconsistent.registrations,?_⟩
  · exact (hconsistent.answered task client response hanswer).1
  · intro event hevent event' hevent' id hid hid'
    by_contra hne
    have hdraws := List.pairwise_filterMap.mp hconsistent.draws
    have hsymm : Std.Symm fun event event' : Event Token =>
        ∀ id,drawn event=some id → ∀ id',drawn event'=some id' → id≠id' :=
      ⟨fun _ _ h id' hid' id hid => (h id hid id' hid').symm⟩
    exact hdraws.forall hevent hevent' hne id hid id hid' rfl

/-- A server whose tokens and hashes are what they stand for. -/
def plainServer : Server (Option Payload) :=
  let read : Option Payload → Except String Payload := fun
    | none => .error "Not enough segments"
    | some payload => .ok payload
  ⟨⟨none,some,fun _ => Option.some_ne_none _,read,fun _ => rfl,read,fun _ => rfl⟩,
    ⟨fun _ password => .ok password,fun password passwordHash => .ok (password=passwordHash),
      fun _ _ _ hhash => by cases hhash; simp⟩,true⟩

/-- A guest gets an account, registers, logs in from elsewhere, and plays there. -/
def story : List (requests plainServer).Move :=
  let guest := UUID.small 1
  let token : Option Payload := some ⟨some guest.text,accessTokenExpire,some "access"⟩
  [.open ⟨0,.createGuestSession guest (UUID.small 2) "Guest",0,0,0⟩,
    .run 0 .proceeds,.run 0 .proceeds,.run 0 .proceeds,
    .open ⟨0,.register token "a@b.c" "password" 0,1,1,1⟩,
    .run 1 .proceeds,.run 1 .proceeds,.run 1 .proceeds,.run 1 .proceeds,.run 1 .proceeds,
    .open ⟨1,.login "a@b.c" "password",2,2,2⟩,
    .run 2 .proceeds,.run 2 .proceeds,.run 2 .proceeds,
    .open ⟨1,.gameWebsocket (some ⟨some guest.text,2+accessTokenExpire,some "access"⟩),3,3,3⟩,
    .run 3 .proceeds]

/-- Who has logged in owns the account that he plays with. -/
theorem story_owned : ∃ config : (requests plainServer).Config,
    (initial plainServer).Reaches config ∧
      .performed 3 (.serve 1 (UUID.small 1).text)∈config.world.log ∧
      Owns plainServer config.world.log 1 (UUID.small 1) := by
  let response := tokenResponse plainServer 2 2 ⟨UUID.small 1,UUID.small 2,none,none,"Guest"⟩
  have hrun : ((initial plainServer).run story).map (fun config =>
      decide (.performed 3 (.serve 1 (UUID.small 1).text)∈config.world.log ∧
        .performed 2 (.answer 1 response)∈config.world.log))=some true := by decide +kernel
  obtain ⟨config,hr,hview⟩ := System.Config.reaches_of_map hrun
  obtain ⟨hserve,hanswer⟩ := of_decide_eq_true hview
  exact ⟨config,hr,hserve,(owners_act hr).2.1 2 1 response hanswer⟩

/-- Tokens that a client has been sent work on both servers exactly until they expire, whatever
has happened since; and their player is found, if the commit has come first. -/
theorem tokens_work (hr : (initial server).Reaches config) {task client : ℕ}
    {response : TokenResponse Token}
    (hanswer : .performed task (.answer client response)∈config.world.log) :
    ∃ arrival,.arrived task arrival∈config.world.log ∧ arrival.client=client ∧
      (∀ now,verifyToken server now response.accessToken "access"=.ok response.playerId ↔
        now≤arrival.accessAt+accessTokenExpire) ∧
      (∀ now,verifyAccessToken server now response.accessToken=.ok response.playerId.text ↔
        now<arrival.accessAt+accessTokenExpire) ∧
      (∀ now,verifyToken server now response.refreshToken "refresh"=.ok response.playerId ↔
        now≤arrival.refreshAt+refreshTokenExpire) ∧
      (server.commitsFirst=true →
        (config.world.players.find? fun player => player.id=response.playerId).isSome) := by
  have hconsistent := consistent_of_reaches hr
  obtain ⟨-,arrival,harrived,hclient,haccess,hrefresh⟩ :=
    hconsistent.answered task client response hanswer
  rw [haccess,hrefresh]
  refine ⟨arrival,harrived,hclient,verifyToken_made rfl rfl,verifyAccessToken_made rfl rfl,
    verifyToken_made rfl rfl,fun hfirst => ?_⟩
  obtain ⟨player,hplayer,hid⟩ := hconsistent.stored hfirst task client response hanswer
  exact List.find?_isSome.mpr ⟨player,hplayer,decide_eq_true hid⟩

/-- The guest is found whenever he comes back. -/
theorem story_returned : ∃ config : (requests plainServer).Config,
    (initial plainServer).Reaches config ∧
      (config.world.players.find? fun player => player.id=UUID.small 1).isSome := by
  let response := tokenResponse plainServer 0 0 ⟨UUID.small 1,UUID.small 2,none,none,"Guest"⟩
  have hrun : ((initial plainServer).run story).map (fun config =>
      decide (.performed 0 (.answer 0 response)∈config.world.log))=some true := by decide +kernel
  obtain ⟨config,hr,hanswer⟩ := System.Config.reaches_of_map hrun
  obtain ⟨-,-,-,-,-,-,hfound⟩ := tokens_work hr (of_decide_eq_true hanswer)
  exact ⟨config,hr,hfound rfl⟩

/-- A registration that has been committed counts: its email finds the player and its password
lets him in, unless another request had loaded him before and has registered him since. -/
theorem registration_counts (hr : (initial server).Reaches config)
    {before after : List (Event Token)} {task : ℕ} {playerId : UUID} {email passwordHash : String}
    (hlog : config.world.log=before++
      .performed task (.commit (some (.register playerId email passwordHash)))::after) :
    ∃ player∈config.world.players,player.id=playerId ∧
      ((∃ arrival token password salt,.arrived task arrival∈config.world.log ∧
        arrival.request=.register token email password salt ∧
        (config.world.players.filter fun other => other.email=some email)=[player] ∧
        player.passwordHash=some passwordHash ∧
        server.pwdContext.verify password passwordHash=.ok true) ∨
      ∃ task' email' passwordHash',
        .performed task' (.commit (some (.register playerId email' passwordHash')))∈after ∧
        .performed task' (.selectById playerId)∈before) := by
  have hconsistent := consistent_of_reaches hr
  have hcommitted : .performed task (.commit (some (.register playerId email passwordHash)))∈
      config.world.log := by
    rw [hlog]
    exact List.mem_append_right _ List.mem_cons_self
  obtain ⟨player,hplayer,hid⟩ := hconsistent.rows task playerId email passwordHash hcommitted
  refine ⟨player,hplayer,hid,?_⟩
  have hlast : lastRegistration config.world.log playerId=
      (lastRegistration after playerId).or (some (email,passwordHash)) := by
    rw [hlog,List.append_cons,lastRegistration_append,lastRegistration_registered]
  cases hafter : lastRegistration after playerId with
  | none =>
    -- nothing has replaced it
    obtain ⟨hemail,hhash⟩ := hconsistent.credentials player hplayer
    rw [hid,hlast,hafter] at hemail hhash
    obtain ⟨arrival,⟨harrived,⟨token,password,salt,hrequest,hhashed⟩,-⟩,-⟩ :=
      hconsistent.registrations task playerId email passwordHash hcommitted
    exact .inl ⟨arrival,token,password,salt,harrived,hrequest,
      filter_email hconsistent hplayer hemail,hhash,
      server.pwdContext.verify_hash salt password passwordHash hhashed⟩
  | some credentials =>
    obtain ⟨task',hlater⟩ := registered_of_last hafter
    exact .inr ⟨task',credentials.1,credentials.2,hlater,
      hconsistent.overlap before after task task' playerId email passwordHash _ _ hlog hlater⟩

/-- He is found by what he has registered. -/
theorem story_registered : ∃ config : (requests plainServer).Config,
    (initial plainServer).Reaches config ∧ ∃ player∈config.world.players,
      player.id=UUID.small 1 ∧
        (config.world.players.filter fun other => other.email=some "a@b.c")=[player] ∧
        player.passwordHash=some "password" := by
  have hrun : ((initial plainServer).run story).map (fun config => decide (config.world.log=
      config.world.log.take 8++.performed 1 (.commit (some (.register (UUID.small 1) "a@b.c"
        "password")))::config.world.log.drop 9 ∧
      (config.world.log.drop 9).filterMap registration=[]))=some true := by decide +kernel
  obtain ⟨config,hr,hview⟩ := System.Config.reaches_of_map hrun
  obtain ⟨hlog,hnone⟩ := of_decide_eq_true hview
  obtain ⟨player,hplayer,hid,hcounts⟩ := registration_counts hr hlog
  refine ⟨config,hr,player,hplayer,hid,?_⟩
  obtain ⟨-,-,-,-,-,-,hfound,hhash,-⟩ | ⟨task',email',passwordHash',hlater,-⟩ := hcounts
  · exact ⟨hfound,hhash⟩
  · have hregisters := List.filterMap_eq_nil_iff.mp hnone _ hlater
    cases hregisters

end Runs

end KiClash.AccountOwners
