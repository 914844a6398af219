import KiClash.RoomPhases

/-!
# What the requests do to a room

In every run of the handlers a room is created when there is none, rewritten by the
mutator of a request from the room that is stored, or deleted by its host's request. So
what the mutators keep holds of every stored room: the host stays the host, the status
tells whether there is a guest, nobody is ready without a character, and a room in game
has two players, two characters and a game.
-/

namespace KiClash.RoomRuns

open EngineTypes Engine AsyncTasks WatchedKey TaskPhases TransactionReads
open Rooms RoomPhases

/-- A moment of a run of the handlers. -/
abbrev Moment := Seen.Moment watcher

/-- The moments of a run. -/
abbrev momentsOf (moves : List rooms.Move) : List Moment :=
  (Seen.initial watcher initial).moments moves

/-- What is known of the handlers at any time of a run. -/
structure Regular (seen : Seen watcher) : Prop where
  /-- Every request is in its phase. -/
  conforms : seen.Conforms
  /-- Every attempt knows the key. -/
  informed : Informed (P := watcher) Phase.attempt seen

/-- What an operation does to the room. -/
inductive Wrote (world : World runtime) (choice : Choice) (phase : Phase) :
    Op language → World runtime → Prop
  | transaction (token retriesLeft : ℕ) (call : Call) (before after : RoomState)
      (world' : World runtime)
      (htook : took choice (.store (.exec token retriesLeft call after)) world=true)
      (hruns : phase.stage.Runs call) (hbefore : world.value=some before)
      (hafter : world'.value=some after) (hfound : phase.attempt=.found token before)
      (hmakes : Makes call before after) :
      Wrote world choice phase (.store (.exec token retriesLeft call after)) world'
  | created (code : String) (host : RoomPlayer) (world' : World runtime)
      (hstage : phase.stage=.creating code host)
      (htook : took choice (.store (.set true (Call.create host) (newRoom code host))) world=true)
      (hbefore : world.value=none) (hafter : world'.value=some (newRoom code host)) :
      Wrote world choice phase (.store (.set true (Call.create host) (newRoom code host))) world'
  | deleted (playerId : UUID) (loaded : RoomState) (world' : World runtime)
      (hstage : phase.stage=.destroying playerId loaded)
      (htook : took choice (.store .delete) world=true) (hafter : world'.value=none) :
      Wrote world choice phase (.store .delete) world'
  | kept (o : Op language) (world' : World runtime) (hvalue : world'.value=world.value)
      (hidle : ReadOnly o ∨ took choice o world=false) : Wrote world choice phase o world'

/-- Everything a call can make of a room. -/
inductive Rewrites (room : RoomState) : Call → RoomState → Prop
  | welcomed (player : Player) (hhost : room.host.id=player.id) : Rewrites room (.join player) room
  | joined (player : Player) (hhost : room.host.id≠player.id)
      (hfree : ∀ guest,room.guest=some guest → guest.id=player.id) :
      Rewrites room (.join player)
        {room with guest := some (toPlayer player),status := .bothPresent}
  | hostPicked (playerId : UUID) (characterId : String) (hhost : playerId=room.host.id) :
      Rewrites room (.character playerId characterId)
        {room with host := {room.host with characterId := some characterId,ready := false}}
  | guestPicked (playerId : UUID) (characterId : String) (hhost : playerId≠room.host.id)
      (guest : RoomPlayer) (hguest : room.guest=some guest) (hid : playerId=guest.id) :
      Rewrites room (.character playerId characterId)
        {room with guest := some {guest with characterId := some characterId,ready := false}}
  | hostReady (playerId : UUID) (ready : Bool) (hhost : playerId=room.host.id)
      (hpicked : ready=true → room.host.characterId.isSome=true) :
      Rewrites room (.ready playerId ready) {room with host := {room.host with ready := ready}}
  | guestReady (playerId : UUID) (ready : Bool) (hhost : playerId≠room.host.id)
      (guest : RoomPlayer) (hguest : room.guest=some guest) (hid : playerId=guest.id)
      (hpicked : ready=true → guest.characterId.isSome=true) :
      Rewrites room (.ready playerId ready) {room with guest := some {guest with ready := ready}}
  | startedBefore (playerId : UUID) (hmember : room.isMember playerId=true)
      (hstatus : room.status=.inGame) : Rewrites room (.start playerId) room
  | started (playerId gameId : UUID) (hmember : room.isMember playerId=true)
      (hstatus : room.status≠.inGame) (guest : RoomPlayer) (hguest : room.guest=some guest)
      (hhost : room.host.characterId.isSome=true) (hpicked : guest.characterId.isSome=true) :
      Rewrites room (.start playerId) {room with gameId := some gameId,status := .inGame}
  | left (playerId : UUID) :
      Rewrites room (.leave playerId) {room with guest := none,status := .waiting}

section Calls

variable {room room' : RoomState} {call : Call}

/-- The slot of a player. -/
theorem playerSlot_cases {playerId : UUID} {slot : RoomState.Slot}
    (h : room.playerSlot playerId=.ok slot) :
    slot=.host ∧ playerId=room.host.id ∨
      slot=.guest ∧ playerId≠room.host.id ∧ ∃ guest,room.guest=some guest ∧ playerId=guest.id := by
  unfold RoomState.playerSlot at h
  split at h
  · next hhost =>
    cases h
    exact .inl ⟨rfl,hhost⟩
  · next hhost =>
    split at h
    · next hguest =>
      cases h
      obtain ⟨guest,hsome,hid⟩ := (Option.any_eq_true _ _).mp hguest
      exact .inr ⟨rfl,hhost,guest,hsome,of_decide_eq_true hid⟩
    · cases h

/-- What join_room makes of a room. -/
theorem rewrites_of_join {player : Player} (h : mutateJoin player () room=.ok ((),room')) :
    Rewrites room (.join player) room' := by
  unfold mutateJoin at h
  split at h
  · next hhost =>
    cases h
    exact .welcomed player hhost
  · next hhost =>
    split at h
    · cases h
    · next hfull =>
      cases h
      refine .joined player hhost fun guest hguest => ?_
      rw [hguest,Option.any_some] at hfull
      simpa using hfull

/-- What set_character makes of a room. -/
theorem rewrites_of_character {playerId : UUID} {characterId : String}
    (h : mutateCharacter playerId characterId () room=.ok ((),room')) :
    Rewrites room (.character playerId characterId) room' := by
  unfold mutateCharacter at h
  split at h
  · cases h
  · next hslot =>
    cases h
    obtain ⟨-,hhost⟩ | ⟨hne,-⟩ := playerSlot_cases hslot
    · exact .hostPicked playerId characterId hhost
    · cases hne
  · next hslot =>
    obtain ⟨hne,-⟩ | ⟨-,hhost,guest,hguest,hid⟩ := playerSlot_cases hslot
    · cases hne
    · rw [hguest] at h
      cases h
      exact .guestPicked playerId characterId hhost guest hguest hid

/-- Who is ready has picked a character. -/
theorem picked_of_ready {ready : Bool} {characterId : Option String}
    (h : ¬(ready && characterId.isNone)=true) (hready : ready=true) :
    characterId.isSome=true := by
  subst hready
  cases characterId with
  | none => exact absurd rfl h
  | some characterId => rfl

/-- What set_ready makes of a room. -/
theorem rewrites_of_ready {playerId : UUID} {ready : Bool}
    (h : mutateReady playerId ready () room=.ok ((),room')) :
    Rewrites room (.ready playerId ready) room' := by
  unfold mutateReady at h
  split at h
  · cases h
  · next hslot =>
    obtain ⟨-,hhost⟩ | ⟨hne,-⟩ := playerSlot_cases hslot
    · split at h
      · cases h
      · next hpicked =>
        cases h
        exact .hostReady playerId ready hhost (picked_of_ready hpicked)
    · cases hne
  · next hslot =>
    obtain ⟨hne,-⟩ | ⟨-,hhost,guest,hguest,hid⟩ := playerSlot_cases hslot
    · cases hne
    · rw [hguest] at h
      dsimp only at h
      split at h
      · cases h
      · next hpicked =>
        cases h
        exact .guestReady playerId ready hhost guest hguest hid (picked_of_ready hpicked)

/-- What start_game makes of a room. -/
theorem rewrites_of_start {playerId : UUID} {c c' : StartCaptured}
    (h : mutateStart playerId c room=.ok (c',room')) : Rewrites room (.start playerId) room' := by
  unfold mutateStart at h
  split at h
  · cases h
  · next hmember =>
    rw [Bool.not_eq_true',Bool.not_eq_false] at hmember
    split at h
    · next hstatus =>
      cases h
      exact .startedBefore playerId hmember hstatus
    · next hstatus =>
      split at h
      · cases h
      · next hready =>
        rw [Bool.not_eq_true',Bool.not_eq_false] at hready
        obtain ⟨guest,hguest,hboth⟩ := (Option.any_eq_true _ _).mp hready
        simp only [Bool.and_eq_true] at hboth
        obtain ⟨⟨-,hhost⟩,hpicked⟩ := hboth
        dsimp only at h
        split at h
        · cases h
        · cases h
          exact .started playerId _ hmember hstatus guest hguest hhost hpicked

/-- A transaction rewrites the room. -/
theorem rewrites_of_makes (h : Makes call room room') : Rewrites room call room' := by
  cases h with
  | join h => exact rewrites_of_join h
  | character h => exact rewrites_of_character h
  | ready h => exact rewrites_of_ready h
  | start h => exact rewrites_of_start h
  | leave h =>
    cases h
    exact .left _

end Calls

/-- What holds of every stored room. -/
structure Consistent (room : RoomState) : Prop where
  /-- Nobody is his own guest. -/
  distinct : ∀ guest,room.guest=some guest → guest.id≠room.host.id
  /-- A room waits exactly while it has no guest. -/
  waiting : room.status=.waiting ↔ room.guest=none
  /-- The host is ready only with a character. -/
  hostReady : room.host.ready=true → room.host.characterId.isSome=true
  /-- So is the guest. -/
  guestReady : ∀ guest,room.guest=some guest → guest.ready=true → guest.characterId.isSome=true
  /-- A room in game has two players with characters, and a game. -/
  inGame : room.status=.inGame → room.host.characterId.isSome=true ∧ room.gameId.isSome=true ∧
    ∃ guest,room.guest=some guest ∧ guest.characterId.isSome=true

section Rooms

variable {room room' : RoomState} {call : Call}

/-- A room is consistent when it is created. -/
theorem consistent_newRoom (code : String) (player : Player) :
    Consistent (newRoom code (toPlayer player)) where
  distinct _ hguest := nomatch hguest
  waiting := ⟨fun _ => rfl,fun _ => rfl⟩
  hostReady hready := nomatch hready
  guestReady _ hguest := nomatch hguest
  inGame hstatus := nomatch hstatus

/-- Every call keeps a room consistent. -/
theorem Consistent.rewrites (h : Consistent room) (hr : Rewrites room call room') :
    Consistent room' := by
  cases hr with
  | welcomed | startedBefore => exact h
  | joined player hhost =>
    refine ⟨?_,⟨nofun,nofun⟩,h.hostReady,?_,nofun⟩
    · intro guest hguest he
      cases hguest
      exact hhost he.symm
    · intro guest hguest hready
      cases hguest
      cases hready
  | hostPicked playerId characterId =>
    refine ⟨h.distinct,h.waiting,nofun,h.guestReady,fun hstatus => ?_⟩
    obtain ⟨-,hgame⟩ := h.inGame hstatus
    exact ⟨rfl,hgame⟩
  | guestPicked playerId characterId hhost guest hguest =>
    refine ⟨?_,?_,h.hostReady,?_,fun hstatus => ?_⟩
    · intro guest' hguest'
      cases hguest'
      exact h.distinct guest hguest
    · refine ⟨fun hstatus => ?_,nofun⟩
      rw [h.waiting.mp hstatus] at hguest
      cases hguest
    · intro guest' hguest' hready
      cases hguest'
      cases hready
    · obtain ⟨hpicked,hgame,-⟩ := h.inGame hstatus
      exact ⟨hpicked,hgame,_,rfl,rfl⟩
  | hostReady playerId ready hhost hpicked =>
    exact ⟨h.distinct,h.waiting,hpicked,h.guestReady,h.inGame⟩
  | guestReady playerId ready hhost guest hguest hid hpicked =>
    refine ⟨?_,?_,h.hostReady,?_,fun hstatus => ?_⟩
    · intro guest' hguest'
      cases hguest'
      exact h.distinct guest hguest
    · refine ⟨fun hstatus => ?_,nofun⟩
      rw [h.waiting.mp hstatus] at hguest
      cases hguest
    · intro guest' hguest' hready
      cases hguest'
      exact hpicked hready
    · obtain ⟨hhost',hgame,guest',hguest',hcharacter⟩ := h.inGame hstatus
      cases hguest.symm.trans hguest'
      exact ⟨hhost',hgame,_,rfl,hcharacter⟩
  | started playerId gameId hmember hstatus guest hguest hhost hpicked =>
    refine ⟨h.distinct,⟨nofun,fun hnone => ?_⟩,h.hostReady,h.guestReady,fun _ => ?_⟩
    · cases hguest.symm.trans hnone
    · exact ⟨hhost,rfl,guest,hguest,hpicked⟩
  | left playerId =>
    exact ⟨nofun,⟨fun _ => rfl,fun _ => rfl⟩,h.hostReady,nofun,nofun⟩

/-- No call changes who the host is. -/
theorem host_of_rewrites (hr : Rewrites room call room') :
    room'.host.id=room.host.id ∧ room'.host.name=room.host.name := by
  cases hr <;> exact ⟨rfl,rfl⟩

end Rooms

section Runs

variable {seen seen' : Seen watcher} {moves : List rooms.Move} {move : rooms.Move}

/-- Every run is regular. -/
theorem regular (hrun : (Seen.initial watcher initial).run moves=some seen) : Regular seen := by
  obtain ⟨hinformed,hconforms⟩ := informed_of_run tracks handler_follows rfl hrun
  exact ⟨hconforms,hinformed⟩

/-- It stays so. -/
theorem Regular.step (h : Regular seen) (hs : Seen.Moved seen move seen') : Regular seen' :=
  ⟨h.conforms.step handler_follows hs,h.informed.step tracks hs⟩

/-- An operation writes what its mutator makes of the stored room, or creates the room,
or deletes it, or leaves it as it is. -/
theorem Regular.wrote (h : Regular seen) {task : ℕ} {choice : Choice} {phase : Phase}
    {o : Op language} {rest : Except Exc o.Res → Coroutine Unit} {world : World runtime}
    {r : Except Exc o.Res} {started : Option Entry}
    (htask : seen.config.tasks[task]?=some (.op o rest)) (hphase : seen.phases[task]?=some phase)
    (hp : WatchedKey.perform (R := runtime) choice task seen.config.tasks.length o
      seen.config.world=some (world,r,started)) : Wrote seen.config.world choice phase o world := by
  obtain ⟨hallows,-⟩ := h.conforms.allows hphase htask
  have hreadOnly : ReadOnly o → Wrote seen.config.world choice phase o world := by
    intro hr
    exact .kept o world (perform_readOnly hr hp).2 (.inl hr)
  match o with
  | .store .watch | .store .unwatch | .store .get | .store .load | .act _ =>
    exact hreadOnly True.intro
  | .store .delete =>
    obtain ⟨playerId,loaded,hstage⟩ := hallows
    have hdelete := perform_delete_took (L := language) (R := runtime) hp
    cases htook : took choice (.store .delete) seen.config.world with
    | true =>
      rw [htook,if_pos rfl] at hdelete
      exact .deleted playerId loaded world hstage htook hdelete
    | false =>
      rw [htook,if_neg Bool.false_ne_true] at hdelete
      exact .kept _ world hdelete.2 (.inr htook)
  | .store (.set onlyIfAbsent call room) =>
    obtain ⟨code,host,hstage,rfl,rfl,rfl⟩ := hallows
    have hset := perform_set (L := language) (R := runtime) hp
    cases htook : took choice (.store (.set true (Call.create host) (newRoom code host)))
        seen.config.world with
    | true =>
      rw [htook,if_pos rfl] at hset
      exact .created code host world hstage htook (hset.1 rfl) hset.2
    | false =>
      rw [htook,if_neg Bool.false_ne_true] at hset
      exact .kept _ world hset.2 (.inr htook)
  | .store (.exec token retriesLeft call room) =>
    have hexec := perform_exec (L := language) (R := runtime) hp
    cases htook : took choice (.store (.exec token retriesLeft call room)) seen.config.world with
    | true =>
      rw [htook,if_pos rfl] at hexec
      obtain ⟨before,hbefore,hfound,hmakes⟩ := found_of_exec tracks h.informed h.conforms hphase
        htask htook
      exact .transaction token retriesLeft call before room world htook hallows hbefore hexec.2.1
        hfound hmakes
    | false =>
      rw [htook,if_neg Bool.false_ne_true] at hexec
      exact .kept _ world hexec.2 (.inr htook)

/-- Only requests create rooms, and their hosts are players who have just come. -/
structure Settled (seen : Seen watcher) : Prop where
  /-- The rooms that are stored and read. -/
  consistent : Everywhere (P := watcher) Phase.attempt Consistent seen
  /-- The rooms that are about to be created. -/
  hosts : ∀ (task : ℕ) (phase : Phase) (code : String) (host : RoomPlayer),
    seen.phases[task]?=some phase → phase.stage=.creating code host →
    ∃ player,host=toPlayer player

/-- A request that creates a room has done nothing else. -/
theorem creating_next {attempt : Attempt RoomState} {stage : Stage} {o : Op language}
    {r : Except Exc o.Res} {code : String} {host : RoomPlayer}
    (h : stage.next attempt o r=.creating code host) : stage=.creating code host := by
  unfold Stage.next at h
  split at h
  · cases h
  · cases h
  · cases h
  · split at h
    · unfold written at h
      split at h <;> cases h
    · cases h
  · cases h
  · split at h
    · cases h
    · split at h <;> cases h
  · cases h
  · exact h

/-- Every move keeps the rooms consistent. -/
theorem Settled.step (hregular : Regular seen) (h : Settled seen)
    (hs : Seen.Moved seen move seen') : Settled seen' := by
  constructor
  · refine h.consistent.step tracks (fun _ hc => hc) hs ?_
    cases hs with
    | opened entry harrives => exact h.consistent.1
    | performed task choice phase o rest world r started htask hphase hp =>
      intro room hroom
      cases hregular.wrote htask hphase hp with
      | transaction token retriesLeft call before after _ htook hruns hbefore hafter hfound hmakes =>
        cases hafter.symm.trans hroom
        exact (h.consistent.1 before hbefore).rewrites (rewrites_of_makes hmakes)
      | created code host _ hstage htook hbefore hafter =>
        cases hafter.symm.trans hroom
        obtain ⟨player,rfl⟩ := h.hosts task phase code host hphase hstage
        exact consistent_newRoom code player
      | deleted _ _ _ _ _ hafter => cases hafter.symm.trans hroom
      | kept _ _ hvalue => exact h.consistent.1 room (hvalue.symm.trans hroom)
  · intro task phase' code host hphase' hstage
    cases hs with
    | opened entry harrives =>
      obtain hold | ⟨-,hnew⟩ := @Seen.getElem?_extended _ _ (some (watcher.start entry)) _ _ hphase'
      · exact h.hosts task phase' code host hold hstage
      · cases entry <;> cases hnew <;> cases hstage
        exact ⟨_,rfl⟩
    | performed other choice phase o rest world r started htask hphase hp =>
      obtain ⟨rfl,rfl⟩ | ⟨-,hold⟩ | ⟨-,hstarted⟩ := Seen.getElem?_moved hphase'
      · exact h.hosts task phase code host hphase (creating_next hstage)
      · exact h.hosts task phase' code host hold hstage
      · obtain ⟨entry,-,rfl⟩ := Option.map_eq_some_iff.mp hstarted
        cases entry <;> cases hstage
        exact ⟨_,rfl⟩

/-- In every run the rooms are consistent. -/
theorem settled (hrun : (Seen.initial watcher initial).run moves=some seen) :
    Regular seen ∧ Settled seen := by
  have hall := Seen.invariant (F := fun _ _ => True) handler_follows rfl
    (I := fun seen => Informed (P := watcher) Phase.attempt seen ∧ Settled seen)
    (fun _ hconforms hi _ hs => ⟨hi.1.step tracks hs,hi.2.step ⟨hconforms,hi.1⟩ hs⟩) hrun
    (fun _ _ => True.intro)
    ⟨(fun _ _ hphase => nomatch hphase),⟨nofun,(fun _ _ hphase => nomatch hphase)⟩,
      (fun _ _ _ _ hphase => nomatch hphase)⟩
  exact ⟨⟨hall.2,hall.1.1⟩,hall.1.2⟩

/-- The room has a host of this name. -/
def HostIs (id : UUID) (name : String) (seen : Seen watcher) : Prop :=
  ∀ room,seen.config.world.value=some room → room.host.id=id ∧ room.host.name=name

/-- While there is a room, a move does not change its host. -/
theorem HostIs.step {id : UUID} {name : String} (hregular : Regular seen) (h : HostIs id name seen)
    (hsome : seen.config.world.value.isSome=true) (hs : Seen.Moved seen move seen') :
    HostIs id name seen' := by
  cases hs with
  | opened entry harrives => exact h
  | performed task choice phase o rest world r started htask hphase hp =>
    intro room hroom
    cases hregular.wrote htask hphase hp with
    | transaction token retriesLeft call before after _ htook hruns hbefore hafter hfound hmakes =>
      cases hafter.symm.trans hroom
      obtain ⟨hid,hname⟩ := host_of_rewrites (rewrites_of_makes hmakes)
      obtain ⟨hid',hname'⟩ := h before hbefore
      exact ⟨hid.trans hid',hname.trans hname'⟩
    | created code host _ hstage htook hbefore hafter =>
      rw [hbefore] at hsome
      cases hsome
    | deleted _ _ _ _ _ hafter => cases hafter.symm.trans hroom
    | kept _ _ hvalue => exact h room (hvalue.symm.trans hroom)

/-- From one time of a run to a later one, as long as the room is not deleted. -/
theorem HostIs.run {id : UUID} {name : String} (hregular : Regular seen) (h : HostIs id name seen)
    (hrun : seen.run moves=some seen')
    (hlasts : ∀ moment∈seen.moments moves,moment.1.config.world.value.isSome=true) :
    HostIs id name seen' := by
  have hall := Seen.keeps (I := fun seen => Regular seen ∧ HostIs id name seen)
    (F := fun seen _ => seen.config.world.value.isSome=true) ?_ hrun hlasts ⟨hregular,h⟩
  · exact hall.2
  · intro seen seen' move hi hsome hs
    have hmoved := Seen.moved hi.1.conforms.phased hs
    exact ⟨hi.1.step hmoved,hi.2.step hi.1 hsome hmoved⟩

/-- Every room that is stored in a run is consistent, and its host stays the same until
the room is deleted. -/
theorem rooms_stay_consistent {moves moves' : List rooms.Move}
    (hrun : (Seen.initial watcher initial).run moves=some seen) (hrun' : seen.run moves'=some seen') :
    (∀ room,seen.config.world.value=some room → Consistent room) ∧
      ((∀ moment∈seen.moments moves',moment.1.config.world.value.isSome=true) →
        ∀ room room',seen.config.world.value=some room → seen'.config.world.value=some room' →
          room'.host.id=room.host.id ∧ room'.host.name=room.host.name) := by
  obtain ⟨hregular,hsettled⟩ := settled hrun
  refine ⟨hsettled.consistent.1,fun hlasts room room' hroom hroom' => ?_⟩
  have hhost : HostIs room.host.id room.host.name seen := by
    intro other hother
    cases hroom.symm.trans hother
    exact ⟨rfl,rfl⟩
  exact hhost.run hregular hrun' hlasts room' hroom'

/-- The room that the host starts is in game, and its host is who he was in the lobby. -/
theorem started_room_consistent : ∃ seen seen' room room',
    (Seen.initial watcher initial).run (requests 0 lobby)=some seen ∧
    seen.run (requests 2 (readies++starts))=some seen' ∧
    seen.config.world.value=some room ∧ seen'.config.world.value=some room' ∧
    room'.status=.inGame ∧ Consistent room ∧
    room'.host.id=room.host.id ∧ room'.host.name=room.host.name := by
  have hview : ((Seen.initial watcher initial).run (requests 0 lobby)).bind (fun seen =>
      (seen.run (requests 2 (readies++starts))).map fun seen' =>
        (seen.config.world.value.isSome,seen'.config.world.value.map RoomState.status,
          (seen.moments (requests 2 (readies++starts))).all
            fun moment => moment.1.config.world.value.isSome))=
        some (true,some .inGame,true) := by decide
  obtain ⟨seen,hrun,hrest⟩ := Option.bind_eq_some_iff.mp hview
  obtain ⟨seen',hrun',hseen'⟩ := Option.map_eq_some_iff.mp hrest
  obtain ⟨hsome,hlater⟩ := Prod.mk.inj hseen'
  obtain ⟨hstatus,hlasts⟩ := Prod.mk.inj hlater
  obtain ⟨room,hroom⟩ := Option.isSome_iff_exists.mp hsome
  obtain ⟨room',hroom',hgame⟩ := Option.map_eq_some_iff.mp hstatus
  obtain ⟨hconsistent,hhost⟩ := rooms_stay_consistent hrun hrun'
  exact ⟨seen,seen',room,room',hrun,hrun',hroom,hroom',hgame,hconsistent room hroom,
    hhost (List.all_eq_true.mp hlasts) room room' hroom hroom'⟩

end Runs

end KiClash.RoomRuns
