import KiClash.EngineTypes
import Mathlib.Data.Set.Card
import Mathlib.Logic.Function.Basic

/-!
# The connection registry

The maps of WSManager in app/core/ws_manager/manager.py: the sockets, the rooms and the
room of each player. connect and disconnect await before and after, but each of them
updates the maps in one go. The maps agree in every state of a sequence of calls exactly
if no connect takes a player from one room to another: the old room is not repaired.
-/

namespace KiClash.Connections

open EngineTypes

/-- A WebSocket. -/
abbrev Socket := ℕ

/-- _connections, _rooms and _player_rooms. -/
structure Registry where
  /-- The active socket of a player. -/
  connections : UUID → Option Socket
  /-- The players of a room. -/
  rooms : String → Option (Finset UUID)
  /-- The room of a player. -/
  playerRooms : UUID → Option String

namespace Registry

/-- Nobody is connected. -/
def empty : Registry := ⟨fun _ => none,fun _ => none,fun _ => none⟩

/-- get_room_players. -/
def roomPlayers (registry : Registry) (roomId : String) : Finset UUID :=
  (registry.rooms roomId).getD ∅

/-- room_size. -/
def roomSize (registry : Registry) (roomId : String) : ℕ := (registry.roomPlayers roomId).card

/-- The players to whom broadcast_to_room sends. -/
def receivers (registry : Registry) (roomId : String) (exclude : Option UUID) : Finset UUID :=
  (registry.roomPlayers roomId).filter fun player => some player≠exclude

/-- connect, once the socket has been accepted and the old one closed. -/
def connect (registry : Registry) (socket : Socket) (roomId : String) (player : UUID) :
    Registry where
  connections := Function.update registry.connections player (some socket)
  rooms := Function.update registry.rooms roomId
    (some (insert player (registry.roomPlayers roomId)))
  playerRooms := Function.update registry.playerRooms player (some roomId)

/-- The rooms when a player has left one of them, which is deleted if it is empty then. -/
def leaveRoom (registry : Registry) (roomId : String) (player : UUID) :
    String → Option (Finset UUID) :=
  match registry.rooms roomId with
  | none => registry.rooms
  | some players =>
    let rest := players.erase player
    Function.update registry.rooms roomId (if rest=∅ then none else some rest)

/-- disconnect, with the room that it returns. The name of a room is false if it is
empty. -/
def disconnect (registry : Registry) (player : UUID) : Registry×Option String :=
  let room := registry.playerRooms player
  ({connections := Function.update registry.connections player none
    rooms := match room with
      | none => registry.rooms
      | some roomId => if roomId="" then registry.rooms else registry.leaveRoom roomId player
    playerRooms := Function.update registry.playerRooms player none},room)

end Registry

section Calls

/-- A call. A socket that cannot be accepted raises out of connect. -/
inductive Call
  | connect (socket : Socket) (roomId : String) (player : UUID) (accepted : Bool)
  | disconnect (player : UUID)

/-- The maps after a call. -/
def Call.apply (registry : Registry) : Call → Registry
  | .connect socket roomId player accepted =>
    if accepted then registry.connect socket roomId player else registry
  | .disconnect player => (registry.disconnect player).1

/-- The maps after some calls. -/
def after (registry : Registry) (calls : List Call) : Registry := calls.foldl Call.apply registry

/-- The calls, each with what it finds. -/
def steps : Registry → List Call → List (Registry×Call)
  | _,[] => []
  | registry,call::calls => (registry,call)::steps (call.apply registry) calls

/-- The maps agree. -/
structure Agree (registry : Registry) : Prop where
  /-- A player is in a room if it is his. -/
  members : ∀ player roomId,
    player∈registry.roomPlayers roomId ↔ registry.playerRooms player=some roomId
  /-- The players with a connection have a room, and no others. -/
  connected : ∀ player,
    (registry.connections player).isSome=true ↔ (registry.playerRooms player).isSome=true
  /-- No room is empty. -/
  occupied : ∀ roomId,registry.rooms roomId≠some ∅

/-- The size of a room counts the players whose connection is in it, and whatever is sent
to the room is sent to them. -/
structure Counts (registry : Registry) : Prop where
  /-- room_size. -/
  size : ∀ roomId,registry.roomSize roomId=
    Set.ncard {player | (registry.connections player).isSome=true ∧
      registry.playerRooms player=some roomId}
  /-- broadcast_to_room. -/
  receivers : ∀ roomId exclude,∀ player∈registry.receivers roomId exclude,
    (registry.connections player).isSome=true ∧ registry.playerRooms player=some roomId

/-- A connect that is accepted finds the player in no other room, and a disconnect does not
find him in the one that has an empty name. -/
def StaysPut : Registry×Call → Prop
  | (registry,.connect _ roomId player accepted) =>
    accepted=true → ∀ roomId',registry.playerRooms player=some roomId' → roomId'=roomId
  | (registry,.disconnect player) => registry.playerRooms player≠some ""

end Calls

section Maps

variable {registry : Registry}

/-- Maps that agree count the connections. -/
theorem Agree.counts (h : Agree registry) : Counts registry := by
  have hset : ∀ roomId,{player | (registry.connections player).isSome=true ∧
      registry.playerRooms player=some roomId}=(registry.roomPlayers roomId : Set UUID) := by
    intro roomId
    ext player
    rw [Set.mem_ofPred_eq,Finset.mem_coe,h.members,h.connected]
    constructor
    · exact fun hin => hin.2
    · intro hroom
      rw [hroom]
      exact ⟨rfl,rfl⟩
  constructor
  · intro roomId
    rw [hset,Set.ncard_coe_finset]
    rfl
  · intro roomId exclude player hin
    have hroom := (h.members player roomId).mp (Finset.mem_of_mem_filter player hin)
    rw [h.connected,hroom]
    exact ⟨rfl,rfl⟩

/-- Nobody is anywhere at the start. -/
theorem agree_empty : Agree .empty := by
  constructor
  · intro player roomId
    simp [Registry.empty,Registry.roomPlayers]
  · intro player
    rfl
  · intro roomId hempty
    cases hempty

/-- The players of the rooms after a connect. -/
theorem roomPlayers_connect (registry : Registry) (socket : Socket) (roomId roomId' : String)
    (player : UUID) : (registry.connect socket roomId player).roomPlayers roomId'=
      if roomId'=roomId then insert player (registry.roomPlayers roomId')
      else registry.roomPlayers roomId' := by
  simp only [Registry.roomPlayers,Registry.connect]
  by_cases hroom : roomId'=roomId
  · subst hroom
    rw [Function.update_self,if_pos rfl]
    rfl
  · rw [Function.update_of_ne hroom,if_neg hroom]

/-- The players of the rooms when one has left a room. -/
theorem leaveRoom_players (registry : Registry) (roomId roomId' : String) (player : UUID) :
    ((registry.leaveRoom roomId player) roomId').getD ∅=
      if roomId'=roomId then (registry.roomPlayers roomId').erase player
      else registry.roomPlayers roomId' := by
  unfold Registry.leaveRoom Registry.roomPlayers
  by_cases hroom : roomId'=roomId
  · subst hroom
    rw [if_pos rfl]
    cases hplayers : registry.rooms roomId' with
    | none => simp [hplayers]
    | some players =>
      simp only [Function.update_self,Option.getD_some]
      split
      · next hempty => rw [hempty,Option.getD_none]
      · rfl
  · rw [if_neg hroom]
    cases hplayers : registry.rooms roomId with
    | none => rfl
    | some players => simp only [Function.update_of_ne hroom]

/-- A connect keeps the agreement exactly if it finds the player in no other room. -/
theorem agree_connect (h : Agree registry) (socket : Socket) (roomId : String) (player : UUID) :
    Agree (registry.connect socket roomId player) ↔
      ∀ roomId',registry.playerRooms player=some roomId' → roomId'=roomId := by
  constructor
  · intro hagree roomId' hroom
    by_contra hne
    have hin := (h.members player roomId').mpr hroom
    have hstill := (hagree.members player roomId').mp (by
      rw [roomPlayers_connect,if_neg hne]
      exact hin)
    simp only [Registry.connect,Function.update_self] at hstill
    exact hne (Option.some.inj hstill).symm
  · intro hother
    constructor
    · intro player' roomId'
      have hmembers := h.members player' roomId'
      have hrooms : (registry.connect socket roomId player).playerRooms=
          Function.update registry.playerRooms player (some roomId) := rfl
      rw [roomPlayers_connect,hrooms]
      by_cases hplayer : player'=player
      · subst hplayer
        rw [Function.update_self,Option.some_inj]
        split
        · next hroom => simp [hroom]
        · next hroom =>
          rw [hmembers]
          constructor
          · exact fun hin => absurd (hother roomId' hin) hroom
          · exact fun heq => absurd heq.symm hroom
      · rw [Function.update_of_ne hplayer,←hmembers]
        split
        · simp [hplayer]
        · rfl
    · intro player'
      have hconnected := h.connected player'
      simp only [Registry.connect]
      by_cases hplayer : player'=player
      · subst hplayer
        simp
      · rw [Function.update_of_ne hplayer,Function.update_of_ne hplayer]
        exact hconnected
    · intro roomId'
      have hoccupied := h.occupied roomId'
      simp only [Registry.connect]
      by_cases hroom : roomId'=roomId
      · subst hroom
        rw [Function.update_self]
        exact fun hempty => Finset.insert_ne_empty _ _ (Option.some.inj hempty)
      · rw [Function.update_of_ne hroom]
        exact hoccupied

/-- A disconnect keeps it exactly if the player is not in the room without a name. -/
theorem agree_disconnect (h : Agree registry) (player : UUID) :
    Agree (registry.disconnect player).1 ↔ registry.playerRooms player≠some "" := by
  constructor
  · intro hagree hroom
    have hin := (h.members player "").mpr hroom
    have hstill := (hagree.members player "").mp (by
      simp only [Registry.disconnect,Registry.roomPlayers,hroom,if_true]
      exact hin)
    simp [Registry.disconnect] at hstill
  · intro hnamed
    have hplayers : ∀ roomId',(registry.disconnect player).1.roomPlayers roomId'=
        (registry.roomPlayers roomId').erase player := by
      intro roomId'
      unfold Registry.disconnect
      cases hroom : registry.playerRooms player with
      | none =>
        have hout : player∉registry.roomPlayers roomId' := by
          rw [h.members,hroom]
          exact fun hin => nomatch hin
        exact (Finset.erase_eq_of_notMem hout).symm
      | some roomId =>
        have hname : roomId≠"" := fun hempty => hnamed (hempty ▸ hroom)
        have hleave := leaveRoom_players registry roomId roomId' player
        simp only [Registry.roomPlayers,if_neg hname] at hleave ⊢
        rw [hleave]
        split
        · rfl
        · next hne =>
          have hout : player∉(registry.rooms roomId').getD ∅ := by
            intro hin
            have hother := (h.members player roomId').mp hin
            rw [hroom] at hother
            exact hne (Option.some.inj hother).symm
          exact (Finset.erase_eq_of_notMem hout).symm
    constructor
    · intro player' roomId'
      have hmembers := h.members player' roomId'
      rw [hplayers,Finset.mem_erase,hmembers]
      simp only [Registry.disconnect]
      by_cases hplayer : player'=player
      · subst hplayer
        simp
      · simp [hplayer]
    · intro player'
      have hconnected := h.connected player'
      simp only [Registry.disconnect]
      by_cases hplayer : player'=player
      · subst hplayer
        simp
      · rw [Function.update_of_ne hplayer,Function.update_of_ne hplayer]
        exact hconnected
    · intro roomId'
      have hoccupied := h.occupied roomId'
      have hleave : ∀ roomId,registry.leaveRoom roomId player roomId'≠some ∅ := by
        intro roomId
        unfold Registry.leaveRoom
        cases registry.rooms roomId with
        | none => exact hoccupied
        | some players =>
          by_cases hroom : roomId'=roomId
          · subst hroom
            dsimp only
            rw [Function.update_self]
            split
            · exact fun hempty => nomatch hempty
            · next hrest => exact fun hempty => hrest (Option.some.inj hempty)
          · dsimp only
            rw [Function.update_of_ne hroom]
            exact hoccupied
      simp only [Registry.disconnect]
      cases registry.playerRooms player with
      | none => exact hoccupied
      | some roomId =>
        dsimp only
        split
        · exact hoccupied
        · exact hleave roomId

/-- A call keeps it exactly if it leaves every player in his room. -/
theorem agree_apply (h : Agree registry) (call : Call) :
    Agree (call.apply registry) ↔ StaysPut (registry,call) := by
  cases call with
  | disconnect player => exact agree_disconnect h player
  | connect socket roomId player accepted =>
    cases accepted with
    | false => exact ⟨(fun _ haccepted => nomatch haccepted),fun _ => h⟩
    | true =>
      refine (agree_connect h socket roomId player).trans ?_
      exact ⟨fun hput _ => hput,fun hput => hput rfl⟩

end Maps

/-- Along a sequence of calls the maps agree, and count the connections, in every state
exactly if every call leaves every player in his room. -/
theorem agree_iff (calls : List Call) :
    (∀ earlier,earlier<+:calls →
        Agree (after .empty earlier) ∧ Counts (after .empty earlier)) ↔
      ∀ step∈steps .empty calls,StaysPut step := by
  have hall : ∀ (calls : List Call) (registry : Registry),Agree registry →
      ((∀ earlier,earlier<+:calls → Agree (after registry earlier)) ↔
        ∀ step∈steps registry calls,StaysPut step) := by
    intro calls
    induction calls with
    | nil =>
      intro registry hagree
      refine ⟨(fun _ _ hstep => nomatch hstep),fun _ earlier hearlier => ?_⟩
      rw [List.prefix_nil.mp hearlier]
      exact hagree
    | cons call calls ih =>
      intro registry hagree
      constructor
      · intro hstates step hstep
        have hnext : Agree (call.apply registry) :=
          hstates [call] (List.prefix_append [call] calls)
        obtain rfl | hlater := List.mem_cons.mp hstep
        · exact (agree_apply hagree call).mp hnext
        · refine (ih _ hnext).mp ?_ step hlater
          intro earlier hearlier
          exact hstates (call::earlier) (List.cons_prefix_cons.mpr ⟨rfl,hearlier⟩)
      · intro hsteps earlier hearlier
        have hnext := (agree_apply hagree call).mpr (hsteps _ List.mem_cons_self)
        obtain rfl | ⟨rest,rfl,hrest⟩ := List.prefix_cons_iff.mp hearlier
        · exact hagree
        · exact (ih _ hnext).mpr (fun step hstep => hsteps step (List.mem_cons_of_mem _ hstep))
            rest hrest
  rw [←hall calls .empty agree_empty]
  exact ⟨fun h earlier hearlier => (h earlier hearlier).1,
    fun h earlier hearlier => ⟨h earlier hearlier,(h earlier hearlier).counts⟩⟩

/-- Player 1 opens a game socket while his matchmaking socket is still registered. -/
def changesRoom : List Call :=
  [.connect 1 "matchmaking" (.small 1) true,.connect 2 "game" (.small 1) true]

/-- He stays in the room of the old socket. -/
theorem old_room_stays : ¬∀ calls earlier : List Call,earlier<+:calls →
    Agree (after .empty earlier) ∧ Counts (after .empty earlier) := by
  intro h
  have hagree := (h changesRoom changesRoom List.prefix_rfl).1
  have hstays : UUID.small 1∈(after .empty changesRoom).roomPlayers "matchmaking" := by decide
  have hroom : (after .empty changesRoom).playerRooms (.small 1)=some "game" := by decide
  rw [hagree.members,hroom] at hstays
  simp at hstays

end KiClash.Connections
