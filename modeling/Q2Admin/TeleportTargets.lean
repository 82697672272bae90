import Q2Admin.Framing
import Q2Admin.Outgoing
import Q2Admin.PlayerCommand
import Q2Admin.Slots

/-! Where `Teleport` leads. The list of destinations leaves out frontends that are not
trusted; the lookup of a name goes through all of them and stops at the first, in whatever
case it is written. -/

namespace Q2Admin
open Go

/-- The list shows the trusted frontends: the active ones, and the names of the empty ones. -/
theorem teleportDestinations_trusted (frontends : List Frontend) : teleportDestinations frontends =
    { activeServers := ((frontends.filter (·.trusted)).filter (·.destination.players ≠ [])).map Frontend.destination
      emptyServers := join (((frontends.filter (·.trusted)).filter (·.destination.players = [])).map (·.name))
        (ascii ",") } := by
  simp only [teleportDestinations, List.filter_map, List.map_map]
  rfl

/-- The list of destinations shows the frontend. -/
def World.Lists (w : World) (k : Nat) : Prop := k < w.frontends.length ∧ (w.fe k).trusted = true

/-- No other frontend has the name. -/
def World.SoleName (w : World) (k : Nat) : Prop :=
  ∀ j < w.frontends.length, j ≠ k → (w.fe j).name ≠ (w.fe k).name

section
variable (pf : Platform) (i : Nat) (player : Byte) (target : Bytes) (w : World)

/-- The player is there, on a frontend that allows teleporting. -/
def MayTeleport : Prop := (∃ slot, (w.fe i).findPlayer player.toNat = some slot) ∧ (w.fe i).allowTeleport = true

/-- The target names the frontend. -/
def World.Names (k : Nat) : Prop := k < w.frontends.length ∧ pf.equalFold (w.fe k).name target = true

/-- What is queued to send a player to a frontend: the notice for everybody, and the command. -/
def teleportToSays (p : Player) (f : Frontend) : List ServerMessage :=
  .sayAll (printLevel printChat) (newline (ascii "Teleporting " ++ p.name ++ ascii " to " ++ f.name ++ ascii " [" ++
    f.address ++ ascii "]\n")) :: Says.stuff p (ascii "connect " ++ f.address ++ ascii "\n")

/-- What the message has queued for the player's frontend. -/
def teleportSays : List ServerMessage :=
  match (w.fe i).findPlayer player.toNat with
  | none => []
  | some slot =>
    let p := (w.fe i).player slot
    if !(w.fe i).allowTeleport then
      Says.toClient p (printLevel printChat) (ascii "Teleporting is disabled on this server")
    else if target = [] then Says.toClient p (printLevel printChat)
      (renderTeleport pf.runeCount (teleportDestinations w.frontends))
    else match w.frontends.findIdx? fun f => pf.equalFold f.name target with
      | none => []
      | some dest => teleportToSays p (w.fe dest)

/-- The command to the player's client to connect to an address. -/
def connectOf (p : Player) (address : Bytes) : ServerMessage :=
  .command (ascii "sv !stuff CL " ++ decimal p.clientID ++ ascii " " ++ (ascii "connect " ++ address ++ ascii "\n") ++
    ascii "\n")

/-- Among what is queued is a connect command with this address to the player. -/
def StuffsConnect (address : Bytes) : Prop :=
  ∃ slot, (w.fe i).findPlayer player.toNat = some slot ∧
    connectOf ((w.fe i).player slot) address ∈ teleportSays pf i player target w

/-- Connects go to frontends that are listed, and a listed one can be reached by a name of its own. -/
structure GoesWhereListed : Prop where
  listed : ∀ address, StuffsConnect pf i player target w address →
    ∃ k, w.Lists k ∧ w.Names pf target k ∧ (w.fe k).address = address
  reached : MayTeleport i player w → ∀ k, w.Lists k → (w.fe k).name = target → w.SoleName k →
    StuffsConnect pf i player target w (w.fe k).address

/-- The first frontend the target names has the address of a listed one of that name, and of
the one that alone is called exactly that. -/
def World.LeadsToListed : Prop :=
  ∀ dest, w.frontends.findIdx? (fun f => pf.equalFold f.name target) = some dest →
    (∃ k, w.Lists k ∧ w.Names pf target k ∧ (w.fe k).address = (w.fe dest).address) ∧
    ∀ k, w.Lists k → (w.fe k).name = target → w.SoleName k → (w.fe k).address = (w.fe dest).address

variable {pf i player target w}

theorem World.fe_of_live {k : Nat} (live : k < w.frontends.length) : w.fe k = w.frontends[k] := by
  simp [World.fe, List.getD_eq_getElem?_getD, live]

theorem findIdx_of_names {k : Nat} (names : w.Names pf target k) :
    ∃ dest, w.frontends.findIdx? (fun f => pf.equalFold f.name target) = some dest := by
  rw [← Option.isSome_iff_exists, List.findIdx?_isSome, List.any_eq_true]
  have member : w.fe k ∈ w.frontends := World.fe_of_live names.1 ▸ List.getElem_mem names.1
  exact ⟨w.fe k, member, names.2⟩

/-- The frontend a player is sent to counts it. -/
theorem teleportTo_count {slot dest k : Nat} (live : k < w.frontends.length) :
    ((teleportTo pf i slot dest w).fe k).teleportCount =
      (w.fe k).teleportCount + if k = dest then 1 else 0 := by
  simp only [teleportTo]
  generalize stuffed : (w.update i _).update i _ = w₁
  have queued : (w₁.fe k).teleportCount = (w.fe k).teleportCount ∧ w₁.frontends.length = w.frontends.length := by
    rw [← stuffed, World.length_update, World.length_update]
    refine ⟨?_, rfl⟩
    rw [World.fe_update_field _ i k (fun fe => fe.teleportCount) fun fe => by rw [(Queues.stuffPlayer ..).only]]
    exact World.fe_update_field _ i k (fun fe => fe.teleportCount) fun fe => by rw [(Queues.sayEveryone ..).only]
  have noted (f : Player → Player) :
      ((w₁.now.2.updatePlayer i slot f).fe k).teleportCount = (w.fe k).teleportCount :=
    (World.fe_update_field w₁.now.2 i k (f := fun fe => fe.updatePlayer slot f) (fun fe => fe.teleportCount)
      fun _ => rfl).trans queued.1
  by_cases here : k = dest
  · subst here
    rw [World.fe_update_self _ (by rw [World.updatePlayer, World.length_update]; exact queued.2 ▸ live), if_pos rfl]
    exact congrArg (· + 1) (noted _)
  · rw [World.fe_update_ne _ here, noted, if_neg here, Int.add_zero]

theorem sayTo_count (p : Option Player) (level : Int) (text : Bytes) (k : Nat) :
    ((w.sayTo pf i p level text).fe k).teleportCount = (w.fe k).teleportCount :=
  World.fe_update_field w i k (fun fe => fe.teleportCount) fun fe => by rw [(Queues.sayPlayer ..).only]

theorem connectOf_injective {p : Player} {a b : Bytes} (same : connectOf p a = connectOf p b) : a = b := by
  have command := List.append_cancel_left (List.append_cancel_right (ServerMessage.command.inj same))
  exact List.append_cancel_left (List.append_cancel_right command)

theorem connectOf_mem_teleportToSays {p : Player} {f : Frontend} {address : Bytes} :
    connectOf p address ∈ teleportToSays p f ↔ f.address = address := by
  have some : ascii "connect " ++ f.address ++ ascii "\n" ≠ [] := by simp [ascii]
  rw [teleportToSays, Says.stuff, if_neg some, List.mem_cons, List.mem_singleton]
  constructor
  · rintro (notice | command)
    · cases notice
    · exact (connectOf_injective command).symm
  · rintro rfl
    exact .inr rfl

theorem connectOf_not_mem_toClient (p : Player) (level : Int) (text address : Bytes) :
    connectOf p address ∉ Says.toClient p level text := by
  unfold Says.toClient
  split
  · exact List.not_mem_nil
  · intro member
    cases List.mem_singleton.mp member

/-- A player who may teleport is sent to the first frontend of the name, and to no other. -/
theorem stuffsConnect_iff (named : target ≠ []) (address : Bytes) :
    StuffsConnect pf i player target w address ↔ MayTeleport i player w ∧
      ∃ dest, w.frontends.findIdx? (fun f => pf.equalFold f.name target) = some dest ∧
        (w.fe dest).address = address := by
  constructor
  · rintro ⟨slot, found, queued⟩
    simp only [teleportSays, found, if_neg named] at queued
    cases allowed : (w.fe i).allowTeleport with
    | false =>
      simp only [allowed, Bool.not_false, ↓reduceIte] at queued
      exact absurd queued (connectOf_not_mem_toClient _ _ _ _)
    | true =>
      simp only [allowed, Bool.not_true, Bool.false_eq_true, ↓reduceIte] at queued
      cases first : w.frontends.findIdx? (fun f => pf.equalFold f.name target) with
      | none =>
        simp only [first] at queued
        cases queued
      | some dest =>
        simp only [first] at queued
        exact ⟨⟨⟨slot, found⟩, allowed⟩, dest, rfl, connectOf_mem_teleportToSays.mp queued⟩
  · rintro ⟨⟨⟨slot, found⟩, allowed⟩, dest, first, same⟩
    refine ⟨slot, found, ?_⟩
    simp only [teleportSays, found, allowed, Bool.not_true, Bool.false_eq_true, ↓reduceIte, if_neg named, first]
    exact connectOf_mem_teleportToSays.mpr same

/-- What the queue of the player's frontend gains: the notice, and the command. -/
theorem teleportTo_queue {slot dest : Nat} (live : i < w.frontends.length) (atEnd : (w.fe i).messageOut.AtEnd) :
    ((teleportTo pf i slot dest w).fe i).messageOut.data = (w.fe i).messageOut.data ++
      encodeServer (teleportToSays ((w.fe i).player slot) (w.fe dest)) := by
  let p := (w.fe i).player slot
  let f := w.fe dest
  let notice := ascii "Teleporting " ++ p.name ++ ascii " to " ++ f.name ++ ascii " [" ++ f.address ++ ascii "]\n"
  let connect := ascii "connect " ++ f.address ++ ascii "\n"
  have said := (((Says.sayEveryone pf.q2 printChat notice).comp (Says.stuffPlayer pf.q2 p connect)).appends
    (w.fe i) atEnd).data
  have spoken : ((w.update i (sayEveryone pf.q2 printChat notice)).update i (stuffPlayer pf.q2 p connect)).fe i =
      stuffPlayer pf.q2 p connect (sayEveryone pf.q2 printChat notice (w.fe i)) := by
    rw [World.fe_update_self _ (by rwa [World.length_update]), World.fe_update_self w live]
  have some : notice ≠ [] := by simp [notice, ascii]
  rw [if_neg some] at said
  refine Eq.trans ?_ said
  rw [← spoken]
  -- the bookkeeping leaves the queue
  refine (World.fe_update_field _ dest i (f := fun f => { f with teleportCount := f.teleportCount + 1 })
    (fun fe => fe.messageOut.data) fun _ => rfl).trans ?_
  exact World.fe_update_field _ i i (f := fun fe => fe.updatePlayer slot _) (fun fe => fe.messageOut.data) fun _ => rfl

theorem sayTo_queue {p : Player} {level : Int} {text : Bytes} (live : i < w.frontends.length)
    (atEnd : (w.fe i).messageOut.AtEnd) :
    ((w.sayTo pf i (some p) level text).fe i).messageOut.data =
      (w.fe i).messageOut.data ++ encodeServer (Says.toClient p (printLevel level) text) := by
  rw [World.sayTo, World.fe_update_self w live]
  exact ((Says.sayPlayer pf.q2 p level text).appends (w.fe i) atEnd).data

/-- The queue gains just what `teleportSays` says. -/
theorem onTeleport_queue (atEnd : (w.fe i).messageOut.AtEnd) :
    ((onTeleport pf i player target w).fe i).messageOut.data =
      (w.fe i).messageOut.data ++ encodeServer (teleportSays pf i player target w) := by
  cases found : (w.fe i).findPlayer player.toNat with
  | none =>
    simp only [onTeleport, teleportSays, found]
    exact (List.append_nil _).symm
  | some slot =>
    have live := live_of_slot (findPlayer_used found).1
    cases allowed : (w.fe i).allowTeleport with
    | false =>
      simp only [onTeleport, teleportSays, found, allowed, Bool.not_false, ↓reduceIte]
      exact sayTo_queue live atEnd
    | true =>
      by_cases named : target = []
      · simp only [onTeleport, teleportSays, found, allowed, named, Bool.not_true, Bool.false_eq_true, ↓reduceIte]
        exact sayTo_queue live atEnd
      · simp only [onTeleport, teleportSays, found, allowed, if_neg named, Bool.not_true, Bool.false_eq_true, ↓reduceIte]
        cases w.frontends.findIdx? (fun f => pf.equalFold f.name target) with
        | none => exact (List.append_nil _).symm
        | some dest => exact teleportTo_queue live atEnd

/-- The list shows the trusted frontends, active or empty; the queue gains the messages that are
said; and these agree with the list exactly where the first frontend of the name does. -/
theorem goesWhereListed_iff (pf : Platform) (fold : ∀ name, pf.equalFold name name = true) (i : Nat) (player : Byte)
    (target : Bytes) (w : World) (named : target ≠ []) (atEnd : (w.fe i).messageOut.AtEnd) :
    (teleportDestinations w.frontends =
      { activeServers := ((w.frontends.filter (·.trusted)).filter (·.destination.players ≠ [])).map Frontend.destination
        emptyServers := join (((w.frontends.filter (·.trusted)).filter (·.destination.players = [])).map (·.name))
          (ascii ",") }) ∧
    ((onTeleport pf i player target w).fe i).messageOut.data =
        (w.fe i).messageOut.data ++ encodeServer (teleportSays pf i player target w) ∧
      (GoesWhereListed pf i player target w ↔ (MayTeleport i player w → w.LeadsToListed pf target)) := by
  refine ⟨teleportDestinations_trusted w.frontends, onTeleport_queue atEnd, ?_⟩
  constructor
  · intro goes may dest first
    have sent : StuffsConnect pf i player target w (w.fe dest).address :=
      (stuffsConnect_iff named _).mpr ⟨may, dest, first, rfl⟩
    refine ⟨goes.listed _ sent, fun k lists name sole => ?_⟩
    obtain ⟨-, other, found, same⟩ := (stuffsConnect_iff named _).mp (goes.reached may k lists name sole)
    rw [first] at found
    rw [← same, Option.some.inj found]
  · intro leads
    constructor
    case listed =>
      intro address stuffs
      obtain ⟨may, dest, first, rfl⟩ := (stuffsConnect_iff named address).mp stuffs
      exact (leads may dest first).1
    case reached =>
      intro may k lists name sole
      have names : w.Names pf target k := ⟨lists.1, name ▸ fold _⟩
      obtain ⟨dest, first⟩ := findIdx_of_names names
      exact (stuffsConnect_iff named _).mpr ⟨may, dest, first, ((leads may dest first).2 k lists name sole).symm⟩

end

/-- Claire plays on a server that may be left; another that is in the list is not there. -/
def teleportWorld : World := { sessionWorld with
  frontends := [
    { sessionWorld.fe 0 with
      allowTeleport := true
      name := ascii "home"
      ipAddress := ascii "10.0.0.1"
      port := 27910
      players := [{}, { name := ascii "claire", clientID := 1, connectTime := 1 }] },
    { name := ascii "away", ipAddress := ascii "10.0.0.9", port := 27910 }] }

theorem goesWhereListed_home : GoesWhereListed Platform.plain 0 1 (ascii "home") teleportWorld := by
  apply (goesWhereListed_iff Platform.plain (fun name => beq_self_eq_true name) 0 1 (ascii "home") teleportWorld
    (by decide) rfl).2.2.mpr
  intro _ dest first
  have here : teleportWorld.frontends.findIdx? (fun f => Platform.plain.equalFold f.name (ascii "home")) = some 0 := by
    decide
  have only : ∀ k < 2, (teleportWorld.fe k).trusted = true → k = 0 := by decide
  obtain rfl := Option.some.inj (here.symm.trans first)
  exact ⟨⟨0, ⟨by decide, by decide⟩, ⟨by decide, by decide⟩, rfl⟩, fun k lists _ _ => by
    rw [only k lists.1 lists.2]⟩

/-- A server that is off is not in the list, and players are sent there. -/
theorem teleport_goes_unlisted : ¬ ∀ (pf : Platform) (i : Nat) (player : Byte) (target : Bytes) (w : World),
    (∀ name, pf.equalFold name name = true) → target ≠ [] → (w.fe i).messageOut.AtEnd →
      GoesWhereListed pf i player target w := by
  intro promised
  have goes := promised Platform.plain 0 1 (ascii "away") teleportWorld (fun name => beq_self_eq_true name) (by decide)
    rfl
  have sent : StuffsConnect Platform.plain 0 1 (ascii "away") teleportWorld (ascii "10.0.0.9:27910") :=
    (stuffsConnect_iff (by decide) _).mpr ⟨⟨⟨1, by decide⟩, by decide⟩, 1, by decide, by decide⟩
  obtain ⟨k, lists, names, -⟩ := goes.listed _ sent
  have none : ∀ k < 2, (teleportWorld.fe k).trusted = true → ¬ Platform.plain.equalFold (teleportWorld.fe k).name
      (ascii "away") = true := by decide
  exact none k lists.1 lists.2 names.2

end Q2Admin
