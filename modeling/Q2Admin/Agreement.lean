import Q2Admin.Framing
import Q2Admin.Outgoing

/-! Two worlds may differ in what a frontend's message buffer holds, and in how much of its
queue has gone out already. No handler can tell them apart, and what goes out in the end is
the same. -/

namespace Q2Admin
open Go Lib

/-- The frontend without its two buffers. -/
def Frontend.core (fe : Frontend) : Frontend := { fe with message := {}, messageOut := {} }

def Frontend.withQueue (queue : Buffer) (fe : Frontend) : Frontend := { fe with messageOut := queue }

/-- An update that reads and writes neither buffer, nor the connection. -/
structure Blind (f : Frontend → Frontend) : Prop where
  core : ∀ fe, (f fe).core = f fe.core
  messageOut : ∀ fe, (f fe).messageOut = fe.messageOut
  connection : ∀ fe, (f fe).connection = fe.connection

namespace World

/-- The world without its frontends and without what they were sent. -/
def rest (w : World) : World := { w with frontends := [], wire := [] }

/-- What was written to the connections, byte by byte. -/
def tagged (wire : List (ConnId × Bytes)) : List (Option ConnId × Byte) :=
  wire.flatMap fun sent => sent.2.map fun b => (some sent.1, b)

/-- What was written, and what is queued for a frontend. -/
def outgoing (i : Nat) (w : World) : List (Option ConnId × Byte) :=
  tagged w.wire ++ (w.fe i).messageOut.data.map fun b => ((w.fe i).connection, b)

structure Agrees (i : Nat) (w w' : World) : Prop where
  cores : w'.frontends.map Frontend.core = w.frontends.map Frontend.core
  others : ∀ j, j ≠ i → w'.fe j = w.fe j
  rest : w'.rest = w.rest
  atEnd : (w.fe i).messageOut.AtEnd ∧ (w'.fe i).messageOut.AtEnd
  outgoing : w'.outgoing i = w.outgoing i

theorem core_fe (w : World) (j : Nat) :
    (w.fe j).core = ((w.frontends.map Frontend.core)[j]?).getD (default : Frontend).core := by
  rw [List.getElem?_map, Option.getD_map, fe, List.getD_eq_getElem?_getD]

theorem cores_update (w : World) (j : Nat) {f g : Frontend → Frontend}
    (same : ∀ fe, (f fe).core = g fe.core) :
    (w.update j f).frontends.map Frontend.core = (w.frontends.map Frontend.core).modify j g := by
  ext1 k
  simp only [update, List.getElem?_map, List.getElem?_modify]
  by_cases here : j = k
  · cases w.frontends[k]? <;> simp [here, same]
  · simp [here]

theorem fe_update_congr {w w' : World} {k : Nat} (count : w'.frontends.length = w.frontends.length)
    (same : w'.fe k = w.fe k) (j : Nat) (f : Frontend → Frontend) :
    (w'.update j f).fe k = (w.update j f).fe k := by
  by_cases here : k = j
  · subst here
    by_cases live : k < w.frontends.length
    · rw [fe_update_self w live, fe_update_self w' (count ▸ live), same]
    · rw [update_outside w live, update_outside w' (count ▸ live)]
      exact same
  · rw [fe_update_ne w here, fe_update_ne w' here, same]

namespace Agrees
variable {i : Nat} {w w' w'' : World}

theorem refl (atEnd : (w.fe i).messageOut.AtEnd) : w.Agrees i w := ⟨rfl, fun _ _ => rfl, rfl, ⟨atEnd, atEnd⟩, rfl⟩

theorem symm (agrees : w.Agrees i w') : w'.Agrees i w where
  cores := agrees.cores.symm
  others := fun j apart => (agrees.others j apart).symm
  rest := agrees.rest.symm
  atEnd := agrees.atEnd.symm
  outgoing := agrees.outgoing.symm

theorem trans (first : w.Agrees i w') (second : w'.Agrees i w'') : w.Agrees i w'' where
  cores := second.cores.trans first.cores
  others := fun j apart => (second.others j apart).trans (first.others j apart)
  rest := second.rest.trans first.rest
  atEnd := ⟨first.atEnd.1, second.atEnd.2⟩
  outgoing := second.outgoing.trans first.outgoing

theorem length (agrees : w.Agrees i w') : w'.frontends.length = w.frontends.length := by
  simpa using congrArg List.length agrees.cores

/-- What can be read off the frontends without their buffers is the same. -/
theorem field {α : Type} (agrees : w.Agrees i w') (j : Nat) (field : Frontend → α)
    (framed : ∀ fe : Frontend, field fe.core = field fe) : field (w'.fe j) = field (w.fe j) := by
  rw [← framed, ← framed (w.fe j), core_fe, core_fe, agrees.cores]

/-- What can be read off the rest of the world is the same. -/
theorem value {α : Type} (agrees : w.Agrees i w') (value : World → α)
    (framed : ∀ w : World, value w.rest = value w) : value w' = value w := by
  rw [← framed, ← framed w, agrees.rest]

/-- Steps that concern the rest of the world only. -/
theorem step (agrees : w.Agrees i w') (g : World → World) (frontends : ∀ w, (g w).frontends = w.frontends)
    (wire : ∀ w, (g w).wire = w.wire) (rest : ∀ w, (g w).rest = (g w.rest).rest) :
    (g w).Agrees i (g w') := by
  have same (w : World) (j : Nat) : (g w).fe j = w.fe j := by rw [fe, frontends, fe]
  constructor
  case cores => rw [frontends, frontends, agrees.cores]
  case others =>
    intro j apart
    rw [same, same, agrees.others j apart]
  case rest => rw [rest w', rest w, agrees.rest]
  case atEnd =>
    rw [same, same]
    exact agrees.atEnd
  case outgoing =>
    rw [World.outgoing, World.outgoing, same, same, wire, wire]
    exact agrees.outgoing

theorem now (agrees : w.Agrees i w') : w.now.2.Agrees i w'.now.2 :=
  agrees.step (fun w => w.now.2) (fun _ => rfl) (fun _ => rfl) fun _ => rfl

theorem insert (agrees : w.Agrees i w') : w.insert.2.Agrees i w'.insert.2 :=
  agrees.step (fun w => w.insert.2) (fun _ => rfl) (fun _ => rfl) fun _ => rfl

theorem randomBytes (agrees : w.Agrees i w') (length : Nat) :
    (w.randomBytes length).2.Agrees i (w'.randomBytes length).2 :=
  agrees.step (fun w => (w.randomBytes length).2) (fun _ => rfl) (fun _ => rfl) fun _ => rfl

theorem spawn (agrees : w.Agrees i w') (task : Task) : (w.spawn task).Agrees i (w'.spawn task) :=
  agrees.step (fun w => w.spawn task) (fun _ => rfl) (fun _ => rfl) fun _ => rfl

theorem update (agrees : w.Agrees i w') (j : Nat) {f : Frontend → Frontend} (blind : Blind f) :
    (w.update j f).Agrees i (w'.update j f) := by
  have queue (w : World) : ((w.update j f).fe i).messageOut = (w.fe i).messageOut :=
    fe_update_field w j i (fun fe => fe.messageOut) blind.messageOut
  have connection (w : World) : ((w.update j f).fe i).connection = (w.fe i).connection :=
    fe_update_field w j i (fun fe => fe.connection) blind.connection
  constructor
  case cores => rw [cores_update w' j blind.core, cores_update w j blind.core, agrees.cores]
  case others =>
    exact fun k apart => fe_update_congr agrees.length (agrees.others k apart) j f
  case rest => exact agrees.rest
  case atEnd =>
    rw [queue, queue]
    exact agrees.atEnd
  case outgoing =>
    rw [World.outgoing, World.outgoing, queue, queue, connection, connection]
    exact agrees.outgoing

theorem updatePlayer (agrees : w.Agrees i w') (j slot : Nat) (f : Player → Player) :
    (w.updatePlayer j slot f).Agrees i (w'.updatePlayer j slot f) :=
  agrees.update j ⟨fun _ => rfl, fun _ => rfl, fun _ => rfl⟩

/-- The same is appended to both queues. -/
theorem queue (agrees : w.Agrees i w') {f : Frontend → Frontend} {bytes : Bytes} (writes : Writes f bytes) :
    (w.update i f).Agrees i (w'.update i f) := by
  by_cases live : i < w.frontends.length
  case neg =>
    rw [update_outside w live, update_outside w' (agrees.length ▸ live)]
    exact agrees
  have core (fe : Frontend) : (f fe).core = fe.core := by
    rw [writes.only fe]
    rfl
  have connection (fe : Frontend) : (f fe).connection = fe.connection := by rw [writes.only fe]
  have one := writes.appends (w.fe i) agrees.atEnd.1
  have two := writes.appends (w'.fe i) agrees.atEnd.2
  constructor
  case cores =>
    rw [map_update (core (w'.fe i)), map_update (core (w.fe i)), agrees.cores]
  case others => exact fun k apart => fe_update_congr agrees.length (agrees.others k apart) i f
  case rest => exact agrees.rest
  case atEnd =>
    rw [fe_update_self w live, fe_update_self w' (agrees.length ▸ live)]
    exact ⟨one.atEnd, two.atEnd⟩
  case outgoing =>
    have before := agrees.outgoing
    simp only [World.outgoing] at before ⊢
    rw [fe_update_self w live, fe_update_self w' (agrees.length ▸ live), one.data, two.data, connection,
      connection, List.map_append, List.map_append, ← List.append_assoc, ← List.append_assoc]
    have same := agrees.field i (fun fe => fe.connection) fun _ => rfl
    rw [same] at before ⊢
    exact congrArg (· ++ _) before

/-- One side writes to the message buffer. -/
theorem read (agrees : w.Agrees i w') {f : Frontend → Frontend} (core : ∀ fe, (f fe).core = fe.core)
    (messageOut : ∀ fe, (f fe).messageOut = fe.messageOut) : w.Agrees i (w'.update i f) := by
  have queue := fe_update_field w' i i (fun fe => fe.messageOut) messageOut
  have connection : ((w'.update i f).fe i).connection = (w'.fe i).connection :=
    fe_update_field w' i i (fun fe => fe.connection) fun fe => congrArg (fun fe => fe.connection) (core fe)
  constructor
  case cores =>
    rw [map_update (core (w'.fe i))]
    exact agrees.cores
  case others => exact fun j apart => (fe_update_ne w' apart _).trans (agrees.others j apart)
  case rest => exact agrees.rest
  case atEnd =>
    rw [queue]
    exact agrees.atEnd
  case outgoing =>
    rw [World.outgoing, queue, connection]
    exact agrees.outgoing

theorem advance (agrees : w.Agrees i w') (count : Nat) : (w.advance i count).Agrees i (w'.advance i count) := by
  have right : w.Agrees i (w'.advance i count) := agrees.read (fun _ => rfl) fun _ => rfl
  have left : (w'.advance i count).Agrees i (w.advance i count) := right.symm.read (fun _ => rfl) fun _ => rfl
  exact left.symm

/-- On one side, part of the queue goes out. -/
theorem sent (agrees : w.Agrees i w') (live : i < w'.frontends.length) {queue : Buffer}
    {sent : List (ConnId × Bytes)} (atEnd : queue.AtEnd)
    (conserved : tagged sent ++ (queue.data.map fun b => ((w'.fe i).connection, b)) =
      (w'.fe i).messageOut.data.map fun b => ((w'.fe i).connection, b)) :
    w.Agrees i (w'.sent i ((w'.fe i).withQueue queue, sent)) := by
  have core (fe : Frontend) : (fe.withQueue queue).core = fe.core := rfl
  have updated : (w'.update i fun _ => (w'.fe i).withQueue queue) = w'.update i (Frontend.withQueue queue) :=
    update_congr rfl
  rw [World.sent, updated]
  constructor
  case cores =>
    show (w'.update i (Frontend.withQueue queue)).frontends.map Frontend.core = _
    rw [map_update (core (w'.fe i))]
    exact agrees.cores
  case others => exact fun j apart => (fe_update_ne w' apart _).trans (agrees.others j apart)
  case rest => exact agrees.rest
  case atEnd =>
    refine ⟨agrees.atEnd.1, ?_⟩
    show ((w'.update i (Frontend.withQueue queue)).fe i).messageOut.AtEnd
    rw [fe_update_self w' live]
    exact atEnd
  case outgoing =>
    show tagged (w'.wire ++ sent) ++ (((w'.update i (Frontend.withQueue queue)).fe i).messageOut.data.map
      fun b => (((w'.update i (Frontend.withQueue queue)).fe i).connection, b)) = _
    rw [fe_update_self w' live, tagged, List.flatMap_append, List.append_assoc, ← agrees.outgoing,
      World.outgoing]
    exact congrArg _ conserved

end Agrees
end World

/-- Both sides return worlds that agree, or fail alike. -/
abbrev Alike (i : Nat) : Except Fault World → Except Fault World → Prop := Matches (World.Agrees i)

section
variable (pf : Platform) {i : Nat} {w w' : World}

/-! ## Obituaries and prints -/

theorem atClient_agrees (agrees : w.Agrees i w') (cid : Int) (f : Player → Player) :
    Alike i (atClient i cid f w) (atClient i cid f w') := by
  have valid := agrees.field i (fun fe => fe.validPlayerID cid) fun _ => rfl
  unfold atClient
  rw [valid]
  split
  · exact agrees.updatePlayer i cid.toNat f
  · rfl

theorem recordKDR_agrees (agrees : w.Agrees i w') (cid : Int) :
    Alike i (recordKDR i cid w) (recordKDR i cid w') := by
  have kdr := agrees.field i (fun fe => fe.calculateKDR cid) fun _ => rfl
  unfold recordKDR
  rw [kdr]
  exact atClient_agrees agrees cid _

theorem parseObituary_agrees (agrees : w.Agrees i w') (submatch : Bytes → Bytes → Option (Nat → Bytes))
    (obit : Bytes) : Alike i (parseObituary i submatch obit w) (parseObituary i submatch obit w') := by
  have judged := agrees.field i (fun fe => fe.calculateDeath submatch obit) fun _ => rfl
  have client (slot : Nat) := agrees.field i (fun fe => (fe.player slot).clientID) fun _ => rfl
  unfold parseObituary
  rw [judged]
  cases (w.fe i).calculateDeath submatch obit with
  | none => exact agrees
  | some death =>
    obtain ⟨murderer, victim, means, solo⟩ := death
    cases victim with
    | none => exact agrees
    | some victim =>
      simp only [client]
      cases murderer with
      | none =>
        apply Matches.bind (atClient_agrees agrees _ _)
        exact fun _ _ died => recordKDR_agrees died _
      | some murderer =>
        apply Matches.bind (atClient_agrees agrees _ _)
        intro _ _ died
        apply Matches.bind (atClient_agrees died _ _)
        intro _ _ scored
        apply Matches.bind (recordKDR_agrees scored _)
        exact fun _ _ first => recordKDR_agrees first _

theorem restifle_agrees (agrees : w.Agrees i w') (slot : Nat) :
    (restifle pf i slot w).Agrees i (restifle pf i slot w') := by
  have player := agrees.field i (fun fe => fe.player slot) fun _ => rfl
  simp only [restifle, player]
  split
  · exact agrees.queue (Says.mutePlayer pf.q2 _ _)
  · exact agrees

theorem restifleAll_agrees (agrees : w.Agrees i w') (slots : List Nat) :
    (slots.foldl (fun w slot => restifle pf i slot w) w).Agrees i
      (slots.foldl (fun w slot => restifle pf i slot w) w') := by
  induction slots generalizing w w' with
  | nil => exact agrees
  | cons slot rest ih => exact ih (restifle_agrees pf agrees slot)

theorem onPrint_agrees (agrees : w.Agrees i w') (level : Byte) (text : Bytes) :
    Alike i (onPrint pf i level text w) (onPrint pf i level text w') := by
  have maplist := agrees.field i (fun fe => fe.hasMaplist) fun _ => rfl
  have named := agrees.field i (fun fe => fe.getPlayerFromPrint text.dropLast) fun _ => rfl
  simp only [onPrint, maplist, named]
  split
  · rfl
  split
  · exact parseObituary_agrees agrees pf.submatch _
  split
  · split
    · exact agrees.spawn _
    · exact agrees
  split
  · exact restifleAll_agrees pf agrees _
  · exact agrees

/-! ## Players coming and going -/

theorem addPlayer_agrees (agrees : w.Agrees i w') (slot : Nat) :
    (addPlayer i slot w).Agrees i (addPlayer i slot w') := by
  have id := agrees.now.value (fun w => w.insert.1) fun _ => rfl
  simp only [addPlayer, id]
  split
  · exact agrees.now.insert
  · exact agrees.now.insert.updatePlayer i slot _

theorem storePlayer_agrees (agrees : w.Agrees i w') (client : Byte) (p : Player) :
    Alike i (storePlayer i client p w) (storePlayer i client p w') := by
  apply Matches.bind (atClient_agrees agrees client.toNat fun _ => p)
  intro w₁ w₁' placed
  have counted := placed.update i (f := fun fe => { fe with playerCount := fe.playerCount + 1 })
    ⟨fun _ => rfl, fun _ => rfl, fun _ => rfl⟩
  exact addPlayer_agrees counted client.toNat

/-- The same slot, and worlds that agree. -/
def SlotAgrees (i : Nat) (result result' : Option Nat × World) : Prop :=
  result'.1 = result.1 ∧ result.2.Agrees i result'.2

theorem deliverPlayer_agrees (agrees : w.Agrees i w') (e : PlayerEntry) :
    Matches (SlotAgrees i) (deliverPlayer pf i e w) (deliverPlayer pf i e w') := by
  have past := agrees.advance e.encode.length
  have max := past.field i (fun fe => fe.maxPlayers) fun _ => rfl
  have clock := past.value (fun w => w.now.1) fun _ => rfl
  simp only [deliverPlayer, onPlayer, max, clock]
  split
  · exact ⟨rfl, past⟩
  cases userinfoMap e.userinfo.val with
  | error fault => rfl
  | ok info =>
    apply Matches.bind (storePlayer_agrees past.now e.client _)
    exact fun _ _ stored => ⟨rfl, stored⟩

theorem deliverPlayers_agrees (agrees : w.Agrees i w') (entries : List PlayerEntry) :
    Alike i (deliverPlayers pf i entries w) (deliverPlayers pf i entries w') := by
  induction entries generalizing w w' with
  | nil => exact agrees
  | cons e rest ih =>
    apply Matches.bind (deliverPlayer_agrees pf agrees e)
    exact fun _ _ delivered => ih delivered.2

theorem startConnect_agrees (agrees : w.Agrees i w') (slot : Option Nat) :
    (startConnect i slot w).Agrees i (startConnect i slot w') := by
  cases slot with
  | none => exact agrees
  | some slot => exact agrees.spawn _

theorem writePlayer_agrees (agrees : w.Agrees i w') (client : Nat) :
    (writePlayer i client w).Agrees i (writePlayer i client w') := by
  have player := agrees.field i (fun fe => fe.player client) fun _ => rfl
  have max := agrees.field i (fun fe => fe.maxPlayers) fun _ => rfl
  have clock := agrees.value (fun w => w.now.1) fun _ => rfl
  have id := agrees.now.value (fun w => w.insert.1) fun _ => rfl
  simp only [writePlayer, player, max, clock, id]
  split
  · exact agrees
  split
  · exact agrees.now.insert
  · exact agrees.now.insert.step (fun w => { w with playerStats := w.playerStats ++ _ })
      (fun _ => rfl) (fun _ => rfl) fun _ => rfl

theorem onDisconnect_agrees (agrees : w.Agrees i w') (clientnum : Byte) :
    (onDisconnect i clientnum w).Agrees i (onDisconnect i clientnum w') := by
  have max := agrees.field i (fun fe => fe.maxPlayers) fun _ => rfl
  have found := agrees.field i (fun fe => fe.findPlayer clientnum.toNat) fun _ => rfl
  have valid := agrees.field i (fun fe => fe.validPlayerID clientnum.toNat) fun _ => rfl
  have used := agrees.field i (fun fe => (fe.player clientnum.toNat).inUse) fun _ => rfl
  simp only [onDisconnect, removePlayer, max, found, valid, used]
  split
  · exact agrees
  split
  · exact agrees
  split
  · exact agrees
  split
  · exact agrees
  have freed := (writePlayer_agrees agrees clientnum.toNat).updatePlayer i clientnum.toNat fun _ => {}
  exact freed.update i ⟨fun _ => rfl, fun _ => rfl, fun _ => rfl⟩

theorem onPlayerUpdate_agrees (agrees : w.Agrees i w') (clientnum : Byte) (userinfo : Bytes) :
    Alike i (onPlayerUpdate pf i clientnum userinfo w) (onPlayerUpdate pf i clientnum userinfo w') := by
  have found := agrees.field i (fun fe => fe.findPlayer clientnum.toNat) fun _ => rfl
  have player (slot : Nat) := agrees.field i (fun fe => fe.player slot) fun _ => rfl
  simp only [onPlayerUpdate, found, player]
  split
  · exact agrees
  rename_i slot _
  split
  · exact agrees
  cases userinfoMap userinfo with
  | error fault => rfl
  | ok info =>
    have set := agrees.updatePlayer i slot (Player.setUserinfo info (md5Hash pf.keys userinfo))
    have updated := set.field i (fun fe => fe.player slot) fun _ => rfl
    have random := set.value (fun w => (w.randomBytes 12).1) fun _ => rfl
    simp only [Bind.bind, Except.bind, updated, random]
    split
    · exact (set.randomBytes 12).queue (Says.setupPlayerCookie pf.q2 _ _)
    · exact set

/-! ## Player commands -/

theorem sayTo_agrees (agrees : w.Agrees i w') (p : Option Player) (level : Int) (text : Bytes) :
    (w.sayTo pf i p level text).Agrees i (w'.sayTo pf i p level text) := by
  cases p with
  | none => exact agrees.queue Writes.nothing
  | some p => exact agrees.queue (Says.sayPlayer pf.q2 p level text)

theorem teleportTo_agrees (agrees : w.Agrees i w') (slot dest : Nat) :
    (teleportTo pf i slot dest w).Agrees i (teleportTo pf i slot dest w') := by
  have player := agrees.field i (fun fe => fe.player slot) fun _ => rfl
  have name := agrees.field dest (fun fe => fe.name) fun _ => rfl
  have address := agrees.field dest (fun fe => fe.address) fun _ => rfl
  simp only [teleportTo, player, name, address]
  have said (notice cmd : Bytes) := (agrees.queue (Says.sayEveryone pf.q2 printChat notice)).queue
    (Says.stuffPlayer pf.q2 ((w.fe i).player slot) cmd)
  have clock (notice cmd : Bytes) := (said notice cmd).value (fun w => w.now.1) fun _ => rfl
  rw [clock]
  exact ((said _ _).now.updatePlayer i slot _).update dest ⟨fun _ => rfl, fun _ => rfl, fun _ => rfl⟩

theorem teleportDestinations_agrees (agrees : w.Agrees i w') :
    teleportDestinations w'.frontends = teleportDestinations w.frontends := by
  have cores (frontends : List Frontend) :
      teleportDestinations (frontends.map Frontend.core) = teleportDestinations frontends := by
    have listed : ((frontends.map Frontend.core).filter (·.trusted)).map Frontend.destination =
        (frontends.filter (·.trusted)).map Frontend.destination := by
      rw [List.filter_map, List.map_map]
      rfl
    simp only [teleportDestinations, listed]
  rw [← cores, agrees.cores, cores]

theorem onTeleport_agrees (agrees : w.Agrees i w') (player : Byte) (target : Bytes) :
    (onTeleport pf i player target w).Agrees i (onTeleport pf i player target w') := by
  have found := agrees.field i (fun fe => fe.findPlayer player.toNat) fun _ => rfl
  have slots (slot : Nat) := agrees.field i (fun fe => fe.player slot) fun _ => rfl
  have allowed := agrees.field i (fun fe => fe.allowTeleport) fun _ => rfl
  have listed := teleportDestinations_agrees agrees
  have named : (w'.frontends.findIdx? fun f => pf.equalFold f.name target) =
      w.frontends.findIdx? fun f => pf.equalFold f.name target := by
    have cores (frontends : List Frontend) :
        ((frontends.map Frontend.core).findIdx? fun f => pf.equalFold f.name target) =
          frontends.findIdx? fun f => pf.equalFold f.name target := List.findIdx?_map ..
    rw [← cores, agrees.cores, cores]
  simp only [onTeleport, found, slots, allowed, named]
  split
  · exact agrees
  split
  · exact sayTo_agrees pf agrees _ _ _
  split
  · have same : teleportDestinations w'.now.2.frontends = teleportDestinations w.now.2.frontends := listed
    rw [same]
    exact sayTo_agrees pf agrees.now _ _ _
  split
  · exact agrees
  · exact teleportTo_agrees pf agrees _ _

theorem acceptInvite_agrees (agrees : w.Agrees i w') (slot : Nat) (available now : Int) :
    (acceptInvite i slot available now w).Agrees i (acceptInvite i slot available now w') :=
  (agrees.updatePlayer i slot _).update i ⟨fun _ => rfl, fun _ => rfl, fun _ => rfl⟩

theorem invitePlayer_agrees (agrees : w.Agrees i w') (slot : Nat) :
    (invitePlayer pf i slot w).Agrees i (invitePlayer pf i slot w') := by
  have player := agrees.field i (fun fe => fe.player slot) fun _ => rfl
  have clock := agrees.value (fun w => w.now.1) fun _ => rfl
  simp only [invitePlayer, player, clock]
  split
  · split
    · exact acceptInvite_agrees agrees.now slot 3 _
    · exact sayTo_agrees pf agrees.now _ _ _
  split
  · exact sayTo_agrees pf agrees.now _ _ _
  · exact acceptInvite_agrees agrees.now slot _ _

theorem onInvite_agrees (agrees : w.Agrees i w') (client : Byte) :
    Alike i (onInvite pf i client w) (onInvite pf i client w') := by
  have found := agrees.field i (fun fe => fe.findPlayer client.toNat) fun _ => rfl
  have player := agrees.field i (fun fe => (fe.findPlayer client.toNat).map fe.player) fun _ => rfl
  have allowed := agrees.field i (fun fe => fe.allowInvite) fun _ => rfl
  have tokens := agrees.field i (fun fe => fe.invites.tokens) fun _ => rfl
  rw [found] at player
  simp only [onInvite, found, player, allowed, tokens]
  split
  · exact sayTo_agrees pf agrees _ _ _
  split
  · exact sayTo_agrees pf agrees _ _ _
  cases (w.fe i).findPlayer client.toNat with
  | none => rfl
  | some slot => exact invitePlayer_agrees pf agrees slot

/-! ## Messages -/

theorem rotateKeys_plain (plain : (w.fe i).encrypted = false) : rotateKeys pf i w = .ok w := by
  rw [rotateKeys, plain]
  rfl

/-- A ping of a frontend in the clear rotates no keys. -/
theorem pong_agrees (agrees : w.Agrees i w') (plain : (w.fe i).encrypted = false) :
    Alike i (pong pf i w) (pong pf i w') := by
  let count (fe : Frontend) : Frontend := { fe with pingCount := fe.pingCount + 1 }
  let pinged (w : World) : World := (w.update i count).update i (Frontend.writeByte pf.q2 scmdPong)
  have queued : (pinged w).Agrees i (pinged w') :=
    (agrees.update i (f := count) ⟨fun _ => rfl, fun _ => rfl, fun _ => rfl⟩).queue (Writes.writeByte pf.q2 scmdPong)
  have pings := queued.field i (fun fe => fe.pingCount) fun _ => rfl
  have counted : ((w.update i count).fe i).encrypted = false :=
    (World.fe_update_field w i i (f := count) (fun fe => fe.encrypted) fun _ => rfl).trans plain
  have clear : ((pinged w).fe i).encrypted = false :=
    (World.fe_update_field _ i i (f := Frontend.writeByte pf.q2 scmdPong) (fun fe => fe.encrypted)
      fun _ => rfl).trans counted
  have clear' := (queued.field i (fun fe => fe.encrypted) fun _ => rfl).trans clear
  show Alike i (if ((pinged w).fe i).pingCount % 64 = 0 then rotateKeys pf i (pinged w) else .ok (pinged w))
    (if ((pinged w').fe i).pingCount % 64 = 0 then rotateKeys pf i (pinged w') else .ok (pinged w'))
  rw [pings, rotateKeys_plain pf clear, rotateKeys_plain pf clear', ite_self, ite_self]
  exact queued

theorem deliver_agrees (agrees : w.Agrees i w') (plain : (w.fe i).encrypted = false) (m : ClientMessage) :
    Alike i (deliver pf i w m) (deliver pf i w' m) := by
  have read := agrees.advance 1
  have past := read.advance m.payload.length
  unfold deliver handle
  cases m with
  | ping => exact pong_agrees pf read ((World.field_advance i w 1 i (fun fe => fe.encrypted) fun _ _ => rfl).trans plain)
  | print level text => exact onPrint_agrees pf past level text.val
  | map mapname => exact past.update i ⟨fun _ => rfl, fun _ => rfl, fun _ => rfl⟩
  | playerList players => exact deliverPlayers_agrees pf (read.advance 1) players.val
  | playerUpdate client userinfo => exact onPlayerUpdate_agrees pf past client userinfo.val
  | connect player =>
    apply Matches.bind (deliverPlayer_agrees pf read player)
    rintro ⟨slot, w₁⟩ ⟨slot', w₁'⟩ ⟨same, delivered⟩
    change slot' = slot at same
    subst same
    exact startConnect_agrees delivered slot'
  | disconnect client => exact onDisconnect_agrees past client
  | teleport client target => exact onTeleport_agrees pf past client target.val
  | invite client text => exact onInvite_agrees pf past client

theorem sendMessages_agrees (agrees : w.Agrees i w') (plain : (w.fe i).encrypted = false) {c : ConnId}
    (connected : (w.fe i).connection = some c) :
    ∃ w'', sendMessages pf i w' = .ok w'' ∧ w.Agrees i w'' := by
  have clear := (agrees.field i (fun fe => fe.encrypted) fun _ => rfl).trans plain
  have connection := (agrees.field i (fun fe => fe.connection) fun _ => rfl).trans connected
  have live : i < w'.frontends.length := World.live_of_connected (by rw [connection]; rfl)
  have size := pf.q2.size_eq _ agrees.atEnd.2
  by_cases empty : (w'.fe i).messageOut.data.length = 0
  · have flushed : (w'.fe i).flush pf = .ok ((w'.fe i).withQueue (w'.fe i).messageOut, []) := by
      rw [Frontend.flush, if_pos (size.trans empty)]
      rfl
    rw [sendMessages, flushed]
    exact ⟨_, rfl, agrees.sent live agrees.atEnd.2 rfl⟩
  · have flushed : (w'.fe i).flush pf = .ok ((w'.fe i).withQueue (pf.q2.reset (w'.fe i).messageOut),
        [(c, (w'.fe i).messageOut.data)]) := by
      rw [Frontend.flush, if_neg (size ▸ empty), Frontend.encryptQueue, if_neg (by simp [clear])]
      simp only [Bind.bind, Except.bind]
      split
      · rename_i missing
        simp [connection] at missing
      · rename_i d there
        rw [connection] at there
        cases there
        rfl
    rw [sendMessages, flushed]
    refine ⟨_, rfl, agrees.sent live ?_ ?_⟩
    · rw [pf.q2.reset_eq]
      rfl
    · rw [pf.q2.reset_eq, connection]
      simp [World.tagged]

end
end Q2Admin
