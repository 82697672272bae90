import Q2Admin.Command
import Q2Admin.Obituary

/-! `backend/teleport.go` and `backend/invite.go`: the commands players issue, once
client number and text have been read from the message. -/

namespace Q2Admin
open Go

/-! ## Teleporting -/

structure TeleportDestination where
  name : Bytes
  address : Bytes
  map : Bytes
  players : Bytes
  deriving DecidableEq, Repr

structure TeleportReply where
  activeServers : List TeleportDestination
  emptyServers : Bytes
  deriving DecidableEq, Repr

/-- `ip:port`. -/
def Frontend.address (fe : Frontend) : Bytes := fe.ipAddress ++ ascii ":" ++ decimal fe.port

def Frontend.destination (fe : Frontend) : TeleportDestination where
  name := fe.name
  address := fe.address
  map := fe.currentMap
  players := join ((fe.players.filter (·.name ≠ [])).map (·.name)) (ascii ", ")

def teleportDestinations (frontends : List Frontend) : TeleportReply :=
  let dests := (frontends.filter (·.trusted)).map Frontend.destination
  { activeServers := dests.filter (·.players ≠ [])
    emptyServers := join ((dests.filter (·.players = [])).map (·.name)) (ascii ",") }

/-- `%-21s`: padded on the right to a number of characters. -/
def padded (runeCount : Bytes → Nat) (width : Nat) (s : Bytes) : Bytes :=
  s ++ List.replicate (width - runeCount s) (charByte ' ')

/-- The template `teleportTemplate` on a reply. -/
def renderTeleport (runeCount : Bytes → Nat) (reply : TeleportReply) : Bytes :=
  ascii "\nTeleporting between servers\nActive servers:\n" ++
  ascii "  name                  map          players\n" ++
  ascii "  --------------------- ------------ ----------------------------------------\n  " ++
  reply.activeServers.flatMap (fun dest =>
    padded runeCount 21 dest.name ++ ascii " " ++ padded runeCount 12 dest.map ++ ascii " " ++
      dest.players) ++
  ascii " \n\nEmpty servers:\n  " ++ reply.emptyServers ++ ascii "\n"

section
variable (pf : Platform) (i : Nat)

def World.sayTo (w : World) (p : Option Player) (level : Int) (text : Bytes) : World :=
  w.update i (sayPlayer pf.q2 p level text)

/-- The player in a slot is sent to another frontend. -/
def teleportTo (slot dest : Nat) (w : World) : World :=
  let p := (w.fe i).player slot
  let f := w.fe dest
  let notice := ascii "Teleporting " ++ p.name ++ ascii " to " ++ f.name ++ ascii " [" ++ f.address ++
    ascii "]\n"
  let w := w.update i (sayEveryone pf.q2 printChat notice)
  let w := w.update i (stuffPlayer pf.q2 p (ascii "connect " ++ f.address ++ ascii "\n"))
  let (now, w) := w.now
  let w := w.updatePlayer i slot fun p => { p with lastTeleport := now, teleports := p.teleports + 1 }
  w.update dest fun f => { f with teleportCount := f.teleportCount + 1 }

/-- `Teleport` behind its reads. -/
def onTeleport (player : Byte) (target : Bytes) (w : World) : World :=
  match (w.fe i).findPlayer player.toNat with
  | none => w
  | some slot =>
    let p := (w.fe i).player slot
    if !(w.fe i).allowTeleport then
      w.sayTo pf i p printChat (ascii "Teleporting is disabled on this server")
    else if target = [] then
      let (_, w) := w.now
      w.sayTo pf i p printChat (renderTeleport pf.runeCount (teleportDestinations w.frontends))
    else match w.frontends.findIdx? fun f => pf.equalFold f.name target with
      | none => w
      | some dest => teleportTo pf i slot dest w

/-! ## Inviting -/

/-- The invitation is said to copies of the frontends, which the range drops again; what
stays is the bookkeeping. -/
def acceptInvite (slot : Nat) (available now : Int) (w : World) : World :=
  let w := w.updatePlayer i slot fun p => { p with
    invites := p.invites + 1
    lastInvite := now
    invitesAvailable := available - 1 }
  w.update i fun fe => { fe with invites := { fe.invites with
    tokens := fe.invites.tokens - 1
    useCount := fe.invites.useCount + 1 } }

/-- The player's own tokens: three, and then ten minutes for the next three. -/
def invitePlayer (slot : Nat) (w : World) : World :=
  let p := (w.fe i).player slot
  let (now, w) := w.now
  let invtime := now - p.lastInvite
  if p.invitesAvailable = 0 then
    if 600 < invtime then acceptInvite i slot 3 now w
    else w.sayTo pf i p printHigh (ascii "You have no more invite tokens available, wait " ++
      decimal (600 - invtime) ++ ascii " seconds\n")
  else if invtime < 30 then
    w.sayTo pf i p printHigh (ascii "Invite used too recently, wait " ++ decimal (30 - invtime) ++
      ascii " seconds\n")
  else acceptInvite i slot p.invitesAvailable now w

/-- `Invite` behind its reads. A player that is not found is only logged. -/
def onInvite (client : Byte) (w : World) : Except Fault World :=
  let found := (w.fe i).findPlayer client.toNat
  let p := found.map (w.fe i).player
  if !(w.fe i).allowInvite then
    .ok (w.sayTo pf i p printChat (ascii "This server doesn't allow invites."))
  else if (w.fe i).invites.tokens = 0 then
    .ok (w.sayTo pf i p printChat
      (ascii "No invite tokens remaining, you'll have to wait a few minutes."))
  else match found with
    | none => .error .nilPlayer
    | some slot => .ok (invitePlayer pf i slot w)

end
end Q2Admin
