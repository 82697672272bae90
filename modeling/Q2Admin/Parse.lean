import Q2Admin.PlayerCommand
import Q2Admin.Userinfo

/-! `backend/parse.go`: the messages of a frontend. Every handler reads its payload from
the frontend's buffer and hands it to a function of its own, which does the rest. -/

namespace Q2Admin
open Go

def cmdHello : Byte := 1
def cmdConnect : Byte := 3
def cmdDisconnect : Byte := 4
def cmdPlayerList : Byte := 5
def cmdPlayerUpdate : Byte := 6
def cmdPrint : Byte := 7
def cmdCommand : Byte := 8
def cmdFrag : Byte := 10
def cmdMap : Byte := 11
def cmdPing : Byte := 12
def cmdAuth : Byte := 13

def pcmdTeleport : Byte := 0
def pcmdInvite : Byte := 1

namespace World
variable (q2 : Libq2) (i : Nat)

def setMessage (w : World) (msg : Buffer) : World := w.update i fun fe => { fe with message := msg }

def readByte (w : World) : Except Fault (Byte × World) :=
  match q2.readByte (w.fe i).message with
  | none => .error .bufferRead
  | some (b, msg) => .ok (b, w.setMessage i msg)

def readString (w : World) : Except Fault (Bytes × World) :=
  match q2.readString (w.fe i).message with
  | none => .error .bufferRead
  | some (s, msg) => .ok (s, w.setMessage i msg)

end World

section
variable (pf : Platform) (i : Nat)

def pong (w : World) : Except Fault World :=
  let w := w.update i fun fe => { fe with pingCount := fe.pingCount + 1 }
  let w := w.update i (Frontend.writeByte pf.q2 scmdPong)
  if (w.fe i).pingCount % 64 = 0 then rotateKeys pf i w else .ok w

/-! ## Prints -/

/-- `GetPlayerFromPrint`: the slots of all players of that name. -/
def Frontend.getPlayerFromPrint (fe : Frontend) (txt : Bytes) : List Nat :=
  match textBefore (ascii ": ") txt with
  | none => []
  | some name => (List.range fe.players.length).filter fun slot => (fe.player slot).name = name

/-- A stifled player is muted again. -/
def restifle (slot : Nat) (w : World) : World :=
  let p := (w.fe i).player slot
  if p.stifled then w.update i (mutePlayer pf.q2 p p.stifleLength) else w

/-- `ParsePrint` behind its reads. The text is cut by a byte, its newline. -/
def onPrint (level : Byte) (text : Bytes) (w : World) : Except Fault World :=
  if text = [] then .error .sliceBounds
  else
    let stripped := text.dropLast
    if (level.toNat : Int) = printMedium then parseObituary i pf.submatch stripped w
    else if (level.toNat : Int) = printHigh then
      if (stripped = ascii "Timelimit hit." ∨ stripped = ascii "Fraglimit hit.") ∧
          (w.fe i).hasMaplist = true then .ok (w.spawn (.changeMap i))
      else .ok w
    else if (level.toNat : Int) = printChat then
      .ok (((w.fe i).getPlayerFromPrint stripped).foldl (fun w slot => restifle pf i slot w) w)
    else .ok w

def parsePrint (w : World) : Except Fault World := do
  let (level, w) ← w.readByte pf.q2 i
  let (text, w) ← w.readString pf.q2 i
  onPrint pf i level text w

/-! ## Players coming and going -/

/-- `AddPlayer`. A failed insert is only logged. -/
def addPlayer (slot : Nat) (w : World) : World :=
  let (_, w) := w.now
  let (id, w) := w.insert
  match id with
  | none => w
  | some id => w.updatePlayer i slot fun p => { p with databaseID := id }

def newPlayer (keys : KeyLib) (client : Byte) (userinfo version : Bytes) (info : StringMap)
    (now : Int) : Player where
  clientID := client.toNat
  userinfo := userinfo
  userInfoHash := md5Hash keys userinfo
  userinfoMap := info
  name := info.at (ascii "name")
  ip := info.at (ascii "ip")
  port := (atoi (info.at (ascii "port"))).getD 0
  fov := (atoi (info.at (ascii "fov"))).getD 0
  connectTime := now
  cookie := info.at (ascii "cl_cookie")
  version := version
  hostname := info.at (ascii "ip")

/-- The player takes the slot of its number and goes into the database. -/
def storePlayer (client : Byte) (p : Player) (w : World) : Except Fault World := do
  let w ← atClient i client.toNat (fun _ => p) w
  let w := w.update i fun fe => { fe with playerCount := fe.playerCount + 1 }
  .ok (addPlayer i client.toNat w)

/-- `ParsePlayer` behind its reads, with the slot of the new player. -/
def onPlayer (client : Byte) (userinfo version : Bytes) (w : World) :
    Except Fault (Option Nat × World) :=
  if (w.fe i).maxPlayers < client.toNat then .ok (none, w)
  else do
    let info ← userinfoMap userinfo
    let (now, w) := w.now
    let w ← storePlayer i client (newPlayer pf.keys client userinfo version info now) w
    .ok (some client.toNat, w)

def parsePlayer (w : World) : Except Fault (Option Nat × World) := do
  let (client, w) ← w.readByte pf.q2 i
  let (userinfo, w) ← w.readString pf.q2 i
  let (version, w) ← w.readString pf.q2 i
  onPlayer pf i client userinfo version w

/-- The player's name is looked up and the rules are applied in a goroutine. -/
def startConnect (slot : Option Nat) (w : World) : World :=
  match slot with
  | none => w
  | some slot => w.spawn (.connect i slot)

def parseConnect (w : World) : Except Fault World := do
  let (slot, w) ← parsePlayer pf i w
  .ok (startConnect i slot w)

def parsePlayers : Nat → World → Except Fault World
  | 0, w => .ok w
  | count + 1, w => do
    let (_, w) ← parsePlayer pf i w
    parsePlayers count w

def parsePlayerlist (w : World) : Except Fault World := do
  let (count, w) ← w.readByte pf.q2 i
  parsePlayers pf i count.toNat w

/-- `WritePlayer`. A failed insert is only logged. -/
def writePlayer (client : Nat) (w : World) : World :=
  let p := (w.fe i).player client
  if (w.fe i).maxPlayers ≤ client ∨ p.connectTime = 0 then w
  else
    let (now, w) := w.now
    let (id, w) := w.insert
    match id with
    | none => w
    | some _ => { w with playerStats := w.playerStats ++ [
        ⟨p.databaseID, p.frags, p.deaths, p.suicides, p.kdr, now - p.connectTime⟩] }

def removePlayer (client : Nat) (w : World) : World :=
  if !(w.fe i).validPlayerID client then w
  else if !((w.fe i).player client).inUse then w
  else
    let w := writePlayer i client w
    let w := w.updatePlayer i client fun _ => {}
    w.update i fun fe => { fe with playerCount := fe.playerCount - 1 }

/-- `ParseDisconnect` behind its read. -/
def onDisconnect (clientnum : Byte) (w : World) : World :=
  if (w.fe i).maxPlayers < clientnum.toNat then w
  else match (w.fe i).findPlayer clientnum.toNat with
    | none => w
    | some _ => removePlayer i clientnum.toNat w

def parseDisconnect (w : World) : Except Fault World := do
  let (clientnum, w) ← w.readByte pf.q2 i
  .ok (onDisconnect i clientnum w)

/-- The fields of a player that follow the userinfo. -/
def Player.setUserinfo (info : StringMap) (hash : Bytes) (p : Player) : Player := { p with
  userinfoMap := info
  name := info.at (ascii "name")
  fov := atoiValue (info.at (ascii "fov"))
  cookie := info.at (ascii "cl_cookie")
  userInfoHash := hash }

/-- `ParsePlayerUpdate` behind its reads. -/
def onPlayerUpdate (clientnum : Byte) (userinfo : Bytes) (w : World) : Except Fault World :=
  let hash := md5Hash pf.keys userinfo
  match (w.fe i).findPlayer clientnum.toNat with
  | none => .ok w
  | some slot =>
    if hash = ((w.fe i).player slot).userInfoHash then .ok w
    else do
      let info ← userinfoMap userinfo
      let w := w.updatePlayer i slot (Player.setUserinfo info hash)
      let player := (w.fe i).player slot
      if player.cookie = [] then
        let (random, w) := w.randomBytes 12
        .ok (w.update i (setupPlayerCookie pf.q2 player random))
      else .ok w

def parsePlayerUpdate (w : World) : Except Fault World := do
  let (clientnum, w) ← w.readByte pf.q2 i
  let (userinfo, w) ← w.readString pf.q2 i
  onPlayerUpdate pf i clientnum userinfo w

/-! ## The other messages -/

/-- `ParseFrag` behind its reads. -/
def onFrag (v a : Byte) (w : World) : World :=
  match (w.fe i).findPlayer v.toNat with
  | none => w
  | some victim =>
    match (w.fe i).findPlayer a.toNat with
    | none => w.updatePlayer i victim Player.diedAlone
    | some attacker =>
      if attacker = victim then w.updatePlayer i victim Player.diedAlone
      else (w.updatePlayer i attacker Player.scored).updatePlayer i victim Player.died

/-- The victim and the attacker. Nothing calls it. -/
def parseFrag (w : World) : Except Fault World := do
  let (v, w) ← w.readByte pf.q2 i
  let (a, w) ← w.readByte pf.q2 i
  .ok (onFrag i v a w)

def onMap (mapname : Bytes) (w : World) : World :=
  w.update i fun fe => { fe with previousMap := fe.currentMap, currentMap := mapname }

def parseMap (w : World) : Except Fault World := do
  let (mapname, w) ← w.readString pf.q2 i
  .ok (onMap i mapname w)

def teleport (w : World) : Except Fault World := do
  let (player, w) ← w.readByte pf.q2 i
  let (target, w) ← w.readString pf.q2 i
  .ok (onTeleport pf i player target w)

def invite (w : World) : Except Fault World := do
  let (client, w) ← w.readByte pf.q2 i
  let (_, w) ← w.readString pf.q2 i
  onInvite pf i client w

def parseCommand (w : World) : Except Fault World := do
  let (cmd, w) ← w.readByte pf.q2 i
  if cmd = pcmdTeleport then teleport pf i w
  else if cmd = pcmdInvite then invite pf i w
  else .ok w

/-- The switch of `ParseMessage`. What it has no case for is passed over. -/
def dispatch (cmd : Byte) (w : World) : Except Fault World :=
  if cmd = cmdPing then pong pf i w
  else if cmd = cmdPrint then parsePrint pf i w
  else if cmd = cmdMap then parseMap pf i w
  else if cmd = cmdPlayerList then parsePlayerlist pf i w
  else if cmd = cmdPlayerUpdate then parsePlayerUpdate pf i w
  else if cmd = cmdConnect then parseConnect pf i w
  else if cmd = cmdDisconnect then parseDisconnect pf i w
  else if cmd = cmdCommand then parseCommand pf i w
  else .ok w

/-- One turn of the loop. -/
def parseOne (w : World) : Except Fault World := do
  let (cmd, w) ← w.readByte pf.q2 i
  dispatch pf i cmd w

/-- The loop, for at most so many turns. -/
def parseLoop : Nat → World → Except Fault World
  | 0, _ => .error .outOfFuel
  | fuel + 1, w =>
    if (w.fe i).message.data.length ≤ (w.fe i).message.index then .ok w
    else parseOne pf i w >>= parseLoop fuel

/-- Every turn reads a byte, so there are no more turns than bytes. -/
def parseMessage (w : World) : Except Fault World :=
  parseLoop pf i ((w.fe i).message.data.length + 1) w

end
end Q2Admin
