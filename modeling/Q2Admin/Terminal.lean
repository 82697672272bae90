import Q2Admin.Accounts
import Q2Admin.PlayerCommand
import Q2Admin.RuleFiles

/-! The terminal of an SSH session and the state `sessionHandler` of `backend/ssh.go` keeps
for it: the server it manages, and the links by which consoles are streamed to it. -/

namespace Q2Admin
open Go

/-! ## Text -/

/-- `Font`, with one attribute. -/
def font (attr : Int) (s : Bytes) : Bytes :=
  (27 :: ascii "[") ++ decimal attr ++ ascii "m" ++ s ++ (27 :: ascii "[m")

def red : Bytes → Bytes := font 31
def yellow : Bytes → Bytes := font 33
def magenta : Bytes → Bytes := font 35
def underline : Bytes → Bytes := font 4

structure CmdArgs where
  command : Bytes := []
  argc : Nat := 0
  argv : List Bytes := []
  args : Bytes := []
  deriving DecidableEq

/-- `ParseCmdArgs`. Its error cannot occur: `strings.Split` always returns something. -/
def parseCmdArgs (toLower : Bytes → Bytes) (input : Bytes) : CmdArgs :=
  if input = [] then {}
  else
    let tokens := split (trim input (ascii " \n\t")) ' '
    { command := toLower (tokens.headD [])
      argc := tokens.length - 1
      argv := tokens.tail
      args := join tokens.tail (ascii " ") }

/-- `c.argv[k]`. -/
def CmdArgs.arg (c : CmdArgs) (k : Nat) : Except Fault Bytes :=
  match c.argv[k]? with
  | none => .error .sliceIndex
  | some word => .ok word

/-- `fe.Players[id]`. -/
def Frontend.playerAt (fe : Frontend) (id : Int) : Except Fault Player :=
  if 0 ≤ id ∧ id < fe.players.length then .ok (fe.player id.toNat) else .error .slotIndex

/-- `ResolvePlayers`. A number that is out of range for an integer is the nearest one for the
check, and part of a name for the search. -/
def Frontend.resolvePlayers (toLower : Bytes → Bytes) (fe : Frontend) (text : Bytes) :
    Except Bytes (List Player) :=
  if text = [] then .error (ascii "empty player input")
  else
    let text := if 15 < text.length then text.take 14 else text
    let id := atoiValue text
    if id < 0 ∨ fe.maxPlayers < id then .error (ascii "invalid player ID")
    else if atoi text = none then
      .ok (fe.players.filter fun p => contains (toLower p.name) (toLower text))
    else .ok (fe.players.filter fun p => p.clientID = id && p.inUse)

/-! ## The terminal -/

def topLevelPrompt : Bytes := ascii "q2a"

/-- Ten minutes. -/
def pauseLength : Int := 600

/-- `type SSHTerminal`. -/
structure SSHTerminal where
  /-- Everything that has been written to the terminal. -/
  shown : List Bytes := []
  /-- What stands in front of the input. -/
  shownPrompt : Bytes := []
  /-- The prompt to go back to. -/
  prompt : Bytes := []
  /-- When a pause will expire. -/
  paused : Int := 0
  /-- What has been held back during a pause. -/
  buffer : List Bytes := []

namespace SSHTerminal

def printf (text : Bytes) (t : SSHTerminal) : SSHTerminal := { t with shown := t.shown ++ [text] }

def println (text : Bytes) (t : SSHTerminal) : SSHTerminal :=
  if text = [] then t else t.printf (newline text)

def setPrompt (text : Bytes) (save : Bool) (t : SSHTerminal) : SSHTerminal :=
  if text = [] then t
  else { t with
    prompt := if save then text else t.prompt
    shownPrompt := text ++ ascii "> " }

def restorePrompt (t : SSHTerminal) : SSHTerminal :=
  let prompt := if t.prompt = [] then ascii "> " else t.prompt
  { t with prompt := prompt }.setPrompt prompt false

/-- A line of the console, at the time of day `now`. -/
def stream (now text : Bytes) (t : SSHTerminal) : SSHTerminal :=
  let msg := now ++ ascii " " ++ text ++ ascii "\n"
  if 0 < t.paused then { t with buffer := t.buffer ++ [msg] } else t.println msg

/-- `pause`, which ends at `now` and ten minutes. -/
def pause (now : Int) (t : SSHTerminal) : SSHTerminal :=
  { t with paused := now + pauseLength }.setPrompt
    (t.prompt ++ ascii " [" ++ red (ascii "paused") ++ ascii "]") false

/-- `unpause`: what has been held back is shown. -/
def unpause (t : SSHTerminal) : SSHTerminal :=
  { (t.buffer.foldl (fun (t : SSHTerminal) line => t.println line) { t with paused := 0 }).restorePrompt with buffer := [] }

end SSHTerminal

/-! ## Who may manage what -/

/-- `enum Context`. -/
inductive Context where
  | web
  | ssh
  deriving DecidableEq, Repr

/-- `message Role`. -/
structure Role where
  name : Bytes := []
  context : Context
  disabled : Bool := false
  deriving DecidableEq

/-- What a session finds of users and frontends, and does not change. -/
structure SSHSite where
  /-- `be.users` -/
  users : List Account
  /-- `Users` of a frontend: the roles of a user. -/
  roles : Nat → Nat → List Role
  /-- `Path` of a frontend, as its greetings have left it. -/
  path : Nat → Bytes

namespace SSHSite
variable (site : SSHSite)

/-- `User`, or nothing for its error. -/
def user (email : Bytes) : Option Nat :=
  if email = [] then none else site.users.findIdx? fun u => u.email = email

def account (u : Nat) : Account := site.users.getD u default

/-- `MyFrontends`. -/
def myFrontends (frontends : List Frontend) (u : Nat) : List Nat :=
  (List.range frontends.length).filter fun i => (frontends.getD i default).owner = (site.account u).email

/-- `MyDelegates`: a frontend for each role. -/
def myDelegates (frontends : List Frontend) (u : Nat) : List Nat :=
  (List.range frontends.length).flatMap fun i =>
    ((site.roles i u).filter fun r => r.context = .ssh).map fun _ => i

/-- The user with this login owns the frontend, or it has been delegated. -/
def MayManage (w : World) (login : Bytes) (i : Nat) : Prop :=
  match site.user login with
  | none => False
  | some u => i ∈ site.myFrontends w.frontends u ∨ i ∈ site.myDelegates w.frontends u

instance (w : World) (login : Bytes) (i : Nat) : Decidable (site.MayManage w login i) :=
  match found : site.user login with
  | none => isFalse (by simp [MayManage, found])
  | some u => decidable_of_iff (i ∈ site.myFrontends w.frontends u ∨ i ∈ site.myDelegates w.frontends u)
      (by simp [MayManage, found])

end SSHSite

/-! ## The session -/

/-- The variables of `sessionHandler` that say which server is managed, and the channels the
session has put into the `Terminals` of the frontends. Each selection of a server begins a
link; a link, its channel and its `CancelFunc` go by its position among all of them. -/
structure Selection where
  fe : Option Nat := none
  activeFE : Option Nat := none
  cancel : Option Nat := none
  /-- The frontends of the links. -/
  links : List Nat := []
  /-- `Terminals` of a frontend. -/
  terminals : Nat → List Nat := fun _ => []

namespace Selection

/-- A server is selected: `fe`, the new context with its `cancel`, and the new channel. -/
def select (i : Nat) (sel : Selection) : Selection where
  fe := some i
  activeFE := some i
  cancel := some sel.links.length
  links := sel.links ++ [i]
  terminals := Function.update sel.terminals i (sel.terminals i ++ [sel.links.length])

/-- The goroutine of a link is cancelled, and takes its channel away: `TerminalDisconnected`. -/
def unlink (link : Nat) (sel : Selection) : Selection :=
  let i := sel.links.getD link 0
  { sel with terminals := Function.update sel.terminals i ((sel.terminals i).filter (· ≠ link)) }

/-- The server that was managed has dropped: only the last `cancel` is still known. -/
def drop (sel : Selection) : Selection :=
  { (match sel.cancel with
    | none => sel
    | some link => sel.unlink link) with activeFE := none }

/-- Each link has deferred its `cancel`; the last comes first. -/
def unlinkAll (sel : Selection) : Selection := (List.range sel.links.length).foldr unlink sel

end Selection

/-- How far `AddRuleWizard` has come, with the rule so far. -/
inductive Wizard where
  | type
  | address (r : Rule)
  | description (r : Rule)
  | message (r : Rule)
  deriving DecidableEq

structure SSHSession extends Selection where
  /-- `s.User()` -/
  user : Bytes
  world : World
  files : Files
  terminal : SSHTerminal := SSHTerminal.setPrompt topLevelPrompt true {}
  /-- The rule wizard, while it is the one who reads. -/
  wizard : Option Wizard := none
  /-- What the session itself has sent to the consoles of frontends. -/
  streamed : List (Nat × Bytes) := []
  ended : Bool := false

namespace SSHSession
variable (s : SSHSession)

def println (text : Bytes) : SSHSession := { s with terminal := s.terminal.println text }

def printf (text : Bytes) : SSHSession := { s with terminal := s.terminal.printf text }

def setPrompt (text : Bytes) (save : Bool) : SSHSession :=
  { s with terminal := s.terminal.setPrompt text save }

/-- `SSHPrintln` of a frontend, that may be nil. -/
def sshPrintln (fe : Option Nat) (text : Bytes) : SSHSession :=
  match fe with
  | none => s
  | some i => if text = [] then s else { s with streamed := s.streamed ++ [(i, text)] }

/-- A function of `command.go` is applied to `fe`. Each of them returns when that is nil. -/
def onFe (f : Frontend → Frontend) : SSHSession :=
  match s.fe with
  | none => s
  | some i => { s with world := s.world.update i f }

/-- A field of `fe` is read. -/
def frontend : Except Fault Nat :=
  match s.fe with
  | none => .error .nilFrontend
  | some i => .ok i

/-- The session is over, and what it has deferred runs. -/
def close : SSHSession := { s with toSelection := s.unlinkAll, ended := true }

end SSHSession
end Q2Admin
