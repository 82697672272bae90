import Q2Admin.Terminal

/-! `sessionHandler` of `backend/ssh.go`: what each line of input does. -/

namespace Q2Admin
open Go Lib

/-- The columns of `database.SearchResult` that are shown. -/
structure SearchResult where
  name : Bytes
  server : Bytes
  ago : Bytes
  ip : Bytes
  deriving DecidableEq

/-- What the templates are executed with. -/
inductive SSHPage where
  | servers (frontends : List Frontend)
  | help (commands : List (Bytes × Bytes)) (extra : Bytes)
  | whois (p : Player)
  | status (fe : Option Frontend)
  | search (query : Bytes) (results : List SearchResult)
  | rules (rules : List Rule)

/-- The libraries of the SSH server. -/
structure SSHLib where
  platform : Platform
  /-- `strings.ToLower`. -/
  toLower : Bytes → Bytes
  /-- `%q`. -/
  quote : Bytes → Bytes
  /-- The text of the error of `strconv.Atoi`. -/
  atoiError : Bytes → Bytes
  /-- The output of a template. -/
  page : SSHPage → Bytes
  /-- `prototext.Format` of a rule. -/
  formatRule : Rule → Bytes
  /-- `prototext.Format` of `ToProto` of a frontend. -/
  formatSettings : Frontend → Bytes
  /-- `prototext.Marshal` of a rule. -/
  marshalRule : Rule → Except Bytes Bytes
  rulesFormat : TextFormat (List Rule)

/-- Libraries for runs on concrete bytes. -/
def SSHLib.plain : SSHLib where
  platform := Platform.plain
  toLower := WebLib.plain.toLower
  quote := WebLib.plain.quote
  atoiError s := ascii "strconv.Atoi: parsing " ++ WebLib.plain.quote s ++ ascii ": invalid syntax"
  page _ := []
  formatRule r := r.uuid
  formatSettings fe := fe.name
  marshalRule r := .ok r.uuid
  rulesFormat := .only rulesHeader [] []

/-- What a line gets from the packages its command calls. -/
structure LineResults where
  /-- `uuid.NewString()`. -/
  uuid : Bytes := []
  /-- `os.WriteFile`, and the text of its error. -/
  write : WriteResult := .done
  writeError : Bytes := []
  /-- `db.Search`. -/
  found : Except Bytes (List SearchResult) := .ok []

inductive SSHCommand where
  | server
  | quit
  | help
  | say
  | whois
  | stuff
  | rcon
  | status
  | consolesay
  | sayperson
  | kick
  | mute
  | stifle
  | pause
  | unpause
  | search
  | rules
  | settings
  deriving DecidableEq, Repr

/-- The words the handler compares a command with. -/
def commandWords : List (String × SSHCommand) := [
  ("server", .server), ("servers", .server),
  ("quit", .quit), ("exit", .quit), ("logout", .quit), ("q", .quit),
  ("help", .help), ("?", .help),
  ("say", .say), ("whois", .whois), ("stuff", .stuff), ("rcon", .rcon), ("status", .status),
  ("consolesay", .consolesay), ("sayperson", .sayperson), ("kick", .kick), ("mute", .mute),
  ("stifle", .stifle), ("stifled", .stifle), ("stifles", .stifle),
  ("pause", .pause), ("unpause", .unpause), ("search", .search),
  ("rules", .rules), ("rule", .rules), ("settings", .settings)]

def CmdArgs.which (c : CmdArgs) : Option SSHCommand :=
  (commandWords.find? fun entry => ascii entry.1 = c.command).map Prod.snd

def helpCommands (entries : List (String × String)) : List (Bytes × Bytes) :=
  entries.map fun entry => (ascii entry.1, ascii entry.2)

/-- The help without a server. -/
def shortHelp : SSHPage := .help
  (helpCommands [
    ("help", "show this message"),
    ("quit", "close the ssh connection"),
    ("server [name]", "switch mgmt servers, list")])
  (ascii "You need to use the server command to connect to a management server")

def longHelp : SSHPage := .help
  (helpCommands [
    ("help", "show this message"),
    ("quit", "close the ssh connection"),
    ("pause", "pause the console stream"),
    ("server [name]", "switch mgmt servers, list"),
    ("settings", "show front-end config"),
    ("unpause", "resume the console stream"),
    ("", ""),
    ("rcon <cmd>", "execute <cmd> on the remote server"),
    ("status", "display basic server status info"),
    ("search <string>", "search player records (names, hosts, userinfo, etc)"),
    ("stuff <#> <cmd>", "force client # to do a command"),
    ("whois <#>", "show player info for client #"),
    ("", ""),
    ("say", "broadcasts <text> to all players"),
    ("consolesay", "send print to server from console"),
    ("sayplayer <id> <msg>", "say something to player #id"),
    ("", ""),
    ("kick <#> [msg]", "kick player # with msg"),
    ("mute <#> <secs>", "mute player # for secs seconds"),
    ("stifle <#> <secs>", "stifle player # for secs seconds"),
    ("", ""),
    ("rules [show <id> | del <id> | add]", "")])
  []

/-- How the branch of a command ends. -/
inductive Branch where
  /-- `continue` -/
  | again (s : SSHSession)
  /-- It goes on to `SendMessages(fe)`. -/
  | send (s : SSHSession)

def Branch.session : Branch → SSHSession
  | again s => s
  | send s => s

/-- `FindFrontendByName`, without its error. -/
def World.findFrontendByName (w : World) (name : Bytes) : Option Nat :=
  if name = [] then none else w.frontends.findIdx? fun fe => fe.name = name

/-- The user is told what is wrong. -/
def SSHSession.refuse (s : SSHSession) (message : Bytes) : Except Fault Branch :=
  .ok (.again (s.printf (message ++ ascii "\n")))

/-- What comes behind the branches. -/
def Branch.finish (lib : SSHLib) : Branch → Except Fault SSHSession
  | again s => .ok s
  | send s =>
    match s.fe with
    | none => .ok s
    | some i => do
      let w ← sendMessages lib.platform i s.world
      .ok { s with world := w }

/-- The managed server that has dropped, as the handler finds when it has read a line. -/
def SSHSession.dropped (s : SSHSession) : Option Nat :=
  s.activeFE.filter fun i => !(s.world.fe i).connected

/-- Nothing comes before a command now. -/
def SSHSession.listening (s : SSHSession) : Bool := !s.ended && s.wizard.isNone && s.dropped.isNone

/-- `fe.Connected && fe.Trusted` -/
def SSHSession.online (s : SSHSession) (i : Nat) : Bool := (s.world.fe i).connected && (s.world.fe i).trusted

/-- The words behind the number. -/
def CmdArgs.rest (c : CmdArgs) : Bytes := join c.argv.tail (ascii " ")

/-! ## The server -/

namespace SSHLib

section
variable (lib : SSHLib) (site : SSHSite) (c : CmdArgs) (s : SSHSession)

/-- `server <name>`. -/
def selectServer (name : Bytes) : Branch :=
  match s.world.findFrontendByName name with
  | none => .again ({ s with fe := none }.printf (ascii "server: unable to locate " ++ lib.quote name ++ ascii "\n"))
  | some i =>
    if !s.online i then
      .again ({ s with fe := some i }.printf
        (lib.quote name ++ ascii " is offline, it can't be managed currently\n"))
    else
      .send (({ s with toSelection := s.select i }.println
        (yellow (ascii "* connecting to " ++ (s.world.fe i).name ++ ascii "'s console stream *"))).setPrompt
          (topLevelPrompt ++ ascii "/" ++ (s.world.fe i).name) true)

/-- `server` without a name. -/
def listServers : Branch :=
  match site.user s.user with
  | none => .again (s.println (ascii "problems identifying you..."))
  | some u =>
    let s := s.println (lib.page (.servers ((site.myFrontends s.world.frontends u).map s.world.fe)))
    if s.activeFE = none then .again s else .send s

def serverCommand : Except Fault Branch :=
  if c.argc = 0 then .ok (listServers lib site s)
  else do
    let name ← c.arg 0
    .ok (selectServer lib s name)

/-- The server dropped. -/
def serverDropped (i : Nat) : SSHSession :=
  let s := s.printf
    (yellow (ascii "** server connection to " ++ (s.world.fe i).name ++ ascii " dropped **\n"))
  { s with toSelection := s.drop }.setPrompt topLevelPrompt true

end

/-! ## Players -/

/-- `%-20s [%d]\n` for a player, in the log. -/
def logName (runeCount : Bytes → Nat) (p : Player) : Bytes :=
  padded runeCount 20 p.name ++ ascii " [" ++ decimal p.clientID ++ ascii "]"

section
variable (lib : SSHLib) (c : CmdArgs) (i : Nat) (s : SSHSession)

/-- What the commands about a player have in common: `first` is to be the number of one who is
there. There are texts for what is no number, what is out of range, and a free slot. -/
def onPlayer (first noNumber : Bytes) (outOfRange : Int → Bytes) (unused : Bytes)
    (proceed : Player → Branch) : Except Fault Branch :=
  match atoi first with
  | none => s.refuse noNumber
  | some pid =>
    if pid < 0 ∨ (s.world.fe i).maxPlayers < pid then s.refuse (outOfRange pid)
    else do
      let p ← (s.world.fe i).playerAt pid
      if p.connectTime = 0 then s.refuse unused else .ok (proceed p)

def whois : Except Fault Branch :=
  if c.args = [] then .ok (.again (s.sshPrintln (some i) (ascii "Usage: whois <id>")))
  else do
    let first ← c.arg 0
    onPlayer i s first (ascii "whois error: " ++ lib.atoiError first)
      (fun pid => ascii "whois error: invalid player ID: " ++ decimal pid)
      (ascii "whois: client_id " ++ lib.quote first ++ ascii " not in use")
      fun p => .send (s.println (lib.page (.whois p)))

def stuff : Except Fault Branch :=
  if c.args = [] then s.refuse (ascii "Usage: stuff <id> <command>")
  else do
    let first ← c.arg 0
    onPlayer i s first (ascii "stuff error: " ++ lib.atoiError first)
      (fun pid => ascii "stuff error: invalid player ID: " ++ decimal pid)
      (ascii "stuff: client_id " ++ lib.quote first ++ ascii " not in use")
      fun p => .send (s.onFe (stuffPlayer lib.platform.q2 p c.rest))

def sayperson : Except Fault Branch :=
  if c.args = [] then s.refuse (ascii "Usage: sayplayer <id> [message]")
  else do
    let first ← c.arg 0
    let invalid := ascii "sayplayer: invalid client_id " ++ lib.quote first
    onPlayer i s first invalid (fun _ => invalid)
      (ascii "sayperson: client_id " ++ lib.quote first ++ ascii " not in use")
      fun p => .send (s.onFe (sayPlayer lib.platform.q2 (some p) printChat c.rest))

/-- `KickPlayer` with its line for the consoles. The message has its newline by then. -/
def kickFrom (p : Player) (msg : Bytes) : SSHSession :=
  (s.onFe (kickPlayer lib.platform.q2 p msg)).sshPrintln s.fe
    (ascii "KICK " ++ logName lib.platform.runeCount p ++ ascii " " ++
      lib.quote (if msg = [] then [] else newline msg) ++ ascii "\n")

def kick : Except Fault Branch :=
  if c.args = [] then s.refuse (ascii "Usage: kick <id> [message]")
  else do
    let first ← c.arg 0
    let invalid := ascii "kick: invalid client_id " ++ lib.quote first
    onPlayer i s first invalid (fun _ => invalid)
      (ascii "kick: client_id " ++ lib.quote first ++ ascii " not in use")
      fun p => .send (kickFrom lib s p c.rest)

/-- `RuleDetailLine`. -/
def ruleDetailLine (r : Rule) : Except Bytes Bytes :=
  match lib.marshalRule r with
  | .error failure => .error (ascii "RuleDetailLine() error: " ++ failure)
  | .ok text => .ok text

/-- A rule in a list: its text, or at once that there is none. -/
def listRule (failed : Bytes) (listed : SSHSession × Bytes) (r : Rule) : SSHSession × Bytes :=
  match ruleDetailLine lib r with
  | .error failure => (listed.1.printf (failed ++ failure ++ ascii "\n"), listed.2)
  | .ok text => (listed.1, listed.2 ++ text ++ ascii "\n")

/-- The rules of one type are listed, with a usage below. -/
def listRules (type : RuleType) (title failed usage : Bytes) : SSHSession :=
  let rules := (s.world.fe i).rules.filter fun r => r.type = type
  let (s, details) := rules.foldl (listRule lib failed) (s.println title, [])
  s.println (details ++ ascii "\n" ++ usage)

/-- `MutePlayer` with its line for the consoles. -/
def muteOn (p : Player) (secs : Int) : SSHSession :=
  (s.onFe (mutePlayer lib.platform.q2 p secs)).sshPrintln s.fe
    (ascii "MUTE[" ++ (if 0 < secs then decimal secs else ascii "perm") ++ ascii "] " ++
      logName lib.platform.runeCount p ++ ascii "\n")

/-- Here the seconds are read before the player is. -/
def mute : Except Fault Branch :=
  if c.args = [] then .ok (.again (listRules lib i s .mute (ascii "Active mutes:")
    (ascii " mute list error: ") (ascii "Usage: mute <player_id> <seconds>")))
  else do
    let first ← c.arg 0
    match atoi first with
    | none => s.refuse (ascii "mute: invalid client_id " ++ lib.quote first)
    | some id =>
      if id < 0 ∨ (s.world.fe i).maxPlayers < id then s.refuse (ascii "mute: invalid client_id " ++ lib.quote first)
      else do
        let second ← c.arg 1
        match atoi second with
        | none => s.refuse (ascii "mute: invalid seconds " ++ lib.quote second)
        | some secs => do
          let p ← (s.world.fe i).playerAt id
          if p.connectTime = 0 then s.refuse (ascii "mute: client_id " ++ lib.quote first ++ ascii " not in use")
          else .ok (.send (muteOn lib s p secs))

/-- `StiflePlayer` with its line for the consoles. -/
def stifleOn (p : Player) (secs : Int) : SSHSession :=
  (s.onFe (stiflePlayer lib.platform.q2 p secs)).sshPrintln s.fe
    (ascii "STIFLE[" ++ decimal p.stifleLength ++ ascii "] " ++ logName lib.platform.runeCount p ++ ascii "\n")

/-- The player is looked for by number or by name. -/
def stifle : Except Fault Branch :=
  if c.args = [] then .ok (.again (listRules lib i s .stifle (ascii "Active stifles:")
    (ascii " stifle list error: ") (ascii "Usage: stifle <player_id> <seconds>")))
  else do
    let first ← c.arg 0
    match (s.world.fe i).resolvePlayers lib.toLower first with
    | .error failure => s.refuse (ascii "stifle: unable to resolve player: " ++ lib.quote failure)
    | .ok [p] => do
      let second ← c.arg 1
      match atoi second with
      | none => s.refuse (ascii "stifle: invalid seconds " ++ lib.quote second)
      | some secs => .ok (.send (stifleOn lib s p secs))
    | .ok _ => s.refuse (ascii "stifle: " ++ lib.quote first ++ ascii " doesn't match exactly 1 player")

end

/-! ## Text -/

section
variable (lib : SSHLib) (c : CmdArgs) (i : Nat) (results : LineResults) (s : SSHSession)

def say : Except Fault Branch :=
  if c.argc = 0 then s.refuse (ascii "Usage: say <something_to_say>")
  else .ok (.send ((s.println (magenta c.args)).onFe (sayEveryone lib.platform.q2 printChat c.args)))

/-- The only command that goes by `activeFE` to the frontend. -/
def rcon : Except Fault Branch :=
  if c.args = [] then s.refuse (ascii "Usage: rcon <command>")
  else .ok (.send { s with world := s.world.update i (consoleCommand lib.platform.q2 c.args) })

/-- The log of `fe` is written too. -/
def consolesay : Except Fault Branch :=
  if c.args = [] then s.refuse (ascii "Usage: consolesay <message>")
  else do
    let _ ← s.frontend
    .ok (.send ((s.onFe (consoleSay lib.platform.q2 c.args)).println (ascii "console: " ++ c.args)))

def pauseCommand : Branch :=
  if 0 < s.terminal.paused then .again s
  else
    let (now, w) := s.world.now
    .send { s with world := w, terminal := s.terminal.pause now }

def unpauseCommand : Branch :=
  if s.terminal.paused = 0 then .again s else .send { s with terminal := s.terminal.unpause }

def search : Branch :=
  if c.argc = 0 then .again (s.println (ascii "Usage: search <partial_name_ip_host_userinfo>"))
  else match results.found with
    | .error failure =>
      .again (s.printf (ascii "database.Search(" ++ lib.quote c.args ++ ascii "): " ++ failure ++ ascii "\n"))
    | .ok found => .again (s.println (lib.page (.search c.args found)))

end

/-! ## Rules -/

section
variable (lib : SSHLib) (site : SSHSite) (c : CmdArgs) (results : LineResults) (s : SSHSession)

/-- The rules of a frontend are replaced and written to its file. -/
def storeRules (i : Nat) (rules : List Rule) : SSHSession × Option Bytes :=
  let (files, failure) := materializeRules lib.rulesFormat lib.quote s.files (site.path i) rules
    results.write results.writeError
  ({ s with world := s.world.update i fun fe => { fe with rules := rules }, files := files }, failure)

def listAllRules : Except Fault Branch := do
  let i ← s.frontend
  let s := s.printf (underline (ascii "Local rules affecting") ++ ascii " " ++ yellow (s.world.fe i).name ++ ascii "\n")
  let s := s.println (lib.page (.rules (s.world.fe i).rules))
  let s := s.println (underline (ascii "Global rules:"))
  .ok (.send (s.println (lib.page (.rules s.world.rules))))

def showRule (id : Bytes) : Except Fault Branch := do
  let i ← s.frontend
  match ((s.world.fe i).rules ++ s.world.rules).find? fun r => id.isPrefixOf r.uuid with
  | none => .ok (.send s)
  | some r =>
    let s := s.printf (underline (ascii "Details for rule [" ++ yellow id ++ ascii "]:\n\n"))
    .ok (.send (s.println (lib.formatRule r)))

def deleteRule (id : Bytes) : Except Fault Branch :=
  if id.length < 4 then s.refuse (ascii "ID " ++ lib.quote id ++ ascii " has too few characters")
  else match s.world.rules.find? fun r => id.isPrefixOf r.uuid with
    | some r => s.refuse (ascii "Rule " ++ lib.quote r.uuid ++ ascii " is applied globally, you can't remove it")
    | none => do
      let i ← s.frontend
      let rules := (s.world.fe i).rules
      match (rules.filter fun r => id.isPrefixOf r.uuid).getLast? with
      | none => s.refuse (ascii "error: no client-scoped rule found with ID " ++ lib.quote id)
      | some found =>
        match storeRules lib site results s i (rules.filter fun r => !id.isPrefixOf r.uuid) with
        | (s, some _) => .ok (.again (s.println (ascii "error writing rules to persistent storage")))
        | (s, none) => .ok (.send (s.printf (ascii "Rule " ++ lib.quote found.uuid ++ ascii " removed.\n")))

def rulesCommand : Except Fault Branch :=
  if c.argc = 0 then listAllRules lib s
  else do
    let first ← c.arg 0
    if 1 < c.argc ∧ first = ascii "show" then do
      let id ← c.arg 1
      showRule lib s id
    else if 1 < c.argc ∧ first ∈ [ascii "del", ascii "delete", ascii "remove"] then do
      let id ← c.arg 1
      deleteRule lib site results s id
    else if c.argc = 1 ∧ first = ascii "add" then
      match s.fe with
      | none => .ok (.again (s.println (ascii "null terminal or frontend")))
      | some _ => .ok (.again ({ s with wizard := some .type }.printf (ascii <|
          "  [Rule Wizard] What type of rule to create? (ban, mute, stifle, message)? ")))
    else .ok (.send s)

def ruleTypeNamed (name : Bytes) : Option RuleType :=
  if name = ascii "ban" then some .ban
  else if name = ascii "mute" then some .mute
  else if name = ascii "stifle" then some .stifle
  else if name = ascii "message" then some .message
  else none

/-- The end of `rules add`. -/
def addRule (r : Rule) : Except Fault Branch := do
  let i ← s.frontend
  let s := s.printf (ascii "Adding rule proto:\n" ++ lib.formatRule r ++ ascii "\n")
  match storeRules lib site results s i ((s.world.fe i).rules ++ [r]) with
  | (s, some failure) => .ok (.send (s.printf failure))
  | (s, none) => .ok (.send s)

/-- A line of input for `AddRuleWizard`. -/
def wizardLine (input : Bytes) : Wizard → Except Fault Branch
  | .type =>
    match ruleTypeNamed input with
    | none => .ok (.again ((s.println (ascii "Invalid selection")).printf (ascii <|
        "  [Rule Wizard] What type of rule to create? (ban, mute, stifle, message)? ")))
    | some type => .ok (.again ({ s with wizard := some (.address { type := type }) }.printf (ascii <|
        "  [Rule Wizard] What network address should this affect (CIDR notation (8.8.8.0/24))? ")))
  | .address r => .ok (.again ({ s with wizard := some (.description { r with address := [input] }) }.printf (ascii <|
      "  [Rule Wizard] Enter a description for this rule (only admins can see this): ")))
  | .description r => .ok (.again ({ s with wizard := some (.message { r with description := [input] }) }.printf (ascii <|
      "  [Rule Wizard] Enter a message to display to players matching this rule: ")))
  | .message r =>
    addRule lib site results { s with wizard := none, terminal := s.terminal.restorePrompt }
      { r with message := [input], uuid := results.uuid }

end

/-! ## The loop -/

section
variable (lib : SSHLib) (site : SSHSite)

/-- The commands there are with a server. -/
def dispatch (c : CmdArgs) (i : Nat) (results : LineResults) (s : SSHSession) :
    Option SSHCommand → Except Fault Branch
  | some .say => say lib c s
  | some .help => .ok (.send (s.println (lib.page longHelp)))
  | some .whois => whois lib c i s
  | some .stuff => stuff lib c i s
  | some .rcon => rcon lib c i s
  | some .status => .ok (.send (s.println (lib.page (.status (s.fe.map s.world.fe)))))
  | some .consolesay => consolesay lib c s
  | some .sayperson => sayperson lib c i s
  | some .kick => kick lib c i s
  | some .mute => mute lib c i s
  | some .stifle => stifle lib c i s
  | some .pause => .ok (pauseCommand s)
  | some .unpause => .ok (unpauseCommand s)
  | some .search => .ok (search lib c results s)
  | some .rules => rulesCommand lib site c results s
  | some .settings => .ok (.send (s.printf (lib.formatSettings (s.world.fe i) ++ ascii "\n")))
  | _ => .ok (.send s)

/-- What is done with a line, when there is no news of a dropped server. -/
def handleCommand (c : CmdArgs) (results : LineResults) (s : SSHSession) : Except Fault SSHSession :=
  match c.which, s.activeFE with
  | some .server, _ => do
    let branch ← serverCommand lib site c s
    branch.finish lib
  | some .quit, _ => .ok s.close
  | some .help, none => .ok (s.println (lib.page shortHelp))
  | _, none => .ok s
  | command, some i => do
    let branch ← dispatch lib site c i results s command
    branch.finish lib

/-- A line has been read. -/
def handleLine (input : Bytes) (results : LineResults) (s : SSHSession) : Except Fault SSHSession :=
  if s.ended then .ok s
  else match s.wizard with
    | some stage => do
      let branch ← wizardLine lib site results s input stage
      branch.finish lib
    | none =>
      match s.dropped with
      | some i => .ok (serverDropped s i)
      | none => handleCommand lib site (parseCmdArgs lib.toLower input) results s

end

end SSHLib

/-- No line could be read. -/
def SSHSession.readFailed (s : SSHSession) (reason : Bytes) : SSHSession :=
  if s.ended then s
  else match s.wizard with
    | some _ => { s with wizard := none }.println (ascii "error reading rule wizard input: " ++ reason)
    | none => s.close

/-- What happens to a session. -/
inductive SSHEvent where
  | line (input : Bytes) (results : LineResults)
  | readFailed (reason : Bytes)
  /-- The goroutine of a link gets a line of the console. -/
  | stream (link : Nat) (now text : Bytes)
  /-- Connections come and go, and frontends send messages. -/
  | frontend (i : Nat) (fe : Frontend)

/-- Whatever else happens to a frontend, its name and its owner stay. -/
def Frontend.becomes (fe old : Frontend) : Frontend := { fe with name := old.name, owner := old.owner }

def sshStep (lib : SSHLib) (site : SSHSite) (s : SSHSession) : SSHEvent → Except Fault SSHSession
  | .line input results => lib.handleLine site input results s
  | .readFailed reason => .ok (s.readFailed reason)
  | .stream link now text =>
    -- a channel that has been taken away gets nothing
    if link ∈ s.terminals (s.links.getD link 0) then .ok { s with terminal := s.terminal.stream now text }
    else .ok s
  | .frontend i fe => .ok { s with world := s.world.update i fe.becomes }

/-- What is found by the name, when the event is a line that is taken for `server <name>`. -/
def SSHLib.wanted (lib : SSHLib) (s : SSHSession) : SSHEvent → Option (Option Nat)
  | .line input _ =>
    let c := parseCmdArgs lib.toLower input
    if s.listening ∧ c.which = some .server ∧ c.argc ≠ 0 then
      some (s.world.findFrontendByName (c.argv.headD []))
    else none
  | _ => none

end Q2Admin
