import Q2Admin.Process
import Q2Admin.SelectedServer

/-! The process with the sessions of its SSH server, which type their commands while game
servers connect, talk and leave. A command writes to the queue of a server and sends it, or
changes its rules: no session of a game server is disturbed by that. -/

namespace Q2Admin
open Go Lib

/-! ## What a command does to the servers -/

/-- A frontend but for its queue, its vectors, its invites and its rules. -/
def Frontend.bearing (fe : Frontend) : Frontend := { fe.atRest with rules := [] }

/-- Servers have been told something, or their rules have changed. -/
structure World.Told (w w' : World) : Prop where
  bearings : w'.frontends.map Frontend.bearing = w.frontends.map Frontend.bearing
  queues : ∀ j, (w.fe j).messageOut.AtEnd → (w'.fe j).messageOut.AtEnd
  keyed : ∀ j, (w.fe j).Keyed → (w'.fe j).Keyed

/-- Whoever is connected or trusted can be sent to. -/
def World.Sendable (w : World) : Prop :=
  ∀ i, (w.fe i).connected = true ∨ (w.fe i).trusted = true → (w.fe i).CanSend

namespace World.Told
variable {w w' w'' : World}

theorem of_frontends (same : w'.frontends = w.frontends) : w.Told w' where
  bearings := by rw [same]
  queues := by
    intro j atEnd
    rwa [World.fe, same]
  keyed := by
    intro j keyed
    rwa [World.fe, same]

theorem trans (first : w.Told w') (second : w'.Told w'') : w.Told w'' where
  bearings := second.bearings.trans first.bearings
  queues := fun j atEnd => second.queues j (first.queues j atEnd)
  keyed := fun j keyed => second.keyed j (first.keyed j keyed)

theorem queue (i : Nat) {f : Frontend → Frontend} (queues : Queues f) : w.Told (w.update i f) where
  bearings := World.map_update (by
    rw [queues.only (w.fe i)]
    rfl)
  queues := fun _ start => World.fe_update_holds w (fun fe => fe.messageOut.AtEnd) start (queues.atEnd _)
  keyed := by
    intro j start
    apply World.fe_update_holds w Frontend.Keyed start
    rw [queues.only (w.fe i)]
    exact id

theorem rules (i : Nat) (rules : List Rule) : w.Told (w.update i fun fe => { fe with rules := rules }) where
  bearings := World.map_update rfl
  queues := fun _ start => World.fe_update_holds w (fun fe => fe.messageOut.AtEnd) start id
  keyed := fun _ start => World.fe_update_holds w Frontend.Keyed start id

section
variable (told : w.Told w') (j : Nat)
include told

theorem field {α : Type} (field : Frontend → α) (borne : ∀ fe : Frontend, field fe.bearing = field fe) :
    field (w'.fe j) = field (w.fe j) := by
  rw [← borne, ← borne (w.fe j), World.field_of_map told.bearings j]

theorem keysFit (fit : (w.fe j).KeysFit) : (w'.fe j).KeysFit := by
  intro encrypted
  rw [told.field j (fun fe => fe.encrypted) fun _ => rfl] at encrypted
  exact told.keyed j (fit encrypted)

theorem canSend (able : (w.fe j).CanSend) : (w'.fe j).CanSend where
  connection := by
    rw [told.field j (fun fe => fe.connection) fun _ => rfl]
    exact able.connection
  keys := by
    rw [told.field j (fun fe => fe.trusted) fun _ => rfl]
    exact fun trusted => told.keysFit j (able.keys trusted)

theorem ready (ready : (w.fe j).Ready) : (w'.fe j).Ready where
  toCanSend := told.canSend j ready.toCanSend
  sized := by
    rw [told.field j (fun fe => fe.players) fun _ => rfl, told.field j (fun fe => fe.maxPlayers) fun _ => rfl]
    exact ready.sized
  ids := by
    have players := told.field j (fun fe => fe.players) fun _ => rfl
    simp only [players, Frontend.InRange]
    exact ready.ids
  atEnd := told.queues j ready.atEnd

omit j in
theorem sendable (sendable : w.Sendable) : w'.Sendable := by
  intro i there
  rw [told.field i (fun fe => fe.connected) fun _ => rfl, told.field i (fun fe => fe.trusted) fun _ => rfl] at there
  exact told.canSend i (sendable i there)

end

end World.Told

theorem World.Serves.of_told {w w' : World} {c : ConnId} {phase : Phase} (serves : w.Serves c phase)
    (told : w.Told w') : w'.Serves c phase := by
  have connection (i : Nat) : (w'.fe i).connection = (w.fe i).connection :=
    told.field i (fun fe => fe.connection) fun _ => rfl
  have connected (i : Nat) : (w'.fe i).connected = (w.fe i).connected :=
    told.field i (fun fe => fe.connected) fun _ => rfl
  cases phase with
  | auth i own =>
    obtain ⟨awaits, mine, there⟩ := serves
    have challenge := told.field i (fun fe => fe.challenge) fun _ => rfl
    refine ⟨⟨challenge.trans awaits.challenge, ?_, told.keysFit i awaits.keysFit, awaits.nonempty⟩, ?_, ?_⟩
    · rw [connection]
      exact awaits.connection
    · rw [connection]
      exact mine
    · rw [connected]
      exact there
  | main i =>
    obtain ⟨ready, mine, there, trusted⟩ := serves
    refine ⟨told.ready i ready, ?_, ?_, ?_⟩
    · rw [connection]
      exact mine
    · rw [connected]
      exact there
    · rw [told.field i (fun fe => fe.trusted) fun _ => rfl]
      exact trusted
  | greeting => trivial
  | closed => trivial

namespace Server.Lively
variable {s : Server} (lively : s.Lively)
include lively

theorem of_told {w' : World} (told : s.world.Told w') : Lively { s with world := w' } where
  serves := fun c => (lively.serves c).of_told told
  queues := fun j => told.queues j (lively.queues j)
  lingers := by
    intro j idle
    have lingers := lively.lingers j idle
    constructor
    · rw [told.field j (fun fe => fe.connection) fun _ => rfl, told.field j (fun fe => fe.connected) fun _ => rfl,
        told.field j (fun fe => fe.trusted) fun _ => rfl]
      exact lingers.connection
    · rw [told.field j (fun fe => fe.trusted) fun _ => rfl]
      exact fun trusted => told.keyed j (lingers.keyed trusted)

theorem sendable : s.world.Sendable := fun _ => lively.canSend

end Server.Lively

section
variable (pf : Platform) (i : Nat) {w : World}

theorem World.Told.of_tends {w' : World} (tends : w.Tends w') (rests : w'.atRest = w.atRest) : w.Told w' where
  bearings := by
    have bare (v : World) : v.frontends.map Frontend.bearing = v.atRest.map fun fe => { fe with rules := [] } := by
      rw [World.atRest, List.map_map]
      rfl
    rw [bare, bare, rests]
  queues := tends.atEnd
  keyed := tends.keyed

/-- Without a connection only an empty queue can be sent. -/
theorem sendMessages_unconnected (missing : (w.fe i).connection = none) (distrusted : (w.fe i).trusted = false) :
    Yields (sendMessages pf i w) w.Told (· = .nilConnection) := by
  unfold sendMessages Frontend.flush
  split
  · exact ⟨World.map_update rfl, fun _ start => World.fe_update_holds w (fun fe => fe.messageOut.AtEnd) start id,
      fun _ start => World.fe_update_holds w Frontend.Keyed start id⟩
  · simp [Frontend.encryptQueue, distrusted, missing, Bind.bind, Except.bind, Yields]

theorem sendMessages_sendable (sendable : w.Sendable) : Yields (sendMessages pf i w) w.Told fun fault =>
    fault = .nilConnection ∧ (w.fe i).connection = none := by
  by_cases there : (w.fe i).connection.isSome = true
  · have able : (w.fe i).CanSend := ⟨there, fun trusted => (sendable i (.inr trusted)).keys trusted⟩
    obtain ⟨w', sent, tends⟩ := (sendMessages_tends pf able).returns
    have rests := sendMessages_atRest pf i w
    unfold RestsAlone at rests
    rw [sent] at rests ⊢
    exact .of_tends tends rests
  · have missing : (w.fe i).connection = none := Option.not_isSome_iff_eq_none.mp there
    have distrusted : (w.fe i).trusted = false := by
      by_contra trusted
      exact there (sendable i (.inr (by simpa using trusted))).connection
    exact (sendMessages_unconnected pf i missing distrusted).mono (fun _ => id) fun _ same => ⟨same, missing⟩

/-- Sending touches nothing but queues and vectors, and only ever fails for want of a connection. -/
theorem sendMessages_told (w : World) :
    Yields (sendMessages pf i w) (fun w' => w'.atRest = w.atRest ∧ (w.Sendable → w.Told w')) fun fault =>
      w.Sendable → fault = .nilConnection ∧ (w.fe i).connection = none := by
  have rests := sendMessages_atRest pf i w
  unfold RestsAlone at rests
  cases sent : sendMessages pf i w with
  | ok w' =>
    rw [sent] at rests
    exact ⟨rests, fun sendable => (sendMessages_sendable pf i sendable).of_ok sent⟩
  | error fault =>
    intro sendable
    have failed := sendMessages_sendable pf i sendable
    rwa [sent] at failed

end

/-! ## The commands -/

/-- The servers and the files. -/
abbrev Shared := World × Files

def SSHSession.shared (s : SSHSession) : Shared := (s.world, s.files)

/-- What lines do to what all share, if `stores` is what they do to files. -/
inductive Does (stores : Shared → Shared → Prop) : Shared → Shared → Prop where
  | same {w w' : World} {files : Files} (frontends : w'.frontends = w.frontends) : Does stores (w, files) (w', files)
  | queue {w : World} {files : Files} (i : Nat) {f : Frontend → Frontend} (queues : Queues f) :
    Does stores (w, files) (w.update i f, files)
  | send {w w' : World} {files : Files} (rests : w'.atRest = w.atRest) (told : w.Sendable → w.Told w') :
    Does stores (w, files) (w', files)
  | store {a b : Shared} (stored : stores a b) : Does stores a b
  | trans {a b c : Shared} (first : Does stores a b) (second : Does stores b c) : Does stores a c

namespace Does
variable {stores : Shared → Shared → Prop} {a b : Shared}

theorem refl : Does stores a a := same rfl

theorem mono {stores' : Shared → Shared → Prop} (more : ∀ a b, stores a b → stores' a b) (does : Does stores a b) :
    Does stores' a b := by
  induction does with
  | same frontends => exact same frontends
  | queue i queues => exact queue i queues
  | send rests told => exact send rests told
  | store stored => exact store (more _ _ stored)
  | trans _ _ first second => exact first.trans second

theorem told (tells : ∀ a b, stores a b → a.1.Told b.1) (does : Does stores a b) (sendable : a.1.Sendable) :
    a.1.Told b.1 := by
  induction does with
  | same frontends => exact .of_frontends frontends
  | queue i queues => exact .queue i queues
  | send _ told => exact told sendable
  | store stored => exact tells _ _ stored
  | trans _ _ first second =>
    have told := first sendable
    exact told.trans (second (told.sendable sendable))

end Does

/-- The rules of the server a session is with are replaced, by some that were there before or that
are `entered`, and written to its file. -/
def Stores (lib : SSHLib) (site : SSHSite) (results : LineResults) (fe : Option Nat) (entered : Rule → Prop)
    (a b : Shared) : Prop :=
  ∃ i rules, fe = some i ∧ (∀ r ∈ rules, r ∈ (a.1.fe i).rules ∨ entered r) ∧
    b = (a.1.update i fun fe => { fe with rules := rules },
      (materializeRules lib.rulesFormat lib.quote a.2 (site.path i) rules results.write results.writeError).1)

theorem Stores.told {lib : SSHLib} {site : SSHSite} {results : LineResults} {fe : Option Nat} {entered : Rule → Prop}
    {a b : Shared} (stored : Stores lib site results fe entered a b) : a.1.Told b.1 := by
  obtain ⟨i, rules, -, -, rfl⟩ := stored
  exact .rules i rules

/-- What a command fails with before anything is sent. -/
def SSHSession.Slips (s : SSHSession) (fault : Fault) : Prop :=
  fault = .sliceIndex ∨ fault = .slotIndex ∨ fault = .nilFrontend ∧ s.fe = none

/-- A session does its work, and stays with the server it is with. -/
structure SSHSession.Works (stores : Shared → Shared → Prop) (s s' : SSHSession) : Prop where
  same : s'.fe = s.fe
  does : Does stores s.shared s'.shared

namespace SSHSession.Works
variable {stores : Shared → Shared → Prop} {s s' s'' : SSHSession}

theorem refl : s.Works stores s := ⟨rfl, .refl⟩

theorem trans (first : s.Works stores s') (second : s'.Works stores s'') : s.Works stores s'' :=
  ⟨second.same.trans first.same, first.does.trans second.does⟩

theorem onFe (s : SSHSession) {f : Frontend → Frontend} (queues : Queues f) : s.Works stores (s.onFe f) := by
  unfold SSHSession.onFe
  split
  · exact refl
  · exact ⟨rfl, .queue _ queues⟩

theorem sshPrintln (s : SSHSession) (fe : Option Nat) (text : Bytes) : s.Works stores (s.sshPrintln fe text) := by
  unfold SSHSession.sshPrintln
  split
  · exact refl
  split
  · exact refl
  · exact ⟨rfl, .refl⟩

/-- A function of `command.go` with its line for the consoles. -/
theorem logged (s : SSHSession) {f : Frontend → Frontend} (queues : Queues f) (text : Bytes) :
    s.Works stores ((s.onFe f).sshPrintln s.fe text) := (onFe s queues).trans (sshPrintln ..)

end SSHSession.Works

/-- The branch of a command, which does its work, or slips. -/
def Minds (stores : Shared → Shared → Prop) (s : SSHSession) (x : Except Fault Branch) : Prop :=
  Yields x (fun branch => s.Works stores branch.session) s.Slips

namespace Minds
variable {stores : Shared → Shared → Prop} {s : SSHSession}

theorem again {s' : SSHSession} (works : s.Works stores s') : Minds stores s (.ok (.again s')) := works

theorem send {s' : SSHSession} (works : s.Works stores s') : Minds stores s (.ok (.send s')) := works

theorem refuse (message : Bytes) : Minds stores s (s.refuse message) := again ⟨rfl, .refl⟩

theorem arg {c : CmdArgs} {k : Nat} {f : Bytes → Except Fault Branch} (next : ∀ word, Minds stores s (f word)) :
    Minds stores s (c.arg k >>= f) := by
  unfold CmdArgs.arg
  cases c.argv[k]? with
  | none => exact .inl rfl
  | some word => exact next word

theorem playerAt {fe : Frontend} {id : Int} {f : Player → Except Fault Branch} (next : ∀ p, Minds stores s (f p)) :
    Minds stores s (fe.playerAt id >>= f) := by
  unfold Frontend.playerAt
  split
  · exact next _
  · exact .inr (.inl rfl)

theorem frontend {f : Nat → Except Fault Branch} (next : ∀ i, s.fe = some i → Minds stores s (f i)) :
    Minds stores s (s.frontend >>= f) := by
  unfold SSHSession.frontend
  cases current : s.fe with
  | none => exact .inr (.inr ⟨rfl, current⟩)
  | some i => exact next i current

end Minds

section
variable (lib : SSHLib) (site : SSHSite) (c : CmdArgs) (i : Nat) (results : LineResults) (s : SSHSession)
  {stores : Shared → Shared → Prop}

theorem onPlayer_minds (first noNumber : Bytes) (outOfRange : Int → Bytes) (unused : Bytes)
    {proceed : Player → Branch} (proceeds : ∀ p, s.Works stores (proceed p).session) :
    Minds stores s (SSHLib.onPlayer i s first noNumber outOfRange unused proceed) := by
  unfold SSHLib.onPlayer
  cases atoi first with
  | none => exact .refuse _
  | some pid =>
    dsimp only
    split
    · exact .refuse _
    · apply Minds.playerAt
      intro p
      split
      · exact .refuse _
      · exact proceeds p

theorem whois_minds : Minds stores s (lib.whois c i s) := by
  unfold SSHLib.whois
  split
  · exact .again (.sshPrintln s (some i) _)
  · exact .arg fun first => onPlayer_minds i s first _ _ _ fun p => ⟨rfl, .refl⟩

theorem stuff_minds : Minds stores s (lib.stuff c i s) := by
  unfold SSHLib.stuff
  split
  · exact .refuse _
  · exact .arg fun first => onPlayer_minds i s first _ _ _ fun p => .onFe s (.stuffPlayer _ p _)

theorem sayperson_minds : Minds stores s (lib.sayperson c i s) := by
  unfold SSHLib.sayperson
  split
  · exact .refuse _
  · exact .arg fun first => onPlayer_minds i s first _ _ _ fun p => .onFe s (.sayPlayer _ (some p) _ _)

theorem kick_minds : Minds stores s (lib.kick c i s) := by
  unfold SSHLib.kick
  split
  · exact .refuse _
  · exact .arg fun first => onPlayer_minds i s first _ _ _ fun p => .logged s (.kickPlayer _ p _) _

theorem listRules_works (type : RuleType) (title failed usage : Bytes) :
    s.Works stores (lib.listRules i s type title failed usage) := by
  have folded : ∀ (rules : List Rule) (listed : SSHSession × Bytes),
      listed.1.Works stores (rules.foldl (lib.listRule failed) listed).1 := by
    intro rules
    induction rules with
    | nil => exact fun listed => .refl
    | cons r rules ih =>
      intro listed
      have printed : listed.1.Works stores (lib.listRule failed listed r).1 := by
        unfold SSHLib.listRule
        cases lib.ruleDetailLine r with
        | error failure => exact ⟨rfl, .refl⟩
        | ok text => exact .refl
      exact printed.trans (ih (lib.listRule failed listed r))
  have listed := folded ((s.world.fe i).rules.filter fun r => r.type = type) (s.println title, [])
  exact ⟨listed.same, listed.does⟩

theorem mute_minds : Minds stores s (lib.mute c i s) := by
  unfold SSHLib.mute
  split
  · exact .again (listRules_works lib i s _ _ _ _)
  · apply Minds.arg
    intro first
    cases atoi first with
    | none => exact .refuse _
    | some id =>
      dsimp only
      split
      · exact .refuse _
      · apply Minds.arg
        intro second
        cases atoi second with
        | none => exact .refuse _
        | some secs =>
          apply Minds.playerAt
          intro p
          split
          · exact .refuse _
          · exact .send (.logged s (.mutePlayer _ p secs) _)

theorem stifle_minds : Minds stores s (lib.stifle c i s) := by
  unfold SSHLib.stifle
  split
  · exact .again (listRules_works lib i s _ _ _ _)
  · apply Minds.arg
    intro first
    split
    · exact .refuse _
    · apply Minds.arg
      intro second
      cases atoi second with
      | none => exact .refuse _
      | some secs => exact .send (.logged s (.stiflePlayer _ _ secs) _)
    · exact .refuse _

theorem say_minds : Minds stores s (lib.say c s) := by
  unfold SSHLib.say
  split
  · exact .refuse _
  · have shown : s.Works stores (s.println (magenta c.args)) := ⟨rfl, .refl⟩
    exact .send (shown.trans (.onFe _ (.sayEveryone _ _ _)))

theorem rcon_minds : Minds stores s (lib.rcon c i s) := by
  unfold SSHLib.rcon
  split
  · exact .refuse _
  · exact .send ⟨rfl, .queue i (.consoleCommand _ _)⟩

theorem consolesay_minds : Minds stores s (lib.consolesay c s) := by
  unfold SSHLib.consolesay
  split
  · exact .refuse _
  · apply Minds.frontend
    intro j _
    have said : s.Works stores _ := .onFe s (.consoleSay lib.platform.q2 c.args)
    exact .send ⟨said.same, said.does⟩

theorem pauseCommand_works : s.Works stores (SSHLib.pauseCommand s).session := by
  unfold SSHLib.pauseCommand
  split
  · exact .refl
  · exact ⟨rfl, .same rfl⟩

theorem unpauseCommand_works : s.Works stores (SSHLib.unpauseCommand s).session := by
  unfold SSHLib.unpauseCommand
  split
  · exact .refl
  · exact ⟨rfl, .refl⟩

theorem search_works : s.Works stores (lib.search c results s).session := by
  unfold SSHLib.search
  split
  · exact ⟨rfl, .refl⟩
  · cases results.found with
    | error failure => exact ⟨rfl, .refl⟩
    | ok found => exact ⟨rfl, .refl⟩

theorem storeRules_works {entered : Rule → Prop} {rules : List Rule} (current : s.fe = some i)
    (known : ∀ r ∈ rules, r ∈ (s.world.fe i).rules ∨ entered r) :
    s.Works (Stores lib site results s.fe entered) (lib.storeRules site results s i rules).1 :=
  ⟨rfl, .store ⟨i, rules, current, known, rfl⟩⟩

theorem showRule_minds (id : Bytes) : Minds stores s (lib.showRule s id) := by
  apply Minds.frontend
  intro i _
  split
  · exact .send .refl
  · exact .send ⟨rfl, .refl⟩

theorem deleteRule_minds (entered : Rule → Prop) (id : Bytes) :
    Minds (Stores lib site results s.fe entered) s (lib.deleteRule site results s id) := by
  unfold SSHLib.deleteRule
  split
  · exact .refuse _
  split
  · exact .refuse _
  apply Minds.frontend
  intro i current
  dsimp only
  split
  · exact .refuse _
  · have known : ∀ r ∈ (s.world.fe i).rules.filter fun r => !id.isPrefixOf r.uuid,
        r ∈ (s.world.fe i).rules ∨ entered r := fun r member => .inl (List.mem_filter.mp member).1
    have stored := storeRules_works lib site i results s current known
    split
    · next s' failure result =>
      rw [result] at stored
      exact .again ⟨stored.same, stored.does⟩
    · next s' result =>
      rw [result] at stored
      exact .send ⟨stored.same, stored.does⟩

theorem rulesCommand_minds (entered : Rule → Prop) :
    Minds (Stores lib site results s.fe entered) s (lib.rulesCommand site c results s) := by
  unfold SSHLib.rulesCommand
  split
  · exact .frontend fun _ _ => .send ⟨rfl, .refl⟩
  apply Minds.arg
  intro first
  split
  · exact .arg fun id => showRule_minds lib s id
  split
  · exact .arg fun id => deleteRule_minds lib site results s entered id
  split
  · cases s.fe with
    | none => exact .again ⟨rfl, .refl⟩
    | some j => exact .again ⟨rfl, .refl⟩
  · exact .send .refl

theorem dispatch_minds (entered : Rule → Prop) (command : Option SSHCommand) :
    Minds (Stores lib site results s.fe entered) s (lib.dispatch site c i results s command) := by
  cases command with
  | none => exact .send .refl
  | some command =>
    cases command with
    | server | quit => exact .send .refl
    | help | status | settings => exact .send ⟨rfl, .refl⟩
    | say => exact say_minds lib c s
    | whois => exact whois_minds lib c i s
    | stuff => exact stuff_minds lib c i s
    | rcon => exact rcon_minds lib c i s
    | consolesay => exact consolesay_minds lib c s
    | sayperson => exact sayperson_minds lib c i s
    | kick => exact kick_minds lib c i s
    | mute => exact mute_minds lib c i s
    | stifle => exact stifle_minds lib c i s
    | pause => exact pauseCommand_works s
    | unpause => exact unpauseCommand_works s
    | search => exact search_works lib c results s
    | rules => exact rulesCommand_minds lib site c results s entered

theorem addRule_minds {entered : Rule → Prop} {r : Rule} (new : entered r) :
    Minds (Stores lib site results s.fe entered) s (lib.addRule site results s r) := by
  apply Minds.frontend
  intro i current
  dsimp only
  generalize announced : s.printf (ascii "Adding rule proto:\n" ++ lib.formatRule r ++ ascii "\n") = s'
  have said : s.Works (Stores lib site results s.fe entered) s' := announced ▸ ⟨rfl, .refl⟩
  have known : ∀ old ∈ (s'.world.fe i).rules ++ [r], old ∈ (s'.world.fe i).rules ∨ entered old := by
    intro old member
    rcases List.mem_append.mp member with before | added
    · exact .inl before
    · exact .inr (List.mem_singleton.mp added ▸ new)
  have stored := storeRules_works lib site i results s' (said.same.trans current) known
  rw [said.same] at stored
  have done := said.trans stored
  split
  · next stored' failure result =>
    rw [result] at done
    exact .send ⟨done.same, done.does⟩
  · next stored' result =>
    rw [result] at done
    exact .send done

/-- The rule that the wizard is done with, if it is the one who reads the line. -/
def SSHSession.entered (s : SSHSession) (input : Bytes) (results : LineResults) : Option Rule :=
  match s.wizard with
  | some (.message draft) => some { draft with message := [input], uuid := results.uuid }
  | _ => none

def SSHSession.Enters (s : SSHSession) (input : Bytes) (results : LineResults) (r : Rule) : Prop :=
  s.entered input results = some r

/-- The wizard reads on, or is done. -/
theorem wizardLine_minds (input : Bytes) {stage : Wizard} (reads : s.wizard = some stage) :
    Minds (Stores lib site results s.fe (s.Enters input results)) s (lib.wizardLine site results s input stage) := by
  cases stage with
  | type =>
    unfold SSHLib.wizardLine
    cases SSHLib.ruleTypeNamed input with
    | none => exact .again ⟨rfl, .refl⟩
    | some type => exact .again ⟨rfl, .refl⟩
  | address r => exact .again ⟨rfl, .refl⟩
  | description r => exact .again ⟨rfl, .refl⟩
  | message r =>
    have entered : s.Enters input results { r with message := [input], uuid := results.uuid } := by
      rw [SSHSession.Enters, SSHSession.entered, reads]
    have done := addRule_minds lib site results { s with wizard := none, terminal := s.terminal.restorePrompt } entered
    exact Yields.mono done (fun branch works => ⟨works.same, works.does⟩) fun _ slips => slips

end

/-! ## Lines -/

/-- What a line ends the process with: a word or a slot that is not there, or a server that is
nil, or has no connection. -/
def SSHSession.EndsIn (s : SSHSession) (fault : Fault) : Prop :=
  s.Slips fault ∨ fault = .nilConnection ∧ ∃ i, s.fe = some i ∧ (s.world.fe i).connection = none

/-- What a session does with a line that it reads. -/
def SSHSession.Stores (s : SSHSession) (lib : SSHLib) (site : SSHSite) (input : Bytes) (results : LineResults) :
    Shared → Shared → Prop := Q2Admin.Stores lib site results s.fe (s.Enters input results)

/-- The line of a session, if what becomes of it is what this line can do. -/
def Obeys (stores : Shared → Shared → Prop) (s : SSHSession) (x : Except Fault SSHSession) : Prop :=
  Yields x (fun s' => Does stores s.shared s'.shared) fun fault => s.world.Sendable → s.EndsIn fault

section
variable (lib : SSHLib) (site : SSHSite) {stores : Shared → Shared → Prop} {s : SSHSession}

/-- Sending is all that is left to fail, where the branch has gone on with the same server. -/
theorem SSHSession.Works.finish {branch : Branch} (tells : ∀ a b, stores a b → a.1.Told b.1)
    (works : s.Works stores branch.session) : Obeys stores s (branch.finish lib) := by
  cases branch with
  | again s' => exact works.does
  | send s' =>
    unfold Branch.finish
    dsimp only
    cases current : s'.fe with
    | none => exact works.does
    | some i =>
      apply Yields.bind ((sendMessages_told lib.platform i s'.world).mono (fun _ => id) ?_)
      · exact fun w _ sent => works.does.trans (.send sent.1 sent.2)
      · intro fault failed sendable
        have told : s.world.Told s'.world := works.does.told tells sendable
        have missing := failed (told.sendable sendable)
        refine .inr ⟨missing.1, i, works.same.symm.trans current, ?_⟩
        have same : (s'.world.fe i).connection = (s.world.fe i).connection :=
          told.field i (fun fe => fe.connection) fun _ => rfl
        exact same.symm.trans missing.2

/-- A branch, and what comes behind it. -/
theorem Minds.finish {x : Except Fault Branch} (tells : ∀ a b, stores a b → a.1.Told b.1) (minds : Minds stores s x) :
    Obeys stores s (x >>= fun branch => branch.finish lib) :=
  Yields.bind (minds.mono (fun _ => id) fun _ slips _ => .inl slips) fun _ _ works => works.finish lib tells

/-- A server that is selected is online, and can be sent to. -/
theorem selectServer_obeys (name : Bytes) : Obeys stores s ((lib.selectServer s name).finish lib) := by
  unfold SSHLib.selectServer
  cases s.world.findFrontendByName name with
  | none => exact Does.refl
  | some i =>
    dsimp only
    cases online : s.online i with
    | false => exact Does.refl
    | true =>
      have connected : (s.world.fe i).connected = true := (Bool.and_eq_true_iff.mp online).1
      apply Yields.bind ((sendMessages_told lib.platform i s.world).mono (fun _ => id) ?_)
      · exact fun w _ sent => .send sent.1 sent.2
      · intro fault failed sendable
        have there := (sendable i (.inl connected)).connection
        rw [(failed sendable).2] at there
        cases there

theorem handleCommand_obeys (input : Bytes) (c : CmdArgs) (results : LineResults) :
    Obeys (s.Stores lib site input results) s (lib.handleCommand site c results s) := by
  have tells : ∀ a b, s.Stores lib site input results a b → a.1.Told b.1 := fun _ _ => Stores.told
  unfold SSHLib.handleCommand
  split
  · unfold SSHLib.serverCommand
    split
    · apply Minds.finish lib tells
      unfold SSHLib.listServers
      cases site.user s.user with
      | none => exact .again ⟨rfl, .refl⟩
      | some u =>
        dsimp only
        split
        · exact .again ⟨rfl, .refl⟩
        · exact .send ⟨rfl, .refl⟩
    · unfold CmdArgs.arg
      cases c.argv[0]? with
      | none => exact fun _ => .inl (.inl rfl)
      | some name => exact selectServer_obeys lib name
  · exact Does.refl
  · exact Does.refl
  · exact Does.refl
  · next i _ _ _ => exact (dispatch_minds lib site c i results s (s.Enters input results) _).finish lib tells

/-- Whatever is typed, there is not more to it. -/
theorem handleLine_obeys (input : Bytes) (results : LineResults) :
    Obeys (s.Stores lib site input results) s (lib.handleLine site input results s) := by
  unfold SSHLib.handleLine
  split
  · exact Does.refl
  cases reads : s.wizard with
  | some stage => exact (wizardLine_minds lib site results s input reads).finish lib fun _ _ => Stores.told
  | none =>
    cases s.dropped with
    | some i => exact Does.refl
    | none => exact handleCommand_obeys lib site input _ results

end

/-! ## The program -/

/-- What happens to a session by itself. -/
inductive ConsoleEvent where
  | line (input : Bytes) (results : LineResults)
  | readFailed (reason : Bytes)
  | stream (link : Nat) (now text : Bytes)

def ConsoleEvent.event : ConsoleEvent → SSHEvent
  | line input results => .line input results
  | readFailed reason => .readFailed reason
  | stream link now text => .stream link now text

structure Program where
  process : Process
  /-- What is in the files, by their paths. -/
  files : Files
  clientDirectory : Bytes
  /-- `Path` of the frontends, which their first greeting sets. -/
  paths : Nat → Bytes := fun _ => []
  /-- The sessions, each with the servers and the files as it has last seen them. -/
  consoles : List SSHSession := []

inductive ProgramEvent where
  | process (e : ProcessEvent)
  /-- A user has signed in. -/
  | login (user : Bytes)
  | console (k : Nat) (e : ConsoleEvent)

namespace Program

def start (w : World) (files : Files) (clientDirectory : Bytes) : Program where
  process := Process.start w
  files := files
  clientDirectory := clientDirectory

/-- A session, with the servers and the files as they are. -/
def console (p : Program) (k : Nat) : Option SSHSession :=
  p.consoles[k]?.map fun s => { s with world := p.process.world, files := p.files }

/-- The directory of a server below that of all. -/
def directory (p : Program) (i : Nat) : Bytes := pathJoin [p.clientDirectory, (p.process.world.fe i).name]

/-- The server a greeting comes from. -/
def greets (pf : Platform) (p : Program) : ProgramEvent → Option Nat
  | .process (.read e) => match p.process.server.phase e.conn, e.input.map (findGreeted pf p.process.world) with
    | .greeting, some (.ok (some a)) => some a.fe
    | _, _ => none
  | _ => none

/-- The paths once the event has been handled. -/
def pathsAfter (pf : Platform) (p : Program) (e : ProgramEvent) : Nat → Bytes :=
  match p.greets pf e with
  | some i => Function.update p.paths i (p.directory i)
  | none => p.paths

/-- The site with the paths as they are by now. -/
def current (site : SSHSite) (p : Program) : SSHSite := { site with path := p.paths }

section
variable (lib : SSHLib) (site : SSHSite)

def step (p : Program) : ProgramEvent → Except Fault Program
  | .process e => do
    let q ← p.process.step lib.platform e
    .ok { p with process := q, paths := p.pathsAfter lib.platform (.process e) }
  | .login user => .ok { p with consoles := p.consoles ++ [newSession user p.process.world p.files] }
  | .console k e =>
    match p.console k with
    | none => .ok p
    | some s => do
      let s' ← sshStep lib (p.current site) s e.event
      .ok { p with process := p.process.setWorld s'.world, files := s'.files, consoles := p.consoles.set k s' }

/-- Of the consoles nothing is asked. -/
def Fair (pf : Platform) (p : Program) : ProgramEvent → Prop
  | .process e => p.process.Fair pf e
  | _ => True

/-- What the program ends with: a goroutine that is stranded, or the line of a session. -/
def EndsIn (pf : Platform) (p : Program) (fault : Fault) : ProgramEvent → Prop
  | .process e => p.process.Strands pf e
  | .login _ => False
  | .console k _ => ∃ s, p.console k = some s ∧ s.EndsIn fault

/-- What is done to what all share by the line of a session, if that is the event. -/
def Stores (p : Program) (e : ProgramEvent) (a b : Shared) : Prop :=
  ∃ k input results s, e = .console k (.line input results) ∧ p.console k = some s ∧
    s.Stores lib (p.current site) input results a b

def shared (p : Program) : Shared := (p.process.world, p.files)

variable {p : Program}

/-- An event of a session touches nothing of the process but the servers. -/
theorem console_does (p : Program) (k : Nat) (e : ConsoleEvent) :
    Yields (p.step lib site (.console k e))
      (fun p' => p'.process = p.process.setWorld p'.process.world ∧
        Does (p.Stores lib site (.console k e)) p.shared p'.shared)
      fun fault => p.process.world.Sendable → p.EndsIn lib.platform fault (.console k e) := by
  simp only [step]
  cases present : p.console k with
  | none => exact ⟨rfl, .refl⟩
  | some s =>
    obtain ⟨old, -, same⟩ := Option.map_eq_some_iff.mp present
    have here : s.shared = p.shared := same ▸ rfl
    have sendable (all : p.process.world.Sendable) : s.world.Sendable := by
      have world : s.world = p.process.world := congrArg Prod.fst here
      rwa [world]
    have obeys : Yields (sshStep lib (p.current site) s e.event)
        (fun s' => Does (p.Stores lib site (.console k e)) s.shared s'.shared)
        fun fault => s.world.Sendable → s.EndsIn fault := by
      cases e with
      | line input results =>
        apply (handleLine_obeys lib (p.current site) input results).mono
        · exact fun s' does => does.mono fun a b stored => ⟨k, input, results, s, rfl, present, stored⟩
        · exact fun _ => id
      | readFailed reason =>
        simp only [ConsoleEvent.event, sshStep, SSHSession.readFailed]
        split
        · exact Does.refl
        · cases s.wizard with
          | some stage => exact Does.refl
          | none => exact Does.refl
      | stream link now text =>
        simp only [ConsoleEvent.event, sshStep]
        split
        · exact Does.refl
        · exact Does.refl
    apply Yields.bind (obeys.mono (fun _ => id) fun fault ends all => ⟨s, present, ends (sendable all)⟩)
    exact fun s' _ does => ⟨rfl, here ▸ does⟩

/-- An event of a session tells the servers something. -/
theorem console_told (lively : p.process.server.Lively) (k : Nat) (e : ConsoleEvent) :
    Yields (p.step lib site (.console k e))
      (fun p' => ∃ w, p'.process = p.process.setWorld w ∧ p.process.world.Told w)
      fun fault => p.EndsIn lib.platform fault (.console k e) := by
  have sendable : p.process.world.Sendable := lively.sendable
  apply (console_does lib site p k e).mono
  · intro p' done
    refine ⟨p'.process.world, done.1, done.2.told (fun a b stored => ?_) sendable⟩
    obtain ⟨k', input, results, s, -, -, stores⟩ := stored
    exact Stores.told stores
  · exact fun _ ends => ends sendable

theorem step_lively (bounded : lib.platform.q2.Bounded) (lively : p.process.server.Lively) {e : ProgramEvent}
    (fair : p.Fair lib.platform e) : Yields (p.step lib site e) (fun p' => p'.process.server.Lively)
      fun fault => p.EndsIn lib.platform fault e := by
  cases e with
  | process e =>
    apply Yields.bind ((Process.step_comes lib.platform bounded lively fair).mono (fun _ => id) fun _ => id)
    exact fun q _ comes => comes.1
  | login user => exact lively
  | console k e =>
    apply (console_told lib site lively k e).mono
    · intro p' done
      obtain ⟨w, same, told⟩ := done
      rw [same]
      exact lively.of_told told
    · exact fun _ => id

/-- Without sessions the program is the process. -/
theorem allowed_process (p : Program) (events : List ProcessEvent) :
    Allowed (step lib site) (Fair lib.platform) p (events.map .process) ↔
      Allowed (Process.step lib.platform) (Process.Fair lib.platform) p.process events := by
  induction events generalizing p with
  | nil => exact Iff.rfl
  | cons e rest ih =>
    simp only [List.map_cons, Allowed, step]
    apply and_congr Iff.rfl
    cases stepped : p.process.step lib.platform e with
    | error fault => exact ⟨fun _ _ => nofun, fun _ _ => nofun⟩
    | ok q =>
      simp only [Bind.bind, Except.bind, Except.ok.injEq, forall_eq']
      exact ih { p with process := q, paths := p.pathsAfter lib.platform (.process e) }

end
end Program

/-- However many users type commands, whatever they are, between the reads of the game servers, the
goroutines of connects and the maintenance: every session of a game server stays ready for its next
message. What a user does leaves of the servers all but queues, vectors, invites and rules as it
is. And whatever comes next, if the game servers still keep to the protocol, the program ends in
nothing but a goroutine that is stranded, or a line with a word or a player too few, or about a
server that is nil or has no connection. -/
theorem consoles_disturb_nobody {lib : SSHLib} {site : SSHSite} (bounded : lib.platform.q2.Bounded) {w : World}
    {files : Files} {clients : Bytes} {events : List ProgramEvent} {p : Program} (queues : ∀ i, (w.fe i).messageOut.AtEnd)
    (closed : ∀ i, (w.fe i).connected = false ∧ (w.fe i).trusted = false)
    (fair : Allowed (Program.step lib site) (Program.Fair lib.platform) (Program.start w files clients) events)
    (ran : run (Program.step lib site) (Program.start w files clients) events = .ok p) :
    p.process.server.Lively ∧
      (∀ k e p', p.step lib site (.console k e) = .ok p' →
        ∃ w', p'.process = p.process.setWorld w' ∧ p.process.world.Told w') ∧
      ∀ e fault, p.Fair lib.platform e → p.step lib site e = .error fault → p.EndsIn lib.platform fault e := by
  have lively : p.process.server.Lively := run_invariant (fun p : Program => p.process.server.Lively)
    (fun p e _ lively fair stepped => (p.step_lively lib site bounded lively fair).of_ok stepped)
    (Process.start_lively queues closed) fair ran
  refine ⟨lively, fun k e p' stepped => (p.console_told lib site lively k e).of_ok stepped, ?_⟩
  intro e fault next failed
  have comes := p.step_lively lib site bounded lively next
  rw [failed] at comes
  exact comes

/-- Two users of the open server, and what they type after a game server has connected. -/
def openSite : SSHSite where
  users := [{ email := ascii "claire@q2", allowSsh := true }, { email := ascii "rivers@q2", allowSsh := true }]
  roles _ _ := []
  path _ := []

def talk : List ProgramEvent := [
  .login (ascii "claire@q2"),
  .login (ascii "rivers@q2"),
  .console 0 (.line (ascii "server openffa") {}),
  .console 1 (.line (ascii "server openffa") {}),
  .console 0 (.line (ascii "say hello") {}),
  .console 1 (.line (ascii "rcon map q2dm1") {}),
  .process (.maintain 0 (fun _ => noon) ∅)]

theorem talk_ran : Yields (run (Program.step .plain openSite) (Program.start guardedWorld (fun _ => none) (ascii "clients"))
    ((visit.take 2).map .process ++ talk)) (fun p => p.process.world.wire.length = 4)
    fun _ => False := by decide +kernel

theorem consoles_disturb_nobody_talk : ∃ p, run (Program.step .plain openSite)
    (Program.start guardedWorld (fun _ => none) (ascii "clients")) ((visit.take 2).map .process ++ talk) = .ok p ∧
      p.process.server.Lively := by
  have arrived : Allowed (Process.step Platform.plain) (Process.Fair Platform.plain) (Process.start guardedWorld)
      (visit.take 2) := by
    have whole := visit_fair
    rw [← List.take_append_drop 2 visit] at whole
    exact (allowed_append.mp whole).1
  have talks : ∀ e ∈ talk, ∀ p : Program, p.Fair Platform.plain e := by
    simp [talk, Program.Fair, Process.Fair]
  have fair : Allowed (Program.step .plain openSite) (Program.Fair Platform.plain)
      (Program.start guardedWorld (fun _ => none) (ascii "clients")) ((visit.take 2).map .process ++ talk) :=
    allowed_append.mpr
      ⟨(Program.allowed_process .plain openSite _ _).mpr arrived, fun _ _ => allowed_of_mem talks⟩
  obtain ⟨p, ran, -⟩ := talk_ran.returns
  exact ⟨p, ran, (consoles_disturb_nobody Libq2.plain_bounded guardedWorld_queues guardedWorld_closed fair ran).1⟩

/-- A name nobody has deselects the server, and `consolesay` does not look. -/
example : Yields (run (Program.step .plain openSite) (Program.start guardedWorld (fun _ => none) (ascii "clients"))
    ((visit.take 2).map .process ++ [.login (ascii "claire@q2"), .console 0 (.line (ascii "server openffa") {}),
      .console 0 (.line (ascii "server nowhere") {}), .console 0 (.line (ascii "consolesay hello") {})]))
    (fun _ => False) (· = .nilFrontend) := by decide +kernel

end Q2Admin
