import Q2Admin.Session
import Q2Admin.SessionHandler

/-! What each line of an SSH session can do to the servers: a rule for every command, and
from them one for the whole handler. -/

namespace Q2Admin
open Go Lib

/-- What no session changes of a frontend. -/
def Frontend.standing (fe : Frontend) : Bytes × Bytes × Option ConnId × Bool × Bool :=
  (fe.name, fe.owner, fe.connection, fe.connected, fe.trusted)

/-- Of the frontends, nothing but the targets has been changed, sent to or written about. -/
structure Reaches (site : SSHSite) (targets : Nat → Prop) (s s' : SSHSession) : Prop where
  user : s'.user = s.user
  ended : s.ended = true → s'.ended = true
  standing : s'.world.frontends.map Frontend.standing = s.world.frontends.map Frontend.standing
  others : ∀ j, ¬ targets j → s'.world.fe j = s.world.fe j
  wire : ∃ sent, s'.world.wire = s.world.wire ++ sent ∧
    ∀ m ∈ sent, ∃ j, targets j ∧ (s.world.fe j).connection = some m.1
  files : ∀ path, s'.files path ≠ s.files path → ∃ j, targets j ∧ path = rulesFile (site.path j)
  streamed : ∃ said, s'.streamed = s.streamed ++ said ∧ ∀ m ∈ said, targets m.1

namespace Reaches
variable {site : SSHSite} {targets targets' : Nat → Prop} {s s' s'' : SSHSession}

/-- The frontends, the files and the consoles are as they were. -/
theorem of_same (user : s'.user = s.user) (ended : s.ended = true → s'.ended = true)
    (frontends : s'.world.frontends = s.world.frontends) (wire : s'.world.wire = s.world.wire)
    (files : s'.files = s.files) (streamed : s'.streamed = s.streamed) : Reaches site targets s s' where
  user := user
  ended := ended
  standing := by rw [frontends]
  others := by
    intro j _
    rw [World.fe, World.fe, frontends]
  wire := ⟨[], by simp [wire]⟩
  files := fun path changed => absurd (congrFun files path) changed
  streamed := ⟨[], by simp [streamed]⟩

theorem refl : Reaches site targets s s := of_same rfl id rfl rfl rfl rfl

theorem mono (reaches : Reaches site targets s s') (more : ∀ j, targets j → targets' j) :
    Reaches site targets' s s' where
  user := reaches.user
  ended := reaches.ended
  standing := reaches.standing
  others := fun j outside => reaches.others j fun inside => outside (more j inside)
  wire := by
    obtain ⟨sent, all, each⟩ := reaches.wire
    refine ⟨sent, all, fun m member => ?_⟩
    obtain ⟨j, target, connection⟩ := each m member
    exact ⟨j, more j target, connection⟩
  files := by
    intro path changed
    obtain ⟨j, target, file⟩ := reaches.files path changed
    exact ⟨j, more j target, file⟩
  streamed := by
    obtain ⟨said, all, each⟩ := reaches.streamed
    exact ⟨said, all, fun m member => more m.1 (each m member)⟩

theorem trans (first : Reaches site targets s s') (second : Reaches site targets s' s'') :
    Reaches site targets s s'' where
  user := second.user.trans first.user
  ended := fun stopped => second.ended (first.ended stopped)
  standing := second.standing.trans first.standing
  others := fun j outside => (second.others j outside).trans (first.others j outside)
  wire := by
    obtain ⟨sent, all, each⟩ := first.wire
    obtain ⟨sent', all', each'⟩ := second.wire
    refine ⟨sent ++ sent', by rw [all', all, List.append_assoc], fun m member => ?_⟩
    rcases List.mem_append.mp member with early | late
    · exact each m early
    · obtain ⟨j, target, connection⟩ := each' m late
      have same := World.field_of_map first.standing j
      simp only [Frontend.standing, Prod.mk.injEq] at same
      exact ⟨j, target, same.2.2.1 ▸ connection⟩
  files := by
    intro path changed
    by_cases early : s'.files path = s.files path
    · exact second.files path (early ▸ changed)
    · exact first.files path early
  streamed := by
    obtain ⟨said, all, each⟩ := first.streamed
    obtain ⟨said', all', each'⟩ := second.streamed
    refine ⟨said ++ said', by rw [all', all, List.append_assoc], fun m member => ?_⟩
    rcases List.mem_append.mp member with early | late
    · exact each m early
    · exact each' m late

theorem update {i : Nat} (target : targets i) {f : Frontend → Frontend}
    (kept : (f (s.world.fe i)).standing = (s.world.fe i).standing) :
    Reaches site targets s { s with world := s.world.update i f } := {
  (refl : Reaches site targets s s) with
  standing := World.map_update kept
  others := by
    intro j outside
    apply s.world.fe_update_ne
    intro same
    exact outside (same ▸ target) }

end Reaches

/-- A branch of the handler leaves the selection as it is. -/
structure Handled (site : SSHSite) (targets : Nat → Prop) (s s' : SSHSession) : Prop
    extends Reaches site targets s s' where
  selection : s'.toSelection = s.toSelection
  wizard : s'.wizard.isSome = true → s.wizard.isSome = true ∨ s.activeFE.isSome = true

namespace Handled
variable {site : SSHSite} {targets : Nat → Prop} {s s' s'' : SSHSession}

theorem refl : Handled site targets s s := ⟨.refl, rfl, .inl⟩

theorem trans (first : Handled site targets s s') (second : Handled site targets s' s'') :
    Handled site targets s s'' where
  toReaches := first.toReaches.trans second.toReaches
  selection := second.selection.trans first.selection
  wizard := by
    intro waits
    rcases second.wizard waits with before | managed
    · exact first.wizard before
    · exact .inr (congrArg Selection.activeFE first.selection ▸ managed)

theorem mono {targets' : Nat → Prop} (handled : Handled site targets s s') (more : ∀ j, targets j → targets' j) :
    Handled site targets' s s' :=
  { handled with toReaches := handled.toReaches.mono more }

/-- Only the terminal has changed. -/
theorem terminal (t : SSHTerminal) : Handled site targets s { s with terminal := t } :=
  ⟨.of_same rfl id rfl rfl rfl rfl, rfl, .inl⟩

theorem println (text : Bytes) : Handled site targets s (s.println text) := terminal _

theorem printf (text : Bytes) : Handled site targets s (s.printf text) := terminal _

theorem sshPrintln {fe : Option Nat} (target : ∀ i, fe = some i → targets i) (text : Bytes) :
    Handled site targets s (s.sshPrintln fe text) := by
  cases fe with
  | none => exact refl
  | some i =>
    by_cases empty : text = []
    · rw [SSHSession.sshPrintln, if_pos empty]
      exact refl
    · rw [SSHSession.sshPrintln, if_neg empty]
      refine ⟨{ (Reaches.refl : Reaches site targets s s) with streamed := ⟨[(i, text)], rfl, ?_⟩ }, rfl, .inl⟩
      simp [target i rfl]

theorem onFe (target : ∀ i, s.fe = some i → targets i) {f : Frontend → Frontend} (queues : Queues f) :
    Handled site targets s (s.onFe f) := by
  unfold SSHSession.onFe
  split
  · exact refl
  · rename_i i current
    refine ⟨.update (target i current) ?_, rfl, .inl⟩
    rw [queues.only (s.world.fe i)]
    rfl

end Handled

/-! ## The commands -/

/-- The frontends a command can be about. -/
def SSHSession.targets (s : SSHSession) (j : Nat) : Prop := s.fe = some j ∨ s.activeFE = some j

/-- A branch that is handled, and reads no field of a frontend that is nil unless `fe` is. -/
def Handles (site : SSHSite) (s : SSHSession) (x : Except Fault Branch) : Prop :=
  Yields x (fun branch => Handled site s.targets s branch.session) fun fault => fault = .nilFrontend → s.fe = none

namespace Handles
variable {site : SSHSite} {s : SSHSession}

theorem again {s' : SSHSession} (handled : Handled site s.targets s s') : Handles site s (.ok (.again s')) := handled

theorem send {s' : SSHSession} (handled : Handled site s.targets s s') : Handles site s (.ok (.send s')) := handled

theorem refuse (message : Bytes) : Handles site s (s.refuse message) := again (.printf _)

theorem arg {c : CmdArgs} {k : Nat} {f : Bytes → Except Fault Branch} (next : ∀ word, Handles site s (f word)) :
    Handles site s (c.arg k >>= f) := by
  unfold CmdArgs.arg
  cases c.argv[k]? with
  | none => exact fun wrong => nomatch wrong
  | some word => exact next word

theorem playerAt {fe : Frontend} {id : Int} {f : Player → Except Fault Branch} (next : ∀ p, Handles site s (f p)) :
    Handles site s (fe.playerAt id >>= f) := by
  unfold Frontend.playerAt
  split
  · exact next _
  · exact fun wrong => nomatch wrong

theorem frontend {f : Nat → Except Fault Branch} (next : ∀ i, s.fe = some i → Handles site s (f i)) :
    Handles site s (s.frontend >>= f) := by
  unfold SSHSession.frontend
  cases current : s.fe with
  | none => exact fun _ => current
  | some i => exact next i current

end Handles

section
variable (lib : SSHLib) (site : SSHSite) (c : CmdArgs) (i : Nat) (results : LineResults) (s : SSHSession)

theorem onPlayer_handles (first noNumber : Bytes) (outOfRange : Int → Bytes) (unused : Bytes)
    {proceed : Player → Branch} (proceeds : ∀ p, Handled site s.targets s (proceed p).session) :
    Handles site s (SSHLib.onPlayer i s first noNumber outOfRange unused proceed) := by
  unfold SSHLib.onPlayer
  cases atoi first with
  | none => exact .refuse _
  | some pid =>
    dsimp only
    split
    · exact .refuse _
    · apply Handles.playerAt
      intro p
      split
      · exact .refuse _
      · exact proceeds p

theorem whois_handles (active : s.activeFE = some i) : Handles site s (lib.whois c i s) := by
  unfold SSHLib.whois
  split
  · exact .again (.sshPrintln (fun j same => .inr (active.trans same)) _)
  · exact .arg fun first => onPlayer_handles site i s first _ _ _ fun p => .println _

theorem stuff_handles : Handles site s (lib.stuff c i s) := by
  unfold SSHLib.stuff
  split
  · exact .refuse _
  · exact .arg fun first => onPlayer_handles site i s first _ _ _ fun p =>
      .onFe (fun _ => .inl) (.stuffPlayer _ p _)

theorem sayperson_handles : Handles site s (lib.sayperson c i s) := by
  unfold SSHLib.sayperson
  split
  · exact .refuse _
  · exact .arg fun first => onPlayer_handles site i s first _ _ _ fun p =>
      .onFe (fun _ => .inl) (.sayPlayer _ (some p) _ _)

/-- A function of `command.go` with its line for the consoles. -/
theorem Handled.logged {f : Frontend → Frontend} (queues : Queues f) (text : Bytes) :
    Handled site s.targets s ((s.onFe f).sshPrintln s.fe text) :=
  (Handled.onFe (fun _ => .inl) queues).trans (.sshPrintln (fun _ => .inl) text)

theorem kick_handles : Handles site s (lib.kick c i s) := by
  unfold SSHLib.kick
  split
  · exact .refuse _
  · exact .arg fun first => onPlayer_handles site i s first _ _ _ fun p => .logged site s (.kickPlayer _ p _) _

theorem listRules_handled (type : RuleType) (title failed usage : Bytes) :
    Handled site s.targets s (lib.listRules i s type title failed usage) := by
  have folded : ∀ (rules : List Rule) (listed : SSHSession × Bytes), Handled site s.targets s listed.1 →
      Handled site s.targets s (rules.foldl (lib.listRule failed) listed).1 := by
    intro rules
    induction rules with
    | nil => exact fun listed handled => handled
    | cons r rules ih =>
      intro listed handled
      apply ih
      unfold SSHLib.listRule
      cases lib.ruleDetailLine r with
      | error failure => exact handled.trans (.printf _)
      | ok text => exact handled
  exact (folded _ _ (.println title)).trans (.println _)

theorem mute_handles : Handles site s (lib.mute c i s) := by
  unfold SSHLib.mute
  split
  · exact .again (listRules_handled lib site i s _ _ _ _)
  · apply Handles.arg
    intro first
    cases atoi first with
    | none => exact .refuse _
    | some id =>
      dsimp only
      split
      · exact .refuse _
      · apply Handles.arg
        intro second
        cases atoi second with
        | none => exact .refuse _
        | some secs =>
          apply Handles.playerAt
          intro p
          split
          · exact .refuse _
          · exact .send (.logged site s (.mutePlayer _ p secs) _)

theorem stifle_handles : Handles site s (lib.stifle c i s) := by
  unfold SSHLib.stifle
  split
  · exact .again (listRules_handled lib site i s _ _ _ _)
  · apply Handles.arg
    intro first
    split
    · exact .refuse _
    · apply Handles.arg
      intro second
      cases atoi second with
      | none => exact .refuse _
      | some secs => exact .send (.logged site s (.stiflePlayer _ _ secs) _)
    · exact .refuse _

theorem say_handles : Handles site s (lib.say c s) := by
  unfold SSHLib.say
  split
  · exact .refuse _
  · exact .send (.trans (.println _) (.onFe (fun _ => .inl) (.sayEveryone _ _ _)))

theorem rcon_handles (active : s.activeFE = some i) : Handles site s (lib.rcon c i s) := by
  unfold SSHLib.rcon
  split
  · exact .refuse _
  · refine .send ⟨.update (.inr active) ?_, rfl, .inl⟩
    rw [(Queues.consoleCommand lib.platform.q2 c.args).only (s.world.fe i)]
    rfl

theorem consolesay_handles : Handles site s (lib.consolesay c s) := by
  unfold SSHLib.consolesay
  split
  · exact .refuse _
  · exact .frontend fun _ _ => .send (.trans (.onFe (fun _ => .inl) (.consoleSay _ _)) (.println _))

theorem pauseCommand_handled : Handled site s.targets s (SSHLib.pauseCommand s).session := by
  unfold SSHLib.pauseCommand
  split
  · exact .refl
  · exact ⟨.of_same rfl id rfl rfl rfl rfl, rfl, .inl⟩

theorem unpauseCommand_handled : Handled site s.targets s (SSHLib.unpauseCommand s).session := by
  unfold SSHLib.unpauseCommand
  split
  · exact .refl
  · exact .terminal _

theorem search_handled : Handled site s.targets s (lib.search c results s).session := by
  unfold SSHLib.search
  split
  · exact .println _
  · cases results.found with
    | error failure => exact .printf _
    | ok found => exact .println _

theorem materializeRules_files {format : TextFormat (List Rule)} {quote : Bytes → Bytes} {files : Files}
    {directory reason path : Bytes} {rules : List Rule} {write : WriteResult}
    (changed : (materializeRules format quote files directory rules write reason).1 path ≠ files path) :
    path = rulesFile directory := by
  by_contra other
  apply changed
  unfold materializeRules
  split
  · rfl
  · cases format.marshal rules with
    | error failure => rfl
    | ok data => exact Function.update_of_ne other ..

variable {i s} in
theorem storeRules_handled (current : s.fe = some i) (rules : List Rule) :
    Handled site s.targets s (lib.storeRules site results s i rules).1 where
  toReaches := {
    (Reaches.update (.inl current) rfl : Reaches site s.targets s
      { s with world := s.world.update i fun fe => { fe with rules := rules } }) with
    files := fun _ changed => ⟨i, .inl current, materializeRules_files changed⟩ }
  selection := rfl
  wizard := .inl

theorem listAllRules_handles : Handles site s (lib.listAllRules s) :=
  .frontend fun _ _ => .send (.trans (.trans (.trans (.printf _) (.println _)) (.println _)) (.println _))

theorem showRule_handles (id : Bytes) : Handles site s (lib.showRule s id) := by
  apply Handles.frontend
  intro i _
  split
  · exact .send .refl
  · exact .send (.trans (.printf _) (.println _))

theorem deleteRule_handles (id : Bytes) : Handles site s (lib.deleteRule site results s id) := by
  unfold SSHLib.deleteRule
  split
  · exact .refuse _
  split
  · exact .refuse _
  apply Handles.frontend
  intro i current
  dsimp only
  split
  · exact .refuse _
  · have stored := storeRules_handled lib site results current
      ((s.world.fe i).rules.filter fun r => !id.isPrefixOf r.uuid)
    split
    · rename_i s' failure result
      rw [result] at stored
      exact .again (stored.trans (.println _))
    · rename_i s' result
      rw [result] at stored
      exact .send (stored.trans (.printf _))

theorem rulesCommand_handles (active : s.activeFE = some i) : Handles site s (lib.rulesCommand site c results s) := by
  unfold SSHLib.rulesCommand
  split
  · exact listAllRules_handles lib site s
  apply Handles.arg
  intro first
  split
  · exact .arg fun id => showRule_handles lib site s id
  split
  · exact .arg fun id => deleteRule_handles lib site results s id
  split
  · cases s.fe with
    | none => exact .again (.println _)
    | some j => exact .again ⟨.of_same rfl id rfl rfl rfl rfl, rfl, fun _ => .inr (by rw [active]; rfl)⟩
  · exact .send .refl

theorem dispatch_handles (active : s.activeFE = some i) (command : Option SSHCommand) :
    Handles site s (lib.dispatch site c i results s command) := by
  cases command with
  | none => exact .send .refl
  | some command =>
    cases command with
    | server => exact .send .refl
    | quit => exact .send .refl
    | help => exact .send (.println _)
    | say => exact say_handles lib site c s
    | whois => exact whois_handles lib site c i s active
    | stuff => exact stuff_handles lib site c i s
    | rcon => exact rcon_handles lib site c i s active
    | status => exact .send (.println _)
    | consolesay => exact consolesay_handles lib site c s
    | sayperson => exact sayperson_handles lib site c i s
    | kick => exact kick_handles lib site c i s
    | mute => exact mute_handles lib site c i s
    | stifle => exact stifle_handles lib site c i s
    | pause => exact pauseCommand_handled site s
    | unpause => exact unpauseCommand_handled site s
    | search => exact search_handled lib site c results s
    | rules => exact rulesCommand_handles lib site c i results s active
    | settings => exact .send (.printf _)

theorem addRule_handles (r : Rule) : Handles site s (lib.addRule site results s r) := by
  apply Handles.frontend
  intro i current
  dsimp only
  have told : Handled site s.targets s (s.printf (ascii "Adding rule proto:\n" ++ lib.formatRule r ++ ascii "\n")) :=
    .printf _
  generalize s.printf (ascii "Adding rule proto:\n" ++ lib.formatRule r ++ ascii "\n") = s' at told ⊢
  have still : s'.fe = some i := (congrArg Selection.fe told.selection).trans current
  have aim : s'.targets = s.targets := by
    funext j
    rw [SSHSession.targets, SSHSession.targets, told.selection]
  have stored := storeRules_handled lib site results still ((s'.world.fe i).rules ++ [r])
  rw [aim] at stored
  split
  · rename_i stored' failure result
    rw [result] at stored
    exact .send ((told.trans stored).trans (.printf _))
  · rename_i stored' result
    rw [result] at stored
    exact .send (told.trans stored)

/-- The wizard reads on, or is done. -/
theorem wizardLine_handles {stage : Wizard} (waits : s.wizard = some stage) (input : Bytes) :
    Handles site s (lib.wizardLine site results s input stage) := by
  have onwards (next : Option Wizard) (t : SSHTerminal) :
      Handled site s.targets s { s with wizard := next, terminal := t } :=
    ⟨.of_same rfl id rfl rfl rfl rfl, rfl, fun _ => .inl (by rw [waits]; rfl)⟩
  cases stage with
  | type =>
    unfold SSHLib.wizardLine
    cases SSHLib.ruleTypeNamed input with
    | none => exact .again (.trans (.println _) (.printf _))
    | some type => exact .again (onwards _ _)
  | address r => exact .again (onwards _ _)
  | description r => exact .again (onwards _ _)
  | message r =>
    have done := addRule_handles lib site results { s with wizard := none, terminal := s.terminal.restorePrompt }
      { r with message := [input], uuid := results.uuid }
    exact Yields.mono done (fun branch => (onwards _ _).trans) fun _ => id

/-! ## The handler -/

/-- What a process dies of when it sends. -/
def Sending (fault : Fault) : Prop := fault = .nilConnection ∨ fault = .cryptoPanic

theorem symmetricEncrypt_faults (aes : Aes) (key nonce plaintext : Bytes) :
    Yields (symmetricEncrypt aes key nonce plaintext) (fun _ => True) fun fault => fault = .cryptoPanic := by
  unfold symmetricEncrypt
  cases aes.newCipher key with
  | none => rfl
  | some block =>
    dsimp only [cryptBlocks]
    split
    · rfl
    split
    · rfl
    · trivial

/-- What goes out goes to the frontend's own connection. -/
theorem flush_aimed (pf : Platform) (fe : Frontend) : Yields (fe.flush pf)
    (fun result => result.1.standing = fe.standing ∧ ∀ m ∈ result.2, fe.connection = some m.1) Sending := by
  have encrypted : Yields (fe.encryptQueue pf) (fun fe' => fe'.standing = fe.standing) Sending := by
    unfold Frontend.encryptQueue
    split
    · apply Yields.bind ((symmetricEncrypt_faults pf.aes _ _ _).mono (fun _ => id) fun _ => .inr)
      exact fun cipher _ _ => rfl
    · rfl
  unfold Frontend.flush
  split
  · exact ⟨rfl, fun m none => nomatch none⟩
  apply Yields.bind encrypted
  intro fe' _ standing
  have same : fe'.connection = fe.connection := congrArg (fun st => st.2.2.1) standing
  unfold Frontend.standing at standing
  cases connected : fe'.connection with
  | none => exact .inl rfl
  | some c =>
    rw [connected] at standing
    refine ⟨standing, fun m member => ?_⟩
    rw [List.mem_singleton.mp member, ← same, connected]

theorem finish_handles {branch : Branch} (handled : Handled site s.targets s branch.session) :
    Yields (branch.finish lib) (Handled site s.targets s) Sending := by
  cases branch with
  | again s' => exact handled
  | send s' =>
    have still : s'.fe = s.fe := congrArg Selection.fe handled.selection
    unfold Branch.finish
    dsimp only
    cases current : s'.fe with
    | none => exact handled
    | some i =>
      have target : s.targets i := .inl (still.symm.trans current)
      have sent : Yields (sendMessages lib.platform i s'.world) (fun w => Handled site s.targets s' { s' with world := w })
          Sending := by
        apply Yields.bind (flush_aimed lib.platform (s'.world.fe i))
        intro result _ aimed
        refine ⟨{ (Reaches.update target aimed.1 : Reaches site s.targets s'
          { s' with world := s'.world.update i fun _ => result.1 }) with wire := ?_ }, rfl, .inl⟩
        exact ⟨result.2, rfl, fun m member => ⟨i, target, aimed.2 m member⟩⟩
      exact Yields.bind sent fun w _ done => handled.trans done

end

/-- The frontends a line can be about: none unless a server is managed, or the wizard reads. -/
def SSHSession.aims (s : SSHSession) (j : Nat) : Prop :=
  (s.activeFE.isSome = true ∨ s.wizard.isSome = true) ∧ s.targets j

/-- What an event does to a session. -/
inductive Effect (lib : SSHLib) (site : SSHSite) (s : SSHSession) (e : SSHEvent) (s' : SSHSession) : Prop
  /-- A server is asked for that is unknown or offline. -/
  | missed (found : Option Nat) (wanted : lib.wanted s e = some found)
      (offline : ∀ i, found = some i → s.online i = false)
      (selection : s'.toSelection = { s.toSelection with fe := found }) (wizard : s'.wizard = none)
      (reaches : Reaches site (fun _ => False) s s')
  | selected (i : Nat) (wanted : lib.wanted s e = some (some i)) (online : s.online i = true)
      (selection : s'.toSelection = s.select i) (reaches : Reaches site (fun j => j = i) s s')
  | dropped (i : Nat) (unasked : lib.wanted s e = none) (running : s.ended = false) (active : s.activeFE = some i)
      (selection : s'.toSelection = s.drop) (wizard : s'.wizard = none)
      (reaches : Reaches site (fun _ => False) s s')
  | closed (unasked : lib.wanted s e = none) (ended : s'.ended = true)
      (selection : s'.toSelection = s.unlinkAll) (wizard : s'.wizard = none)
      (reaches : Reaches site (fun _ => False) s s')
  | handled (unasked : lib.wanted s e = none) (handled : Handled site s.aims s s')
  | elsewhere (i : Nat) (fe : Frontend) (event : e = .frontend i fe)
      (same : s' = { s with world := s.world.update i fe.becomes })

section
variable (lib : SSHLib) (site : SSHSite)

theorem parseCmdArgs_argc (toLower : Bytes → Bytes) (input : Bytes) :
    (parseCmdArgs toLower input).argc = (parseCmdArgs toLower input).argv.length := by
  unfold parseCmdArgs
  split
  · rfl
  · exact (List.length_tail ..).symm

theorem CmdArgs.arg_zero {c : CmdArgs} (counted : c.argc = c.argv.length) (some_arg : c.argc ≠ 0) :
    c.arg 0 = .ok (c.argv.headD []) := by
  unfold CmdArgs.arg
  cases words : c.argv with
  | nil => simp [words, counted] at some_arg
  | cons word rest => rfl

/-- What a server that is asked for does. -/
theorem selectServer_effect (s : SSHSession) (e : SSHEvent) (name : Bytes) (free : s.wizard = none)
    (wanted : lib.wanted s e = some (s.world.findFrontendByName name)) :
    Yields ((lib.selectServer s name).finish lib) (Effect lib site s e) Sending := by
  unfold SSHLib.selectServer
  cases found : s.world.findFrontendByName name with
  | none =>
    rw [found] at wanted
    exact .missed none wanted (fun i none => nomatch none) rfl free (.of_same rfl id rfl rfl rfl rfl)
  | some i =>
    rw [found] at wanted
    dsimp only
    cases online : s.online i with
    | false =>
      refine Effect.missed (some i) wanted (fun j same => ?_) rfl free (.of_same rfl id rfl rfl rfl rfl)
      exact Option.some.inj same ▸ online
    | true =>
      simp only [Bool.not_true, Bool.false_eq_true, ↓reduceIte]
      generalize chosen : (SSHSession.println { s with toSelection := s.select i }
        (yellow (ascii "* connecting to " ++ (s.world.fe i).name ++ ascii "'s console stream *"))).setPrompt
          (topLevelPrompt ++ ascii "/" ++ (s.world.fe i).name) true = s₁
      have first : Reaches site (fun j => j = i) s s₁ := by
        rw [← chosen]
        exact .of_same rfl id rfl rfl rfl rfl
      have selection : s₁.toSelection = s.select i := by
        rw [← chosen]
        rfl
      have finished : Yields ((Branch.send s₁).finish lib) (Handled site s₁.targets s₁)
          Sending := finish_handles lib site s₁ .refl
      refine finished.mono (fun s' sent => ?_) fun _ => id
      refine Effect.selected i wanted online (sent.selection.trans selection) (first.trans (sent.toReaches.mono ?_))
      intro j aimed
      rw [SSHSession.targets, selection] at aimed
      exact (Option.some.inj (aimed.elim id id)).symm

/-- What the process dies of in a session: sending, or a frontend that is nil. -/
def SSHSession.DiesOf (s : SSHSession) (fault : Fault) : Prop :=
  fault = .nilFrontend → s.fe = none ∧ (s.activeFE.isSome = true ∨ s.wizard.isSome = true)

theorem diesOf_sending {s : SSHSession} {fault : Fault} (sending : Sending fault) : s.DiesOf fault := by
  rintro rfl
  simp [Sending] at sending

/-- A branch, and what comes behind it. -/
theorem handles_effect {s : SSHSession} {e : SSHEvent} {x : Except Fault Branch} (unasked : lib.wanted s e = none)
    (engaged : s.activeFE.isSome = true ∨ s.wizard.isSome = true) (handles : Handles site s x) :
    Yields (x >>= fun branch => branch.finish lib) (Effect lib site s e) s.DiesOf := by
  refine Yields.bind (handles.mono (fun _ => id) fun fault dies nil => ⟨dies nil, engaged⟩) fun branch _ handled => ?_
  apply (finish_handles lib site s handled).mono
  · exact fun s' done => .handled unasked (done.mono fun j target => ⟨engaged, target⟩)
  · exact fun fault => diesOf_sending

variable {s : SSHSession} {e : SSHEvent}

theorem listServers_effect (unasked : lib.wanted s e = none) :
    Yields ((lib.listServers site s).finish lib) (Effect lib site s e) s.DiesOf := by
  unfold SSHLib.listServers
  cases site.user s.user with
  | none => exact .handled unasked (.println _)
  | some u =>
    dsimp only
    split
    · exact .handled unasked (.println _)
    · rename_i managed
      have engaged : s.activeFE.isSome = true := Option.isSome_iff_ne_none.mpr managed
      exact handles_effect lib site (x := .ok (.send _)) unasked (.inl engaged) (.println _)

theorem handleCommand_effect {input : Bytes} {results : LineResults} (listening : s.listening = true)
    (event : e = .line input results) :
    Yields (lib.handleCommand site (parseCmdArgs lib.toLower input) results s) (Effect lib site s e) s.DiesOf := by
  have free : s.wizard = none := by
    simp only [SSHSession.listening, Bool.and_eq_true, Option.isNone_iff_eq_none] at listening
    exact listening.1.2
  have counted := parseCmdArgs_argc lib.toLower input
  have asks : lib.wanted s e =
      if s.listening ∧ (parseCmdArgs lib.toLower input).which = some .server ∧ (parseCmdArgs lib.toLower input).argc ≠ 0 then
        some (s.world.findFrontendByName ((parseCmdArgs lib.toLower input).argv.headD [])) else none := by
    rw [event]
    rfl
  generalize parseCmdArgs lib.toLower input = c at counted asks ⊢
  by_cases server : c.which = some .server
  · unfold SSHLib.handleCommand SSHLib.serverCommand
    rw [server]
    by_cases bare : c.argc = 0
    · simp only [bare, ↓reduceIte]
      exact listServers_effect lib site (by rw [asks, if_neg (by simp [bare])])
    · simp only [bare, ↓reduceIte, CmdArgs.arg_zero counted bare]
      apply (selectServer_effect lib site s e _ free (by rw [asks, if_pos ⟨listening, server, bare⟩])).mono
      · exact fun _ => id
      · exact fun _ => diesOf_sending
  · have unasked : lib.wanted s e = none := by rw [asks, if_neg fun both => server both.2.1]
    have dispatched (command : Option SSHCommand) (i : Nat) (active : s.activeFE = some i) :=
      handles_effect lib site unasked (.inl (by rw [active]; rfl)) (dispatch_handles lib site c i results s active command)
    unfold SSHLib.handleCommand
    split
    · contradiction
    · exact .closed unasked rfl rfl free (.of_same rfl (fun _ => rfl) rfl rfl rfl rfl)
    · exact .handled unasked (.println _)
    · exact .handled unasked .refl
    · rename_i i active _ _
      exact dispatched _ i active

/-- What an event does, and what the process may die of. -/
theorem sshStep_effect (s : SSHSession) (e : SSHEvent) :
    Yields (sshStep lib site s e) (Effect lib site s e) s.DiesOf := by
  cases e with
  | line input results =>
    dsimp only [sshStep, SSHLib.handleLine]
    by_cases stopped : s.ended = true
    · rw [if_pos stopped]
      refine .handled (if_neg fun asks => ?_) .refl
      simp [SSHSession.listening, stopped] at asks
    rw [if_neg stopped]
    cases waits : s.wizard with
    | some stage =>
      refine handles_effect lib site (if_neg fun asks => ?_) (.inr (by rw [waits]; rfl))
        (wizardLine_handles lib site results s waits input)
      simp [SSHSession.listening, waits] at asks
    | none =>
      cases news : s.dropped with
      | some i =>
        have active : s.activeFE = some i := (Option.filter_eq_some_iff.mp news).1
        refine .dropped i (if_neg fun asks => ?_) (by simpa using stopped) active rfl waits (.of_same rfl id rfl rfl rfl rfl)
        simp [SSHSession.listening, news] at asks
      | none =>
        exact handleCommand_effect lib site (by simp [SSHSession.listening, stopped, waits, news]) rfl
  | readFailed reason =>
    dsimp only [sshStep, SSHSession.readFailed]
    split
    · exact .handled rfl .refl
    cases waits : s.wizard with
    | some stage =>
      exact .handled rfl ⟨.of_same rfl id rfl rfl rfl rfl, rfl, fun started => nomatch started⟩
    | none => exact .closed rfl rfl rfl waits (.of_same rfl (fun _ => rfl) rfl rfl rfl rfl)
  | stream link now text =>
    dsimp only [sshStep]
    split
    · exact .handled rfl (.terminal _)
    · exact .handled rfl .refl
  | frontend i fe => exact .elsewhere i fe rfl rfl

/-- What is asked for comes from a line. -/
theorem wanted_line {found : Option Nat} (wanted : lib.wanted s e = some found) :
    ∃ input results, e = .line input results ∧ s.listening = true ∧
      (parseCmdArgs lib.toLower input).which = some .server ∧ (parseCmdArgs lib.toLower input).argc ≠ 0 ∧
      s.world.findFrontendByName ((parseCmdArgs lib.toLower input).argv.headD []) = found := by
  cases e with
  | readFailed reason => cases wanted
  | stream link now text => cases wanted
  | frontend i fe => cases wanted
  | line input results =>
    dsimp only [SSHLib.wanted] at wanted
    split at wanted
    · rename_i asks
      exact ⟨input, results, rfl, asks.1, asks.2.1, asks.2.2, Option.some.inj wanted⟩
    · cases wanted

/-- A line that asks for a server is a selection, once the handler has looked for the name. -/
theorem sshStep_wanted {found : Option Nat} (wanted : lib.wanted s e = some found) :
    ∃ name, s.world.findFrontendByName name = found ∧ sshStep lib site s e = (lib.selectServer s name).finish lib := by
  obtain ⟨input, results, rfl, listening, server, named, finds⟩ := wanted_line lib wanted
  refine ⟨_, finds, ?_⟩
  have counted := parseCmdArgs_argc lib.toLower input
  simp only [SSHSession.listening, Bool.and_eq_true, Bool.not_eq_true', Option.isNone_iff_eq_none] at listening
  obtain ⟨⟨running, free⟩, still⟩ := listening
  simp only [sshStep, SSHLib.handleLine, running, free, still, SSHLib.handleCommand, server, SSHLib.serverCommand,
    named, CmdArgs.arg_zero counted named, Bool.false_eq_true, ↓reduceIte]
  rfl

/-- Of the effects there are, two are of a line that asks for a server. -/
theorem Effect.of_wanted {s' : SSHSession} {found : Option Nat} (effect : Effect lib site s e s')
    (wanted : lib.wanted s e = some found) :
    (∀ i, found = some i → s.online i = false) ∧ s'.toSelection = { s.toSelection with fe := found } ∧
        Reaches site (fun _ => False) s s' ∨
      ∃ i, found = some i ∧ s.online i = true ∧ s'.toSelection = s.select i ∧ Reaches site (fun j => j = i) s s' := by
  cases effect with
  | missed found' wanted' offline selection wizard reaches =>
    have same : found' = found := Option.some.inj (wanted'.symm.trans wanted)
    subst same
    exact .inl ⟨offline, selection, reaches⟩
  | selected i wanted' online selection reaches =>
    exact .inr ⟨i, Option.some.inj (wanted.symm.trans wanted'), online, selection, reaches⟩
  | dropped i unasked running active selection wizard reaches => simp [unasked] at wanted
  | closed unasked ended selection wizard reaches => simp [unasked] at wanted
  | handled unasked handled => simp [unasked] at wanted
  | elsewhere i fe event same =>
    subst event
    cases wanted

theorem finish_returns_iff {s : SSHSession} {i : Nat} (current : s.fe = some i) :
    (∃ s', (Branch.send s).finish lib = .ok s') ↔ ¬ Fails ((s.world.fe i).flush lib.platform) := by
  simp only [Branch.finish, current]
  cases flushed : (s.world.fe i).flush lib.platform with
  | error fault =>
    have unsent : sendMessages lib.platform i s.world = .error fault := by
      rw [sendMessages, flushed]
      rfl
    rw [unsent]
    refine iff_of_false ?_ (not_not.mpr ⟨fault, rfl⟩)
    rintro ⟨s', returned⟩
    cases returned
  | ok result =>
    have sent : sendMessages lib.platform i s.world = .ok (s.world.sent i result) := by
      rw [sendMessages, flushed]
      rfl
    rw [sent]
    refine iff_of_true ⟨_, rfl⟩ ?_
    rintro ⟨fault, failed⟩
    cases failed

/-- It is carried out unless the process dies of sending to the server. -/
theorem wanted_returns_iff {found : Option Nat} (wanted : lib.wanted s e = some found) :
    (∃ s', sshStep lib site s e = .ok s') ↔
      ∀ i, found = some i → s.online i = true → ¬ Fails ((s.world.fe i).flush lib.platform) := by
  obtain ⟨name, named, stepped⟩ := sshStep_wanted lib site wanted
  rw [stepped, SSHLib.selectServer, named]
  cases found with
  | none => exact iff_of_true ⟨_, rfl⟩ fun i none => nomatch none
  | some i =>
    dsimp only
    cases online : s.online i with
    | false =>
      refine iff_of_true ⟨_, rfl⟩ fun j here there => ?_
      rw [← Option.some.inj here, online] at there
      nomatch there
    | true =>
      refine (finish_returns_iff lib rfl).trans ⟨fun sends j here _ => Option.some.inj here ▸ sends, ?_⟩
      exact fun sends => sends i rfl online

end

end Q2Admin
