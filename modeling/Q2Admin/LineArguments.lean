import Q2Admin.SelectedServer

/-! The arguments of the commands of an SSH session. A line is to be answered whatever stands
on it: with too few words, or with the number of a player that there cannot be, by a message. -/

namespace Q2Admin
open Go Lib

def ruleSubcommands : List Bytes := [ascii "show", ascii "del", ascii "delete", ascii "remove"]

namespace CmdArgs
variable (c : CmdArgs)

def first : Bytes := c.argv.headD []

def second : Bytes := c.argv.getD 1 []

/-- How many words the usage asks for behind the command. `sayperson` does with one, though
the help has two for it. -/
def needs : Nat :=
  match c.which with
  | some .say | some .rcon | some .consolesay | some .search | some .whois | some .sayperson | some .kick => 1
  | some .stuff | some .mute | some .stifle => 2
  | some .rules => if ruleSubcommands.contains c.first then 2 else 0
  | _ => 0

/-- Whether the first word is for a player. -/
def namesPlayer : Bool :=
  match c.which with
  | some .whois | some .stuff | some .sayperson | some .kick | some .mute | some .stifle => true
  | _ => false

/-- There are too few words, or the player has a number that is out of range. -/
def Wrong (fe : Frontend) : Prop :=
  c.argc < c.needs ∨ c.namesPlayer = true ∧ ∃ id, atoi c.first = some id ∧ ¬ fe.InRange id

end CmdArgs

/-- What the texts that say what is wrong have in common. -/
def complaints : List String := ["Usage: ", "error: ", "invalid ", "unable ", "doesn't match", "not in use"]

def Complaint (text : Bytes) : Prop := ∃ part ∈ complaints, ascii part <:+: text

instance (text : Bytes) : Decidable (Complaint text) :=
  inferInstanceAs (Decidable (∃ part ∈ complaints, ascii part <:+: text))

/-- The terminal shows what is wrong, or the console of the server is told the usage. -/
def SSHSession.Complains (s : SSHSession) (i : Nat) (s' : SSHSession) : Prop :=
  (∃ said, s'.terminal.shown = s.terminal.shown ++ said ∧ ∃ text ∈ said, Complaint text) ∨
    ∃ text, s'.streamed = s.streamed ++ [(i, text)] ∧ ascii "Usage: " <+: text

/-- A server is managed and connected, with a place for each of its players, and a command can
be given. -/
structure SSHSession.Manages (s : SSHSession) (i : Nat) : Prop where
  running : s.ended = false
  free : s.wizard = none
  active : s.activeFE = some i
  current : s.fe = some i
  connected : (s.world.fe i).connected = true
  sized : (s.world.fe i).players.length = (s.world.fe i).maxPlayers

/-- The line crashes nothing by an index, and what is wrong with it is said. -/
def Answered (lib : SSHLib) (site : SSHSite) (s : SSHSession) (i : Nat) (input : Bytes) (results : LineResults) : Prop :=
  Yields (sshStep lib site s (.line input results))
    (fun s' => (parseCmdArgs lib.toLower input).Wrong (s.world.fe i) → s.Complains i s')
    fun fault => fault ≠ .sliceIndex ∧ fault ≠ .slotIndex ∧ ¬ (parseCmdArgs lib.toLower input).Wrong (s.world.fe i)

/-- No command reads behind its words or behind the players, and none takes what is wrong. -/
def SSHLib.Careful (lib : SSHLib) (c : CmdArgs) (fe : Frontend) : Prop :=
  match c.which with
  | some .whois | some .sayperson | some .kick => atoi c.first ≠ some (fe.maxPlayers : Int)
  | some .stuff => atoi c.first ≠ some (fe.maxPlayers : Int) ∧
      (c.argc = 1 → ∀ id, atoi c.first = some id → fe.InRange id → (fe.player id.toNat).connectTime = 0)
  | some .mute => ∀ id, atoi c.first = some id → 0 ≤ id → id ≤ fe.maxPlayers →
      1 < c.argc ∧ (id = fe.maxPlayers → atoi c.second = none)
  | some .stifle => ∀ p, fe.resolvePlayers lib.toLower c.first = .ok [p] →
      1 < c.argc ∧ ((∃ id, atoi c.first = some id ∧ ¬ fe.InRange id) → atoi c.second = none)
  | some .rules => c.argc = 1 → c.first ∉ ruleSubcommands
  | _ => True

/-! ## Complaints -/

/-- What the commands say when something is wrong, up to what they quote. -/
def refusals : List String := [
  "Usage: say <something_to_say>", "Usage: stuff <id> <command>", "Usage: rcon <command>",
  "Usage: consolesay <message>", "Usage: sayplayer <id> [message]", "Usage: kick <id> [message]",
  "Usage: mute <player_id> <seconds>",
  "Usage: stifle <player_id> <seconds>", "Usage: search <partial_name_ip_host_userinfo>", "whois error: ",
  "whois error: invalid player ID: ", "stuff error: ", "stuff error: invalid player ID: ", " not in use",
  "sayplayer: invalid client_id ", "kick: invalid client_id ", "mute: invalid client_id ", "mute: invalid seconds ",
  "stifle: unable to resolve player: ", "stifle: invalid seconds ", " doesn't match exactly 1 player"]

theorem refusals_complain : ∀ text ∈ refusals, Complaint (ascii text) := by decide +kernel

theorem whois_usage : ascii "Usage: " <+: ascii "Usage: whois <id>" := by decide +kernel

theorem add_not_subcommand : ascii "add" ∉ ruleSubcommands := by decide +kernel

namespace Complaint
variable {text : Bytes}

theorem known {text : String} (member : text ∈ refusals) : Complaint (ascii text) := refusals_complain text member

theorem before (complaint : Complaint text) (rest : Bytes) : Complaint (text ++ rest) := by
  obtain ⟨part, member, inside⟩ := complaint
  exact ⟨part, member, inside.trans (List.prefix_append text rest).isInfix⟩

theorem behind (complaint : Complaint text) (front : Bytes) : Complaint (front ++ text) := by
  obtain ⟨part, member, inside⟩ := complaint
  exact ⟨part, member, inside.trans (List.suffix_append front text).isInfix⟩

theorem newline (complaint : Complaint text) : Complaint (newline text) := by
  unfold Q2Admin.newline
  split
  · exact complaint
  · exact complaint.before _

end Complaint

namespace SSHSession.Complains
variable {s s' : SSHSession} {i : Nat}

theorem printf {text : Bytes} (complaint : Complaint text) : s.Complains i (s.printf text) :=
  .inl ⟨[text], rfl, text, List.mem_singleton_self text, complaint⟩

end SSHSession.Complains

section
variable (lib : SSHLib) (site : SSHSite) (i : Nat) (s : SSHSession) (wrong : Prop)

/-- A branch that answers, whatever is `wrong`. -/
def Responds (x : Except Fault Branch) : Prop :=
  Yields (x >>= fun branch => branch.finish lib) (fun s' => wrong → s.Complains i s')
    fun fault => fault ≠ .sliceIndex ∧ fault ≠ .slotIndex ∧ ¬ wrong

variable {lib i s wrong}

/-- Sending changes nothing of the terminal. -/
theorem finish_silent (branch : Branch) : Yields (branch.finish lib)
    (fun s' => s'.terminal = branch.session.terminal ∧ s'.streamed = branch.session.streamed)
    fun fault => fault ≠ .sliceIndex ∧ fault ≠ .slotIndex := by
  cases branch with
  | again s' => exact ⟨rfl, rfl⟩
  | send s' =>
    unfold Branch.finish
    dsimp only
    cases s'.fe with
    | none => exact ⟨rfl, rfl⟩
    | some j =>
      have flushed : Yields ((s'.world.fe j).flush lib.platform) (fun _ => True)
          fun fault => fault ≠ .sliceIndex ∧ fault ≠ .slotIndex := by
        apply (flush_aimed lib.platform (s'.world.fe j)).mono
        · exact fun _ _ => trivial
        · rintro fault (rfl | rfl)
          · exact ⟨nofun, nofun⟩
          · exact ⟨nofun, nofun⟩
      have sent : Yields (sendMessages lib.platform j s'.world) (fun _ => True)
          fun fault => fault ≠ .sliceIndex ∧ fault ≠ .slotIndex := Yields.bind flushed fun _ _ _ => trivial
      exact Yields.bind sent fun w _ _ => ⟨rfl, rfl⟩

theorem responds_again {s' : SSHSession} (complains : s.Complains i s') : Responds lib i s wrong (.ok (.again s')) :=
  fun _ => complains

theorem responds_refuse {message : Bytes} (complaint : Complaint message) : Responds lib i s wrong (s.refuse message) :=
  responds_again (.printf (complaint.before _))

/-- A refusal that is known, up to what it quotes. -/
theorem responds_refused {text : String} (member : text ∈ refusals) (quoted : Bytes) :
    Responds lib i s wrong (s.refuse (ascii text ++ quoted)) :=
  responds_refuse ((Complaint.known member).before quoted)

/-- When nothing is wrong, nothing has to be said. -/
theorem responds_right (right : ¬ wrong) (branch : Branch) : Responds lib i s wrong (.ok branch) := by
  apply (finish_silent branch).mono
  · exact fun _ _ absurd => (right absurd).elim
  · exact fun fault spared => ⟨spared.1, spared.2, right⟩

theorem not_responds_silent (bad : wrong) {branch : Branch} (silent : ¬ s.Complains i branch.session) :
    ¬ Responds lib i s wrong (.ok branch) := by
  intro responds
  have quiet : Yields (branch.finish lib) _ _ := finish_silent branch
  change Yields (branch.finish lib) _ _ at responds
  cases finished : branch.finish lib with
  | error fault =>
    rw [finished] at responds
    exact responds.2.2 bad
  | ok s' =>
    rw [finished] at responds quiet
    obtain ⟨terminal, streamed⟩ := quiet
    apply silent
    rw [SSHSession.Complains, ← terminal, ← streamed]
    exact responds bad

theorem not_responds_index {fault : Fault} (index : fault = .sliceIndex ∨ fault = .slotIndex) :
    ¬ Responds lib i s wrong (.error fault) := by
  rintro ⟨slice, slot, -⟩
  exact index.elim slice slot

end

/-! ## Words -/

/-- The words, their number and the text of them all belong together. -/
structure CmdArgs.Parsed (c : CmdArgs) : Prop where
  argc : c.argc = c.argv.length
  args : c.args = join c.argv (ascii " ")

theorem parseCmdArgs_parsed (toLower : Bytes → Bytes) (input : Bytes) : (parseCmdArgs toLower input).Parsed where
  argc := parseCmdArgs_argc toLower input
  args := by
    unfold parseCmdArgs
    split
    · rfl
    · rfl

namespace CmdArgs.Parsed
variable {c : CmdArgs}

theorem first_nil (parsed : c.Parsed) (empty : c.args = []) : c.first = [] := by
  rw [parsed.args] at empty
  unfold CmdArgs.first
  match words : c.argv with
  | [] => rfl
  | [word] =>
    rw [words, join, List.intercalate_singleton] at empty
    exact empty
  | word :: next :: rest =>
    rw [words, join, List.intercalate_cons_cons] at empty
    simp [ascii] at empty

theorem argc_pos (parsed : c.Parsed) (some_arg : c.args ≠ []) : 0 < c.argc := by
  apply Nat.pos_of_ne_zero
  intro none
  apply some_arg
  rw [parsed.args, List.eq_nil_of_length_eq_zero (parsed.argc.symm.trans none)]
  rfl

theorem arg_first (parsed : c.Parsed) (some_arg : 0 < c.argc) : c.arg 0 = .ok c.first :=
  CmdArgs.arg_zero parsed.argc some_arg.ne'

theorem arg_second (parsed : c.Parsed) (two : 1 < c.argc) : c.arg 1 = .ok c.second := by
  rw [parsed.argc] at two
  simp [CmdArgs.arg, CmdArgs.second, List.getElem?_eq_getElem two]

theorem arg_missing (parsed : c.Parsed) (one : ¬ 1 < c.argc) : c.arg 1 = .error .sliceIndex := by
  rw [parsed.argc] at one
  rw [CmdArgs.arg, List.getElem?_eq_none (Nat.le_of_not_lt one)]

end CmdArgs.Parsed

theorem Frontend.playerAt_inRange {fe : Frontend} {id : Int} (inside : fe.InRange id) :
    fe.playerAt id = .ok (fe.player id.toNat) := if_pos inside

theorem Frontend.playerAt_outside {fe : Frontend} {id : Int} (outside : ¬ fe.InRange id) :
    fe.playerAt id = .error .slotIndex := if_neg outside

/-! ## Players by their numbers -/

section
variable {lib : SSHLib} {i : Nat} {s : SSHSession} {wrong : Prop} {c : CmdArgs}

/-- The check lets one number too many through. -/
theorem onPlayer_responds_iff (sized : (s.world.fe i).players.length = (s.world.fe i).maxPlayers)
    {first noNumber unused : Bytes} {outOfRange : Int → Bytes} {proceed : Player → Branch}
    (noNumber_complaint : Complaint noNumber) (outOfRange_complaint : ∀ pid, Complaint (outOfRange pid))
    (unused_complaint : Complaint unused) :
    Responds lib i s wrong (SSHLib.onPlayer i s first noNumber outOfRange unused proceed) ↔
      atoi first ≠ some ((s.world.fe i).maxPlayers : Int) ∧ ∀ id, atoi first = some id → (s.world.fe i).InRange id →
        ((s.world.fe i).player id.toNat).connectTime ≠ 0 →
          Responds lib i s wrong (.ok (proceed ((s.world.fe i).player id.toNat))) := by
  unfold SSHLib.onPlayer
  cases number : atoi first with
  | none => exact iff_of_true (responds_refuse noNumber_complaint) ⟨nofun, nofun⟩
  | some pid =>
    dsimp only
    by_cases out : pid < 0 ∨ (s.world.fe i).maxPlayers < pid
    · rw [if_pos out]
      refine iff_of_true (responds_refuse (outOfRange_complaint pid)) ⟨?_, ?_⟩
      · intro last
        have same : pid = (s.world.fe i).maxPlayers := Option.some.inj last
        omega
      · rintro id same ⟨low, high⟩
        have same : pid = id := Option.some.inj same
        omega
    · rw [if_neg out]
      by_cases last : pid = (s.world.fe i).maxPlayers
      · have outside : ¬ (s.world.fe i).InRange pid := by
          rintro ⟨low, high⟩
          omega
        rw [Frontend.playerAt_outside outside]
        exact iff_of_false (not_responds_index (.inr rfl)) fun fine => fine.1 (congrArg some last)
      · have inside : (s.world.fe i).InRange pid := ⟨by omega, by omega⟩
        rw [Frontend.playerAt_inRange inside]
        change Responds lib i s wrong (if _ then _ else _) ↔ _
        by_cases free : ((s.world.fe i).player pid.toNat).connectTime = 0
        · rw [if_pos free]
          refine iff_of_true (responds_refuse unused_complaint) ⟨fun same => last (Option.some.inj same), ?_⟩
          intro id same _ used
          exact absurd (Option.some.inj same ▸ free) used
        · rw [if_neg free]
          constructor
          · intro responds
            exact ⟨fun same => last (Option.some.inj same), fun id same _ _ => Option.some.inj same ▸ responds⟩
          · exact fun fine => fine.2 pid rfl inside free

/-- A command that has its usage, and then goes by the number of a player. -/
theorem numbered_responds_iff (parsed : c.Parsed) (sized : (s.world.fe i).players.length = (s.world.fe i).maxPlayers)
    {usage : Except Fault Branch} (usage_responds : Responds lib i s wrong usage)
    {noNumber unused : Bytes → Bytes} {outOfRange : Bytes → Int → Bytes} {proceed : Player → Branch}
    (noNumber_complaint : Complaint (noNumber c.first))
    (outOfRange_complaint : ∀ pid, Complaint (outOfRange c.first pid))
    (unused_complaint : Complaint (unused c.first)) :
    Responds lib i s wrong (if c.args = [] then usage else c.arg 0 >>= fun first =>
      SSHLib.onPlayer i s first (noNumber first) (outOfRange first) (unused first) proceed) ↔
      atoi c.first ≠ some ((s.world.fe i).maxPlayers : Int) ∧ ∀ id, atoi c.first = some id → (s.world.fe i).InRange id →
        ((s.world.fe i).player id.toNat).connectTime ≠ 0 →
          Responds lib i s wrong (.ok (proceed ((s.world.fe i).player id.toNat))) := by
  by_cases empty : c.args = []
  · rw [if_pos empty, parsed.first_nil empty]
    exact iff_of_true usage_responds ⟨nofun, nofun⟩
  · rw [if_neg empty, parsed.arg_first (parsed.argc_pos empty)]
    exact onPlayer_responds_iff sized noNumber_complaint outOfRange_complaint unused_complaint

theorem CmdArgs.not_wrong {fe : Frontend} (enough : c.needs ≤ c.argc)
    (inside : c.namesPlayer = true → ∀ id, atoi c.first = some id → fe.InRange id) : ¬ c.Wrong fe := by
  rintro (few | ⟨names, id, number, outside⟩)
  · omega
  · exact outside (inside names id number)

theorem CmdArgs.not_wrong_inside {fe : Frontend} {id : Int} (enough : c.needs ≤ c.argc)
    (number : atoi c.first = some id) (inside : fe.InRange id) : ¬ c.Wrong fe :=
  CmdArgs.not_wrong enough fun _ _ same => Option.some.inj (number.symm.trans same) ▸ inside

/-- A number is a word. -/
theorem CmdArgs.Parsed.argc_pos_of_number (parsed : c.Parsed) {id : Int} (number : atoi c.first = some id) :
    0 < c.argc := by
  apply Nat.pos_of_ne_zero
  intro none
  have empty : c.argv = [] := List.eq_nil_of_length_eq_zero (parsed.argc.symm.trans none)
  rw [CmdArgs.first, empty] at number
  nomatch number

theorem not_complains {s' : SSHSession} (terminal : s'.terminal = s.terminal)
    (streamed : ∀ text, s'.streamed = s.streamed ++ [(i, text)] → ¬ ascii "Usage: " <+: text) :
    ¬ s.Complains i s' := by
  rintro (⟨said, shown, text, member, -⟩ | ⟨text, said, usage⟩)
  · rw [terminal, List.self_eq_append_right] at shown
    simp [shown] at member
  · exact streamed text said usage

theorem not_complains_onFe (f : Frontend → Frontend) : ¬ s.Complains i (s.onFe f) := by
  have kept : (s.onFe f).terminal = s.terminal ∧ (s.onFe f).streamed = s.streamed := by
    unfold SSHSession.onFe
    cases s.fe with
    | none => exact ⟨rfl, rfl⟩
    | some j => exact ⟨rfl, rfl⟩
  apply not_complains kept.1
  intro text said
  rw [kept.2] at said
  simp at said

variable (parsed : c.Parsed) (sized : (s.world.fe i).players.length = (s.world.fe i).maxPlayers)

include parsed sized

omit parsed sized in
theorem single_needs (command : c.which = some .whois ∨ c.which = some .sayperson ∨ c.which = some .kick) :
    c.needs = 1 := by
  rcases command with command | command | command
  all_goals simp only [CmdArgs.needs, command]

omit parsed sized in
theorem single_careful (command : c.which = some .whois ∨ c.which = some .sayperson ∨ c.which = some .kick)
    (fe : Frontend) : lib.Careful c fe ↔ atoi c.first ≠ some (fe.maxPlayers : Int) := by
  rcases command with command | command | command
  all_goals simp only [SSHLib.Careful, command]

/-- A command that needs a number only. -/
theorem single_responds_iff (command : c.which = some .whois ∨ c.which = some .sayperson ∨ c.which = some .kick)
    {usage : Except Fault Branch} (usage_responds : Responds lib i s (c.Wrong (s.world.fe i)) usage)
    {noNumber unused : Bytes → Bytes} {outOfRange : Bytes → Int → Bytes} {proceed : Player → Branch}
    (noNumber_complaint : Complaint (noNumber c.first))
    (outOfRange_complaint : ∀ pid, Complaint (outOfRange c.first pid))
    (unused_complaint : Complaint (unused c.first)) :
    Responds lib i s (c.Wrong (s.world.fe i)) (if c.args = [] then usage else c.arg 0 >>= fun first =>
      SSHLib.onPlayer i s first (noNumber first) (outOfRange first) (unused first) proceed) ↔
      lib.Careful c (s.world.fe i) := by
  rw [numbered_responds_iff parsed sized usage_responds noNumber_complaint outOfRange_complaint unused_complaint,
    single_careful command]
  refine and_iff_left fun id number inside _ => responds_right (CmdArgs.not_wrong_inside ?_ number inside) _
  exact single_needs command ▸ parsed.argc_pos_of_number number

theorem whois_responds_iff (command : c.which = some .whois) :
    Responds lib i s (c.Wrong (s.world.fe i)) (lib.whois c i s) ↔ lib.Careful c (s.world.fe i) := by
  apply single_responds_iff parsed sized (.inl command)
  · exact responds_again (.inr ⟨_, rfl, whois_usage⟩)
  · exact Complaint.before (.known (by simp [refusals])) _
  · exact fun pid => Complaint.before (.known (by simp [refusals])) _
  · exact Complaint.behind (.known (by simp [refusals])) _

theorem sayperson_responds_iff (command : c.which = some .sayperson) :
    Responds lib i s (c.Wrong (s.world.fe i)) (lib.sayperson c i s) ↔ lib.Careful c (s.world.fe i) := by
  apply single_responds_iff parsed sized (.inr (.inl command))
  · exact responds_refuse (.known (by simp [refusals]))
  · exact Complaint.before (.known (by simp [refusals])) _
  · exact fun pid => Complaint.before (.known (by simp [refusals])) _
  · exact Complaint.behind (.known (by simp [refusals])) _

theorem kick_responds_iff (command : c.which = some .kick) :
    Responds lib i s (c.Wrong (s.world.fe i)) (lib.kick c i s) ↔ lib.Careful c (s.world.fe i) := by
  apply single_responds_iff parsed sized (.inr (.inr command))
  · exact responds_refuse (.known (by simp [refusals]))
  · exact Complaint.before (.known (by simp [refusals])) _
  · exact fun pid => Complaint.before (.known (by simp [refusals])) _
  · exact Complaint.behind (.known (by simp [refusals])) _

/-- Without a command behind the number, nothing is said and nothing done. -/
theorem stuff_responds_iff (command : c.which = some .stuff) :
    Responds lib i s (c.Wrong (s.world.fe i)) (lib.stuff c i s) ↔ lib.Careful c (s.world.fe i) := by
  have two : c.needs = 2 := by simp only [CmdArgs.needs, command]
  have careful : lib.Careful c (s.world.fe i) ↔ atoi c.first ≠ some ((s.world.fe i).maxPlayers : Int) ∧
      (c.argc = 1 → ∀ id, atoi c.first = some id → (s.world.fe i).InRange id →
        ((s.world.fe i).player id.toNat).connectTime = 0) := by
    simp only [SSHLib.Careful, command]
  have numbered : Responds lib i s (c.Wrong (s.world.fe i)) (lib.stuff c i s) ↔
      atoi c.first ≠ some ((s.world.fe i).maxPlayers : Int) ∧ ∀ id, atoi c.first = some id → (s.world.fe i).InRange id →
        ((s.world.fe i).player id.toNat).connectTime ≠ 0 → Responds lib i s (c.Wrong (s.world.fe i))
          (.ok (.send (s.onFe (stuffPlayer lib.platform.q2 ((s.world.fe i).player id.toNat) c.rest)))) := by
    apply numbered_responds_iff parsed sized
    · exact responds_refuse (.known (by simp [refusals]))
    · exact Complaint.before (.known (by simp [refusals])) _
    · exact fun pid => Complaint.before (.known (by simp [refusals])) _
    · exact Complaint.behind (.known (by simp [refusals])) _
  rw [careful, numbered]
  apply and_congr_right
  intro _
  by_cases one : c.argc = 1
  · have silent (p : Player) : ¬ Responds lib i s (c.Wrong (s.world.fe i))
        (.ok (.send (s.onFe (stuffPlayer lib.platform.q2 p c.rest)))) :=
      not_responds_silent (.inl (by omega)) (not_complains_onFe _)
    constructor
    · exact fun responds _ id number inside => by_contra fun used => silent _ (responds id number inside used)
    · exact fun free id number inside used => absurd (free one id number inside) used
  · refine iff_of_true (fun id number inside _ => ?_) fun same => absurd same one
    have some_arg := parsed.argc_pos_of_number number
    exact responds_right (CmdArgs.not_wrong_inside (by omega) number inside) _

omit parsed sized in
/-- A list of rules ends with the usage. -/
theorem listRules_complains {type : RuleType} {title failed usage : Bytes} (complaint : Complaint usage) :
    s.Complains i (lib.listRules i s type title failed usage) := by
  have printed (t : SSHTerminal) (text : Bytes) : ∃ said, (t.println text).shown = t.shown ++ said := by
    unfold SSHTerminal.println
    split
    · exact ⟨[], (List.append_nil _).symm⟩
    · exact ⟨_, rfl⟩
  have folded : ∀ (rules : List Rule) (listed : SSHSession × Bytes),
      ∃ said, (rules.foldl (lib.listRule failed) listed).1.terminal.shown = listed.1.terminal.shown ++ said := by
    intro rules
    induction rules with
    | nil => exact fun listed => ⟨[], (List.append_nil _).symm⟩
    | cons r rules ih =>
      intro listed
      rw [List.foldl_cons]
      obtain ⟨said, later⟩ := ih (lib.listRule failed listed r)
      rw [later]
      unfold SSHLib.listRule
      cases lib.ruleDetailLine r with
      | error failure => exact ⟨_ :: said, List.append_assoc ..⟩
      | ok text => exact ⟨said, rfl⟩
  obtain ⟨titled, first⟩ := printed s.terminal title
  obtain ⟨listed, middle⟩ := folded ((s.world.fe i).rules.filter fun r => r.type = type) (s.println title, [])
  dsimp only [SSHLib.listRules]
  generalize ((s.world.fe i).rules.filter fun r => r.type = type).foldl (lib.listRule failed) (s.println title, []) =
    result at middle ⊢
  obtain ⟨after, details⟩ := result
  have nonempty : details ++ ascii "\n" ++ usage ≠ [] := by simp [ascii]
  refine .inl ⟨titled ++ listed ++ [newline (details ++ ascii "\n" ++ usage)], ?_, _,
    List.mem_append_right _ (List.mem_singleton_self _), (complaint.behind _).newline⟩
  calc (after.println (details ++ ascii "\n" ++ usage)).terminal.shown
    _ = after.terminal.shown ++ [newline (details ++ ascii "\n" ++ usage)] := by
      rw [SSHSession.println, SSHTerminal.println, if_neg nonempty, SSHTerminal.printf]
    _ = s.terminal.shown ++ titled ++ listed ++ [newline (details ++ ascii "\n" ++ usage)] := by
      rw [middle, SSHSession.println, first]
    _ = s.terminal.shown ++ (titled ++ listed ++ [newline (details ++ ascii "\n" ++ usage)]) := by
      simp only [List.append_assoc]

/-- Here the seconds are looked for behind a number that the check lets through. -/
theorem mute_responds_iff (command : c.which = some .mute) :
    Responds lib i s (c.Wrong (s.world.fe i)) (lib.mute c i s) ↔ lib.Careful c (s.world.fe i) := by
  have two : c.needs = 2 := by simp only [CmdArgs.needs, command]
  have careful : lib.Careful c (s.world.fe i) ↔ ∀ id, atoi c.first = some id → 0 ≤ id → id ≤ (s.world.fe i).maxPlayers →
      1 < c.argc ∧ (id = (s.world.fe i).maxPlayers → atoi c.second = none) := by
    simp only [SSHLib.Careful, command]
  rw [careful]
  unfold SSHLib.mute
  by_cases empty : c.args = []
  · rw [if_pos empty, parsed.first_nil empty]
    exact iff_of_true (responds_again (listRules_complains (.known (by simp [refusals])))) nofun
  rw [if_neg empty, parsed.arg_first (parsed.argc_pos empty)]
  dsimp only [Bind.bind, Except.bind]
  cases number : atoi c.first with
  | none => exact iff_of_true (responds_refused (by simp [refusals]) _) nofun
  | some id =>
    dsimp only
    by_cases out : id < 0 ∨ (s.world.fe i).maxPlayers < id
    · rw [if_pos out]
      refine iff_of_true (responds_refused (by simp [refusals]) _) fun other same low high => ?_
      have same : id = other := Option.some.inj same
      omega
    rw [if_neg out]
    by_cases second : 1 < c.argc
    case neg =>
      rw [parsed.arg_missing second]
      exact iff_of_false (not_responds_index (.inl rfl)) fun fine => second (fine id rfl (by omega) (by omega)).1
    rw [parsed.arg_second second]
    dsimp only
    cases seconds : atoi c.second with
    | none => exact iff_of_true (responds_refused (by simp [refusals]) _) fun _ _ _ _ => ⟨second, fun _ => rfl⟩
    | some secs =>
      dsimp only
      by_cases last : id = (s.world.fe i).maxPlayers
      · have outside : ¬ (s.world.fe i).InRange id := by
          rintro ⟨low, high⟩
          omega
        rw [Frontend.playerAt_outside outside]
        refine iff_of_false (not_responds_index (.inr rfl)) fun fine => ?_
        nomatch (fine id rfl (by omega) (by omega)).2 last
      · have inside : (s.world.fe i).InRange id := ⟨by omega, by omega⟩
        have fine : ∀ other, some id = some other → 0 ≤ other → other ≤ (s.world.fe i).maxPlayers →
            1 < c.argc ∧ (other = (s.world.fe i).maxPlayers → some secs = none) := fun other same _ _ =>
          ⟨second, fun edge => absurd ((Option.some.inj same).trans edge) last⟩
        rw [Frontend.playerAt_inRange inside]
        dsimp only
        split
        · exact iff_of_true (responds_refuse (Complaint.behind (.known (by simp [refusals])) _)) fine
        · exact iff_of_true (responds_right (CmdArgs.not_wrong_inside (by omega) number inside) _) fine

omit parsed sized in
/-- The consoles are told who is stifled, and no usage. -/
theorem stifleOn_silent (current : s.fe = some i) (p : Player) (secs : Int) :
    ¬ s.Complains i (lib.stifleOn s p secs) := by
  have logged : lib.stifleOn s p secs = { s with
      world := s.world.update i (stiflePlayer lib.platform.q2 p secs)
      streamed := s.streamed ++ [(i, ascii "STIFLE[" ++ decimal p.stifleLength ++ ascii "] " ++
        SSHLib.logName lib.platform.runeCount p ++ ascii "\n")] } := by
    simp [SSHLib.stifleOn, SSHSession.onFe, SSHSession.sshPrintln, current, ascii]
  rw [logged]
  refine not_complains rfl fun text said usage => ?_
  have same := (Prod.mk.inj (List.singleton_inj.mp (List.append_cancel_left said))).2
  rw [← same] at usage
  obtain ⟨rest, line⟩ := usage
  -- the usage begins with a U
  have clash : some (charByte 'U') = some (charByte 'S') := congrArg List.head? line
  exact absurd clash (by decide)

omit sized in
/-- A player who has been found may have been found by a number that is out of range. -/
theorem stifle_responds_iff (current : s.fe = some i) (command : c.which = some .stifle) :
    Responds lib i s (c.Wrong (s.world.fe i)) (lib.stifle c i s) ↔ lib.Careful c (s.world.fe i) := by
  have two : c.needs = 2 := by simp only [CmdArgs.needs, command]
  have names : c.namesPlayer = true := by simp only [CmdArgs.namesPlayer, command]
  have careful : lib.Careful c (s.world.fe i) ↔ ∀ p, (s.world.fe i).resolvePlayers lib.toLower c.first = .ok [p] →
      1 < c.argc ∧ ((∃ id, atoi c.first = some id ∧ ¬ (s.world.fe i).InRange id) → atoi c.second = none) := by
    simp only [SSHLib.Careful, command]
  rw [careful]
  unfold SSHLib.stifle
  by_cases empty : c.args = []
  · rw [if_pos empty, parsed.first_nil empty]
    refine iff_of_true (responds_again (listRules_complains (.known (by simp [refusals])))) fun p resolved => ?_
    rw [Frontend.resolvePlayers, if_pos rfl] at resolved
    nomatch resolved
  rw [if_neg empty, parsed.arg_first (parsed.argc_pos empty)]
  dsimp only [Bind.bind, Except.bind]
  split
  · rename_i failure unresolved
    rw [unresolved]
    exact iff_of_true (responds_refused (by simp [refusals]) _) fun p same => absurd same (by simp)
  · rename_i p resolved
    rw [resolved]
    by_cases second : 1 < c.argc
    case neg =>
      rw [parsed.arg_missing second]
      exact iff_of_false (not_responds_index (.inl rfl)) fun fine => second (fine p rfl).1
    rw [parsed.arg_second second]
    dsimp only
    cases seconds : atoi c.second with
    | none => exact iff_of_true (responds_refused (by simp [refusals]) _) fun _ _ => ⟨second, fun _ => rfl⟩
    | some secs =>
      by_cases outside : ∃ id, atoi c.first = some id ∧ ¬ (s.world.fe i).InRange id
      · refine iff_of_false (not_responds_silent (.inr ⟨names, outside⟩) ?_) fun fine => nomatch (fine p rfl).2 outside
        exact stifleOn_silent current p secs
      · have right : ¬ c.Wrong (s.world.fe i) := CmdArgs.not_wrong (by omega) fun _ id number =>
          by_contra fun out => outside ⟨id, number, out⟩
        exact iff_of_true (responds_right right _) fun _ _ => ⟨second, fun bad => absurd bad outside⟩
  · rename_i players several resolved
    rw [resolved]
    refine iff_of_true (responds_refuse (Complaint.behind (.known (by simp [refusals])) _)) fun p same => ?_
    exact absurd (Except.ok.inj same) (several p)

end

/-! ## The other commands -/

section
variable {lib : SSHLib} {site : SSHSite} {i : Nat} {s : SSHSession} {c : CmdArgs} {results : LineResults}

theorem SSHSession.frontend_of_current (current : s.fe = some i) : s.frontend = .ok i := by
  rw [SSHSession.frontend, current]

theorem listAllRules_returns (current : s.fe = some i) : ∃ branch, lib.listAllRules s = .ok branch := by
  rw [SSHLib.listAllRules, SSHSession.frontend_of_current current]
  exact ⟨_, rfl⟩

theorem showRule_returns (current : s.fe = some i) (id : Bytes) : ∃ branch, lib.showRule s id = .ok branch := by
  rw [SSHLib.showRule, SSHSession.frontend_of_current current]
  dsimp only [Bind.bind, Except.bind]
  split
  · exact ⟨_, rfl⟩
  · exact ⟨_, rfl⟩

theorem deleteRule_returns (current : s.fe = some i) (id : Bytes) :
    ∃ branch, lib.deleteRule site results s id = .ok branch := by
  rw [SSHLib.deleteRule, SSHSession.frontend_of_current current]
  split
  · exact ⟨_, rfl⟩
  split
  · exact ⟨_, rfl⟩
  dsimp only [Bind.bind, Except.bind]
  split
  · exact ⟨_, rfl⟩
  split
  · exact ⟨_, rfl⟩
  · exact ⟨_, rfl⟩

theorem responds_returned {wrong : Prop} {x : Except Fault Branch} (right : ¬ wrong)
    (returned : ∃ branch, x = .ok branch) : Responds lib i s wrong x := by
  obtain ⟨branch, rfl⟩ := returned
  exact responds_right right branch

/-- A command that is about no player has enough words, and all is well. -/
theorem CmdArgs.right_of_enough {fe : Frontend} (names : c.namesPlayer = false) (enough : c.needs ≤ c.argc) :
    ¬ c.Wrong fe :=
  CmdArgs.not_wrong enough fun named => absurd named (by simp [names])

/-- A subcommand without its rule is passed over in silence. -/
theorem rulesCommand_bare (parsed : c.Parsed) (one : c.argc = 1) (bare : c.first ∈ ruleSubcommands) :
    lib.rulesCommand site c results s = .ok (.send s) := by
  have other : c.first ≠ ascii "add" := by
    intro add
    rw [add] at bare
    exact add_not_subcommand bare
  rw [SSHLib.rulesCommand, parsed.arg_first (by omega)]
  simp [one, other, Bind.bind, Except.bind]

theorem rulesCommand_returns (parsed : c.Parsed) (current : s.fe = some i) :
    ∃ branch, lib.rulesCommand site c results s = .ok branch := by
  unfold SSHLib.rulesCommand
  split
  · exact listAllRules_returns current
  rename_i some_arg
  rw [parsed.arg_first (Nat.pos_of_ne_zero some_arg)]
  dsimp only [Bind.bind, Except.bind]
  split
  · rename_i two
    rw [parsed.arg_second two.1]
    exact showRule_returns current c.second
  split
  · rename_i two
    rw [parsed.arg_second two.1]
    exact deleteRule_returns current c.second
  split
  · rw [current]
    exact ⟨_, rfl⟩
  · exact ⟨_, rfl⟩

theorem rulesCommand_responds_iff (parsed : c.Parsed) (current : s.fe = some i) (command : c.which = some .rules) :
    Responds lib i s (c.Wrong (s.world.fe i)) (lib.rulesCommand site c results s) ↔ lib.Careful c (s.world.fe i) := by
  have names : c.namesPlayer = false := by simp only [CmdArgs.namesPlayer, command]
  have needs : c.needs = if c.first ∈ ruleSubcommands then 2 else 0 := by
    simp only [CmdArgs.needs, command, List.contains_iff_mem]
  have careful : lib.Careful c (s.world.fe i) ↔ (c.argc = 1 → c.first ∉ ruleSubcommands) := by
    simp only [SSHLib.Careful, command]
  rw [careful]
  by_cases bad : c.argc = 1 ∧ c.first ∈ ruleSubcommands
  · have few : c.argc < c.needs := by rw [needs, if_pos bad.2, bad.1]; exact Nat.one_lt_two
    refine iff_of_false ?_ fun fine => fine bad.1 bad.2
    rw [rulesCommand_bare parsed bad.1 bad.2]
    refine not_responds_silent (.inl few) (not_complains rfl fun text said => ?_)
    simp [Branch.session] at said
  · have enough : c.needs ≤ c.argc := by
      rw [needs]
      split
      · rename_i sub
        by_contra short
        have none : c.argc = 0 := by
          by_contra some_arg
          exact bad ⟨by omega, sub⟩
        have empty : c.argv = [] := List.eq_nil_of_length_eq_zero (parsed.argc.symm.trans none)
        rw [CmdArgs.first, empty] at sub
        exact absurd sub (by simp [ruleSubcommands, ascii])
      · exact Nat.zero_le _
    have right : ¬ c.Wrong (s.world.fe i) := CmdArgs.right_of_enough names enough
    exact iff_of_true (responds_returned right (rulesCommand_returns parsed current)) fun one sub => bad ⟨one, sub⟩

/-- A command with its usage, and nothing else that could go wrong. -/
theorem usage_responds (needs : c.needs = 1) (names : c.namesPlayer = false) {usage proceed : Except Fault Branch}
    {bare : Prop} [Decidable bare] (counted : ¬ bare → 0 < c.argc)
    (usage_responds : Responds lib i s (c.Wrong (s.world.fe i)) usage) (returns : ∃ branch, proceed = .ok branch) :
    Responds lib i s (c.Wrong (s.world.fe i)) (if bare then usage else proceed) := by
  by_cases empty : bare
  · rw [if_pos empty]
    exact usage_responds
  · rw [if_neg empty]
    refine responds_returned (CmdArgs.right_of_enough names ?_) returns
    rw [needs]
    exact counted empty

theorem say_responds (command : c.which = some .say) : Responds lib i s (c.Wrong (s.world.fe i)) (lib.say c s) := by
  apply usage_responds
  · simp only [CmdArgs.needs, command]
  · simp only [CmdArgs.namesPlayer, command]
  · exact Nat.pos_of_ne_zero
  · exact responds_refuse (.known (by simp [refusals]))
  · exact ⟨_, rfl⟩

theorem rcon_responds (parsed : c.Parsed) (command : c.which = some .rcon) :
    Responds lib i s (c.Wrong (s.world.fe i)) (lib.rcon c i s) := by
  apply usage_responds
  · simp only [CmdArgs.needs, command]
  · simp only [CmdArgs.namesPlayer, command]
  · exact parsed.argc_pos
  · exact responds_refuse (.known (by simp [refusals]))
  · exact ⟨_, rfl⟩

theorem consolesay_responds (parsed : c.Parsed) (current : s.fe = some i) (command : c.which = some .consolesay) :
    Responds lib i s (c.Wrong (s.world.fe i)) (lib.consolesay c s) := by
  apply usage_responds
  · simp only [CmdArgs.needs, command]
  · simp only [CmdArgs.namesPlayer, command]
  · exact parsed.argc_pos
  · exact responds_refuse (.known (by simp [refusals]))
  · rw [SSHSession.frontend_of_current current]
    exact ⟨_, rfl⟩

theorem search_responds (command : c.which = some .search) :
    Responds lib i s (c.Wrong (s.world.fe i)) (.ok (lib.search c results s)) := by
  unfold SSHLib.search
  split
  · exact responds_again (.printf (.newline (.known (by simp [refusals]))))
  · rename_i some_arg
    refine responds_right (CmdArgs.right_of_enough ?_ ?_) _
    · simp only [CmdArgs.namesPlayer, command]
    · simp only [CmdArgs.needs, command]
      exact Nat.pos_of_ne_zero some_arg

/-- Of the commands there are with a server, each answers when it is careful. -/
theorem dispatch_responds_iff (parsed : c.Parsed) (current : s.fe = some i)
    (sized : (s.world.fe i).players.length = (s.world.fe i).maxPlayers) :
    Responds lib i s (c.Wrong (s.world.fe i)) (lib.dispatch site c i results s c.which) ↔
      lib.Careful c (s.world.fe i) := by
  cases command : c.which with
  | none =>
    refine iff_of_true (responds_right (CmdArgs.right_of_enough ?_ ?_) _) ?_
    · simp only [CmdArgs.namesPlayer, command]
    · simp only [CmdArgs.needs, command, Nat.zero_le]
    · simp only [SSHLib.Careful, command]
  | some which =>
    cases which
    case whois => exact whois_responds_iff parsed sized command
    case stuff => exact stuff_responds_iff parsed sized command
    case sayperson => exact sayperson_responds_iff parsed sized command
    case kick => exact kick_responds_iff parsed sized command
    case mute => exact mute_responds_iff parsed sized command
    case stifle => exact stifle_responds_iff parsed current command
    case rules => exact rulesCommand_responds_iff parsed current command
    case say => exact iff_of_true (say_responds command) (by simp only [SSHLib.Careful, command])
    case rcon => exact iff_of_true (rcon_responds parsed command) (by simp only [SSHLib.Careful, command])
    case consolesay => exact iff_of_true (consolesay_responds parsed current command) (by simp only [SSHLib.Careful, command])
    case search => exact iff_of_true (search_responds command) (by simp only [SSHLib.Careful, command])
    -- the others take any words
    all_goals
      refine iff_of_true (responds_right (CmdArgs.right_of_enough ?_ ?_) _) ?_
      · simp only [CmdArgs.namesPlayer, command]
      · simp only [CmdArgs.needs, command, Nat.zero_le]
      · simp only [SSHLib.Careful, command]

/-- A line is answered by a connected server that is managed, with its players in their places,
exactly when it is careful with its words and the numbers of players. -/
theorem line_answered_iff (manages : s.Manages i) (input : Bytes) (results : LineResults) :
    Answered lib site s i input results ↔ lib.Careful (parseCmdArgs lib.toLower input) (s.world.fe i) := by
  have still : s.dropped = none := by
    simp [SSHSession.dropped, manages.active, manages.connected]
  have stepped : sshStep lib site s (.line input results) =
      lib.handleCommand site (parseCmdArgs lib.toLower input) results s := by
    simp [sshStep, SSHLib.handleLine, manages.running, manages.free, still]
  have parsed := parseCmdArgs_parsed lib.toLower input
  unfold Answered
  rw [stepped]
  generalize parseCmdArgs lib.toLower input = c at parsed ⊢
  have right (names : c.namesPlayer = false) (needs : c.needs = 0) : ¬ c.Wrong (s.world.fe i) :=
    CmdArgs.right_of_enough names (needs ▸ Nat.zero_le _)
  unfold SSHLib.handleCommand
  split
  · rename_i command
    refine iff_of_true (?_ : Responds lib i s (c.Wrong (s.world.fe i)) (lib.serverCommand site c s)) ?_
    · refine responds_returned (right ?_ ?_) ?_
      · simp only [CmdArgs.namesPlayer, command]
      · simp only [CmdArgs.needs, command]
      · unfold SSHLib.serverCommand
        split
        · exact ⟨_, rfl⟩
        · rename_i named
          rw [CmdArgs.arg_zero parsed.argc named]
          exact ⟨_, rfl⟩
    · simp only [SSHLib.Careful, command]
  · rename_i command
    refine iff_of_true (fun wrong => absurd wrong (right ?_ ?_)) ?_
    · simp only [CmdArgs.namesPlayer, command]
    · simp only [CmdArgs.needs, command]
    · simp only [SSHLib.Careful, command]
  · rename_i idle
    simp [manages.active] at idle
  · rename_i idle _ _ _
    simp [manages.active] at idle
  · rename_i j active _ _
    rw [← Option.some.inj (manages.active.symm.trans active)]
    exact dispatch_responds_iff parsed manages.current manages.sized

/-- A session that manages a server with two players' places. -/
def claireManaging : SSHSession := { claireSession with fe := some 0, activeFE := some 0 }

theorem claireManaging_manages : claireManaging.Manages 0 := ⟨rfl, rfl, rfl, rfl, rfl, rfl⟩

theorem line_answered_kick : Answered .plain twoOwners claireManaging 0 (ascii "kick 0 bye") {} := by
  have command : (parseCmdArgs SSHLib.plain.toLower (ascii "kick 0 bye")).which = some .kick := by decide +kernel
  have careful : SSHLib.plain.Careful (parseCmdArgs SSHLib.plain.toLower (ascii "kick 0 bye"))
      (claireManaging.world.fe 0) := by
    simp only [SSHLib.Careful, command]
    decide +kernel
  exact (line_answered_iff claireManaging_manages (ascii "kick 0 bye") {}).mpr careful

/-- The number of places is let through for the number of a player. -/
theorem line_not_answered : ¬ Answered .plain twoOwners claireManaging 0 (ascii "kick 2") {} := by
  intro answered
  have died : Yields (sshStep .plain twoOwners claireManaging (.line (ascii "kick 2") {})) (fun _ => False)
      fun fault => fault = .slotIndex := by decide +kernel
  cases stepped : sshStep .plain twoOwners claireManaging (.line (ascii "kick 2") {}) with
  | ok s' =>
    rw [stepped] at died
    exact died
  | error fault =>
    rw [Answered, stepped] at answered
    rw [stepped] at died
    exact answered.2.1 died

end

end Q2Admin
