import Mathlib.Data.List.Induction
import Q2Admin.Lib.Runs
import Q2Admin.SessionHandler

/-! A paused terminal. Messages of the console are held back during a pause and shown when
it is ended. The pause has a time at which it expires, which nothing compares with the clock. -/

namespace Q2Admin
open Go Lib

/-- What reaches a terminal: a message of the console at some time, with the time of day it is
shown with, and the two commands. -/
inductive TerminalEvent where
  | message (clock : Int) (now text : Bytes)
  | pause (clock : Int)
  | unpause (clock : Int)
  deriving DecidableEq

/-- The line that is shown, or held back. -/
def TerminalEvent.lines : TerminalEvent → List Bytes
  | message _ now text => [now ++ ascii " " ++ text ++ ascii "\n"]
  | _ => []

/-- When the pause that the commands have left in force expires, or 0. -/
def expiry (events : List TerminalEvent) : Int :=
  events.foldl (fun paused event => match event with
    | .message .. => paused
    | .pause clock => if 0 < paused then paused else clock + pauseLength
    | .unpause _ => 0) 0

namespace SSHTerminal

def step (t : SSHTerminal) : TerminalEvent → SSHTerminal
  | .message _ now text => t.stream now text
  | .pause clock => if 0 < t.paused then t else t.pause clock
  | .unpause _ => if t.paused = 0 then t else t.unpause

def after (t : SSHTerminal) (events : List TerminalEvent) : SSHTerminal := events.foldl step t

/-- Nothing is lost, doubled or put out of order on the way, and nothing that comes after the
expiry of a pause is held back. -/
structure PausesWell (t : SSHTerminal) (events : List TerminalEvent) : Prop where
  order : ∀ front back, events = front ++ back →
    (t.after front).shown ++ (t.after front).buffer = t.shown ++ front.flatMap TerminalEvent.lines
  bounded : ∀ front clock now text back, events = front ++ .message clock now text :: back →
    0 < expiry front → expiry front < clock →
    (t.after (front ++ [.message clock now text])).buffer = (t.after front).buffer

end SSHTerminal

/-- No message comes after the expiry of a pause that has not been ended. -/
def NoneLate (events : List TerminalEvent) : Prop :=
  ∀ front clock now text back, events = front ++ .message clock now text :: back →
    ¬ (0 < expiry front ∧ expiry front < clock)

namespace SSHTerminal

/-- What is held back is whole lines, during a pause. -/
structure Holding (t : SSHTerminal) : Prop where
  whole : ∀ line ∈ t.buffer, line ≠ [] ∧ newline line = line
  during : t.buffer ≠ [] → 0 < t.paused

variable {t : SSHTerminal}

theorem println_whole {line : Bytes} (whole : line ≠ [] ∧ newline line = line) :
    t.println line = { t with shown := t.shown ++ [line] } := by
  rw [println, if_neg whole.1, printf, whole.2]

/-- The loop of `unpause`. -/
theorem foldl_println {lines : List Bytes} (whole : ∀ line ∈ lines, line ≠ [] ∧ newline line = line) (t : SSHTerminal) :
    lines.foldl (fun t line => t.println line) t = { t with shown := t.shown ++ lines } := by
  induction lines generalizing t with
  | nil => simp only [List.foldl_nil, List.append_nil]
  | cons line rest ih =>
    have tail := fun other member => whole other (List.mem_cons_of_mem line member)
    rw [List.foldl_cons, println_whole (whole line (List.mem_cons_self ..)), ih tail]
    simp only [List.append_assoc, List.singleton_append]

theorem lines_whole (event : TerminalEvent) : ∀ line ∈ event.lines, line ≠ [] ∧ newline line = line := by
  intro line member
  cases event with
  | message clock now text =>
    rw [List.mem_singleton.mp member]
    have ends : hasSuffix (now ++ ascii " " ++ text ++ ascii "\n") (ascii "\n") = true :=
      List.isSuffixOf_iff_suffix.mpr (List.suffix_append _ _)
    exact ⟨by simp [ascii], if_pos ends⟩
  | pause clock => cases member
  | unpause clock => cases member

theorem setPrompt_fields (text : Bytes) (t : SSHTerminal) :
    (t.setPrompt text false).shown = t.shown ∧ (t.setPrompt text false).buffer = t.buffer ∧
      (t.setPrompt text false).paused = t.paused := by
  unfold setPrompt
  split <;> exact ⟨rfl, rfl, rfl⟩

/-- What a pause does to the stream: it sets the time of its expiry. -/
theorem pause_fields (clock : Int) (t : SSHTerminal) :
    (t.pause clock).shown = t.shown ∧ (t.pause clock).buffer = t.buffer ∧
      (t.pause clock).paused = clock + pauseLength :=
  setPrompt_fields _ { t with paused := clock + pauseLength }

/-- What was held back is shown behind everything else. -/
theorem unpause_fields (holding : t.Holding) :
    t.unpause.shown = t.shown ++ t.buffer ∧ t.unpause.buffer = [] ∧ t.unpause.paused = 0 := by
  have prompt := setPrompt_fields
  unfold unpause
  rw [foldl_println holding.whole]
  unfold restorePrompt
  exact ⟨(prompt _ _).1, rfl, (prompt _ _).2.2⟩

theorem stream_paused (now text : Bytes) (paused : 0 < t.paused) :
    t.stream now text = { t with buffer := t.buffer ++ (TerminalEvent.message 0 now text).lines } := by
  simp only [stream, if_pos paused, TerminalEvent.lines]

theorem stream_running (now text : Bytes) (running : ¬ 0 < t.paused) :
    t.stream now text = { t with shown := t.shown ++ (TerminalEvent.message 0 now text).lines } := by
  have whole := lines_whole (.message 0 now text) _ (List.mem_singleton.mpr rfl)
  simp only [stream, if_neg running]
  exact println_whole whole

theorem stream_holding (holding : t.Holding) (now text : Bytes) : (t.stream now text).Holding ∧
    (t.stream now text).shown ++ (t.stream now text).buffer =
      t.shown ++ t.buffer ++ (TerminalEvent.message 0 now text).lines := by
  by_cases paused : 0 < t.paused
  · rw [stream_paused now text paused]
    refine ⟨⟨fun line member => ?_, fun _ => paused⟩, (List.append_assoc ..).symm⟩
    exact (List.mem_append.mp member).elim (holding.whole line) (lines_whole _ line)
  · have empty : t.buffer = [] := by
      by_contra held
      exact paused (holding.during held)
    rw [stream_running now text paused]
    exact ⟨⟨holding.whole, holding.during⟩, by simp only [empty, List.append_nil]⟩

/-- One event: what it brings goes behind what is shown and held back. -/
theorem step_holding (holding : t.Holding) (event : TerminalEvent) : (t.step event).Holding ∧
    (t.step event).shown ++ (t.step event).buffer = t.shown ++ t.buffer ++ event.lines := by
  cases event with
  | message clock now text => exact stream_holding holding now text
  | pause clock =>
    rw [step]
    by_cases paused : 0 < t.paused
    · rw [if_pos paused]
      exact ⟨holding, (List.append_nil _).symm⟩
    · obtain ⟨shown, buffer, -⟩ := pause_fields clock t
      have empty : t.buffer = [] := by
        by_contra held
        exact paused (holding.during held)
      rw [if_neg paused, shown, buffer]
      exact ⟨⟨by simp [buffer, empty], by simp [buffer, empty]⟩, (List.append_nil _).symm⟩
  | unpause clock =>
    rw [step]
    by_cases running : t.paused = 0
    · rw [if_pos running]
      exact ⟨holding, (List.append_nil _).symm⟩
    · obtain ⟨shown, buffer, -⟩ := unpause_fields holding
      rw [if_neg running, shown, buffer]
      exact ⟨⟨by simp [buffer], by simp [buffer]⟩, rfl⟩

theorem after_append (t : SSHTerminal) (front : List TerminalEvent) (event : TerminalEvent) :
    t.after (front ++ [event]) = (t.after front).step event := by
  simp only [after, List.foldl_append, List.foldl_cons, List.foldl_nil]

variable (running : t.paused = 0) (empty : t.buffer = [])
include running empty

/-- After any events: no line is lost, and `paused` is when the pause in force expires. -/
theorem after_holding (events : List TerminalEvent) : (t.after events).Holding ∧
    (t.after events).shown ++ (t.after events).buffer = t.shown ++ events.flatMap TerminalEvent.lines ∧
    (t.after events).paused = expiry events := by
  induction events using List.reverseRecOn with
  | nil => exact ⟨⟨by simp [after, empty], by simp [after, empty]⟩, by simp [after, empty], running⟩
  | append_singleton front event ih =>
    obtain ⟨holding, order, paused⟩ := ih
    obtain ⟨still, behind⟩ := step_holding holding event
    rw [after_append]
    refine ⟨still, by rw [behind, order, List.flatMap_append, List.flatMap_singleton, List.append_assoc], ?_⟩
    simp only [expiry, List.foldl_append, List.foldl_cons, List.foldl_nil]
    rw [expiry] at paused
    rw [← paused]
    cases event with
    | message clock now text =>
      simp only [step, stream]
      split
      · rfl
      · rw [println_whole (lines_whole (.message clock now text) _ (List.mem_singleton.mpr rfl))]
    | pause clock =>
      simp only [step]
      split
      · rfl
      · exact (pause_fields clock _).2.2
    | unpause clock =>
      simp only [step]
      split
      · assumption
      · exact (unpause_fields holding).2.2

/-- A terminal loses nothing, and it holds back too much exactly where a message comes after the
expiry of a pause that has not been ended. -/
theorem pausesWell_iff (events : List TerminalEvent) : t.PausesWell events ↔ NoneLate events := by
  constructor
  · intro well front clock now text back split late
    have bounded := well.bounded front clock now text back split late.1 late.2
    obtain ⟨-, -, paused⟩ := after_holding running empty front
    rw [after_append, step, stream_paused now text (paused ▸ late.1)] at bounded
    exact absurd bounded (by simp [TerminalEvent.lines])
  · intro none
    refine ⟨fun front back split => (after_holding running empty front).2.1, ?_⟩
    intro front clock now text back split paused expired
    exact absurd ⟨paused, expired⟩ (none front clock now text back split)

end SSHTerminal

/-! ## The handler -/

theorem pauseCommand_terminal (s : SSHSession) :
    (SSHLib.pauseCommand s).session.terminal = s.terminal.step (.pause s.world.now.1) := by
  simp only [SSHLib.pauseCommand, SSHTerminal.step]
  split <;> rfl

theorem unpauseCommand_terminal (s : SSHSession) (clock : Int) :
    (SSHLib.unpauseCommand s).session.terminal = s.terminal.step (.unpause clock) := by
  simp only [SSHLib.unpauseCommand, SSHTerminal.step]
  split <;> rfl

theorem finish_terminal (lib : SSHLib) (branch : Branch) :
    Yields (branch.finish lib) (fun s' => s'.terminal = branch.session.terminal) fun _ => True := by
  cases branch with
  | again s => exact rfl
  | send s =>
    unfold Branch.finish
    cases selected : s.fe with
    | none =>
      simp only [selected]
      exact rfl
    | some i =>
      simp only [selected]
      apply Yields.bind (Yields.top _)
      exact fun _ _ _ => rfl

/-- What an event of a session is to its terminal: a line from a link that still listens, or one of
the two commands, typed while a server is managed. -/
def SSHSession.heard (lib : SSHLib) (s : SSHSession) : SSHEvent → Option TerminalEvent
  | .stream link now text =>
    if link ∈ s.terminals (s.links.getD link 0) then some (.message s.world.now.1 now text) else none
  | .line input _ =>
    if s.listening ∧ s.activeFE ≠ none then
      match (parseCmdArgs lib.toLower input).which with
      | some .pause => some (.pause s.world.now.1)
      | some .unpause => some (.unpause s.world.now.1)
      | _ => none
    else none
  | _ => none

section
variable {lib : SSHLib} {site : SSHSite} {s s' : SSHSession}

/-- The handler takes the steps of the terminal. -/
theorem sshStep_terminal {e : SSHEvent} {event : TerminalEvent} (heard : s.heard lib e = some event)
    (stepped : sshStep lib site s e = .ok s') : s'.terminal = s.terminal.step event := by
  cases e with
  | stream link now text =>
    simp only [SSHSession.heard, Option.ite_none_right_eq_some, Option.some.injEq] at heard
    obtain ⟨linked, rfl⟩ := heard
    simp only [sshStep, if_pos linked, Except.ok.injEq] at stepped
    rw [← stepped]
    rfl
  | line input results =>
    simp only [SSHSession.heard, Option.ite_none_right_eq_some] at heard
    obtain ⟨⟨listening, managed⟩, command⟩ := heard
    obtain ⟨i, active⟩ := Option.ne_none_iff_exists'.mp managed
    simp only [SSHSession.listening, Bool.and_eq_true, Bool.not_eq_true', Option.isNone_iff_eq_none] at listening
    obtain ⟨⟨running, free⟩, there⟩ := listening
    simp only [sshStep, SSHLib.handleLine, running, free, there, SSHLib.handleCommand, active, Bool.false_eq_true,
      ↓reduceIte] at stepped
    cases which : (parseCmdArgs lib.toLower input).which with
    | none => simp [which] at command
    | some verb =>
      simp only [which] at command stepped
      cases verb with
      | pause =>
        cases Option.some.inj command
        rw [← pauseCommand_terminal]
        exact (finish_terminal lib (SSHLib.pauseCommand s)).of_ok stepped
      | unpause =>
        cases Option.some.inj command
        rw [← unpauseCommand_terminal]
        exact (finish_terminal lib (SSHLib.unpauseCommand s)).of_ok stepped
      | _ => cases command
  | readFailed reason => cases heard
  | frontend i fe => cases heard

/-- What a terminal hears over a run. -/
def SSHSession.hears (lib : SSHLib) (site : SSHSite) : SSHSession → List SSHEvent → List TerminalEvent
  | _, [] => []
  | s, e :: rest => (s.heard lib e).toList ++
    match sshStep lib site s e with
    | .ok s' => s'.hears lib site rest
    | .error _ => []

/-- In a session in which there is nothing to the console but messages and the two commands, while
servers come and go, the terminal is where these have led it. -/
theorem session_terminal {events : List SSHEvent} (plain : Allowed (sshStep lib site)
    (fun s e => (s.heard lib e).isSome = true ∨ ∃ i fe, e = .frontend i fe) s events)
    (ran : run (sshStep lib site) s events = .ok s') :
    s'.terminal = s.terminal.after (s.hears lib site events) := by
  induction events generalizing s with
  | nil =>
    cases ran
    rfl
  | cons e rest ih =>
    obtain ⟨s₁, first, others⟩ := run_cons_ok ran
    obtain ⟨mine, later⟩ := plain
    rw [ih (later s₁ first) others, SSHSession.hears, first]
    rcases mine with some | ⟨i, fe, rfl⟩
    · obtain ⟨event, heard⟩ := Option.isSome_iff_exists.mp some
      rw [sshStep_terminal heard first, heard]
      rfl
    · cases first
      rfl

/-- So nothing is lost, doubled or put out of order on the way through a session. -/
theorem session_pauses {events : List SSHEvent} (running : s.terminal.paused = 0) (empty : s.terminal.buffer = [])
    (plain : Allowed (sshStep lib site)
      (fun s e => (s.heard lib e).isSome = true ∨ ∃ i fe, e = .frontend i fe) s events)
    (ran : run (sshStep lib site) s events = .ok s') :
    s'.terminal.shown ++ s'.terminal.buffer =
      s.terminal.shown ++ (s.hears lib site events).flatMap TerminalEvent.lines := by
  rw [session_terminal plain ran]
  exact (SSHTerminal.after_holding running empty _).2.1

end

/-- A pause for a minute. -/
def shortPause : List TerminalEvent := [
  .message 1728145800 (ascii "16:30:00") (ascii "claire: hi"), .pause 1728145801,
  .message 1728145802 (ascii "16:30:02") (ascii "claire: brb"), .unpause 1728145861]

theorem shortPause_well : ({} : SSHTerminal).PausesWell shortPause := by
  apply (SSHTerminal.pausesWell_iff rfl rfl shortPause).mpr
  have early : ∀ k < 4, ¬ (0 < expiry (shortPause.take k) ∧ expiry (shortPause.take k) < 1728145803) := by decide
  have clocks : ∀ event ∈ shortPause, ∀ clock now text, event = .message clock now text → clock < 1728145803 := by
    simp only [shortPause, List.mem_cons, List.not_mem_nil, or_false]
    rintro event (rfl | rfl | rfl | rfl) clock now text same <;> cases same <;> decide
  intro front clock now text back split late
  have inside : front.length < 4 := by
    have total : shortPause.length = front.length + (back.length + 1) := by rw [split, List.length_append, List.length_cons]
    have four : shortPause.length = 4 := rfl
    omega
  have initial : shortPause.take front.length = front := by rw [split, List.take_left]
  have soon := clocks (.message clock now text) (by rw [split]; simp) clock now text rfl
  have expired := early front.length inside
  rw [initial] at expired
  exact expired ⟨late.1, late.2.trans soon⟩

/-- A pause that is forgotten. -/
def longPause : List TerminalEvent := [.pause 1728145801, .message 1728149402 (ascii "17:30:02") (ascii "claire: bye")]

/-- The message after an hour is held back all the same. -/
theorem longPause_held : ¬ ∀ (t : SSHTerminal) (events : List TerminalEvent), t.paused = 0 → t.buffer = [] →
    t.PausesWell events := by
  intro promised
  have well := promised {} longPause rfl rfl
  have held := well.bounded [.pause 1728145801] 1728149402 (ascii "17:30:02") (ascii "claire: bye") [] rfl (by decide)
    (by decide)
  have line : ((({} : SSHTerminal).after longPause).buffer).length = 1 := by decide +kernel
  have before : (({} : SSHTerminal).after [.pause 1728145801]).buffer = [] := by decide +kernel
  rw [before] at held
  exact absurd (line.symm.trans (congrArg List.length held)) (by decide)

end Q2Admin
