import Q2Admin.Challenge

/-! What a second connection does to a live session. `HandleConnection` writes the record
of the frontend as soon as the greeting has passed its checks, before the client has proved
anything, and no later return takes that back. -/

namespace Q2Admin
open Go Lib

/-- What the session of a frontend consists of. -/
structure LiveSession where
  connection : Option ConnId
  encrypted : Bool
  symmetricKey : Bytes
  initVector : Bytes
  challenge : Bytes
  maxPlayers : Nat
  port : Int
  version : Int
  connected : Bool
  trusted : Bool
  deriving DecidableEq

def Frontend.live (fe : Frontend) : LiveSession where
  connection := fe.connection
  encrypted := fe.encrypted
  symmetricKey := fe.symmetricKey
  initVector := fe.initVector
  challenge := fe.challenge
  maxPlayers := fe.maxPlayers
  port := fe.port
  version := fe.version
  connected := fe.connected
  trusted := fe.trusted

section
variable (pf : Platform)

/-- The greeting of connection `d` does not pass the checks, if it comes at all. -/
def TurnedAway (d : ConnId) (s : Server) (e : Event) : Prop :=
  e.conn = d → s.phase d = .greeting → ∀ input a, e.input = some input →
    checkGreeting pf s.world input ≠ .ok (some a)

/-- A new connection leaves all sessions as they are exactly if its greeting is refused. -/
theorem greet_harmless_iff {c : ConnId} {input : Bytes} {w : World} {next : Phase × World}
    (new : ∀ i, (w.fe i).connection ≠ some c) (greeted : greet pf c input w = .ok next) :
    (∀ i, (next.2.fe i).live = (w.fe i).live) ↔ checkGreeting pf w input = .ok none := by
  obtain ⟨result, checked, refused, admitted⟩ := greet_of_ok greeted
  rw [checked]
  cases result with
  | none => simp [refused rfl]
  | some a =>
    have found := (checkGreeting_live pf w input).of_ok checked a rfl
    have issued := (challengeClient_spec pf c found).of_ok (admitted a rfl)
    constructor
    · intro same
      have connection := congrArg LiveSession.connection (same a.fe)
      exact absurd (connection.symm.trans issued.1) (new a.fe)
    · intro refused
      simp at refused

/-- The two runs agree on everything but connection `d`, which is still or again nobody. -/
structure AgreesBut (d : ConnId) (s t : Server) : Prop where
  world : s.world = t.world
  phase : ∀ c, c ≠ d → s.phase c = t.phase c
  nobody : s.phase d = .greeting ∨ s.phase d = .closed

/-- Without an accepted greeting a connection that is nobody ends, and that is all. -/
theorem resume_nobody {s : Server} {d : ConnId} {input : Option Bytes} {next : Phase × World}
    (nobody : s.phase d = .greeting ∨ s.phase d = .closed)
    (away : s.phase d = .greeting → ∀ bytes a, input = some bytes →
      checkGreeting pf s.world bytes ≠ .ok (some a))
    (resumed : s.resume pf d input = .ok next) : next = (.closed, s.world) := by
  unfold Server.resume at resumed
  cases input with
  | none =>
    rcases nobody with fresh | gone
    · simpa [fresh] using resumed.symm
    · simpa [gone] using resumed.symm
  | some bytes =>
    rcases nobody with fresh | gone
    · simp only [fresh] at resumed
      obtain ⟨result, checked, refused, -⟩ := greet_of_ok resumed
      cases result with
      | none => exact refused rfl
      | some a => exact absurd checked (away fresh bytes a rfl)
    · simpa [gone] using resumed.symm

theorem turnedAway_unnoticed {d : ConnId} {s t s' : Server} {e : Event} (agrees : AgreesBut d s t)
    (mine : e.conn = d) (away : TurnedAway pf d s e) (stepped : s.step pf e = .ok s') :
    AgreesBut d s' t := by
  obtain ⟨next, resumed, rfl⟩ := Server.step_ok stepped
  rw [mine] at resumed ⊢
  obtain rfl := resume_nobody pf agrees.nobody (away mine) resumed
  constructor
  case world => exact agrees.world
  case phase =>
    intro c apart
    rw [Server.put_phase_ne s apart, agrees.phase c apart]
  case nobody => exact .inr (Server.put_phase_self s d _)

theorem others_follow {d : ConnId} {s t s' : Server} {e : Event} (agrees : AgreesBut d s t)
    (other : e.conn ≠ d) (stepped : s.step pf e = .ok s') :
    ∃ t', t.step pf e = .ok t' ∧ AgreesBut d s' t' := by
  obtain ⟨next, resumed, rfl⟩ := Server.step_ok stepped
  have same : t.resume pf e.conn e.input = .ok next := by
    rw [← resumed]
    simp only [Server.resume, agrees.world, agrees.phase e.conn other]
  refine ⟨t.put e.conn next, ?_, ?_⟩
  · simp only [Server.step, same]
    rfl
  constructor
  case world => rfl
  case phase =>
    intro c apart
    by_cases here : c = e.conn
    · rw [here, Server.put_phase_self, Server.put_phase_self]
    · rw [Server.put_phase_ne s here, Server.put_phase_ne t here, agrees.phase c apart]
  case nobody =>
    rw [Server.put_phase_ne s (Ne.symm other)]
    exact agrees.nobody

/-- A connection that is turned away leaves no trace: the run without its events ends in
the same world, whatever the other connections do meanwhile. -/
theorem turned_away_leaves_no_trace {d : ConnId} {s s' : Server} {events : List Event}
    (new : s.phase d = .greeting) (away : Allowed (Server.step pf) (TurnedAway pf d) s events)
    (ran : run (Server.step pf) s events = .ok s') :
    ∃ t', run (Server.step pf) s (events.filter fun e => !decide (e.conn = d)) = .ok t' ∧
      t'.world = s'.world ∧ ∀ c, c ≠ d → t'.phase c = s'.phase c := by
  have start : AgreesBut d s s := ⟨rfl, fun _ _ => rfl, .inl new⟩
  obtain ⟨t', through, agrees⟩ := run_erase start away ran
    (fun _ _ _ _ agrees mine away stepped =>
      turnedAway_unnoticed pf agrees (of_decide_eq_true mine) away stepped)
    (fun _ _ _ _ agrees other stepped =>
      others_follow pf agrees (of_decide_eq_false other) stepped)
  exact ⟨t', through, agrees.world.symm, fun c apart => (agrees.phase c apart).symm⟩

end

/-- Connection 1 sends what is no greeting, then connection 0 greets. -/
def strangerEvents : List Event := [⟨1, some (ascii "GET / HTTP/1.1")⟩, ⟨0, some openGreeting⟩]

theorem stranger_ignored : Yields
    (run (Server.step Platform.plain) (Server.start openWorld) strangerEvents)
    (fun s => s.phase 0 = .auth 0 firstChallenge) fun _ => False := by decide +kernel

theorem stranger_checked :
    Yields (checkGreeting Platform.plain openWorld (ascii "GET / HTTP/1.1"))
      (fun result => result.isNone = true) fun _ => False := by decide +kernel

theorem turned_away_stranger : ∃ s',
    run (Server.step Platform.plain) (Server.start openWorld) strangerEvents = .ok s' ∧
    ∃ t', run (Server.step Platform.plain) (Server.start openWorld)
      (strangerEvents.filter fun e => !decide (e.conn = 1)) = .ok t' ∧
      t'.world = s'.world ∧ ∀ c, c ≠ 1 → t'.phase c = s'.phase c := by
  obtain ⟨s', ran, -⟩ := stranger_ignored.returns
  have away : Allowed (Server.step Platform.plain) (TurnedAway Platform.plain 1)
      (Server.start openWorld) strangerEvents := by
    refine ⟨fun _ _ input a read checked => ?_, fun _ _ => ⟨fun mine => ?_, fun _ _ => trivial⟩⟩
    · cases read
      simpa using stranger_checked.of_ok checked
    · exact absurd mine (by decide)
  exact ⟨s', ran, turned_away_leaves_no_trace Platform.plain rfl away ran⟩

/-- Connection `d` is not in the message loop. -/
def Unaccepted (d : ConnId) (s : Server) (_ : Event) : Prop := ∀ i, s.phase d ≠ .main i

/-- The frontend has an accepted client when connection 1 greets under its name and goes. -/
theorem session_taken_over : Yields (run (Server.step Platform.plain) (Server.start openWorld)
      [⟨0, some openGreeting⟩, ⟨0, some (answerTo firstChallenge)⟩])
    (fun s => (s.world.fe 0).connected = true ∧ (s.world.fe 0).trusted = true ∧
      s.phase 1 = .greeting ∧
      Yields (s.step Platform.plain ⟨1, some openGreeting⟩)
        (fun s₁ => s₁.phase 1 = .auth 0 ((List.range 16).map fun k => UInt8.ofNat (64 + k)) ∧
          Yields (s₁.step Platform.plain ⟨1, none⟩)
            (fun s₂ => s₂.phase 1 = .closed ∧ (s₂.world.fe 0).live ≠ (s.world.fe 0).live)
            fun _ => False)
        fun _ => False)
    fun _ => False := by decide +kernel

theorem live_session_disturbed : ¬ ∀ (pf : Platform) (w : World) (past events : List Event)
    (s s' t' : Server) (i : Nat) (d : ConnId),
    run (Server.step pf) (Server.start w) past = .ok s →
    (s.world.fe i).connected = true → (s.world.fe i).trusted = true → s.phase d = .greeting →
    Allowed (Server.step pf) (Unaccepted d) s events →
    run (Server.step pf) s events = .ok s' → s'.phase d = .closed →
    run (Server.step pf) s (events.filter fun e => !decide (e.conn = d)) = .ok t' →
    (s'.world.fe i).live = (t'.world.fe i).live := by
  intro undisturbed
  obtain ⟨s, ran, connected, trusted, fresh, greets⟩ := session_taken_over.returns
  obtain ⟨s₁, greeted, waits, leaves⟩ := greets.returns
  obtain ⟨s₂, left, closed, differs⟩ := leaves.returns
  have unaccepted : Allowed (Server.step Platform.plain) (Unaccepted 1) s
      [⟨1, some openGreeting⟩, ⟨1, none⟩] := by
    refine ⟨fun i => by simp [fresh], fun s' first => ⟨fun i => ?_, fun _ _ => trivial⟩⟩
    rw [greeted] at first
    cases first
    simp [waits]
  have both : run (Server.step Platform.plain) s [⟨1, some openGreeting⟩, ⟨1, none⟩] = .ok s₂ :=
    (run_cons _ greeted).trans (run_cons _ left)
  have same := undisturbed Platform.plain openWorld _ _ s s₂ s 0 1 ran connected trusted fresh
    unaccepted both closed rfl
  exact differs same

end Q2Admin
