import Q2Admin.Challenge

/-! How a run of `HandleConnection` ends. Only the last of its returns takes back what the
handshake has written to the frontend. -/

namespace Q2Admin
open Go Lib

/-- What the rest of the program takes for a frontend without a connection. -/
structure Frontend.Offline (fe : Frontend) : Prop where
  connected : fe.connected = false
  trusted : fe.trusted = false
  connection : fe.connection = none

section
variable (pf : Platform)

/-- The frontend a run of `HandleConnection` has found, once it has handled the read. -/
def Server.found (s : Server) (e : Event) : Option Nat :=
  match s.phase e.conn with
  | .greeting => match e.input.map (findGreeted pf s.world) with
    | some (.ok (some a)) => some a.fe
    | _ => none
  | .auth i _ => some i
  | .main i => some i
  | .closed => none

/-- The greeting passes all checks, and the record of the frontend is written. -/
def Admits (s : Server) (e : Event) : Prop :=
  s.phase e.conn = .greeting ∧ ∃ input a, e.input = some input ∧ checkGreeting pf s.world input = .ok (some a)

/-- The connection is lost in the message loop, or it has changed nothing on a frontend
that was offline. -/
def Clears (s : Server) (e : Event) (i : Nat) : Prop :=
  s.phase e.conn = .main i ∧ e.read = none ∨ (s.world.fe i).Offline ∧ ¬ Admits pf s e

/-! ## The returns -/

variable {i : Nat} {w w' : World}

theorem offline_of_keeps (keeps : w.Keeps w') : (w'.fe i).Offline ↔ (w.fe i).Offline := by
  have same := World.field_of_frames keeps.frames i (fun fe => fe.Offline) fun fe =>
    propext ⟨fun off => ⟨off.1, off.2, off.3⟩, fun off => ⟨off.1, off.2, off.3⟩⟩
  exact iff_of_eq same

theorem hangUp_offline (i : Nat) (w : World) : ((hangUp i w).fe i).Offline := by
  by_cases live : i < w.frontends.length
  · rw [hangUp, World.fe_update_self w live]
    exact ⟨rfl, rfl, rfl⟩
  · rw [hangUp, World.update_outside w live, World.fe_outside w live]
    exact ⟨rfl, rfl, rfl⟩

/-- The return after a failed authentication. -/
theorem judge_closed {input : Bytes} {next : Phase × World} (judged : judge pf i input w = .ok next)
    (closed : next.1 = .closed) : w.Keeps next.2 := by
  have ends : Yields (judge pf i input w) (fun next => next.1 = .closed → w.Keeps next.2) fun _ => True := by
    unfold judge
    cases authenticateClient pf (w.fe i) (pf.q2.newBuffer input) with
    | error fault => trivial
    | ok verdict =>
      match verdict with
      | .error text =>
        have told := (sendError_kept pf i none 500 text w).mono (fun _ => id) fun _ _ => trivial
        apply Yields.bind told
        exact fun _ _ keeps _ => keeps
      | .ok false => exact fun _ => World.Keeps.refl
      | .ok true =>
        apply Yields.bind (Yields.top (trustClient pf i w))
        exact fun _ _ _ accepted => by simp at accepted
  exact ends.of_ok judged closed

/-- The return after a packet that cannot be decrypted. -/
theorem serve_closed {input : Bytes} {next : Phase × World} (served : serve pf i input w = .ok next)
    (closed : next.1 = .closed) : next.2 = w := by
  have ends : Yields (serve pf i input w) (fun next => next.1 = .closed → next.2 = w) fun _ => True := by
    unfold serve
    cases (w.fe i).receive pf.aes input with
    | error fault => trivial
    | ok plaintext =>
      cases plaintext with
      | none => exact fun _ => rfl
      | some plaintext =>
        apply Yields.bind (Yields.top (parseMessage pf i (w.setMessage i (pf.q2.newBuffer plaintext))))
        intro w' _ _
        apply Yields.bind (Yields.top (sendMessages pf i w'))
        exact fun _ _ _ accepted => by simp at accepted
  exact ends.of_ok served closed

/-- The returns of the handshake before it sends its challenge, as far as the frontend has
been found by then. -/
theorem greet_closed {c : ConnId} {input : Bytes} {next : Phase × World} {a : Admission}
    (found : findGreeted pf w input = .ok (some a)) (greeted : greet pf c input w = .ok next) :
    (next.2.fe a.fe).Offline ↔
      (w.fe a.fe).Offline ∧ ¬ ∃ a', checkGreeting pf w input = .ok (some a') := by
  obtain ⟨result, checked, refused, admitted⟩ := greet_of_ok greeted
  have same := checked
  rw [checkGreeting, found] at same
  cases result with
  | none => simp [refused rfl, checked]
  | some a' =>
    -- the record names the connection, so the frontend is not offline
    obtain rfl : a = a' := Option.some.inj (Option.filter_eq_some_iff.mp (Except.ok.inj same)).1
    have live := (checkGreeting_live pf w input).of_ok checked a rfl
    have connection := ((challengeClient_spec pf c live).of_ok (admitted a rfl)).1
    constructor
    · intro offline
      rw [offline.connection] at connection
      simp at connection
    · exact fun cleared => absurd ⟨a, checked⟩ cleared.2

/-- The frontend is offline behind a return exactly if the connection was lost in the message
loop, or nothing was written to a frontend that had been offline. -/
theorem returned_offline_iff {s s' : Server} {e : Event} {i : Nat} (stepped : s.step pf e = .ok s')
    (found : s.found pf e = some i) (closed : s'.phase e.conn = .closed) :
    (s'.world.fe i).Offline ↔ Clears pf s e i := by
  obtain ⟨next, resumed, rfl⟩ := Server.step_ok stepped
  rw [Server.put_phase_self] at closed
  change (next.2.fe i).Offline ↔ _
  unfold Server.found at found
  unfold Server.resume at resumed
  cases phase : s.phase e.conn with
  | closed => simp [phase] at found
  | greeting =>
    cases read : e.input with
    | none => simp [phase, read] at found
    | some input =>
      simp only [phase, read, Option.map_some] at found resumed
      cases greeted : findGreeted pf s.world input with
      | error fault => simp [greeted] at found
      | ok result =>
        cases result with
        | none => simp [greeted] at found
        | some a =>
          simp only [greeted, Option.some.injEq] at found
          rw [← found, greet_closed pf greeted resumed]
          simp [Clears, Admits, phase, read]
  | auth j own =>
    simp only [phase, Option.some.injEq] at found
    have kept : s.world.Keeps next.2 := by
      cases read : e.input with
      | none =>
        simp only [read, phase, Except.ok.injEq] at resumed
        exact resumed ▸ World.Keeps.refl
      | some input =>
        simp only [read, phase] at resumed
        exact judge_closed pf resumed closed
    simp [offline_of_keeps kept, Clears, Admits, phase]
  | main j =>
    simp only [phase, Option.some.injEq] at found
    subst found
    cases read : e.read with
    | none =>
      simp only [Event.input, read, Option.map_none, phase, Except.ok.injEq] at resumed
      simp [← resumed, hangUp_offline, Clears, phase, read]
    | some bytes =>
      simp only [Event.input, read, Option.map_some, phase] at resumed
      simp [serve_closed pf resumed closed, Clears, Admits, phase, read]

/-! ## Runs -/

/-- When the run of `HandleConnection` returns here, its frontend is left offline. -/
def Recorded (s : Server) (e : Event) : Prop := ∀ s' i, s.step pf e = .ok s' →
  s.found pf e = some i → s'.phase e.conn = .closed → (s'.world.fe i).Offline

/-- When the run of `HandleConnection` returns here, it does so on a way that clears. -/
def Cleared (s : Server) (e : Event) : Prop := ∀ s' i, s.step pf e = .ok s' →
  s.found pf e = some i → s'.phase e.conn = .closed → Clears pf s e i

/-- However the connections interleave: every finished connection is recorded as finished
exactly if every one of them is lost in the message loop, or ends with nothing written to a
frontend that is offline. -/
theorem finished_recorded_iff (w : World) (events : List Event) :
    Allowed (Server.step pf) (Recorded pf) (Server.start w) events ↔
      Allowed (Server.step pf) (Cleared pf) (Server.start w) events := by
  have same : Recorded pf = Cleared pf := by
    funext s e
    apply propext
    constructor
    · exact fun recorded s' i stepped found closed =>
        (returned_offline_iff pf stepped found closed).mp (recorded s' i stepped found closed)
    · exact fun cleared s' i stepped found closed =>
        (returned_offline_iff pf stepped found closed).mpr (cleared s' i stepped found closed)
  rw [same]

end

theorem greeted_connected : Yields
    (run (Server.step Platform.plain) (Server.start openWorld) [⟨0, some openGreeting⟩])
    (fun s => s.phase 0 = .auth 0 firstChallenge ∧ (s.world.fe 0).connected = true)
    fun _ => False := by decide +kernel

/-- The frontend goes away without an answer to its challenge. -/
theorem abandoned_handshake : ¬ ∀ (pf : Platform) (w : World) (events : List Event),
    Allowed (Server.step pf) (Recorded pf) (Server.start w) events := by
  intro recorded
  obtain ⟨s, ran, waits, connected⟩ := greeted_connected.returns
  have all := recorded Platform.plain openWorld [⟨0, some openGreeting⟩, ⟨0, none⟩]
  obtain ⟨s₁, first, rest⟩ := run_cons_ok ran
  cases rest
  have stepped : s.step Platform.plain ⟨0, none⟩ = .ok (s.put 0 (.closed, s.world)) := by
    simp only [Server.step, Server.resume, Event.input, Option.map_none, waits]
    rfl
  have found : s.found Platform.plain ⟨0, none⟩ = some 0 := by
    simp only [Server.found, waits]
  have offline := (all.2 s first).1 _ 0 stepped found (Server.put_phase_self s 0 _)
  exact absurd (connected.symm.trans offline.connected) (by decide)

end Q2Admin
