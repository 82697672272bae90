import Q2Admin.Lib.Runs
import Q2Admin.Handshake

/-! Whose challenge a connection answers. The challenge lies in the record of the frontend,
which all connections of that frontend share, so it is a connection's own only as long as
no other one writes there. -/

namespace Q2Admin
open Go Lib

section
variable (pf : Platform)

/-- A step that takes away what a connection waiting on frontend `i` relies on: another
greeting is accepted for the frontend, or its message loop ends. -/
def Disturbs (s : Server) (e : Event) (i : Nat) : Prop :=
  (s.phase e.conn = .greeting ∧ ∃ input a, e.input = some input ∧
    checkGreeting pf s.world input = .ok (some a) ∧ a.fe = i) ∨
  (s.phase e.conn = .main i ∧ e.input = none)

/-- Nobody is disturbed while waiting for the answer to a challenge. -/
def Unrivalled (s : Server) (e : Event) : Prop :=
  ∀ c i own, c ≠ e.conn → s.phase c = .auth i own → ¬ Disturbs pf s e i

/-- What every waiting connection relies on is there. -/
def Server.Sound (s : Server) : Prop := ∀ c i own, s.phase c = .auth i own → s.world.Awaits i own

theorem findFrontend_lt {w : World} {lookup : Bytes} {i : Nat}
    (found : w.findFrontend lookup = some i) : i < w.frontends.length := by
  unfold World.findFrontend at found
  split at found
  · simp at found
  · exact (List.findIdx?_eq_some_iff_getElem.mp found).1

theorem findGreeted_live (w : World) (input : Bytes) : Yields (findGreeted pf w input)
    (fun result => ∀ a, result = some a → a.fe < w.frontends.length) fun _ => True := by
  simp only [findGreeted]
  split
  · exact fun _ none => by simp at none
  apply Yields.bind (Yields.top _)
  intro magic _ _
  split
  · exact fun _ none => by simp at none
  apply Yields.bind (Yields.top _)
  intro cmd _ _
  split
  · exact fun _ none => by simp at none
  apply Yields.bind (Yields.top _)
  intro greeting _ _ a accepted
  simp only [Option.bind_eq_bind, Option.bind_eq_some_iff] at accepted
  obtain ⟨greeting, -, nonce, -, hash, -, i, found, rest⟩ := accepted
  cases rest
  exact findFrontend_lt found

theorem checkGreeting_live (w : World) (input : Bytes) : Yields (checkGreeting pf w input)
    (fun result => ∀ a, result = some a → a.fe < w.frontends.length) fun _ => True := by
  have live := findGreeted_live pf w input
  unfold checkGreeting
  cases found : findGreeted pf w input with
  | error fault => trivial
  | ok result => exact fun a kept => live.of_ok found a (Option.filter_eq_some_iff.mp kept).1

theorem greet_yields {post : Phase × World → Prop} {c : ConnId} {input : Bytes} {w : World}
    (refused : post (.closed, w)) (admitted : ∀ a, checkGreeting pf w input = .ok (some a) →
      Yields (challengeClient pf c a w) post fun _ => True) :
    Yields (greet pf c input w) post fun _ => True := by
  cases greeted : greet pf c input w with
  | error fault => trivial
  | ok next =>
    obtain ⟨result, checked, none, some⟩ := greet_of_ok greeted
    cases result with
    | none => exact (none rfl).symm ▸ refused
    | some a => exact (admitted a checked).of_ok (some a rfl)

theorem resume_spares {s : Server} {e : Event} {j : Nat} (calm : ¬ Disturbs pf s e j) :
    Yields (s.resume pf e.conn e.input) (fun next => s.world.Spares j next.2) fun _ => True := by
  unfold Server.resume
  cases read : e.input with
  | none =>
    cases phase : s.phase e.conn with
    | main i =>
      have apart : j ≠ i := fun same => calm (.inr ⟨same ▸ phase, read⟩)
      exact .of_fe (World.fe_update_ne s.world apart _)
    | greeting => exact World.Spares.refl
    | auth i own => exact World.Spares.refl
    | closed => exact World.Spares.refl
  | some input =>
    cases phase : s.phase e.conn with
    | greeting =>
      apply greet_yields pf World.Spares.refl
      intro a checked
      have apart : j ≠ a.fe := fun same =>
        calm (.inl ⟨phase, input, a, read, checked, same.symm⟩)
      exact challengeClient_ne pf e.conn a apart s.world
    | auth i own => exact (judge_spares pf i j input s.world).mono (fun _ spares => spares.1) fun _ => id
    | main i => exact (serve_spares pf i j input s.world).mono (fun _ spares => spares.1) fun _ => id
    | closed => exact World.Spares.refl

theorem not_waiting {next : Phase × World} (done : ∀ i own, next.1 ≠ .auth i own) :
    ∀ i own, next.1 = .auth i own → next.2.Awaits i own :=
  fun i own waits => absurd waits (done i own)

theorem greet_awaits (c : ConnId) (input : Bytes) (w : World) : Yields (greet pf c input w)
    (fun next => ∀ i own, next.1 = .auth i own → next.2.Awaits i own) fun _ => True := by
  apply greet_yields pf (not_waiting (by simp))
  intro a checked
  have live := (checkGreeting_live pf w input).of_ok checked a rfl
  apply (challengeClient_spec pf c live).mono (fun _ issued => ?_) fun _ => id
  exact fun i own waits => (issued.2 i own waits).2

/-- A connection that begins to wait has just been given its challenge. -/
theorem resume_awaits (s : Server) (c : ConnId) (input : Option Bytes) :
    Yields (s.resume pf c input)
      (fun next => ∀ i own, next.1 = .auth i own → next.2.Awaits i own) fun _ => True := by
  unfold Server.resume
  cases input with
  | none =>
    cases s.phase c with
    | main i => exact not_waiting (by simp)
    | greeting => exact not_waiting (by simp)
    | auth i own => exact not_waiting (by simp)
    | closed => exact not_waiting (by simp)
  | some input =>
    cases s.phase c with
    | greeting => exact greet_awaits pf c input s.world
    | auth i own =>
      exact (judge_spares pf i i input s.world).mono (fun _ judged => not_waiting judged.2) fun _ => id
    | main i =>
      exact (serve_spares pf i i input s.world).mono (fun _ served => not_waiting served.2) fun _ => id
    | closed => exact not_waiting (by simp)

theorem step_sound {s s' : Server} {e : Event} (sound : s.Sound) (calm : Unrivalled pf s e)
    (stepped : s.step pf e = .ok s') : s'.Sound := by
  obtain ⟨next, resumed, rfl⟩ := Server.step_ok stepped
  intro c i own waits
  by_cases here : c = e.conn
  case pos =>
    rw [here, Server.put_phase_self] at waits
    exact (resume_awaits pf s e.conn e.input).of_ok resumed i own waits
  case neg =>
    rw [Server.put_phase_ne s here] at waits
    have spares := (resume_spares pf (calm c i own here waits)).of_ok resumed
    exact (sound c i own waits).spared spares

/-- Each connection answers its own challenge, as long as nobody is disturbed while
waiting: the answer is accepted exactly if it decrypts to the digest of the challenge that
was issued on this connection, and the process survives a right one. -/
theorem own_challenge_answered {w : World} {past : List Event} {s : Server}
    (calm : Allowed (Server.step pf) (Unrivalled pf) (Server.start w) past)
    (ran : run (Server.step pf) (Server.start w) past = .ok s)
    {c : ConnId} {i : Nat} {own : Bytes} (waits : s.phase c = .auth i own) (response : Bytes) :
    Yields (s.step pf ⟨c, some response⟩)
      (fun s' => s'.phase c = .main i ↔
        Answers pf (s.world.fe i) own (response.take netReadLength))
      fun _ => ¬ Answers pf (s.world.fe i) own (response.take netReadLength) := by
  have start : (Server.start w).Sound := fun c i own waits => by simp [Server.start] at waits
  have sound := run_invariant Server.Sound (fun _ _ _ sound calm => step_sound pf sound calm)
    start calm ran
  have judged := judge_own pf (sound c i own waits) (response.take netReadLength)
  have resumed : s.resume pf c (some (response.take netReadLength)) =
      judge pf i (response.take netReadLength) s.world := by
    simp only [Server.resume, waits]
  rw [← resumed] at judged
  apply Yields.bind judged
  intro next _ verdict
  change (s.put c next).phase c = .main i ↔ _
  rw [Server.put_phase_self]
  exact verdict

end

theorem greeted_once : Yields
    (run (Server.step Platform.plain) (Server.start openWorld) [⟨0, some openGreeting⟩])
    (fun s => s.phase 0 = .auth 0 firstChallenge) fun _ => False := by decide +kernel

/-- A connection greets, and its answer is the digest it was asked for. -/
theorem own_challenge_answered_alone : ∃ s,
    run (Server.step Platform.plain) (Server.start openWorld) [⟨0, some openGreeting⟩] = .ok s ∧
    Yields (s.step Platform.plain ⟨0, some (answerTo firstChallenge)⟩)
      (fun s' => s'.phase 0 = .main 0 ↔ Answers Platform.plain (s.world.fe 0) firstChallenge
        ((answerTo firstChallenge).take netReadLength))
      fun _ => ¬ Answers Platform.plain (s.world.fe 0) firstChallenge
        ((answerTo firstChallenge).take netReadLength) := by
  obtain ⟨s, ran, waits⟩ := greeted_once.returns
  have calm : Allowed (Server.step Platform.plain) (Unrivalled Platform.plain)
      (Server.start openWorld) [⟨0, some openGreeting⟩] := by
    refine ⟨fun c i own _ waits => ?_, fun _ _ => trivial⟩
    simp [Server.start] at waits
  exact ⟨s, ran, own_challenge_answered Platform.plain calm ran waits (answerTo firstChallenge)⟩

def firstCipher : Bytes := plainCipher (List.ofFn (KeyLib.plain.sha256 firstChallenge))

theorem firstCipher_decrypts : Platform.plain.keys.privateDecrypt firstCipher =
    some (List.ofFn (Platform.plain.keys.sha256 firstChallenge)) := by decide +kernel

/-- The second greeting overwrites the challenge that the first connection answers. -/
theorem greeted_twice : Yields (run (Server.step Platform.plain) (Server.start openWorld)
      [⟨0, some openGreeting⟩, ⟨1, some openGreeting⟩])
    (fun s => s.phase 0 = .auth 0 firstChallenge ∧
      authCipher Platform.plain.q2 (s.world.fe 0).name (Platform.plain.q2.newBuffer
        ((answerTo firstChallenge).take netReadLength)) = .ok (.ok firstCipher) ∧
      Yields (s.step Platform.plain ⟨0, some (answerTo firstChallenge)⟩)
        (fun s' => s'.phase 0 = .closed) fun _ => False)
    fun _ => False := by decide +kernel

theorem own_challenge_refused : ¬ ∀ (pf : Platform) (w : World) (past : List Event) (s : Server)
    (c : ConnId) (i : Nat) (own response : Bytes),
    run (Server.step pf) (Server.start w) past = .ok s → s.phase c = .auth i own →
    Yields (s.step pf ⟨c, some response⟩)
      (fun s' => s'.phase c = .main i ↔
        Answers pf (s.world.fe i) own (response.take netReadLength))
      fun _ => ¬ Answers pf (s.world.fe i) own (response.take netReadLength) := by
  intro answered
  obtain ⟨s, ran, waits, read, judged⟩ := greeted_twice.returns
  have right : Answers Platform.plain (s.world.fe 0) firstChallenge
    ((answerTo firstChallenge).take netReadLength) := ⟨firstCipher, read, firstCipher_decrypts⟩
  obtain ⟨s', stepped, closed⟩ := judged.returns
  have verdict := answered Platform.plain openWorld _ s 0 0 firstChallenge (answerTo firstChallenge)
    ran waits
  rw [stepped, Yields.ok_iff, closed] at verdict
  exact absurd (verdict.mpr right) (by decide)

end Q2Admin
