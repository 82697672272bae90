import Q2Admin.Challenge
import Q2Admin.Territory

/-! Answers that have been seen before. Every challenge is drawn once and for one
connection, so what was accepted on one connection is not accepted on another, unless two
draws have the same digest. -/

namespace Q2Admin
open Go Lib

/-- The challenge that comes of a draw. -/
def Host.draw (host : Host) (k : Nat) : Bytes := (List.range challengeLength).map (host.random k)

/-- Which draw each connection was given for its challenge. -/
abbrev Draws : Type := ConnId → Option Nat

namespace Draws

/-- What has been issued stays so. -/
def Grows (issued issued' : Draws) : Prop := ∀ c k, issued c = some k → issued' c = some k

theorem Grows.refl (issued : Draws) : Grows issued issued := fun _ _ => id

theorem Grows.trans (issued issued' issued'' : Draws) (first : Grows issued issued')
    (second : Grows issued' issued'') : Grows issued issued'' := fun c k given => second c k (first c k given)

end Draws

/-- A record of the draws that is true of the server. -/
structure Ledger (host : Host) (s : Server) (issued : Draws) : Prop where
  same : s.world.host = host
  waiting : ∀ c i own, s.phase c = .auth i own → ∃ k, issued c = some k ∧ own = host.draw k
  fresh : ∀ c, s.phase c = .greeting → issued c = none
  drawn : ∀ c k, issued c = some k → k < s.world.randomReads
  apart : ∀ c d k, issued c = some k → issued d = some k → c = d

/-- The handshake of the connection is behind it. -/
def Server.Past (s : Server) (c : ConnId) : Prop :=
  s.phase c ≠ .greeting ∧ ∀ i own, s.phase c ≠ .auth i own

theorem World.WorksBy.host {edits : (Player → Player) → Prop} {arrives : Prop} {i : Nat} {w w' : World}
    (works : w.WorksBy edits arrives i w') : w'.host = w.host :=
  congrArg Prod.fst works.setting

namespace Ledger
variable {host : Host} {s : Server} {issued : Draws}

theorem start (w : World) : Ledger w.host (Server.start w) fun _ => none where
  same := rfl
  waiting := fun c i own waits => by simp [Server.start] at waits
  fresh := fun _ _ => rfl
  drawn := fun _ _ none => by simp at none
  apart := fun _ _ _ none => by simp at none

/-- A connection goes on without a new challenge. -/
theorem put (ledger : Ledger host s issued) {c : ConnId} {next : Phase × World} (same : next.2.host = s.world.host)
    (reads : s.world.randomReads ≤ next.2.randomReads) (greeted : next.1 ≠ .greeting)
    (judged : ∀ i own, next.1 ≠ .auth i own) : Ledger host (s.put c next) issued where
  same := same.trans ledger.same
  waiting := by
    intro d i own waits
    by_cases here : d = c
    · rw [here, Server.put_phase_self] at waits
      exact absurd waits (judged i own)
    · rw [Server.put_phase_ne s here] at waits
      exact ledger.waiting d i own waits
  fresh := by
    intro d waits
    by_cases here : d = c
    · rw [here, Server.put_phase_self] at waits
      exact absurd waits greeted
    · rw [Server.put_phase_ne s here] at waits
      exact ledger.fresh d waits
  drawn := fun d k given => Nat.lt_of_lt_of_le (ledger.drawn d k given) reads
  apart := ledger.apart

/-- A connection that has sent nothing yet is given the next draw. -/
theorem issue (ledger : Ledger host s issued) {c : ConnId} {next : Phase × World} {i : Nat}
    (fresh : s.phase c = .greeting) (same : next.2.host = s.world.host)
    (challenge : next.1 = .auth i (host.draw s.world.randomReads))
    (reads : s.world.randomReads < next.2.randomReads) : ∃ issued', Draws.Grows issued issued' ∧
      Ledger host (s.put c next) issued' := by
  have none := ledger.fresh c fresh
  have other {d : ConnId} (here : d ≠ c) :
      Function.update issued c (some s.world.randomReads) d = issued d := Function.update_of_ne here ..
  have mine : Function.update issued c (some s.world.randomReads) c = some s.world.randomReads :=
    Function.update_self ..
  -- a draw that was issued before is not the next one
  have old {d : ConnId} : issued d ≠ some s.world.randomReads :=
    fun given => Nat.lt_irrefl _ (ledger.drawn d _ given)
  refine ⟨Function.update issued c (some s.world.randomReads), ?grows, ?same, ?waiting, ?fresh, ?drawn, ?apart⟩
  case grows =>
    intro d k given
    have here : d ≠ c := fun same => by simp [same, none] at given
    rw [other here, given]
  case same => exact same.trans ledger.same
  case waiting =>
    intro d j own waits
    by_cases here : d = c
    · rw [here, Server.put_phase_self, challenge] at waits
      cases waits
      exact ⟨s.world.randomReads, here ▸ mine, rfl⟩
    · rw [Server.put_phase_ne s here] at waits
      rw [other here]
      exact ledger.waiting d j own waits
  case fresh =>
    intro d waits
    by_cases here : d = c
    · rw [here, Server.put_phase_self, challenge] at waits
      cases waits
    · rw [Server.put_phase_ne s here] at waits
      rw [other here]
      exact ledger.fresh d waits
  case drawn =>
    intro d k given
    by_cases here : d = c
    · rw [here, mine] at given
      exact Option.some.inj given ▸ reads
    · rw [other here] at given
      exact Nat.lt_trans (ledger.drawn d k given) reads
  case apart =>
    intro d d' k given given'
    by_cases here : d = c
    · by_cases here' : d' = c
      · exact here.trans here'.symm
      · rw [here, mine] at given
        rw [other here', ← given] at given'
        exact absurd given' old
    · by_cases here' : d' = c
      · rw [here', mine] at given'
        rw [other here, ← given'] at given
        exact absurd given old
      · rw [other here] at given
        rw [other here'] at given'
        exact ledger.apart d d' k given given'

end Ledger

section
variable (pf : Platform)

/-- The challenge is what the first draw of the handshake gives. -/
theorem challengeClient_draws (c : ConnId) (a : Admission) (w : World) : Yields (challengeClient pf c a w)
    (fun next => next.1 = .closed ∨ next.1 = .auth a.fe (w.host.draw w.randomReads) ∧
      w.randomReads < next.2.randomReads) fun _ => True := by
  unfold challengeClient
  simp only
  apply Yields.bind (Yields.top _)
  intro loaded _ _
  split
  · exact .inl rfl
  next pubkey _ =>
  split
  · exact .inl rfl
  next cipher _ =>
  have queues := ((Queues.writeByte pf.q2 scmdHelloAck).comp
    (Queues.writeShort pf.q2 cipher.length)).comp (Queues.writeData pf.q2 cipher)
  have told {w : World} : Working AnyEdit True a.fe w (helloAck pf a.fe cipher w) :=
    .of_works (.queue queues) (sendMessages_working pf a.fe _)
  apply Yields.bind told
  intro w' _ works
  refine .inr ⟨rfl, Nat.lt_of_lt_of_le ?_ works.reads⟩
  let issued := ((w.update a.fe (Frontend.connect c a.greeting)).randomBytes challengeLength).2.update a.fe
    fun fe => { fe with publicKey := pubkey, challenge := w.host.draw w.randomReads }
  have keyed : issued.Works a.fe (sessionKeys a.fe (a.hash ++ w.host.draw w.randomReads) issued).2 :=
    sessionKeys_works a.fe _ issued
  exact Nat.lt_of_lt_of_le (Nat.lt_succ_self w.randomReads) (Nat.le_add_right_of_le keyed.reads)

variable {pf} {host : Host} {s s' : Server} {e : Event} {issued : Draws}

theorem step_ledger (ledger : Ledger host s issued) (stepped : s.step pf e = .ok s') :
    ∃ issued', Draws.Grows issued issued' ∧ Ledger host s' issued' := by
  obtain ⟨next, rfl, outcome⟩ := Server.step_outcome stepped
  cases outcome with
  | nothing _ same =>
    exact ⟨issued, .refl issued, ledger.put (by rw [same]) (by rw [same]) (by simp [same]) (by simp [same])⟩
  | served i mine works going =>
    refine ⟨issued, .refl issued, ledger.put works.host works.reads ?_ ?_⟩
    · rcases going with same | same <;> simp [same]
    · rcases going with same | same <;> simp [same]
  | hungUp i mine lost same =>
    refine ⟨issued, .refl issued, ledger.put ?_ ?_ (by simp [same]) (by simp [same])⟩
    · rw [same]
      rfl
    · rw [same]
      exact Nat.le_refl _
  | greeted a fresh admitted challenged =>
    obtain ⟨works, -⟩ := (challengeClient_works pf e.conn a s.world).of_ok challenged
    rcases (challengeClient_draws pf e.conn a s.world).of_ok challenged with closed | ⟨challenge, reads⟩
    · exact ⟨issued, .refl issued, ledger.put works.host works.reads (by simp [closed]) (by simp [closed])⟩
    · rw [ledger.same] at challenge
      exact ledger.issue fresh works.host challenge reads

/-- Nobody goes back behind a handshake. -/
theorem step_past {c : ConnId} (past : s.Past c) (stepped : s.step pf e = .ok s') : s'.Past c := by
  obtain ⟨next, rfl, outcome⟩ := Server.step_outcome stepped
  by_cases here : c = e.conn
  case neg =>
    rw [Server.Past, Server.put_phase_ne s here]
    exact past
  rw [Server.Past, here, Server.put_phase_self]
  rw [Server.Past, here] at past
  cases outcome with
  | nothing _ same => simp [same]
  | served i mine works going => rcases going with same | same <;> simp [same]
  | hungUp i mine lost same => simp [same]
  | greeted a fresh => exact absurd fresh past.1

/-- An answer is accepted on a connection only if it is the answer to the challenge there. -/
theorem accepted_answers (sound : s.Sound) {c : ConnId} {i j : Nat} {own response : Bytes}
    (waits : s.phase c = .auth i own) (stepped : s.step pf ⟨c, some response⟩ = .ok s')
    (accepted : s'.phase c = .main j) : Answers pf (s.world.fe i) own (response.take netReadLength) := by
  obtain ⟨next, resumed, rfl⟩ := Server.step_ok stepped
  change s.resume pf c (some (response.take netReadLength)) = .ok next at resumed
  simp only [Server.resume, waits] at resumed
  change (s.put c next).phase c = .main j at accepted
  rw [Server.put_phase_self] at accepted
  obtain ⟨-, going⟩ := (judge_works pf i (response.take netReadLength) s.world).of_ok resumed
  have opened : next.1 = .main i := by
    rcases going with same | same
    · rw [same] at accepted
      cases accepted
    · exact same
  exact ((judge_own pf (sound c i own waits) _).of_ok resumed).mp opened

/-- Which ciphertext an answer carries does not depend on who reads it. -/
theorem authCipher_name {q2 : Libq2} {name other cipher : Bytes} {msg : Buffer}
    (read : authCipher q2 name msg = .ok (.ok cipher)) : authCipher q2 other msg = .ok (.ok cipher) := by
  unfold authCipher at read ⊢
  split at read
  · cases read
  rename_i whole
  rw [if_neg whole]
  cases first : demand (q2.readByte msg) with
  | error fault => simp [first, Bind.bind, Except.bind] at read
  | ok result =>
    simp only [first, Bind.bind, Except.bind] at read ⊢
    split at read
    · cases read
    rename_i auth
    rw [if_neg auth]
    cases second : demand (q2.readShort result.2) with
    | error fault => simp [second] at read
    | ok size =>
      simp only [second] at read ⊢
      cases third : demand (q2.readData size.2 size.1) with
      | error fault => simp [third] at read
      | ok data =>
        simp only [third] at read ⊢
        split at read
        · cases read
        rename_i some
        rw [if_neg some]
        exact read

/-- The draw that a waiting connection was given, and where an accepted answer comes from. -/
theorem accepted_draw (sound : s.Sound) (ledger : Ledger host s issued) {c : ConnId} {i j : Nat}
    {own response : Bytes} (waits : s.phase c = .auth i own) (stepped : s.step pf ⟨c, some response⟩ = .ok s')
    (accepted : s'.phase c = .main j) : ∃ k cipher, issued c = some k ∧ own = host.draw k ∧
      authCipher pf.q2 [] (pf.q2.newBuffer (response.take netReadLength)) = .ok (.ok cipher) ∧
      pf.keys.privateDecrypt cipher = some (List.ofFn (pf.keys.sha256 (host.draw k))) := by
  obtain ⟨k, given, rfl⟩ := ledger.waiting c i own waits
  obtain ⟨cipher, read, decrypted⟩ := accepted_answers sound waits stepped accepted
  exact ⟨k, cipher, given, rfl, authCipher_name read, decrypted⟩

/-- An answer that was accepted on one connection is accepted on a later one only if the draws
of random bytes that were the challenges of the two, which are different draws, have the same
digest: what an eavesdropper has recorded is of no use to him, as long as nobody is disturbed
while waiting. -/
theorem replayed_only_by_collision {w : World} {past between : List Event} {s s' t t' : Server} {c d : ConnId}
    {i i' j j' : Nat} {own other response : Bytes}
    (calm : Allowed (Server.step pf) (Unrivalled pf) (Server.start w) (past ++ ⟨c, some response⟩ :: between))
    (ran : run (Server.step pf) (Server.start w) past = .ok s) (waits : s.phase c = .auth i own)
    (stepped : s.step pf ⟨c, some response⟩ = .ok s') (accepted : s'.phase c = .main i')
    (went_on : run (Server.step pf) s' between = .ok t) (waits_too : t.phase d = .auth j other)
    (stepped_too : t.step pf ⟨d, some response⟩ = .ok t') (accepted_too : t'.phase d = .main j') :
    ∃ m n, (m < s.world.randomReads ∧ own = w.host.draw m) ∧ (n < t.world.randomReads ∧ other = w.host.draw n) ∧
      m ≠ n ∧ pf.keys.sha256 own = pf.keys.sha256 other := by
  obtain ⟨calm_past, calm_later⟩ := allowed_append.mp calm
  have calm_between := (calm_later s ran).2 s' stepped
  -- everyone waits for the answer to a challenge of his own
  have keeps (s : Server) (e : Event) (s' : Server) (sound : s.Sound) (calm : Unrivalled pf s e)
      (stepped : s.step pf e = .ok s') : s'.Sound := step_sound pf sound calm stepped
  have start : (Server.start w).Sound := fun c i own waits => by simp [Server.start] at waits
  have sound := run_invariant Server.Sound keeps start calm_past ran
  have sound_between := run_invariant Server.Sound keeps (keeps s _ s' sound (calm_later s ran).1 stepped)
    calm_between went_on
  -- the draws of both are in the ledger
  have records (s : Server) (e : Event) (s' : Server) (issued : Draws) (ledger : Ledger w.host s issued)
      (_ : Unrivalled pf s e) (stepped : s.step pf e = .ok s') := step_ledger ledger stepped
  obtain ⟨before, -, ledger⟩ := run_recorded Draws.Grows .refl .trans _ records (.start w) calm_past ran
  obtain ⟨m, cipher, mine, rfl, read, decrypted⟩ := accepted_draw sound ledger waits stepped accepted
  obtain ⟨middle, grown, ledger'⟩ := step_ledger ledger stepped
  obtain ⟨after, grown', later⟩ := run_recorded Draws.Grows .refl .trans _ records ledger' calm_between went_on
  obtain ⟨n, cipher', theirs, rfl, read', decrypted'⟩ :=
    accepted_draw sound_between later waits_too stepped_too accepted_too
  refine ⟨m, n, ⟨ledger.drawn c m mine, rfl⟩, ⟨later.drawn d n theirs, rfl⟩, fun same => ?_, ?_⟩
  · have here : c = d := later.apart c d n (same ▸ grown' c m (grown c m mine)) theirs
    have behind : t.Past c := run_invariant (fun s => s.Past c)
      (fun _ _ _ past _ stepped => step_past past stepped) ⟨by simp [accepted], by simp [accepted]⟩
      calm_between went_on
    exact behind.2 j _ (here ▸ waits_too)
  · rw [read] at read'
    cases read'
    rw [decrypted] at decrypted'
    exact List.ofFn_injective (Option.some.inj decrypted')

end

/-- A host whose random bytes are always the same. -/
def stuckWorld : World := { openWorld with host := { Host.counting with random := fun _ _ => 0 } }

def stuckAnswer : Bytes := answerTo (List.replicate challengeLength 0)

/-- The answer of connection 0 is accepted once more, on connection 1. -/
theorem stuck_replayed : Yields
    (run (Server.step Platform.plain) (Server.start stuckWorld) [⟨0, some openGreeting⟩])
    (fun s => s.phase 0 = .auth 0 (List.replicate challengeLength 0) ∧
      Yields (s.step Platform.plain ⟨0, some stuckAnswer⟩) (fun s' => s'.phase 0 = .main 0 ∧
        Yields (s'.step Platform.plain ⟨0, none⟩) (fun r => r.phase 0 = .closed ∧
          Yields (r.step Platform.plain ⟨1, some openGreeting⟩)
            (fun t => t.phase 1 = .auth 0 (List.replicate challengeLength 0) ∧
              Yields (t.step Platform.plain ⟨1, some stuckAnswer⟩) (fun t' => t'.phase 1 = .main 0)
                fun _ => False)
            fun _ => False)
          fun _ => False)
        fun _ => False)
    fun _ => False := by decide +kernel

theorem unrivalled_of_quiet {pf : Platform} {s : Server} {e : Event}
    (quiet : ∀ c, c ≠ e.conn → s.phase c = .greeting ∨ s.phase c = .closed) : Unrivalled pf s e := by
  intro c i own apart waits
  rcases quiet c apart with phase | phase
  · rw [phase] at waits
    cases waits
  · rw [phase] at waits
    cases waits

theorem replayed_only_by_collision_stuck : ∃ s t : Server,
    run (Server.step Platform.plain) (Server.start stuckWorld) [⟨0, some openGreeting⟩] = .ok s ∧
    ∃ m n, (m < s.world.randomReads ∧ List.replicate challengeLength 0 = stuckWorld.host.draw m) ∧
      (n < t.world.randomReads ∧ List.replicate challengeLength 0 = stuckWorld.host.draw n) ∧ m ≠ n ∧
      KeyLib.plain.sha256 (List.replicate challengeLength 0) = KeyLib.plain.sha256 (List.replicate challengeLength 0) := by
  obtain ⟨s, ran, waits, rest⟩ := stuck_replayed.returns
  obtain ⟨s', stepped, accepted, rest⟩ := rest.returns
  obtain ⟨r, left, closed, rest⟩ := rest.returns
  obtain ⟨t, greeted, waits_too, rest⟩ := rest.returns
  obtain ⟨t', stepped_too, accepted_too⟩ := rest.returns
  have others {s s' : Server} {e : Event} (stepped : s.step Platform.plain e = .ok s') {c : ConnId}
      (apart : c ≠ e.conn) : s'.phase c = s.phase c := by
    obtain ⟨next, -, rfl⟩ := Server.step_ok stepped
    exact Server.put_phase_ne s apart next
  have first : (Server.start stuckWorld).step Platform.plain ⟨0, some openGreeting⟩ = .ok s := by
    obtain ⟨_, first, same⟩ := run_cons_ok ran
    exact first.trans same
  have quiet (c : ConnId) (apart : c ≠ 0) : s.phase c = .greeting := others first apart
  have quiet' (c : ConnId) (apart : c ≠ 0) : s'.phase c = .greeting := (others stepped apart).trans (quiet c apart)
  have quiet'' (c : ConnId) (apart : c ≠ 0) : r.phase c = .greeting := (others left apart).trans (quiet' c apart)
  have calm : Allowed (Server.step Platform.plain) (Unrivalled Platform.plain) (Server.start stuckWorld)
      ([⟨0, some openGreeting⟩] ++ ⟨0, some stuckAnswer⟩ :: [⟨0, none⟩, ⟨1, some openGreeting⟩]) := by
    refine ⟨unrivalled_of_quiet fun c _ => .inl rfl, fun s₁ first' => ?_⟩
    cases first.symm.trans first'
    refine ⟨unrivalled_of_quiet fun c apart => .inl (quiet c apart), fun s₂ stepped' => ?_⟩
    cases stepped.symm.trans stepped'
    refine ⟨unrivalled_of_quiet fun c apart => .inl (quiet' c apart), fun s₃ left' => ?_⟩
    cases left.symm.trans left'
    refine ⟨unrivalled_of_quiet fun c _ => ?_, fun _ _ => trivial⟩
    by_cases here : c = 0
    · exact .inr (here ▸ closed)
    · exact .inl (quiet'' c here)
  exact ⟨s, t, ran, replayed_only_by_collision calm ran waits stepped accepted
    ((run_cons _ left).trans (run_cons [] greeted)) waits_too stepped_too accepted_too⟩

end Q2Admin
