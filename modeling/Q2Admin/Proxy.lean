import Mathlib.Logic.Function.Basic
import Q2Admin.Go
import Q2Admin.Lib.Outcome
import Q2Admin.Lib.Runs

/-! `cloudadmin-proxy`, which stands between the game servers and the backend. A connection of
a game server is joined to one of its own to the backend by two goroutines that copy, one in
each direction, and both connections are closed when the first of the two is done. -/

namespace Q2Admin
open Go Lib

namespace Proxy

/-- The two ends of a session: the game server, and the backend. -/
inductive Side where
  | client
  | target
  deriving DecidableEq, Repr

def Side.other : Side → Side
  | client => target
  | target => client

/-- What comes from one side. -/
structure Stream where
  sent : Bytes := []
  /-- The sender has closed his end. -/
  ended : Bool := false
  unread : Bytes := []
  /-- What `io.Copy` has read and not written yet. -/
  held : Bytes := []
  written : Bytes := []
  /-- `io.Copy` has returned. -/
  copied : Bool := false
  deriving DecidableEq, Repr

structure Session where
  stream : Side → Stream := fun _ => {}
  /-- The connection to a side is broken. -/
  broken : Side → Bool := fun _ => false
  /-- The backend could not be dialed. -/
  refused : Bool := false
  /-- The goroutine of the session has returned, and both connections are closed. -/
  closed : Bool := false

inductive Move where
  | send (side : Side) (bytes : Bytes)
  | hangUp (side : Side)
  | breaks (side : Side)
  /-- `io.Copy` reads some of what has come from a side, or writes some of what it has read. -/
  | read (side : Side) (count : Nat)
  | write (side : Side) (count : Nat)
  /-- `io.Copy` returns, and `copy` tells so. -/
  | copied (side : Side)
  /-- The session is told that one of them has. -/
  | close
  deriving DecidableEq, Repr

/-- All that is sent has been written, and there will be no more. -/
def Stream.Complete (st : Stream) : Prop := st.ended = true ∧ st.held = [] ∧ st.unread = []

instance (st : Stream) : Decidable st.Complete := inferInstanceAs (Decidable (_ ∧ _))

namespace Session

def set (s : Session) (side : Side) (st : Stream) : Session := { s with stream := Function.update s.stream side st }

/-- One of the connections is no good any more. -/
def Dead (s : Session) : Prop := s.broken .client = true ∨ s.broken .target = true ∨ s.closed = true

instance (s : Session) : Decidable s.Dead := inferInstanceAs (Decidable (_ ∨ _))

/-- What a move makes of a session. One that is not possible makes no difference. -/
def act (s : Session) : Move → Session
  | .send side bytes =>
    let st := s.stream side
    if st.ended then s else s.set side { st with sent := st.sent ++ bytes, unread := st.unread ++ bytes }
  | .hangUp side => s.set side { s.stream side with ended := true }
  | .breaks side => { s with broken := Function.update s.broken side true }
  | .read side count =>
    let st := s.stream side
    if st.copied ∨ st.held ≠ [] ∨ s.broken side ∨ s.closed then s
    else s.set side { st with held := st.unread.take count, unread := st.unread.drop count }
  | .write side count =>
    let st := s.stream side
    if st.copied ∨ s.broken side.other ∨ s.closed then s
    else s.set side { st with written := st.written ++ st.held.take count, held := st.held.drop count }
  | .copied side =>
    let st := s.stream side
    if st.Complete ∨ s.Dead then s.set side { st with copied := true } else s
  | .close => if (s.stream .client).copied ∨ (s.stream .target).copied then { s with closed := true } else s

end Session

/-- What the proxy may stop on. -/
inductive Fault where
  /-- The address of a connection that was not accepted is logged. -/
  | nilConn
  deriving DecidableEq, Repr

inductive Event where
  /-- A connection is accepted, and the backend dialed for it. -/
  | accept (dialed : Bool)
  | acceptFails
  | move (session : Nat) (m : Move)
  deriving DecidableEq, Repr

structure State where
  count : Nat := 0
  session : Nat → Session := fun _ => {}

namespace State

def step (s : State) : Event → Except Fault State
  | .accept dialed => .ok {
    count := s.count + 1
    session := Function.update s.session s.count { refused := !dialed, closed := !dialed } }
  | .acceptFails => .error .nilConn
  | .move k m => .ok (if k < s.count then { s with session := Function.update s.session k ((s.session k).act m) } else s)

end State

/-! ## A session -/

/-- Nothing is lost on the way. -/
def Stream.Whole (st : Stream) : Prop := st.sent = st.written ++ st.held ++ st.unread

theorem Stream.Whole.begins {st : Stream} (whole : st.Whole) : st.written <+: st.sent := by
  rw [whole, List.append_assoc]
  exact List.prefix_append _ _

theorem Stream.Complete.written {st : Stream} (complete : st.Complete) (whole : st.Whole) : st.written = st.sent := by
  rw [whole, complete.2.1, complete.2.2, List.append_nil, List.append_nil]

/-- What has been sent is on its way or has arrived, and `io.Copy` returns only when that is so of all of it, or
on a connection that is no good; which it is, of its own, only for the backend that was not there. -/
structure Session.Sound (s : Session) : Prop where
  whole : ∀ side, (s.stream side).Whole
  copied : ∀ side, (s.stream side).copied = true → (s.stream side).Complete ∨ s.Dead
  closed : s.closed = true → s.refused = true ∨ s.broken .client = true ∨ s.broken .target = true ∨
    ∃ side, (s.stream side).Complete

theorem Session.set_self (s : Session) (side : Side) (st : Stream) : (s.set side st).stream side = st := by
  simp only [Session.set, Function.update_self]

theorem Session.set_ne (s : Session) {side other : Side} (apart : other ≠ side) (st : Stream) :
    (s.set side st).stream other = s.stream other := by
  simp only [Session.set, Function.update_of_ne apart]

theorem broken_of_breaks {s : Session} {other : Side} (side : Side) (broken : s.broken other = true) :
    (s.act (.breaks side)).broken other = true := by
  by_cases here : other = side
  · rw [here]
    exact Function.update_self side true s.broken
  · exact (Function.update_of_ne here true s.broken).trans broken

namespace Session.Sound
variable {s : Session} (sound : s.Sound)
include sound

/-- Another stream in the place of one that it goes on with. -/
theorem set {side : Side} {st : Stream} (whole : st.Whole) (complete : (s.stream side).Complete → st.Complete)
    (copied : st.copied = true → (s.stream side).copied = true ∨ st.Complete ∨ s.Dead) : (s.set side st).Sound where
  whole := by
    intro other
    by_cases here : other = side
    · rw [here, Session.set_self]
      exact whole
    · rw [Session.set_ne s here]
      exact sound.whole other
  copied := by
    intro other
    by_cases here : other = side
    · rw [here, Session.set_self]
      intro done
      rcases copied done with before | now
      · exact (sound.copied side before).imp_left complete
      · exact now
    · rw [Session.set_ne s here]
      exact sound.copied other
  closed := by
    intro closed
    rcases sound.closed closed with refused | client | target | ⟨other, done⟩
    · exact .inl refused
    · exact .inr (.inl client)
    · exact .inr (.inr (.inl target))
    · refine .inr (.inr (.inr ⟨other, ?_⟩))
      by_cases here : other = side
      · rw [here, Session.set_self]
        exact complete (here ▸ done)
      · rw [Session.set_ne s here]
        exact done

theorem breaks (side : Side) : (s.act (.breaks side)).Sound where
  whole := sound.whole
  copied := by
    intro other done
    rcases sound.copied other done with complete | client | target | closed
    · exact .inl complete
    · exact .inr (.inl (broken_of_breaks side client))
    · exact .inr (.inr (.inl (broken_of_breaks side target)))
    · exact .inr (.inr (.inr closed))
  closed := by
    intro closed
    rcases sound.closed closed with refused | client | target | complete
    · exact .inl refused
    · exact .inr (.inl (broken_of_breaks side client))
    · exact .inr (.inr (.inl (broken_of_breaks side target)))
    · exact .inr (.inr (.inr complete))

/-- Whatever comes next. -/
theorem act (m : Move) : (s.act m).Sound := by
  cases m with
  | send side bytes =>
    simp only [Session.act]
    split
    · exact sound
    next going =>
      have whole := sound.whole side
      refine sound.set ?_ (fun complete => absurd complete.1 going) .inl
      show _ ++ _ = _
      rw [whole, List.append_assoc]
  | hangUp side => exact sound.set (sound.whole side) (fun complete => ⟨rfl, complete.2⟩) .inl
  | breaks side => exact sound.breaks side
  | read side count =>
    simp only [Session.act]
    split
    · exact sound
    next able =>
      have empty : (s.stream side).held = [] := by
        by_contra busy
        exact able (.inr (.inl busy))
      have whole := sound.whole side
      refine sound.set ?_ (fun complete => ⟨complete.1, ?_, ?_⟩) .inl
      · rw [Stream.Whole, empty, List.append_nil] at whole
        show _ = _ ++ List.take _ _ ++ List.drop _ _
        rw [List.append_assoc, List.take_append_drop, whole]
      · show List.take _ _ = _
        rw [complete.2.2, List.take_nil]
      · show List.drop _ _ = _
        rw [complete.2.2, List.drop_nil]
  | write side count =>
    simp only [Session.act]
    split
    · exact sound
    · have whole := sound.whole side
      refine sound.set ?_ (fun complete => ⟨complete.1, ?_, complete.2.2⟩) .inl
      · show _ = _ ++ List.take _ _ ++ List.drop _ _ ++ _
        rw [List.append_assoc _ (List.take _ _), List.take_append_drop]
        exact whole
      · show List.drop _ _ = _
        rw [complete.2.1, List.drop_nil]
  | copied side =>
    simp only [Session.act]
    split
    next done => exact sound.set (sound.whole side) id fun _ => .inr done
    · exact sound
  | close =>
    simp only [Session.act]
    split
    next told =>
      refine ⟨sound.whole, fun _ _ => .inr (.inr (.inr rfl)), fun _ => ?_⟩
      have first : ∃ side, (s.stream side).copied = true := by
        rcases told with client | target
        · exact ⟨.client, client⟩
        · exact ⟨.target, target⟩
      obtain ⟨side, done⟩ := first
      rcases sound.copied side done with complete | client | target | closed
      · exact .inr (.inr (.inr ⟨side, complete⟩))
      · exact .inr (.inl client)
      · exact .inr (.inr (.inl target))
      · exact sound.closed closed
    · exact sound

end Session.Sound

/-! ## Runs -/

namespace State
variable {s s' : State}

/-- What the sessions are accepted with is sound, and what they have been given stays so. -/
theorem step_sound {e : Event} (sound : ∀ k, (s.session k).Sound) (stepped : s.step e = .ok s') (k : Nat) :
    (s'.session k).Sound := by
  cases e with
  | accept dialed =>
    obtain rfl := Except.ok.inj stepped
    by_cases here : k = s.count
    · rw [here]
      simp only [Function.update_self]
      exact ⟨fun _ => rfl, fun _ never => absurd never Bool.false_ne_true, fun closed => .inl closed⟩
    · simp only [Function.update_of_ne here]
      exact sound k
  | acceptFails => cases stepped
  | move j m =>
    obtain rfl := Except.ok.inj stepped
    split
    · by_cases here : k = j
      · rw [here]
        simp only [Function.update_self]
        exact (sound j).act m
      · simp only [Function.update_of_ne here]
        exact sound k
    · exact sound k

end State

theorem start_sound : ({} : Session).Sound :=
  ⟨fun _ => rfl, fun _ never => absurd never Bool.false_ne_true, fun never => absurd never Bool.false_ne_true⟩

/-- A move of another session. -/
def Event.elsewhere (k : Nat) : Event → Bool
  | .move j _ => j ≠ k
  | _ => false

theorem runs_iff (events : List Event) (s : State) :
    (∃ s', run State.step s events = .ok s') ↔ .acceptFails ∉ events := by
  induction events generalizing s with
  | nil => exact ⟨fun _ => List.not_mem_nil, fun _ => ⟨s, rfl⟩⟩
  | cons e rest ih =>
    cases e with
    | accept dialed =>
      rw [run_cons rest rfl, ih]
      simp
    | acceptFails => simp [run, State.step, Bind.bind, Except.bind]
    | move j m =>
      rw [run_cons rest rfl, ih]
      simp

/-- The same sessions have been accepted, and session `k` is in the same state. -/
structure SameSession (k : Nat) (s t : State) : Prop where
  count : s.count = t.count
  session : s.session k = t.session k

namespace SameSession
variable {k : Nat} {s s' t : State} {e : Event} (same : SameSession k s t)
include same

theorem unnoticed (away : e.elsewhere k = true) (stepped : s.step e = .ok s') : SameSession k s' t := by
  cases e with
  | accept dialed => exact absurd away Bool.false_ne_true
  | acceptFails => cases stepped
  | move j m =>
    obtain rfl := Except.ok.inj stepped
    have apart : k ≠ j := fun here => by simp [Event.elsewhere, here] at away
    split
    · refine ⟨same.count, ?_⟩
      simp only [Function.update_of_ne apart]
      exact same.session
    · exact same

theorem followed (here : e.elsewhere k = false) (stepped : s.step e = .ok s') :
    ∃ t', t.step e = .ok t' ∧ SameSession k s' t' := by
  cases e with
  | accept dialed =>
    obtain rfl := Except.ok.inj stepped
    refine ⟨_, rfl, congrArg (· + 1) same.count, ?_⟩
    simp only [same.count]
    by_cases new : k = t.count
    · rw [new, Function.update_self, Function.update_self]
    · rw [Function.update_of_ne new, Function.update_of_ne new]
      exact same.session
  | acceptFails => cases stepped
  | move j m =>
    obtain rfl := Except.ok.inj stepped
    have mine : j = k := by simpa [Event.elsewhere] using here
    refine ⟨_, rfl, ?_⟩
    rw [mine, same.count]
    split
    · refine ⟨rfl, ?_⟩
      simp only [Function.update_self]
      exact congrArg (Session.act · m) same.session
    · exact same

end SameSession

/-- However connections come, go and break, and whatever is copied when: the proxy goes on until
a connection cannot be accepted. What is written to a side is what the other has sent, from its
beginning on; and when a session is over that has not lost a connection, all that one of the two
has sent has been written, and that one has hung up. Nothing of this depends on other sessions. -/
theorem proxy_relays (events : List Event) :
    ((∃ s, run State.step {} events = .ok s) ↔ .acceptFails ∉ events) ∧
      ∀ s, run State.step {} events = .ok s → ∀ k,
        (∀ side, ((s.session k).stream side).written <+: ((s.session k).stream side).sent) ∧
        ((s.session k).closed = true → (s.session k).refused = false →
          (∀ side, (s.session k).broken side = false) →
          ∃ side, ((s.session k).stream side).ended = true ∧
            ((s.session k).stream side).written = ((s.session k).stream side).sent) ∧
        ∃ s', run State.step {} (events.filter fun e => !e.elsewhere k) = .ok s' ∧ s'.session k = s.session k := by
  refine ⟨runs_iff events {}, fun s ran k => ?_⟩
  have sound : ∀ k, (s.session k).Sound := run_invariant (fun s : State => ∀ k, (s.session k).Sound)
    (fun _ _ _ sound _ stepped => State.step_sound sound stepped) (fun _ => start_sound) (allowed_all _ _) ran
  refine ⟨fun side => ((sound k).whole side).begins, fun closed there joined => ?_, ?_⟩
  · rcases (sound k).closed closed with refused | client | target | ⟨side, complete⟩
    · exact absurd (there.symm.trans refused) Bool.false_ne_true
    · exact absurd ((joined .client).symm.trans client) Bool.false_ne_true
    · exact absurd ((joined .target).symm.trans target) Bool.false_ne_true
    · exact ⟨side, complete.1, complete.written ((sound k).whole side)⟩
  · have start : SameSession k {} {} := ⟨rfl, rfl⟩
    obtain ⟨s', alone, same⟩ := run_erase start (allowed_all _ _) ran
      (fun _ _ _ _ same away _ stepped => same.unnoticed away stepped)
      fun _ _ _ _ same here stepped => same.followed here stepped
    exact ⟨s', alone, same.session.symm⟩

/-- A game server says two words and leaves, while another is still there. -/
def shortSession : List Event := [
  .accept true,
  .move 0 (.send .client (ascii "hello")),
  .accept true,
  .move 0 (.read .client 3),
  .move 1 (.send .client (ascii "still here")),
  .move 0 (.write .client 3),
  .move 0 (.send .client (ascii " quit")),
  .move 0 (.hangUp .client),
  .move 0 (.read .client 7),
  .move 0 (.write .client 7),
  .move 0 (.copied .client),
  .move 0 .close]

theorem shortSession_ran : Yields (run State.step {} shortSession)
    (fun s => (s.session 0).closed = true ∧ (s.session 0).refused = false ∧
      ((s.session 0).broken .client = false ∧ (s.session 0).broken .target = false) ∧
      ((s.session 0).stream .target).ended = false ∧ ((s.session 0).stream .client).sent = ascii "hello quit")
    fun _ => False := by
  decide +kernel

theorem proxy_relays_shortSession : ∃ s, run State.step {} shortSession = .ok s ∧
    ((s.session 0).stream .client).written = ascii "hello quit" := by
  obtain ⟨s, ran, closed, there, ⟨client, target⟩, going, sent⟩ := shortSession_ran.returns
  have joined (side : Side) : (s.session 0).broken side = false := by
    cases side with
    | client => exact client
    | target => exact target
  obtain ⟨side, ended, written⟩ := ((proxy_relays shortSession).2 s ran 0).2.1 closed there joined
  have mine : side = .client := by
    cases side with
    | client => rfl
    | target => exact absurd (going.symm.trans ended) Bool.false_ne_true
  exact ⟨s, ran, by rw [mine] at written; exact written.trans sent⟩

end Proxy

end Q2Admin
