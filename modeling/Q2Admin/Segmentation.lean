import Q2Admin.Agreement
import Q2Admin.Connection

/-! Reads of a connection and the messages in them. Every read is parsed on its own, so the
stream of a frontend has to be cut between messages: on such cuts all that matters is the
stream, and on all others the last message of a read is not there to be read. -/

namespace Q2Admin
open Go Lib

/-! ## Messages that are cut off -/

/-- A part that is read either lies before the cut, or the cut is in it. -/
theorem cut_in {part rest front missing : Bytes} (whole : part ++ rest = front ++ missing) :
    (∃ behind, front = part ++ behind ∧ rest = behind ++ missing) ∨
      ∃ lacking, lacking ≠ [] ∧ part = front ++ lacking := by
  rcases List.append_eq_append_iff.mp whole with ⟨behind, split, left⟩ | ⟨lacking, split, left⟩
  · exact .inl ⟨behind, split, left⟩
  · by_cases none : lacking = []
    · subst none
      exact .inl ⟨[], by simp [split], by simpa using left.symm⟩
    · exact .inr ⟨lacking, none, split⟩

theorem takeWhile_nonzero {s : Bytes} (absent : 0 ∉ s) : s.takeWhile (fun b => decide (b ≠ 0)) = s := by
  have nonzero : ∀ b ∈ s, decide (b ≠ 0) = true := fun b member => by
    simpa using ne_of_mem_of_not_mem member absent
  have text : (s ++ []).takeWhile (fun b => decide (b ≠ 0)) = s ++ [].takeWhile (fun b => decide (b ≠ 0)) :=
    List.takeWhile_append_of_pos nonzero
  simpa using text

/-- The NUL of a string that is cut off is behind the cut. -/
theorem endless_of_cut {s : WireString} {front lacking : Bytes} (some : lacking ≠ [])
    (split : s.encode = front ++ lacking) : 0 ∉ front := by
  have dropped := congrArg List.dropLast split
  rw [WireString.encode, List.dropLast_concat, List.dropLast_append_of_ne_nil some] at dropped
  intro ends
  exact s.property (dropped ▸ List.mem_append_left _ ends)

section
variable {q2 : Libq2} (bounded : q2.Bounded) {i : Nat} {w : World}
include bounded

theorem readByte_short (empty : w.unread i = []) : Fails (w.readByte q2 i) := by
  have behind : ¬ (w.fe i).message.index + 1 ≤ (w.fe i).message.data.length := by
    have spent := List.drop_eq_nil_iff.mp empty
    omega
  refine ⟨.bufferRead, ?_⟩
  rw [World.readByte, bounded.readByte_eq, Buffer.take, if_neg behind]
  rfl

theorem readString_short (endless : 0 ∉ w.unread i) : Fails (w.readString q2 i) := by
  have text := takeWhile_nonzero endless
  have behind : ¬ (w.fe i).message.index + ((w.unread i).length + 1) ≤ (w.fe i).message.data.length := by
    simp only [World.unread, Buffer.unread, List.length_drop]
    omega
  refine ⟨.bufferRead, ?_⟩
  have unread : (w.fe i).message.data.drop (w.fe i).message.index = w.unread i := rfl
  rw [World.readString, bounded.readString_eq, unread, text]
  simp only [Buffer.take, behind, ↓reduceIte, Option.map_none]

variable {α : Type} {front missing : Bytes} (left : w.unread i = front)
include left

theorem byte_cut {x : Byte} {rest : Bytes} {f : Byte × World → Except Fault α}
    (whole : x :: rest = front ++ missing)
    (later : ∀ behind, rest = behind ++ missing → (w.advance i 1).unread i = behind →
      Fails (f (x, w.advance i 1))) : Fails (w.readByte q2 i >>= f) := by
  cases front with
  | nil => exact (readByte_short bounded left).bind
  | cons y behind =>
    obtain ⟨rfl, split⟩ := List.cons.inj whole
    refine Fails.later (World.readByte_eq i q2 left) (later behind split ?_)
    rw [World.unread_advance, left]
    rfl

theorem string_cut {s : WireString} {rest : Bytes} {f : Bytes × World → Except Fault α}
    (whole : s.encode ++ rest = front ++ missing)
    (later : ∀ behind, rest = behind ++ missing → (w.advance i s.encode.length).unread i = behind →
      Fails (f (s.val, w.advance i s.encode.length))) : Fails (w.readString q2 i >>= f) := by
  rcases cut_in whole with ⟨behind, split, more⟩ | ⟨lacking, some, split⟩
  · rw [split] at left
    exact Fails.later (World.readString_eq i q2 s left)
      (later behind more (World.unread_advance_append i left))
  · apply Fails.bind
    apply readString_short bounded
    rw [left]
    exact endless_of_cut some split

end

section
variable (pf : Platform) (bounded : pf.q2.Bounded) {i : Nat} {w : World} {front missing : Bytes}
  (left : w.unread i = front)
include bounded left

theorem player_cut {α : Type} {e : PlayerEntry} {rest : Bytes} {f : Option Nat × World → Except Fault α}
    (whole : e.encode ++ rest = front ++ missing)
    (later : ∀ behind result, rest = behind ++ missing → result.2.unread i = behind → Fails (f result)) :
    Fails (parsePlayer pf i w >>= f) := by
  rcases cut_in whole with ⟨behind, split, more⟩ | ⟨lacking, some, split⟩
  · rw [split] at left
    rw [parsePlayer_eq pf i e left]
    cases delivered : deliverPlayer pf i e w with
    | error fault => exact ⟨fault, rfl⟩
    | ok result => exact later behind result more (deliverPlayer_unread pf i e left delivered)
  · apply Fails.bind
    apply byte_cut bounded left split
    intro userinfo first left₁
    apply string_cut bounded left₁ first
    intro version second left₂
    rw [← List.append_nil e.version.encode] at second
    apply string_cut bounded left₂ second
    intro none third _
    exact absurd (List.append_eq_nil_iff.mp third.symm).2 some

theorem players_cut (entries : List PlayerEntry) (some : missing ≠ [])
    (whole : entries.flatMap PlayerEntry.encode = front ++ missing) :
    Fails (parsePlayers pf i entries.length w) := by
  induction entries generalizing w front with
  | nil => exact absurd (List.append_eq_nil_iff.mp whole.symm).2 some
  | cons e rest ih =>
    apply player_cut pf bounded left whole
    intro behind result more unread
    exact ih unread more

/-- A message that is cut off in its payload. -/
theorem dispatch_cut (m : ClientMessage) (some : missing ≠ []) (whole : m.payload = front ++ missing) :
    Fails (dispatch pf i m.opcode w) := by
  have exhausted {behind : Bytes} : [] ≠ behind ++ missing := fun none =>
    some (List.append_eq_nil_iff.mp none.symm).2
  rw [← List.append_nil m.payload] at whole
  cases m with
  | ping => exact absurd whole exhausted
  | print level text =>
    change Fails (parsePrint pf i w)
    apply byte_cut bounded left whole
    intro behind more left₁
    apply string_cut bounded left₁ more
    exact fun _ none _ => absurd none exhausted
  | map mapname =>
    change Fails (parseMap pf i w)
    apply string_cut bounded left whole
    exact fun _ none _ => absurd none exhausted
  | playerList players =>
    have count : (UInt8.ofNat players.val.length).toNat = players.val.length :=
      UInt8.toNat_ofNat_of_lt' players.property
    change Fails (parsePlayerlist pf i w)
    apply byte_cut bounded left whole
    intro behind more left₁
    simp only [count]
    exact players_cut pf bounded left₁ players.val some ((List.append_nil _).symm.trans more)
  | playerUpdate client userinfo =>
    change Fails (parsePlayerUpdate pf i w)
    apply byte_cut bounded left whole
    intro behind more left₁
    apply string_cut bounded left₁ more
    exact fun _ none _ => absurd none exhausted
  | connect player =>
    change Fails (parseConnect pf i w)
    apply player_cut pf bounded left whole
    exact fun _ _ none _ => absurd none exhausted
  | disconnect client =>
    change Fails (parseDisconnect pf i w)
    apply byte_cut bounded left whole
    exact fun _ none _ => absurd none exhausted
  | teleport client target =>
    change Fails (parseCommand pf i w)
    apply byte_cut bounded left whole
    intro behind more left₁
    apply byte_cut bounded left₁ more
    intro text last left₂
    apply string_cut bounded left₂ last
    exact fun _ none _ => absurd none exhausted
  | invite client text =>
    change Fails (parseCommand pf i w)
    apply byte_cut bounded left whole
    intro behind more left₁
    apply byte_cut bounded left₁ more
    intro text last left₂
    apply string_cut bounded left₂ last
    exact fun _ none _ => absurd none exhausted

/-- What there is of a message is not handled without the rest. -/
theorem parseOne_cut (m : ClientMessage) (begun : front ≠ []) (some : missing ≠ [])
    (whole : m.encode = front ++ missing) : Fails (parseOne pf i w) := by
  cases front with
  | nil => exact absurd rfl begun
  | cons x behind =>
    obtain ⟨rfl, split⟩ := List.cons.inj whole
    apply Fails.later (World.readByte_eq i pf.q2 left)
    apply dispatch_cut pf bounded _ m some split
    rw [World.unread_advance, left]
    rfl

end

/-- A cut is between two messages, or inside one. -/
theorem cut_between (messages : List ClientMessage) {front missing : Bytes}
    (whole : encodeAll messages = front ++ missing) :
    (∃ done later, messages = done ++ later ∧ front = encodeAll done ∧ missing = encodeAll later) ∨
      ∃ done m part lacking, front = encodeAll done ++ part ∧ part ≠ [] ∧ lacking ≠ [] ∧
        ClientMessage.encode m = part ++ lacking := by
  induction messages generalizing front with
  | nil =>
    obtain ⟨rfl, rfl⟩ := List.append_eq_nil_iff.mp whole.symm
    exact .inl ⟨[], [], rfl, rfl, rfl⟩
  | cons m rest ih =>
    have ahead : m.encode ++ encodeAll rest = front ++ missing := whole
    rcases cut_in ahead with ⟨behind, split, more⟩ | ⟨lacking, some, split⟩
    · rcases ih more with ⟨done, later, rfl, rfl, last⟩ | ⟨done, n, part, lacking, rfl, inside⟩
      · exact .inl ⟨m :: done, later, rfl, split, last⟩
      · refine .inr ⟨m :: done, n, part, lacking, ?_, inside⟩
        rw [split, ← List.append_assoc]
        rfl
    · by_cases begun : front = []
      · subst begun
        exact .inl ⟨[], m :: rest, rfl, rfl, whole.symm⟩
      · exact .inr ⟨[], m, front, lacking, rfl, begun, some, split⟩

section
variable (pf : Platform) {i : Nat}

/-- The loop has turns enough to come to the message that is cut off. -/
theorem parseLoop_cut (bounded : pf.q2.Bounded) {m : ClientMessage} {part lacking : Bytes} (begun : part ≠ [])
    (some : lacking ≠ []) (split : m.encode = part ++ lacking) (done : List ClientMessage) {fuel : Nat}
    (enough : done.length < fuel) {w : World} (left : w.unread i = encodeAll done ++ part) :
    Fails (parseLoop pf i fuel w) := by
  obtain ⟨fuel, rfl⟩ : ∃ fuel', fuel = fuel' + 1 := ⟨fuel - 1, by omega⟩
  induction done generalizing fuel w with
  | nil =>
    have more : ¬ (w.fe i).message.data.length ≤ (w.fe i).message.index := by
      rw [behind_iff, left]
      exact begun
    rw [parseLoop, if_neg more]
    exact (parseOne_cut pf bounded left m begun some split).bind
  | cons first rest ih =>
    have ahead : w.unread i = first.encode ++ (encodeAll rest ++ part) :=
      left.trans (List.append_assoc ..)
    rw [parseLoop_message pf i first ahead]
    cases delivered : deliver pf i w first with
    | error fault => exact ⟨fault, rfl⟩
    | ok w' =>
      obtain ⟨fuel, rfl⟩ : ∃ fuel', fuel = fuel' + 1 := by
        simp only [List.length_cons] at enough
        exact ⟨fuel - 1, by omega⟩
      exact ih (deliver_unread pf i ahead delivered) fuel (Nat.lt_of_succ_lt_succ enough)

/-! ## Messages that are whole -/

/-- `v` has had the messages delivered one by one, `w` as they are read from a connection. -/
structure InStep (i : Nat) (v w : World) : Prop where
  agrees : v.Agrees i w
  ready : (v.fe i).Ready
  plain : (v.fe i).encrypted = false

variable {v w : World}

theorem InStep.clear (inStep : InStep i v w) : (w.fe i).encrypted = false :=
  (inStep.agrees.field i (fun fe => fe.encrypted) fun _ => rfl).trans inStep.plain

theorem InStep.live (inStep : InStep i v w) : i < w.frontends.length := by
  rw [inStep.agrees.length]
  exact live_of_equipped i inStep.ready.equipped

theorem deliver_inStep (inStep : InStep i v w) {m : ClientMessage} (formed : m.WellFormed (v.fe i)) :
    ∃ v' w', deliver pf i v m = .ok v' ∧ deliver pf i w m = .ok w' ∧ InStep i v' w' := by
  obtain ⟨v', delivered, keeps⟩ := ((deliver_kept pf i m v).mono (fun _ => id)
    fun _ missing => missing ⟨formed, inStep.ready.equipped⟩).returns
  obtain ⟨w', followed, agrees⟩ := (deliver_agrees pf inStep.agrees inStep.plain m).returns delivered
  have encrypted : (v'.fe i).encrypted = (v.fe i).encrypted :=
    (World.field_of_frames keeps.frames i (fun fe => fe.encrypted) fun _ => rfl).trans
      (World.field_advance i v _ i (fun fe => fe.encrypted) fun _ _ => rfl)
  refine ⟨v', w', delivered, followed, agrees, ?_, encrypted.trans inStep.plain⟩
  exact keeps.ready i ((World.ready_advance i v _ i).mpr inStep.ready)

theorem deliverAll_inStep (messages : List ClientMessage) (inStep : InStep i v w)
    (formed : Allowed (deliver pf i) (fun w m => m.WellFormed (w.fe i)) v messages) :
    ∃ v' w', run (deliver pf i) v messages = .ok v' ∧ run (deliver pf i) w messages = .ok w' ∧ InStep i v' w' := by
  induction messages generalizing v w with
  | nil => exact ⟨v, w, rfl, rfl, inStep⟩
  | cons m rest ih =>
    obtain ⟨v₁, w₁, delivered, followed, inStep₁⟩ := deliver_inStep pf inStep formed.1
    obtain ⟨v', w', ran, went, last⟩ := ih inStep₁ (formed.2 v₁ delivered)
    exact ⟨v', w', (run_cons rest delivered).trans ran, (run_cons rest followed).trans went, last⟩

theorem parseLoop_inStep (messages : List ClientMessage) {fuel : Nat} (enough : messages.length < fuel)
    (inStep : InStep i v w) (formed : Allowed (deliver pf i) (fun w m => m.WellFormed (w.fe i)) v messages)
    (left : w.unread i = encodeAll messages) :
    ∃ v' w', run (deliver pf i) v messages = .ok v' ∧ parseLoop pf i fuel w = .ok w' ∧ InStep i v' w' := by
  rw [parseLoop_run pf i messages enough left]
  exact deliverAll_inStep pf messages inStep formed

/-! ## Reads -/

theorem receive_clear (aes : Aes) {fe : Frontend} (clear : fe.encrypted = false) (input : Bytes) :
    fe.receive aes input = .ok (some input) := by
  simp [Frontend.receive, clear]

/-- Every read is wrapped in a buffer of its own. -/
theorem InStep.received (inStep : InStep i v w) (read : Bytes) :
    ((w.setMessage i (pf.q2.newBuffer read)).fe i).message = ⟨read, 0, read.length⟩ := by
  rw [World.setMessage, World.fe_update_self w inStep.live]
  exact pf.q2.newBuffer_eq read

/-- What the loop of the connection makes of a read of whole messages. -/
theorem serve_inStep (inStep : InStep i v w) {messages : List ClientMessage}
    (formed : Allowed (deliver pf i) (fun w m => m.WellFormed (w.fe i)) v messages) :
    ∃ v' w', run (deliver pf i) v messages = .ok v' ∧
      serve pf i (encodeAll messages) w = .ok (.main i, w') ∧ InStep i v' w' := by
  have received := receive_clear pf.aes inStep.clear (encodeAll messages)
  have agrees : v.Agrees i (w.setMessage i (pf.q2.newBuffer (encodeAll messages))) :=
    inStep.agrees.read (fun _ => rfl) fun _ => rfl
  have message := inStep.received pf (encodeAll messages)
  have left : (w.setMessage i (pf.q2.newBuffer (encodeAll messages))).unread i = encodeAll messages := by
    rw [World.unread, message]
    rfl
  obtain ⟨v', w₁, ran, parsed, inStep₁⟩ := parseLoop_inStep pf messages
    (Nat.lt_succ_of_le (length_le_encodeAll messages)) ⟨agrees, inStep.ready, inStep.plain⟩ formed left
  obtain ⟨d, connected⟩ := Option.isSome_iff_exists.mp inStep₁.ready.connection
  obtain ⟨w', sent, last⟩ := sendMessages_agrees pf inStep₁.agrees inStep₁.plain connected
  refine ⟨v', w', ran, ?_, last, inStep₁.ready, inStep₁.plain⟩
  simp only [serve, received, parseMessage, message, parsed, sent, Bind.bind, Except.bind]

theorem serve_cut (bounded : pf.q2.Bounded) (inStep : InStep i v w) (done : List ClientMessage)
    {m : ClientMessage} {part lacking : Bytes} (begun : part ≠ []) (some : lacking ≠ [])
    (split : m.encode = part ++ lacking) : Fails (serve pf i (encodeAll done ++ part) w) := by
  have message := inStep.received pf (encodeAll done ++ part)
  have turns := length_le_encodeAll done
  apply Fails.later (receive_clear pf.aes inStep.clear _)
  apply Fails.bind
  apply parseLoop_cut pf bounded begun some split done
  · simp only [message, List.length_append]
    omega
  · rw [World.unread, message]
    rfl

end

/-- The reads of a connection into which a stream is cut. -/
def reads (c : ConnId) (cut : List Bytes) : List Event := cut.map fun read => ⟨c, some read⟩

/-- No message is cut in two: every read is of whole messages. -/
def Aligned (cut : List Bytes) (messages : List ClientMessage) : Prop :=
  ∃ groups : List (List ClientMessage), groups.flatten = messages ∧ cut = groups.map encodeAll

section
variable (pf : Platform) {i : Nat} {c : ConnId} {v : World} {s : Server} (session : s.phase c = .main i)
  (inStep : InStep i v s.world)
include session

theorem step_read {read : Bytes} (fits : read.length ≤ netReadLength) :
    s.step pf ⟨c, some read⟩ = serve pf i read s.world >>= fun next => .ok (s.put c next) := by
  have whole : (Event.input ⟨c, some read⟩) = some read := congrArg some (List.take_of_length_le fits)
  simp only [Server.step, Server.resume, whole, session]

include inStep

theorem step_inStep {messages : List ClientMessage} (fits : (encodeAll messages).length ≤ netReadLength)
    (formed : Allowed (deliver pf i) (fun w m => m.WellFormed (w.fe i)) v messages) :
    ∃ s' v', s.step pf ⟨c, some (encodeAll messages)⟩ = .ok s' ∧ run (deliver pf i) v messages = .ok v' ∧
      InStep i v' s'.world ∧ s'.phase = s.phase := by
  obtain ⟨v', w', ran, served, last⟩ := serve_inStep pf inStep formed
  refine ⟨s.put c (.main i, w'), v', ?_, ran, last, ?_⟩
  · rw [step_read pf session fits, served]
    rfl
  · show Function.update s.phase c (.main i) = s.phase
    rw [← session, Function.update_eq_self]

theorem reads_inStep (groups : List (List ClientMessage))
    (fits : ∀ read ∈ groups.map encodeAll, read.length ≤ netReadLength)
    (formed : Allowed (deliver pf i) (fun w m => m.WellFormed (w.fe i)) v groups.flatten) :
    ∃ s' v', run (Server.step pf) s (reads c (groups.map encodeAll)) = .ok s' ∧
      run (deliver pf i) v groups.flatten = .ok v' ∧ InStep i v' s'.world ∧ s'.phase = s.phase := by
  induction groups generalizing v s with
  | nil => exact ⟨s, v, rfl, rfl, inStep, rfl⟩
  | cons group rest ih =>
    obtain ⟨front, behind⟩ := allowed_append.mp formed
    obtain ⟨s₁, v₁, stepped, ran, inStep₁, still⟩ :=
      step_inStep pf session inStep (fits _ (List.mem_cons_self ..)) front
    obtain ⟨s', v', runs, delivered, last, phase⟩ := ih ((congrFun still c).trans session) inStep₁
      (fun read member => fits read (List.mem_cons_of_mem _ member)) (behind v₁ ran)
    exact ⟨s', v', (run_cons _ stepped).trans runs, (run_append _ ran).trans delivered, last,
      phase.trans still⟩

/-- The loop gets past a read only if it is one of whole messages. -/
theorem aligned_of_reads (bounded : pf.q2.Bounded) (cut : List Bytes) {messages : List ClientMessage}
    (fits : ∀ read ∈ cut, read.length ≤ netReadLength) (whole : cut.flatten = encodeAll messages)
    (formed : Allowed (deliver pf i) (fun w m => m.WellFormed (w.fe i)) v messages) {s' : Server}
    (ran : run (Server.step pf) s (reads c cut) = .ok s') : Aligned cut messages := by
  induction cut generalizing v s messages with
  | nil =>
    cases messages with
    | nil => exact ⟨[], rfl, rfl⟩
    | cons m rest => exact absurd whole (List.cons_ne_nil _ _).symm
  | cons read rest ih =>
    have fit := fits read (List.mem_cons_self ..)
    obtain ⟨middle, stepped, later⟩ := run_cons_ok ran
    rcases cut_between messages whole.symm with ⟨done, behind, rfl, rfl, more⟩ | ⟨done, m, part, lacking, rfl, inside⟩
    · obtain ⟨first, next⟩ := allowed_append.mp formed
      obtain ⟨s₁, v₁, same, delivered, inStep₁, still⟩ := step_inStep pf session inStep fit first
      rw [same] at stepped
      obtain rfl := Except.ok.inj stepped
      obtain ⟨groups, rfl, rfl⟩ := ih ((congrFun still c).trans session) inStep₁
        (fun read member => fits read (List.mem_cons_of_mem _ member)) more (next v₁ delivered) later
      exact ⟨done :: groups, rfl, rfl⟩
    · obtain ⟨fault, failed⟩ := serve_cut pf bounded inStep done inside.1 inside.2.1 inside.2.2
      rw [step_read pf session fit, failed] at stepped
      exact absurd stepped (by simp [Bind.bind, Except.bind])

end

/-- TCP segmentation does matter: two ways of cutting a stream into reads come to the same
frontend and the same replies if and only if both cut between messages. -/
theorem segmentation_iff {pf : Platform} (bounded : pf.q2.Bounded) {i : Nat} {c : ConnId} {s : Server}
    (session : s.phase c = .main i) (ready : (s.world.fe i).Ready)
    (plain : (s.world.fe i).encrypted = false) {messages : List ClientMessage}
    (formed : Allowed (deliver pf i) (fun w m => m.WellFormed (w.fe i)) s.world messages)
    {one two : List Bytes} (oneWhole : one.flatten = encodeAll messages)
    (twoWhole : two.flatten = encodeAll messages) (oneFits : ∀ read ∈ one, read.length ≤ netReadLength)
    (twoFits : ∀ read ∈ two, read.length ≤ netReadLength) :
    (∃ s₁ s₂, run (Server.step pf) s (reads c one) = .ok s₁ ∧ run (Server.step pf) s (reads c two) = .ok s₂ ∧
      s₁.world.Agrees i s₂.world ∧ s₁.phase = s₂.phase) ↔ Aligned one messages ∧ Aligned two messages := by
  have inStep : InStep i s.world s.world := ⟨World.Agrees.refl ready.atEnd, ready, plain⟩
  constructor
  · rintro ⟨s₁, s₂, first, second, -⟩
    exact ⟨aligned_of_reads pf session inStep bounded one oneFits oneWhole formed first,
      aligned_of_reads pf session inStep bounded two twoFits twoWhole formed second⟩
  · rintro ⟨⟨groups, rfl, rfl⟩, ⟨others, same, rfl⟩⟩
    obtain ⟨s₁, v₁, first, delivered, left, phase₁⟩ := reads_inStep pf session inStep groups oneFits formed
    obtain ⟨s₂, v₂, second, again, right, phase₂⟩ :=
      reads_inStep pf session inStep others twoFits (same ▸ formed)
    rw [same, delivered] at again
    obtain rfl := Except.ok.inj again
    exact ⟨s₁, s₂, first, second, left.agrees.symm.trans right.agrees, phase₁.trans phase₂.symm⟩

def sessionServer : Server := ⟨sessionWorld, fun _ => .main 0⟩

/-- All in one read, or a read for each message. -/
theorem segmentation_iff_claire : ∃ s₁ s₂,
    run (Server.step Platform.plain) sessionServer (reads 0 [encodeAll claireMessages]) = .ok s₁ ∧
    run (Server.step Platform.plain) sessionServer (reads 0 (claireMessages.map ClientMessage.encode)) = .ok s₂ ∧
    s₁.world.Agrees 0 s₂.world ∧ s₁.phase = s₂.phase :=
  (segmentation_iff Libq2.plain_bounded rfl sessionWorld_ready rfl claire_formed (List.append_nil _) rfl
    (by decide) (by decide)).mpr
    ⟨⟨[claireMessages], rfl, rfl⟩, ⟨claireMessages.map fun m => [m], rfl, by decide⟩⟩

/-- The name of a map, whose second half is in the next read. -/
def mapname : ClientMessage := .map ⟨ascii "q2dm1", by decide⟩

def cutMapname : List Bytes := [mapname.encode.take 3, mapname.encode.drop 3]

theorem cutMapname_fails : Yields (run (Server.step Platform.plain) sessionServer (reads 0 cutMapname))
    (fun _ => False) fun _ => True := by
  decide +kernel

theorem segmentation_matters : ¬ ∀ (pf : Platform) (s : Server) (c : ConnId) (i : Nat)
    (messages : List ClientMessage) (one two : List Bytes), pf.q2.Bounded → s.phase c = .main i →
    (s.world.fe i).Ready → (s.world.fe i).encrypted = false →
    Allowed (deliver pf i) (fun w m => m.WellFormed (w.fe i)) s.world messages →
    one.flatten = encodeAll messages → two.flatten = encodeAll messages →
    (∀ read ∈ one, read.length ≤ netReadLength) → (∀ read ∈ two, read.length ≤ netReadLength) →
    ∃ s₁ s₂, run (Server.step pf) s (reads c one) = .ok s₁ ∧ run (Server.step pf) s (reads c two) = .ok s₂ ∧
      s₁.world.Agrees i s₂.world ∧ s₁.phase = s₂.phase := by
  intro same
  obtain ⟨s₁, s₂, -, second, -⟩ := same Platform.plain sessionServer 0 0 [mapname] [mapname.encode] cutMapname
    Libq2.plain_bounded rfl sessionWorld_ready rfl ⟨trivial, fun _ _ => trivial⟩ rfl rfl (by decide) (by decide)
  exact cutMapname_fails.of_ok second

end Q2Admin
