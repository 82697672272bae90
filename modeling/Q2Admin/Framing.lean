import Q2Admin.Lib.Runs
import Q2Admin.Handlers
import Q2Admin.Wire

/-! The message loop keeps its framing. A handler that reads its payload from the buffer
is the same as delivering the decoded message, and delivering moves the index by the
length of the encoding whatever path is taken. -/

namespace Q2Admin
open Go Lib

namespace World
variable (i : Nat)

def unread (w : World) : Bytes := (w.fe i).message.unread

def advance (count : Nat) (w : World) : World :=
  w.update i fun fe => { fe with message := fe.message.advance count }

theorem unread_advance (w : World) (count : Nat) :
    (w.advance i count).unread i = (w.unread i).drop count := by
  by_cases live : i < w.frontends.length
  · rw [unread, advance, fe_update_self w live, Buffer.unread_advance]
    rfl
  · have none : w.unread i = [] := by
      rw [unread, fe_outside w live]
      rfl
    rw [advance, update_outside w live, none, List.drop_nil]

theorem unread_advance_append {w : World} {front rest : Bytes} (left : w.unread i = front ++ rest) :
    (w.advance i front.length).unread i = rest := by
  rw [unread_advance, left, List.drop_left]

theorem advance_advance (w : World) (m n : Nat) :
    (w.advance i m).advance i n = w.advance i (m + n) := by
  simp only [advance, update_update, Buffer.advance_advance]

theorem advance_zero (w : World) : w.advance i 0 = w := by
  have list : w.frontends.modify i (fun fe => { fe with message := fe.message.advance 0 }) =
    w.frontends := List.modify_id i w.frontends
  rw [advance, World.update, list]

theorem frames_advance (w : World) (count : Nat) : (w.advance i count).frames =
    w.frames.modify i fun fe => { fe with message := fe.message.advance count } := by
  apply List.ext_getElem?
  intro n
  simp only [frames, advance, World.update, List.getElem?_map, List.getElem?_modify]
  by_cases same : i = n
  · cases w.frontends[n]? <;> simp [same, Frontend.frame]
  · simp [same]

theorem field_advance {α : Type} (w : World) (count j : Nat) (field : Frontend → α)
    (apart : ∀ (fe : Frontend) msg, field { fe with message := msg } = field fe) :
    field ((w.advance i count).fe j) = field (w.fe j) :=
  fe_update_field w i j field fun fe => apart fe _

theorem equipped_advance (w : World) (count j : Nat) :
    ((w.advance i count).fe j).Equipped ↔ (w.fe j).Equipped := by
  have equipped := field_advance i w count j (fun fe => fe.Equipped) fun fe msg =>
    propext ⟨fun s => ⟨⟨s.1.1, s.1.2⟩, s.2, s.3⟩, fun s => ⟨⟨s.1.1, s.1.2⟩, s.2, s.3⟩⟩
  exact iff_of_eq equipped

theorem ready_advance (w : World) (count j : Nat) :
    ((w.advance i count).fe j).Ready ↔ (w.fe j).Ready := by
  have ready := field_advance i w count j (fun fe => fe.Ready) fun fe msg =>
    propext ⟨fun r => ⟨⟨r.1.1, r.1.2⟩, r.2, r.3, r.4⟩, fun r => ⟨⟨r.1.1, r.1.2⟩, r.2, r.3, r.4⟩⟩
  exact iff_of_eq ready

theorem Keeps.advance {w w' : World} (keeps : w.Keeps w') (count : Nat) :
    (w.advance i count).Keeps (w'.advance i count) where
  frames := by rw [frames_advance, frames_advance, keeps.frames]
  equipped := by
    intro j equipped
    rw [equipped_advance] at equipped ⊢
    exact keeps.equipped j equipped
  atEnd := by
    intro j atEnd
    have before := field_advance i w count j (fun fe => fe.messageOut) fun _ _ => rfl
    have behind := field_advance i w' count j (fun fe => fe.messageOut) fun _ _ => rfl
    exact behind ▸ keeps.atEnd j (before ▸ atEnd)
  keysFit := by
    intro j fit
    have before := field_advance i w count j (fun fe => fe.KeysFit) fun _ _ => rfl
    have behind := field_advance i w' count j (fun fe => fe.KeysFit) fun _ _ => rfl
    exact behind ▸ keeps.keysFit j (before ▸ fit)

theorem readByte_eq (q2 : Libq2) {w : World} {x : Byte} {rest : Bytes}
    (left : w.unread i = x :: rest) : w.readByte q2 i = .ok (x, w.advance i 1) := by
  unfold World.readByte
  rw [q2.readByte_unread left]
  exact congrArg (fun w => Except.ok (x, w)) (update_congr rfl)

theorem readString_eq (q2 : Libq2) {w : World} (s : WireString) {rest : Bytes}
    (left : w.unread i = s.encode ++ rest) :
    w.readString q2 i = .ok (s.val, w.advance i s.encode.length) := by
  unfold World.readString
  rw [q2.readString_unread s left]
  exact congrArg (fun w => Except.ok (s.val, w)) (update_congr rfl)

theorem unread_of_frames {w w' : World} (same : w'.frames = w.frames) : w'.unread i = w.unread i :=
  field_of_frames same i (fun fe => fe.message.unread) fun _ => rfl

end World

section
variable (pf : Platform) (i : Nat)

/-! ## Delivering a message -/

def deliverPlayer (e : PlayerEntry) (w : World) : Except Fault (Option Nat × World) :=
  onPlayer pf i e.client e.userinfo.val e.version.val (w.advance i e.encode.length)

def deliverPlayers : List PlayerEntry → World → Except Fault World
  | [], w => .ok w
  | e :: rest, w => do
    let (_, w) ← deliverPlayer pf i e w
    deliverPlayers rest w

/-- The handler of a message, with the index moved behind the payload. -/
def handle (m : ClientMessage) (w : World) : Except Fault World :=
  let past := w.advance i m.payload.length
  match m with
  | .ping => pong pf i w
  | .print level text => onPrint pf i level text.val past
  | .map mapname => .ok (onMap i mapname.val past)
  | .playerList players => deliverPlayers pf i players.val (w.advance i 1)
  | .playerUpdate client userinfo => onPlayerUpdate pf i client userinfo.val past
  | .connect player => do
    let (slot, w) ← deliverPlayer pf i player w
    .ok (startConnect i slot w)
  | .disconnect client => .ok (onDisconnect i client past)
  | .teleport client target => .ok (onTeleport pf i client target.val past)
  | .invite client _ => onInvite pf i client past

def deliver (w : World) (m : ClientMessage) : Except Fault World := handle pf i m (w.advance i 1)

/-! ## Reading is delivering -/

theorem parsePlayer_eq (e : PlayerEntry) {w : World} {rest : Bytes}
    (left : w.unread i = e.encode ++ rest) : parsePlayer pf i w = deliverPlayer pf i e w := by
  have client := World.readByte_eq i pf.q2 left
  have userinfoLeft : (w.advance i 1).unread i = e.userinfo.encode ++ (e.version.encode ++ rest) := by
    rw [World.unread_advance, left]
    simp [PlayerEntry.encode]
  have userinfo := World.readString_eq i pf.q2 e.userinfo userinfoLeft
  have version := World.readString_eq i pf.q2 e.version
    (World.unread_advance_append i userinfoLeft)
  have total : 1 + e.userinfo.encode.length + e.version.encode.length = e.encode.length := by
    simp only [PlayerEntry.encode, List.length_cons, List.length_append]
    omega
  simp only [World.advance_advance] at userinfo version
  simp only [parsePlayer, deliverPlayer, client, userinfo, version, Bind.bind, Except.bind, total]

/-- An entry leaves the rest of the list to be read, whatever becomes of its player. -/
theorem deliverPlayer_unread (e : PlayerEntry) {w : World} {rest : Bytes}
    (left : w.unread i = e.encode ++ rest) {result : Option Nat × World}
    (delivered : deliverPlayer pf i e w = .ok result) : result.2.unread i = rest := by
  have keeps := (onPlayer_kept pf i e.client e.userinfo.val e.version.val _).of_ok delivered
  rw [World.unread_of_frames i keeps.frames, World.unread_advance_append i left]

theorem parsePlayers_eq (entries : List PlayerEntry) {w : World} {rest : Bytes}
    (left : w.unread i = entries.flatMap PlayerEntry.encode ++ rest) :
    parsePlayers pf i entries.length w = deliverPlayers pf i entries w := by
  induction entries generalizing w with
  | nil => rfl
  | cons e entries ih =>
    rw [List.flatMap_cons, List.append_assoc] at left
    rw [List.length_cons, parsePlayers, deliverPlayers, parsePlayer_eq pf i e left]
    cases delivered : deliverPlayer pf i e w with
    | error fault => rfl
    | ok result => exact ih (deliverPlayer_unread pf i e left delivered)

theorem readBoth_eq (q2 : Libq2) {w : World} {x : Byte} {s : WireString} {rest : Bytes}
    (left : w.unread i = x :: s.encode ++ rest) :
    w.readByte q2 i = .ok (x, w.advance i 1) ∧
      (w.advance i 1).readString q2 i = .ok (s.val, w.advance i (x :: s.encode).length) := by
  have first := World.readByte_eq i q2 left
  have behind : (w.advance i 1).unread i = s.encode ++ rest := by
    rw [World.unread_advance, left]
    rfl
  have second := World.readString_eq i q2 s behind
  rw [World.advance_advance, Nat.add_comm] at second
  exact ⟨first, second⟩

theorem readCommand_eq (q2 : Libq2) {w : World} {cmd x : Byte} {s : WireString} {rest : Bytes}
    (left : w.unread i = cmd :: x :: s.encode ++ rest) :
    w.readByte q2 i = .ok (cmd, w.advance i 1) ∧
      (w.advance i 1).readByte q2 i = .ok (x, w.advance i 2) ∧
      (w.advance i 2).readString q2 i = .ok (s.val, w.advance i (cmd :: x :: s.encode).length) := by
  have first := World.readByte_eq i q2 left
  have behind : (w.advance i 1).unread i = x :: s.encode ++ rest := by
    rw [World.unread_advance, left]
    rfl
  have both := readBoth_eq i q2 behind
  simp only [World.advance_advance, Nat.add_comm 1] at both
  exact ⟨first, both⟩

/-- The switch reads a payload and hands it on. -/
theorem dispatch_eq (m : ClientMessage) {w : World} {rest : Bytes}
    (left : w.unread i = m.payload ++ rest) : dispatch pf i m.opcode w = handle pf i m w := by
  cases m with
  | ping => rfl
  | print level text =>
    have both := readBoth_eq i pf.q2 left
    change parsePrint pf i w = _
    simp only [parsePrint, both, Bind.bind, Except.bind]
    rfl
  | map mapname =>
    have read := World.readString_eq i pf.q2 mapname left
    change parseMap pf i w = _
    simp only [parseMap, read, Bind.bind, Except.bind]
    rfl
  | playerList players =>
    have read := World.readByte_eq i pf.q2 left
    have behind : (w.advance i 1).unread i = players.val.flatMap PlayerEntry.encode ++ rest := by
      rw [World.unread_advance, left]
      rfl
    have count : (UInt8.ofNat players.val.length).toNat = players.val.length :=
      UInt8.toNat_ofNat_of_lt' players.property
    change parsePlayerlist pf i w = _
    simp only [parsePlayerlist, read, Bind.bind, Except.bind, count]
    exact parsePlayers_eq pf i players.val behind
  | playerUpdate client userinfo =>
    have both := readBoth_eq i pf.q2 left
    change parsePlayerUpdate pf i w = _
    simp only [parsePlayerUpdate, both, Bind.bind, Except.bind]
    rfl
  | connect player =>
    change parseConnect pf i w = _
    rw [parseConnect, parsePlayer_eq pf i player left]
    rfl
  | disconnect client =>
    have read := World.readByte_eq i pf.q2 left
    change parseDisconnect pf i w = _
    simp only [parseDisconnect, read, Bind.bind, Except.bind]
    rfl
  | teleport client target =>
    have reads := readCommand_eq i pf.q2 left
    change parseCommand pf i w = _
    simp only [parseCommand, teleport, reads, Bind.bind, Except.bind]
    rfl
  | invite client text =>
    have reads := readCommand_eq i pf.q2 left
    change parseCommand pf i w = _
    simp only [parseCommand, invite, reads, Bind.bind, Except.bind]
    rfl

/-- One turn of the loop is the delivery of the message that is next. -/
theorem parseOne_eq (m : ClientMessage) {w : World} {rest : Bytes}
    (left : w.unread i = m.encode ++ rest) : parseOne pf i w = deliver pf i w m := by
  have opcode := World.readByte_eq i pf.q2 left
  have behind : (w.advance i 1).unread i = m.payload ++ rest := by
    rw [World.unread_advance, left]
    rfl
  simp only [parseOne, opcode, Bind.bind, Except.bind]
  exact dispatch_eq pf i m behind

theorem behind_iff (w : World) : (w.fe i).message.data.length ≤ (w.fe i).message.index ↔ w.unread i = [] :=
  List.drop_eq_nil_iff.symm

theorem not_behind {m : ClientMessage} {w : World} {rest : Bytes} (left : w.unread i = m.encode ++ rest) :
    ¬ (w.fe i).message.data.length ≤ (w.fe i).message.index := by
  rw [behind_iff, left]
  exact List.cons_ne_nil _ _

/-- The loop delivers the message that is next and goes on. -/
theorem parseLoop_message (m : ClientMessage) {w : World} {rest : Bytes} (left : w.unread i = m.encode ++ rest)
    (fuel : Nat) : parseLoop pf i (fuel + 1) w = deliver pf i w m >>= parseLoop pf i fuel := by
  rw [parseLoop, if_neg (not_behind i left), parseOne_eq pf i m left]

/-! ## Delivering keeps the world -/

def PlayerEntry.WellFormed (e : PlayerEntry) (fe : Frontend) : Prop :=
  IsUserinfo e.userinfo.val ∧ e.client.toNat < fe.maxPlayers

/-- What a frontend is expected to send. -/
def ClientMessage.WellFormed (fe : Frontend) : ClientMessage → Prop
  | ping => True
  | print _ text => text.val ≠ []
  | map _ => True
  | playerList players => ∀ e ∈ players.val, e.WellFormed fe
  | playerUpdate client userinfo => IsUserinfo userinfo.val ∧ client.toNat < fe.maxPlayers
  | connect player => player.WellFormed fe
  | disconnect client => client.toNat < fe.maxPlayers
  | teleport client _ => client.toNat < fe.maxPlayers
  | invite client _ => (fe.findPlayer client.toNat).isSome = true

theorem deliverPlayer_kept (e : PlayerEntry) (w : World) :
    Yields (deliverPlayer pf i e w) (fun result => (w.advance i e.encode.length).Keeps result.2)
      fun _ => ¬ (e.WellFormed (w.fe i) ∧ (w.fe i).Equipped) := by
  apply (onPlayer_kept pf i e.client e.userinfo.val e.version.val _).mono (fun _ => id)
  intro _ missing given
  have max := World.field_advance i w e.encode.length i (fun fe => fe.maxPlayers) fun _ _ => rfl
  exact missing ⟨⟨wholePairs_of_isUserinfo given.1.1, max ▸ given.1.2⟩,
    (World.equipped_advance i w _ i).mpr given.2⟩

theorem deliverPlayers_kept (entries : List PlayerEntry) (w : World) :
    Yields (deliverPlayers pf i entries w)
      (w.advance i (entries.flatMap PlayerEntry.encode).length).Keeps
      fun _ => ¬ ((∀ e ∈ entries, e.WellFormed (w.fe i)) ∧ (w.fe i).Equipped) := by
  induction entries generalizing w with
  | nil =>
    change World.Keeps (w.advance i 0) w
    rw [World.advance_zero]
    exact World.Keeps.refl
  | cons e rest ih =>
    have first := deliverPlayer_kept pf i e w
    apply Yields.bind (first.mono (fun _ => id) fun _ missing given =>
      missing ⟨given.1 e (List.mem_cons_self ..), given.2⟩)
    intro result _ keeps
    have total : e.encode.length + (rest.flatMap PlayerEntry.encode).length =
        ((e :: rest).flatMap PlayerEntry.encode).length := by
      rw [List.flatMap_cons, List.length_append]
    apply (ih result.2).mono
    · intro w' later
      rw [← total, ← World.advance_advance]
      exact (keeps.advance i _).trans later
    · intro _ missing given
      have max : (result.2.fe i).maxPlayers = (w.fe i).maxPlayers :=
        (World.field_of_frames keeps.frames i (fun fe => fe.maxPlayers) fun _ => rfl).trans
          (World.field_advance i w _ i (fun fe => fe.maxPlayers) fun _ _ => rfl)
      refine missing ⟨fun other member => ?_, keeps.equipped i ((World.equipped_advance i w _ i).mpr given.2)⟩
      have formed := given.1 other (List.mem_cons_of_mem _ member)
      exact ⟨formed.1, max ▸ formed.2⟩

theorem kept_past {w : World} {count : Nat} {needs : Prop} {x : Except Fault World}
    (kept : Kept i needs (w.advance i count) x) {needed : Prop}
    (supplies : needed → (w.fe i).Equipped → needs) :
    Yields x (w.advance i count).Keeps fun _ => ¬ (needed ∧ (w.fe i).Equipped) := by
  apply kept.mono (fun _ => id)
  intro _ missing given
  exact missing ⟨supplies given.1 given.2, (World.equipped_advance i w count i).mpr given.2⟩

theorem handle_kept (m : ClientMessage) (w : World) :
    Yields (handle pf i m w) (w.advance i m.payload.length).Keeps
      fun _ => ¬ (m.WellFormed (w.fe i) ∧ (w.fe i).Equipped) := by
  cases m with
  | ping =>
    change Yields _ (w.advance i 0).Keeps _
    rw [World.advance_zero]
    exact (pong_kept pf i w).weaken fun _ _ => trivial
  | print level text => exact kept_past i (onPrint_kept pf i level text.val _) fun formed _ => formed
  | map mapname => exact onMap_keeps i mapname.val _
  | playerList players =>
    have entries := deliverPlayers_kept pf i players.val (w.advance i 1)
    rw [World.advance_advance, Nat.add_comm] at entries
    apply entries.mono (fun _ => id)
    intro _ missing given
    have max := World.field_advance i w 1 i (fun fe => fe.maxPlayers) fun _ _ => rfl
    exact missing ⟨fun e member => ⟨(given.1 e member).1, max ▸ (given.1 e member).2⟩,
      (World.equipped_advance i w 1 i).mpr given.2⟩
  | playerUpdate client userinfo =>
    exact kept_past i (onPlayerUpdate_kept pf i client userinfo.val _)
      fun formed _ => wholePairs_of_isUserinfo formed.1
  | connect player =>
    apply Yields.bind (deliverPlayer_kept pf i player w)
    intro result _ keeps
    exact keeps.trans (startConnect_keeps i result.1 result.2)
  | disconnect client => exact onDisconnect_keeps i client _
  | teleport client target => exact onTeleport_keeps pf i client target.val _
  | invite client text =>
    have found := World.field_advance i w (ClientMessage.payload (.invite client text)).length i
      (fun fe => fe.findPlayer client.toNat) fun _ _ => rfl
    exact kept_past i (onInvite_kept pf i client _) fun formed _ => found ▸ formed

theorem deliver_kept (m : ClientMessage) (w : World) :
    Yields (deliver pf i w m) (w.advance i m.encode.length).Keeps
      fun _ => ¬ (m.WellFormed (w.fe i) ∧ (w.fe i).Equipped) := by
  have handled := handle_kept pf i m (w.advance i 1)
  rw [World.advance_advance, Nat.add_comm] at handled
  apply handled.mono (fun _ => id)
  intro _ missing given
  have formed := World.field_advance i w 1 i (fun fe => m.WellFormed fe) fun _ _ => by
    cases m <;> rfl
  exact missing ⟨formed ▸ given.1, (World.equipped_advance i w 1 i).mpr given.2⟩

theorem deliver_unread {m : ClientMessage} {w w' : World} {rest : Bytes} (left : w.unread i = m.encode ++ rest)
    (delivered : deliver pf i w m = .ok w') : w'.unread i = rest := by
  have keeps := (deliver_kept pf i m w).of_ok delivered
  rw [World.unread_of_frames i keeps.frames, World.unread_advance_append i left]

/-! ## The loop -/

/-- The loop delivers the messages in its buffer one after the other. -/
theorem parseLoop_run (messages : List ClientMessage) {fuel : Nat} (enough : messages.length < fuel) {w : World}
    (left : w.unread i = encodeAll messages) : parseLoop pf i fuel w = run (deliver pf i) w messages := by
  induction messages generalizing fuel w with
  | nil =>
    obtain ⟨fuel, rfl⟩ : ∃ rest, fuel = rest + 1 := ⟨fuel - 1, by omega⟩
    rw [parseLoop, if_pos ((behind_iff i w).mpr left)]
    rfl
  | cons m rest ih =>
    obtain ⟨fuel, rfl⟩ : ∃ fuel', fuel = fuel' + 1 := ⟨fuel - 1, by omega⟩
    have ahead : w.unread i = m.encode ++ encodeAll rest := left
    rw [parseLoop_message pf i m ahead]
    cases delivered : deliver pf i w m with
    | error fault => simp [run, delivered, Bind.bind, Except.bind]
    | ok w' =>
      rw [run_cons rest delivered]
      exact ih (Nat.lt_of_succ_lt_succ enough) (deliver_unread pf i ahead delivered)

/-- The turns of the loop: where each starts, and the byte it switches on. -/
def turns : Nat → World → List (Nat × Byte)
  | 0, _ => []
  | fuel + 1, w =>
    let msg := (w.fe i).message
    if msg.data.length ≤ msg.index then []
    else (msg.index, msg.data.getD msg.index 0) ::
      match parseOne pf i w with
      | .error _ => []
      | .ok w' => turns fuel w'

/-- Where the messages start that are encoded from an offset on. -/
def starts : Nat → List ClientMessage → List (Nat × Byte)
  | _, [] => []
  | offset, m :: rest => (offset, m.opcode) :: starts (offset + m.encode.length) rest

theorem live_of_equipped {w : World} (equipped : (w.fe i).Equipped) : i < w.frontends.length :=
  World.live_of_connected equipped.connection

/-- A delivered message leaves its encoding behind the index. -/
theorem deliver_message {m : ClientMessage} {w w' : World} (live : i < w.frontends.length)
    (delivered : deliver pf i w m = .ok w') :
    (w'.fe i).message = (w.fe i).message.advance m.encode.length := by
  have keeps := (deliver_kept pf i m w).of_ok delivered
  rw [World.field_of_frames keeps.frames i (fun fe => fe.message) fun _ => rfl, World.advance,
    World.fe_update_self w live]

theorem opcode_at {b : Buffer} {x : Byte} {rest : Bytes} (left : b.unread = x :: rest) :
    b.data.getD b.index 0 = x := by
  have entry := congrArg (fun bytes => bytes[0]?) left
  simp only [Buffer.unread, List.getElem?_drop, Nat.add_zero, List.getElem?_cons_zero] at entry
  rw [List.getD_eq_getElem?_getD, entry, Option.getD_some]

/-- What the loop makes of a sequence of messages. -/
structure Framed (fuel : Nat) (w : World) (messages : List ClientMessage) (w' : World) : Prop where
  delivered : run (deliver pf i) w messages = .ok w'
  parsed : parseLoop pf i fuel w = .ok w'
  turns : turns pf i fuel w = starts (w.fe i).message.index messages
  data : (w'.fe i).message.data = (w.fe i).message.data
  atEnd : (w'.fe i).message.AtEnd

theorem parseLoop_framed (messages : List ClientMessage) {fuel : Nat} {w : World}
    (enough : messages.length < fuel) (equipped : (w.fe i).Equipped)
    (formed : Allowed (deliver pf i) (fun w m => m.WellFormed (w.fe i)) w messages)
    (left : w.unread i = encodeAll messages)
    (inside : (w.fe i).message.index ≤ (w.fe i).message.data.length) :
    ∃ w', Framed pf i fuel w messages w' := by
  have count := congrArg List.length left
  simp only [World.unread, Buffer.unread, List.length_drop] at count
  induction messages generalizing fuel w with
  | nil =>
    obtain ⟨fuel, rfl⟩ : ∃ rest, fuel = rest + 1 := ⟨fuel - 1, by omega⟩
    have stop : (w.fe i).message.data.length ≤ (w.fe i).message.index := by
      simp only [encodeAll, List.flatMap_nil, List.length_nil] at count
      omega
    refine ⟨w, rfl, ?_, ?_, rfl, Nat.le_antisymm inside stop⟩
    · rw [parseLoop, if_pos stop]
    · simp only [turns, starts, stop, ↓reduceIte]
  | cons m rest ih =>
    obtain ⟨fuel, rfl⟩ : ∃ fuel', fuel = fuel' + 1 := ⟨fuel - 1, by omega⟩
    have more : w.unread i = m.encode ++ encodeAll rest := left
    have size : (encodeAll (m :: rest)).length = m.encode.length + (encodeAll rest).length :=
      List.length_append
    have nonempty : 0 < m.encode.length := Nat.succ_pos _
    have open_ := not_behind i more
    obtain ⟨w₁, delivered, keeps⟩ := ((deliver_kept pf i m w).mono (fun _ => id)
      fun _ missing => missing ⟨formed.1, equipped⟩).returns
    have message := deliver_message pf i (live_of_equipped i equipped) delivered
    have one : parseOne pf i w = .ok w₁ := (parseOne_eq pf i m more).trans delivered
    have behind : w₁.unread i = encodeAll rest := deliver_unread pf i more delivered
    have index : (w₁.fe i).message.index = (w.fe i).message.index + m.encode.length := by
      rw [message]
      rfl
    have data : (w₁.fe i).message.data = (w.fe i).message.data := by
      rw [message]
      rfl
    have fewer : rest.length < fuel := by
      simp only [List.length_cons] at enough
      omega
    obtain ⟨w', framed⟩ := ih fewer (keeps.equipped i ((World.equipped_advance i w _ i).mpr equipped))
      (formed.2 w₁ delivered) behind (by rw [index, data]; omega) (by rw [index, data]; omega)
    refine ⟨w', (run_cons rest delivered).trans framed.delivered, ?_, ?_, framed.data.trans data,
      framed.atEnd⟩
    · rw [parseLoop_message pf i m more, delivered]
      exact framed.parsed
    · simp only [turns, open_, one, framed.turns, index, starts, opcode_at more, ↓reduceIte]

theorem length_le_encodeAll (messages : List ClientMessage) :
    messages.length ≤ (encodeAll messages).length := by
  induction messages with
  | nil => exact Nat.le_refl 0
  | cons m rest ih =>
    have size : (encodeAll (m :: rest)).length = m.encode.length + (encodeAll rest).length :=
      List.length_append
    have nonempty : 0 < m.encode.length := Nat.succ_pos _
    simp only [List.length_cons]
    omega

/-- The messages are handled one by one, each in order and at its own start, and the index
ends where the data does. -/
def HandledInTurn (w : World) (messages : List ClientMessage) : Prop :=
  ∃ w', parseMessage pf i w = .ok w' ∧ run (deliver pf i) w messages = .ok w' ∧
    turns pf i ((encodeAll messages).length + 1) w = starts 0 messages ∧
    (w'.fe i).message.data = encodeAll messages ∧
    (w'.fe i).message.index = (encodeAll messages).length

/-- What has been received are messages the frontend may send. -/
structure World.Received (w : World) (messages : List ClientMessage) : Prop where
  formed : Allowed (deliver pf i) (fun w m => m.WellFormed (w.fe i)) w messages
  message : (w.fe i).message = pf.q2.newBuffer (encodeAll messages)

/-- The message loop keeps its framing: with a connection, keys that fit and the players made,
the concatenation of the encodings of any messages is handled message by message. -/
theorem parseMessage_framing {i : Nat} {w : World} (equipped : (w.fe i).Equipped) {messages : List ClientMessage}
    (formed : Allowed (deliver pf i) (fun w m => m.WellFormed (w.fe i)) w messages)
    (received : (w.fe i).message = pf.q2.newBuffer (encodeAll messages)) : HandledInTurn pf i w messages := by
  rw [pf.q2.newBuffer_eq] at received
  have left : w.unread i = encodeAll messages := by
    rw [World.unread, received]
    rfl
  have enough : messages.length < (encodeAll messages).length + 1 :=
    Nat.lt_succ_of_le (length_le_encodeAll messages)
  obtain ⟨w', framed⟩ := parseLoop_framed pf i messages enough equipped formed left
    (by rw [received]; exact Nat.zero_le _)
  have turned := framed.turns
  have data := framed.data
  have atEnd := framed.atEnd
  rw [received] at turned data
  rw [Buffer.AtEnd, data] at atEnd
  refine ⟨w', ?_, framed.delivered, turned, data, atEnd⟩
  rw [parseMessage, received]
  exact framed.parsed

end

def claireEntry : PlayerEntry :=
  ⟨1, ⟨ascii "\\name\\claire\\ip\\10.0.0.2:27901", by decide⟩, ⟨ascii "q2pro", by decide⟩⟩

/-- A player connects, asks to be teleported to nowhere, and invites. -/
def claireMessages : List ClientMessage := [
  .connect claireEntry,
  .teleport 1 ⟨ascii "nowhere", by decide⟩,
  .invite 1 ⟨ascii "come", by decide⟩]

def sessionWorld : World where
  frontends := [{
    connected := true
    connection := some 0
    maxPlayers := 2
    message := ⟨encodeAll claireMessages, 0, (encodeAll claireMessages).length⟩
    players := [{}, {}]
    trusted := true }]
  host := Host.counting

theorem sessionWorld_ready : (sessionWorld.fe 0).Ready :=
  ⟨⟨rfl, fun _ encrypted => absurd encrypted (by decide)⟩, rfl, by decide, rfl⟩

theorem claire_userinfo : IsUserinfo claireEntry.userinfo.val :=
  ⟨[(ascii "name", ascii "claire"), (ascii "ip", ascii "10.0.0.2:27901")], by decide, by decide⟩

/-- The number of slots and whether slot 1 is in use, after some of the messages. -/
theorem claire_connected :
    ((run (deliver Platform.plain 0) sessionWorld (claireMessages.take 1)).map fun w =>
      (w.fe 0).maxPlayers) = .ok 2 ∧
    ((run (deliver Platform.plain 0) sessionWorld (claireMessages.take 2)).map fun w =>
      ((w.fe 0).findPlayer 1).isSome) = .ok true := by
  decide

theorem claire_formed : Allowed (deliver Platform.plain 0) (fun w m => m.WellFormed (w.fe 0))
    sessionWorld claireMessages := by
  refine ⟨⟨claire_userinfo, by decide⟩, fun w₁ first => ⟨?_, fun w₂ second => ⟨?_, fun _ _ => trivial⟩⟩⟩
  · have ran : run (deliver Platform.plain 0) sessionWorld (claireMessages.take 1) = .ok w₁ :=
      run_cons [] first
    have slots := claire_connected.1
    rw [ran] at slots
    have max : (w₁.fe 0).maxPlayers = 2 := Except.ok.inj slots
    change (1 : Byte).toNat < (w₁.fe 0).maxPlayers
    rw [max]
    decide
  · have ran : run (deliver Platform.plain 0) sessionWorld (claireMessages.take 2) = .ok w₂ :=
      (run_cons _ first).trans (run_cons [] second)
    have used := claire_connected.2
    rw [ran] at used
    exact Except.ok.inj used

theorem parseMessage_framing_claire : HandledInTurn Platform.plain 0 sessionWorld claireMessages :=
  parseMessage_framing Platform.plain sessionWorld_ready.equipped claire_formed rfl

/-- A frontend that has just received some messages. -/
def receiving (fe : Frontend) (messages : List ClientMessage) : World where
  frontends := [{ fe with message := ⟨encodeAll messages, 0, (encodeAll messages).length⟩ }]
  host := Host.counting

/-- A second greeting has announced two players, and the record of one has been made before. -/
def outgrown : Frontend := { sessionWorld.fe 0 with players := [{}] }

/-- An encrypted session that is about to change its keys. -/
def rekeying : Frontend := { sessionWorld.fe 0 with
  encrypted := true
  symmetricKey := List.replicate 16 0
  initVector := List.replicate 16 0
  pingCount := 63 }

/-- The record of claire has the number of no slot. -/
def misnumbered : Frontend := { sessionWorld.fe 0 with players := [{ name := ascii "claire", clientID := 5 }, {}] }

def obituary : List ClientMessage := [.print 1 ⟨ascii "claire died.\n", by decide⟩]

/-- Whatever the line, claire is named in it. -/
def claireDies : Platform := { Platform.plain with submatch := fun _ _ => some fun _ => ascii "claire" }

theorem not_handledInTurn {pf : Platform} {i : Nat} {w : World} {messages : List ClientMessage}
    (faults : Yields (parseMessage pf i w) (fun _ => False) fun _ => True) : ¬ HandledInTurn pf i w messages := by
  rintro ⟨w', parsed, -⟩
  exact faults.of_ok parsed

theorem outgrown_faults : Yields (parseMessage Platform.plain 0 (receiving outgrown [.connect claireEntry]))
    (fun _ => False) fun _ => True := by
  decide +kernel

theorem outgrown_formed : (receiving outgrown [.connect claireEntry]).Received Platform.plain 0
    [.connect claireEntry] :=
  ⟨⟨⟨claire_userinfo, by decide⟩, fun _ _ => trivial⟩, rfl⟩

/-- The framing is lost where the numbers of players do not agree: the handler of a connect
panics, and with it the loop. -/
theorem framing_lost : ¬ ∀ (pf : Platform) (i : Nat) (w : World) (messages : List ClientMessage),
    w.Received pf i messages → HandledInTurn pf i w messages :=
  fun promised => not_handledInTurn outgrown_faults (promised _ _ _ _ outgrown_formed)

/-- Each part of what the loop relies on is needed, given the others. -/
theorem equipped_needed :
    (¬ ∀ (pf : Platform) (i : Nat) (w : World) (messages : List ClientMessage), (w.fe i).CanSend →
      (∀ p ∈ (w.fe i).players, (w.fe i).InRange p.clientID) → w.Received pf i messages →
        HandledInTurn pf i w messages) ∧
    (¬ ∀ (pf : Platform) (i : Nat) (w : World) (messages : List ClientMessage), (w.fe i).CanSend →
      (w.fe i).maxPlayers ≤ (w.fe i).players.length → w.Received pf i messages → HandledInTurn pf i w messages) ∧
    (¬ ∀ (pf : Platform) (i : Nat) (w : World) (messages : List ClientMessage),
      ((w.fe i).trusted = true → (w.fe i).KeysFit) → (w.fe i).maxPlayers ≤ (w.fe i).players.length →
      (∀ p ∈ (w.fe i).players, (w.fe i).InRange p.clientID) → w.Received pf i messages →
        HandledInTurn pf i w messages) ∧
    (¬ ∀ (pf : Platform) (i : Nat) (w : World) (messages : List ClientMessage),
      (w.fe i).connection.isSome = true → (w.fe i).maxPlayers ≤ (w.fe i).players.length →
      (∀ p ∈ (w.fe i).players, (w.fe i).InRange p.clientID) → w.Received pf i messages →
        HandledInTurn pf i w messages) := by
  have pings (fe : Frontend) : (receiving fe [.ping]).Received Platform.plain 0 [.ping] :=
    ⟨⟨trivial, fun _ _ => trivial⟩, rfl⟩
  have keyed (fe : Frontend) (plain : fe.encrypted = false) : fe.KeysFit := fun encrypted => by simp [plain] at encrypted
  refine ⟨fun promised => ?_, fun promised => ?_, fun promised => ?_, fun promised => ?_⟩
  · exact not_handledInTurn outgrown_faults
      (promised _ _ _ _ ⟨rfl, fun _ => keyed _ rfl⟩ (by decide) outgrown_formed)
  · have faults : Yields (parseMessage claireDies 0 (receiving misnumbered obituary)) (fun _ => False) fun _ => True := by
      decide +kernel
    exact not_handledInTurn faults
      (promised _ _ _ obituary ⟨rfl, fun _ => keyed _ rfl⟩ (by decide)
        ⟨⟨show ascii "claire died.\n" ≠ [] by decide, fun _ _ => trivial⟩, rfl⟩)
  · have faults : Yields (parseMessage Platform.plain 0 (receiving { rekeying with connection := none } [.ping]))
        (fun _ => False) fun _ => True := by
      decide +kernel
    exact not_handledInTurn faults (promised _ _ _ _ (fun _ _ => ⟨rfl, rfl⟩) (by decide) (by decide) (pings _))
  · have faults : Yields (parseMessage Platform.plain 0 (receiving { rekeying with symmetricKey := [] } [.ping]))
        (fun _ => False) fun _ => True := by
      decide +kernel
    exact not_handledInTurn faults (promised _ _ _ _ rfl (by decide) (by decide) (pings _))

end Q2Admin
