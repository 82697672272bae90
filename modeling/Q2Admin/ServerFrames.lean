import Q2Admin.Lib.Outcome
import Q2Admin.Lib.SelfDelimiting
import Q2Admin.Outgoing
import Q2Admin.Wire
import Q2Admin.Parse

/-! The outgoing stream as its frames. Everything queued after the handshake is a frame
whose first byte tells how the rest is read, so a queue has one reading. -/

namespace Q2Admin
open Go Lib

/-- A frame of the stream: its opcode, and what the bytes behind it say. -/
inductive ServerFrame where
  | pong
  /-- A key and the vector behind it, as they are. -/
  | key (blob : Bytes)
  | error (client severity : Byte) (text : Bytes)
  | command (cmd : Bytes)
  | sayClient (client level : Byte) (text : Bytes)
  | sayAll (level : Byte) (text : Bytes)
  deriving DecidableEq, Repr

namespace ServerFrame

def encode : ServerFrame → Bytes
  | pong => [byteOf scmdPong]
  | key blob => byteOf scmdKey :: blob
  | error client severity text => byteOf scmdError :: client :: severity :: (text ++ [0])
  | command cmd => byteOf scmdCommand :: (cmd ++ [0])
  | sayClient client level text => byteOf scmdSayClient :: client :: level :: (text ++ [0])
  | sayAll level text => byteOf scmdSayAll :: level :: (text ++ [0])

/-- A text ends at its NUL; a key has none and is as long as keys are. -/
def Delimited : ServerFrame → Prop
  | pong => True
  | key blob => blob.length = aesBlockLength + aesIVLength
  | error _ _ text | sayClient _ _ text | sayAll _ text => 0 ∉ text
  | command cmd => 0 ∉ cmd

/-- The text at the front of the bytes. -/
def readText (make : Bytes → ServerFrame) (body : Bytes) : Option (ServerFrame × Bytes) :=
  (SelfDelimiting.upTo 0 body).map fun (text, rest) => (make text, rest)

/-- The client's side of the stream: the opcode drives it. -/
def read : Bytes → Option (ServerFrame × Bytes)
  | [] => none
  | opcode :: body =>
    if opcode = byteOf scmdPong then some (pong, body)
    else if opcode = byteOf scmdKey then
      (SelfDelimiting.exactly (aesBlockLength + aesIVLength) body).map fun (blob, rest) => (key blob, rest)
    else if opcode = byteOf scmdCommand then readText command body
    else if opcode = byteOf scmdSayAll then
      match body with
      | level :: body => readText (sayAll level) body
      | [] => none
    else if opcode = byteOf scmdSayClient then
      match body with
      | client :: level :: body => readText (sayClient client level) body
      | _ => none
    else if opcode = byteOf scmdError then
      match body with
      | client :: severity :: body => readText (error client severity) body
      | _ => none
    else none

theorem readText_append (make : Bytes → ServerFrame) {text : Bytes} (clean : 0 ∉ text) (rest : Bytes) :
    readText make (text ++ [0] ++ rest) = some (make text, rest) := by
  rw [readText, List.append_assoc, List.singleton_append, SelfDelimiting.upTo_append clean]
  rfl

/-- A frame is read back from the front of whatever starts with it. -/
theorem read_encode {f : ServerFrame} (delimited : f.Delimited) (rest : Bytes) :
    read (f.encode ++ rest) = some (f, rest) := by
  cases f with
  | pong => rfl
  | key blob =>
    have blobRead := SelfDelimiting.exactly_append delimited rest
    show (SelfDelimiting.exactly _ (blob ++ rest)).map _ = _
    rw [blobRead]
    rfl
  | error client severity text => exact readText_append (error client severity) delimited rest
  | command cmd => exact readText_append command delimited rest
  | sayClient client level text => exact readText_append (sayClient client level) delimited rest
  | sayAll level text => exact readText_append (sayAll level) delimited rest

theorem encode_ne_nil (f : ServerFrame) : f.encode ≠ [] := by
  cases f <;> exact List.cons_ne_nil _ _

theorem reads : SelfDelimiting.Reads Delimited encode read where
  word := fun _ delimited rest => read_encode delimited rest
  nonempty := fun f _ => f.encode_ne_nil

end ServerFrame

/-- The frame that carries a message. -/
def ServerMessage.frame : ServerMessage → ServerFrame
  | command cmd => .command cmd
  | sayClient client level text => .sayClient (byteOf client) (byteOf level) text
  | sayAll level text => .sayAll (byteOf level) text

theorem ServerMessage.encode_frame (m : ServerMessage) : m.frame.encode = m.encode := by
  cases m <;> rfl

theorem encode_frames (messages : List ServerMessage) :
    (messages.map ServerMessage.frame).flatMap ServerFrame.encode = encodeServer messages := by
  simp only [List.flatMap_map, ServerMessage.encode_frame, encodeServer]

/-! ## The operations of the queue -/

section
variable (q2 : Libq2)

/-- What `Pong` does before the keys are due. -/
def pongFrame (fe : Frontend) : Frontend :=
  Frontend.writeByte q2 scmdPong { fe with pingCount := fe.pingCount + 1 }

/-- What `RotateKeys` queues. -/
def keyFrame (newkey newIV : Bytes) (fe : Frontend) : Frontend :=
  (fe.writeByte q2 scmdKey).writeData q2 (newkey ++ newIV)

/-- Who an error is about, nobody being -1. -/
def errorClient : Option Player → Int
  | none => -1
  | some pl => pl.clientID

/-- What `SendError` queues. -/
def errorFrame (pl : Option Player) (severity : Int) (err : Bytes) (fe : Frontend) : Frontend :=
  if err = [] then fe
  else (((fe.writeByte q2 scmdError).writeByte q2 (errorClient pl)).writeByte q2 severity).writeString q2 err

end

section
variable (pf : Platform) (i : Nat)

theorem pong_queues (w : World) : pong pf i w =
    if ((w.update i (pongFrame pf.q2)).fe i).pingCount % 64 = 0 then rotateKeys pf i (w.update i (pongFrame pf.q2))
    else .ok (w.update i (pongFrame pf.q2)) := by
  rw [pong, World.update_update]
  rfl

theorem rotate_queues (newkey newIV : Bytes) (fe : Frontend) : fe.rotate pf newkey newIV =
    ((keyFrame pf.q2 newkey newIV fe).flush pf).bind fun result =>
      .ok ({ result.1 with symmetricKey := newkey, initVector := newIV }, result.2) := rfl

theorem sendError_queues (pl : Option Player) (severity : Int) {err : Bytes} (said : err ≠ []) (w : World) :
    sendError pf i pl severity err w = sendMessages pf i (w.update i (errorFrame pf.q2 pl severity err)) := by
  unfold sendError errorFrame
  simp only [if_neg said]
  cases pl <;> rfl

end

/-- A key or a vector. -/
abbrev CipherBlock := {block : Bytes // block.length = aesBlockLength}

/-- Whatever is queued once the handshake is over. -/
inductive QueueOp where
  | pong
  | consoleSay (print : WireString)
  | consoleCommand (cmd : WireString)
  | stuffPlayer (p : Player) (cmd : WireString)
  | mutePlayer (p : Player) (seconds : Int)
  | stiflePlayer (p : Player) (seconds : Int)
  | kickPlayer (p : Player) (msg : WireString)
  | sayEveryone (level : Int) (text : WireString)
  | sayPlayer (p : Option Player) (level : Int) (text : WireString)
  | rotateKeys (newkey newIV : CipherBlock)
  | sendError (pl : Option Player) (severity : Int) (err : WireString)

namespace QueueOp

/-- The operation, up to the sending that may follow. -/
def queue (q2 : Libq2) : QueueOp → Frontend → Frontend
  | pong => pongFrame q2
  | consoleSay print => Q2Admin.consoleSay q2 print
  | consoleCommand cmd => Q2Admin.consoleCommand q2 cmd
  | stuffPlayer p cmd => Q2Admin.stuffPlayer q2 p cmd
  | mutePlayer p seconds => Q2Admin.mutePlayer q2 p seconds
  | stiflePlayer p seconds => Q2Admin.stiflePlayer q2 p seconds
  | kickPlayer p msg => Q2Admin.kickPlayer q2 p msg
  | sayEveryone level text => Q2Admin.sayEveryone q2 level text
  | sayPlayer p level text => Q2Admin.sayPlayer q2 p level text
  | rotateKeys newkey newIV => keyFrame q2 newkey newIV
  | sendError pl severity err => errorFrame q2 pl severity err

/-- The operations one after the other. -/
def queueAll (q2 : Libq2) (ops : List QueueOp) (fe : Frontend) : Frontend :=
  ops.foldl (fun fe op => op.queue q2 fe) fe

/-- What an operation says, if it is more than a frame of its own. -/
def messages : QueueOp → List ServerMessage
  | consoleSay print => if print.val = [] then [] else [.command (ascii "say " ++ print ++ ascii "\n")]
  | consoleCommand cmd => if cmd.val = [] then [] else [.command (newline cmd)]
  | stuffPlayer p cmd => Says.stuff p cmd
  | mutePlayer p seconds => Says.mute p seconds
  | stiflePlayer p seconds => Says.stifle p seconds
  | kickPlayer p msg => Says.kick p msg
  | sayEveryone level text => if text.val = [] then [] else [.sayAll (printLevel level) (newline text)]
  | sayPlayer (some p) level text => Says.toClient p (printLevel level) text
  | sayPlayer none _ _ | pong | rotateKeys _ _ | sendError _ _ _ => []

/-- The frames of an operation. -/
def frames : QueueOp → List ServerFrame
  | pong => [.pong]
  | rotateKeys newkey newIV => [.key (newkey ++ newIV)]
  | sendError pl severity err =>
    if err.val = [] then [] else [.error (byteOf (errorClient pl)) (byteOf severity) err]
  | op => op.messages.map ServerMessage.frame

variable (q2 : Libq2)

theorem appends_of_says {f : Frontend → Frontend} {messages : List ServerMessage} (said : Says f messages)
    {fe : Frontend} (atEnd : fe.messageOut.AtEnd) : fe.messageOut.Appends
      ((messages.map ServerMessage.frame).flatMap ServerFrame.encode) (f fe).messageOut := by
  rw [encode_frames]
  exact said.appends fe atEnd

theorem says_consoleSay (print : WireString) : Says (Q2Admin.consoleSay q2 print) (consoleSay print).messages := by
  unfold Q2Admin.consoleSay messages
  by_cases empty : print.val = []
  · simp only [empty, ↓reduceIte]
    exact Says.nothing
  · simp only [empty, ↓reduceIte]
    exact Says.commandFrame q2 _

theorem says_consoleCommand (cmd : WireString) :
    Says (Q2Admin.consoleCommand q2 cmd) (consoleCommand cmd).messages := by
  unfold Q2Admin.consoleCommand messages
  by_cases empty : cmd.val = []
  · simp only [empty, ↓reduceIte]
    exact Says.nothing
  · simp only [empty, ↓reduceIte]
    exact Says.commandFrame q2 _

/-- Every operation appends its frames to the queue. -/
theorem queue_appends (op : QueueOp) {fe : Frontend} (atEnd : fe.messageOut.AtEnd) :
    fe.messageOut.Appends (op.frames.flatMap ServerFrame.encode) (op.queue q2 fe).messageOut := by
  cases op with
  | pong => exact q2.writeByte_appends fe.messageOut scmdPong atEnd
  | consoleSay print => exact appends_of_says (says_consoleSay q2 print) atEnd
  | consoleCommand cmd => exact appends_of_says (says_consoleCommand q2 cmd) atEnd
  | stuffPlayer p cmd => exact appends_of_says (Says.stuffPlayer q2 p cmd) atEnd
  | mutePlayer p seconds => exact appends_of_says (Says.mutePlayer q2 p seconds) atEnd
  | stiflePlayer p seconds => exact appends_of_says (Says.stiflePlayer q2 p seconds) atEnd
  | kickPlayer p msg => exact appends_of_says (Says.kickPlayer q2 p msg) atEnd
  | sayEveryone level text => exact appends_of_says (Says.sayEveryone q2 level text) atEnd
  | sayPlayer p level text =>
    cases p with
    | none => exact appends_of_says Says.nothing atEnd
    | some p => exact appends_of_says (Says.sayPlayer q2 p level text) atEnd
  | rotateKeys newkey newIV =>
    have opcode := q2.writeByte_appends fe.messageOut scmdKey atEnd
    have blob := q2.writeData_appends _ (newkey.val ++ newIV.val) opcode.atEnd
    have both := opcode.trans blob
    simp only [frames, List.flatMap_cons, List.flatMap_nil, List.append_nil, ServerFrame.encode]
    exact both
  | sendError pl severity err =>
    by_cases empty : err.val = []
    · simp only [queue, errorFrame, frames, empty, ↓reduceIte]
      exact ⟨(List.append_nil _).symm, atEnd⟩
    · simp only [queue, errorFrame, frames, empty, ↓reduceIte]
      have head := ((Writes.writeByte q2 scmdError).comp (Writes.writeByte q2 (errorClient pl))).comp
        (Writes.writeByte q2 severity)
      simpa [ServerFrame.encode] using (head.comp (Writes.writeString q2 err.val)).appends fe atEnd

theorem queueAll_appends (ops : List QueueOp) {fe : Frontend} (atEnd : fe.messageOut.AtEnd) :
    fe.messageOut.Appends ((ops.flatMap frames).flatMap ServerFrame.encode) (queueAll q2 ops fe).messageOut := by
  induction ops generalizing fe with
  | nil => exact ⟨(List.append_nil _).symm, atEnd⟩
  | cons op ops ih =>
    have first := queue_appends q2 op atEnd
    have later := ih first.atEnd
    rw [List.flatMap_cons, List.flatMap_append]
    exact first.trans later

/-- The function of the source, with the sending that follows. -/
def perform (pf : Platform) (i : Nat) : QueueOp → World → Except Fault World
  | pong, w => Q2Admin.pong pf i w
  | rotateKeys newkey newIV, w => do
    let result ← (w.fe i).rotate pf newkey newIV
    .ok (w.sent i result)
  | sendError pl severity err, w => Q2Admin.sendError pf i pl severity err w
  | op, w => .ok (w.update i (op.queue pf.q2))

/-- The frames of the operation go behind what waits, whether they are sent at once or not. -/
def Delivers (i : Nat) (op : QueueOp) (w w' : World) : Prop :=
  ∃ sent, w'.wire = w.wire ++ sent ∧ sent.flatMap Prod.snd ++ (w'.fe i).messageOut.data =
    (w.fe i).messageOut.data ++ op.frames.flatMap ServerFrame.encode

section
variable (pf : Platform) {i : Nat} {c : ConnId} {w : World}

/-- Unencrypted, all of the queue is written as it is. -/
theorem flush_plain {fe : Frontend} (plain : fe.encrypted = false) (connection : fe.connection = some c) :
    ∃ result, fe.flush pf = .ok result ∧
      result.2.flatMap Prod.snd ++ result.1.messageOut.data = fe.messageOut.data := by
  unfold Frontend.flush
  by_cases empty : pf.q2.size fe.messageOut = 0
  · rw [if_pos empty]
    exact ⟨_, rfl, rfl⟩
  · rw [if_neg empty]
    have clear : fe.encryptQueue pf = .ok fe := by simp [Frontend.encryptQueue, plain]
    rw [clear]
    simp only [Bind.bind, Except.bind, connection]
    refine ⟨_, rfl, ?_⟩
    simp [pf.q2.reset_eq]

/-- What is queued by an operation is delivered when it is sent. -/
theorem sent_delivers (op : QueueOp) (atEnd : (w.fe i).messageOut.AtEnd) (result : Frontend × List (ConnId × Bytes))
    (whole : result.2.flatMap Prod.snd ++ result.1.messageOut.data = (op.queue pf.q2 (w.fe i)).messageOut.data)
    {w' : World} (frontend : w'.fe i = result.1) (wire : w'.wire = w.wire ++ result.2) : op.Delivers i w w' :=
  ⟨result.2, wire, frontend ▸ whole.trans (queue_appends pf.q2 op atEnd).data⟩

/-- The functions of the source deliver the frames of their operations. -/
theorem perform_delivers (op : QueueOp) (plain : (w.fe i).encrypted = false)
    (connection : (w.fe i).connection = some c) (atEnd : (w.fe i).messageOut.AtEnd) :
    Yields (op.perform pf i w) (op.Delivers i w) fun _ => False := by
  have live : i < w.frontends.length := World.live_of_connected (connection ▸ rfl)
  have stored (f : Frontend → Frontend) : (w.update i f).fe i = f (w.fe i) := World.fe_update_self w live f
  have waits : op.Delivers i w (w.update i (op.queue pf.q2)) :=
    sent_delivers pf op atEnd (op.queue pf.q2 (w.fe i), []) rfl (stored _) (List.append_nil _).symm
  cases op with
  | pong =>
    have kept : ((w.update i (pongFrame pf.q2)).fe i).encrypted = false := (stored _).symm ▸ plain
    have resting : Q2Admin.pong pf i w = .ok (w.update i (pongFrame pf.q2)) := by
      rw [pong_queues, Q2Admin.rotateKeys, kept]
      simp
    simp only [perform, resting]
    exact waits
  | rotateKeys newkey newIV =>
    have only := ((Queues.writeByte pf.q2 scmdKey).comp (Queues.writeData pf.q2 (newkey.val ++ newIV.val))).only (w.fe i)
    change keyFrame pf.q2 newkey newIV (w.fe i) = _ at only
    have plain' : (keyFrame pf.q2 newkey newIV (w.fe i)).encrypted = false := only ▸ plain
    have connection' : (keyFrame pf.q2 newkey newIV (w.fe i)).connection = some c := only ▸ connection
    obtain ⟨result, flushed, whole⟩ := flush_plain pf plain' connection'
    simp only [perform, rotate_queues, flushed]
    exact sent_delivers pf (.rotateKeys newkey newIV) atEnd
      ({ result.1 with symmetricKey := newkey, initVector := newIV }, result.2) whole (stored _) rfl
  | sendError pl severity err =>
    by_cases empty : err.val = []
    · have nothing : Q2Admin.sendError pf i pl severity err w = .ok w := by
        rw [Q2Admin.sendError.eq_def, if_pos empty]
      simp only [perform, nothing]
      exact ⟨[], (List.append_nil _).symm, by simp [frames, empty]⟩
    · have only := ((((Queues.writeByte pf.q2 scmdError).comp (Queues.writeByte pf.q2 (errorClient pl))).comp
        (Queues.writeByte pf.q2 severity)).comp (Queues.writeString pf.q2 err.val)).only (w.fe i)
      have framed : errorFrame pf.q2 pl severity err (w.fe i) = _ := (if_neg empty).trans only
      have plain' : (errorFrame pf.q2 pl severity err (w.fe i)).encrypted = false := framed ▸ plain
      have connection' : (errorFrame pf.q2 pl severity err (w.fe i)).connection = some c := framed ▸ connection
      obtain ⟨result, flushed, whole⟩ := flush_plain pf plain' connection'
      have sent : Q2Admin.sendError pf i pl severity err w =
          .ok ((w.update i (errorFrame pf.q2 pl severity err)).sent i result) := by
        rw [sendError_queues pf i pl severity empty, sendMessages, stored, flushed]
        rfl
      simp only [perform, sent]
      apply sent_delivers pf (.sendError pl severity err) atEnd result whole _ rfl
      exact World.fe_update_self _ ((World.length_update w i _).symm ▸ live) _
  | _ => exact waits

end

/-! ## No NUL is written but at the end of a text -/

/-- A text that holds no NUL. -/
abbrev Clean (text : Bytes) : Prop := 0 ∉ text

theorem clean_append {s t : Bytes} (first : Clean s) (second : Clean t) : Clean (s ++ t) :=
  fun member => (List.mem_append.mp member).elim first second

theorem clean_decimal (n : Int) : Clean (decimal n) := by
  intro member
  have range := toNat_of_mem_decimal member
  rw [show (0 : Byte).toNat = 0 from rfl] at range
  omega

theorem clean_newline {text : Bytes} (clean : Clean text) : Clean (newline text) := by
  unfold newline
  split
  · exact clean
  · exact clean_append clean (by decide)

/-- What a message carries as text. -/
def text : ServerMessage → Bytes
  | .command cmd => cmd
  | .sayClient _ _ text | .sayAll _ text => text

theorem delimited_frame {m : ServerMessage} (clean : Clean (text m)) : m.frame.Delimited := by
  cases m <;> exact clean

/-- Nothing is said of an empty text, else one thing. -/
theorem mem_unless_empty {α : Type} {said : Bytes} {m only : α} (member : m ∈ if said = [] then [] else [only]) :
    m = only := by
  by_cases empty : said = []
  · simp [empty] at member
  · simpa [empty] using member

theorem clean_mute (p : Player) (seconds : Int) : ∀ m ∈ Says.mute p seconds, Clean (text m) := by
  intro m member
  rw [List.mem_singleton.mp member]
  have length : Clean (if 0 < seconds then decimal seconds else ascii "PERM") := by
    split
    · exact clean_decimal seconds
    · decide
  exact clean_append (clean_append (clean_append (clean_append (by decide) (clean_decimal _))
    (by decide)) length) (by decide)

theorem clean_stifle (p : Player) (seconds : Int) : ∀ m ∈ Says.stifle p seconds, Clean (text m) := by
  intro m member
  rcases List.mem_cons.mp member with command | notice
  · rw [command]
    exact clean_append (clean_append (clean_append (by decide) (clean_decimal _)) (by decide)) (clean_decimal _)
  · rw [List.mem_singleton.mp notice]
    show Clean (ascii "You've been stifled")
    decide

theorem clean_stuff (p : Player) {cmd : Bytes} (clean : Clean cmd) : ∀ m ∈ Says.stuff p cmd, Clean (text m) := by
  intro m member
  rw [mem_unless_empty member]
  exact clean_append (clean_append (clean_append (clean_append (by decide) (clean_decimal _))
    (by decide)) clean) (by decide)

theorem clean_toClient (p : Player) (level : Int) {said : Bytes} (clean : Clean said) :
    ∀ m ∈ Says.toClient p level said, Clean (text m) := by
  intro m member
  rw [mem_unless_empty member]
  exact clean_newline clean

theorem clean_kick (p : Player) {msg : Bytes} (clean : Clean msg) : ∀ m ∈ Says.kick p msg, Clean (text m) := by
  intro m member
  rcases List.mem_append.mp member with said | kicked
  · exact clean_toClient p printChat clean m said
  · rw [List.mem_singleton.mp kicked]
    exact clean_append (clean_append (by decide) (clean_decimal _)) (by decide)

theorem clean_messages (op : QueueOp) : ∀ m ∈ op.messages, Clean (text m) := by
  cases op with
  | pong | rotateKeys | sendError => exact fun m member => absurd member List.not_mem_nil
  | consoleSay print =>
    intro m member
    rw [mem_unless_empty member]
    exact clean_append (clean_append (by decide) print.property) (by decide)
  | consoleCommand cmd =>
    intro m member
    rw [mem_unless_empty member]
    exact clean_newline cmd.property
  | stuffPlayer p cmd => exact clean_stuff p cmd.property
  | mutePlayer p seconds => exact clean_mute p seconds
  | stiflePlayer p seconds => exact clean_stifle p seconds
  | kickPlayer p msg => exact clean_kick p msg.property
  | sayEveryone level said =>
    intro m member
    rw [mem_unless_empty member]
    exact clean_newline said.property
  | sayPlayer p level said =>
    cases p with
    | none => exact fun m member => absurd member List.not_mem_nil
    | some p => exact clean_toClient p (printLevel level) said.property

/-- The frames of an operation can be told from what follows them. -/
theorem delimited_frames (op : QueueOp) : ∀ f ∈ op.frames, f.Delimited := by
  have said : ∀ f ∈ op.messages.map ServerMessage.frame, f.Delimited := by
    intro f member
    obtain ⟨m, spoken, rfl⟩ := List.mem_map.mp member
    exact delimited_frame (clean_messages op m spoken)
  cases op with
  | pong =>
    intro f member
    rw [List.mem_singleton.mp member]
    trivial
  | rotateKeys newkey newIV =>
    intro f member
    rw [List.mem_singleton.mp member]
    show (newkey.val ++ newIV.val).length = _
    rw [List.length_append, newkey.property, newIV.property]
    rfl
  | sendError pl severity err =>
    intro f member
    rw [mem_unless_empty member]
    exact err.property
  | consoleSay | consoleCommand | stuffPlayer | mutePlayer | stiflePlayer | kickPlayer | sayEveryone
  | sayPlayer => exact said

/-- The outgoing stream is uniquely decodable: the frames of any operations are read back
from the bytes these append, so that operations with the same bytes have the same frames. -/
theorem queueAll_decodable (ops : List QueueOp) {fe : Frontend} (atEnd : fe.messageOut.AtEnd) {bytes : Bytes}
    (appended : (queueAll q2 ops fe).messageOut.data = fe.messageOut.data ++ bytes) :
    SelfDelimiting.readAll ServerFrame.read bytes = some (ops.flatMap frames) ∧
    ∀ (ops' : List QueueOp) (fe' : Frontend), fe'.messageOut.AtEnd →
      (queueAll q2 ops' fe').messageOut.data = fe'.messageOut.data ++ bytes →
      ops'.flatMap frames = ops.flatMap frames := by
  have delimited (ops : List QueueOp) : ∀ f ∈ ops.flatMap frames, f.Delimited := by
    intro f member
    obtain ⟨op, -, own⟩ := List.mem_flatMap.mp member
    exact delimited_frames op f own
  have encoded (ops : List QueueOp) {fe : Frontend} (atEnd : fe.messageOut.AtEnd)
      (appended : (queueAll q2 ops fe).messageOut.data = fe.messageOut.data ++ bytes) :
      bytes = (ops.flatMap frames).flatMap ServerFrame.encode := by
    rw [(queueAll_appends q2 ops atEnd).data] at appended
    exact (List.append_cancel_left appended).symm
  refine ⟨?_, fun ops' fe' atEnd' appended' => ?_⟩
  · rw [encoded ops atEnd appended]
    exact ServerFrame.reads.readAll_flatMap (delimited ops)
  · exact ServerFrame.reads.flatMap_injective (delimited ops') (delimited ops)
      ((encoded ops' atEnd' appended').symm.trans (encoded ops atEnd appended))

/-- Keys full of NULs and of opcodes, between a pong and a farewell. -/
def farewell : List QueueOp := [
  .pong,
  .rotateKeys ⟨List.replicate 16 0, List.length_replicate⟩ ⟨List.replicate 16 4, List.length_replicate⟩,
  .kickPlayer { clientID := 3 } ⟨ascii "bye", by decide⟩]

theorem queueAll_decodable_farewell :
    SelfDelimiting.readAll ServerFrame.read ((farewell.flatMap frames).flatMap ServerFrame.encode) =
      some [.pong, .key (List.replicate 16 0 ++ List.replicate 16 4), .sayClient 3 3 (ascii "bye\n"),
        .command (ascii "kick 3\n")] ∧
    ∀ (ops' : List QueueOp) (fe' : Frontend), fe'.messageOut.AtEnd →
      (queueAll Libq2.plain ops' fe').messageOut.data =
        fe'.messageOut.data ++ (farewell.flatMap frames).flatMap ServerFrame.encode →
      ops'.flatMap frames = farewell.flatMap frames :=
  @queueAll_decodable Libq2.plain farewell {} rfl _ rfl

end QueueOp
end Q2Admin
