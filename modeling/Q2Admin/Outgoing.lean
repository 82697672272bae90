import Q2Admin.Command

/-! What the queueing functions of `backend/command.go` say, as messages: each appends the
encodings of some messages to the queue and changes nothing else. -/

namespace Q2Admin
open Go

/-- A message to a frontend. -/
inductive ServerMessage where
  /-- A line for the console of the server. -/
  | command (cmd : Bytes)
  | sayClient (client level : Int) (text : Bytes)
  | sayAll (level : Int) (text : Bytes)
  deriving DecidableEq, Repr

def ServerMessage.encode : ServerMessage → Bytes
  | command cmd => [byteOf scmdCommand] ++ (cmd ++ [0])
  | sayClient client level text =>
    [byteOf scmdSayClient] ++ [byteOf client] ++ [byteOf level] ++ (text ++ [0])
  | sayAll level text => [byteOf scmdSayAll] ++ [byteOf level] ++ (text ++ [0])

def encodeServer (messages : List ServerMessage) : Bytes := messages.flatMap ServerMessage.encode

theorem encodeServer_eq_nil_iff {messages : List ServerMessage} : encodeServer messages = [] ↔ messages = [] := by
  cases messages with
  | nil => simp [encodeServer]
  | cons m rest => cases m <;> simp [encodeServer, ServerMessage.encode]

theorem Buffer.Appends.trans {b b' b'' : Buffer} {first second : Bytes} (one : b.Appends first b')
    (two : b'.Appends second b'') : b.Appends (first ++ second) b'' where
  data := by rw [two.data, one.data, List.append_assoc]
  atEnd := two.atEnd

/-- What is appended to the queue of a frontend, and that nothing else is changed. -/
structure Writes (f : Frontend → Frontend) (bytes : Bytes) : Prop extends Queues f where
  appends : ∀ fe : Frontend, fe.messageOut.AtEnd → fe.messageOut.Appends bytes (f fe).messageOut

namespace Writes
variable {f g : Frontend → Frontend} {first second : Bytes}

theorem nothing : Writes (fun fe => fe) [] :=
  ⟨Queues.nothing, fun _ atEnd => ⟨(List.append_nil _).symm, atEnd⟩⟩

theorem comp (one : Writes f first) (two : Writes g second) :
    Writes (fun fe => g (f fe)) (first ++ second) where
  toQueues := one.toQueues.comp two.toQueues
  appends := by
    intro fe atEnd
    have front := one.appends fe atEnd
    exact front.trans (two.appends (f fe) front.atEnd)

theorem of_eq {bytes : Bytes} (writes : Writes f first) (same : first = bytes) : Writes f bytes := same ▸ writes

variable (q2 : Libq2)

theorem writeByte (n : Int) : Writes (Frontend.writeByte q2 n) [byteOf n] :=
  ⟨Queues.writeByte q2 n, fun fe => q2.writeByte_appends fe.messageOut n⟩

theorem writeString (s : Bytes) : Writes (Frontend.writeString q2 s) (s ++ [0]) :=
  ⟨Queues.writeString q2 s, fun fe => q2.writeString_appends fe.messageOut s⟩

end Writes

/-- The queueing function says these messages. -/
def Says (f : Frontend → Frontend) (messages : List ServerMessage) : Prop := Writes f (encodeServer messages)

namespace Says
variable {f g : Frontend → Frontend} {first second : List ServerMessage}

theorem nothing : Says (fun fe => fe) [] := Writes.nothing

theorem comp (one : Says f first) (two : Says g second) : Says (fun fe => g (f fe)) (first ++ second) :=
  (Writes.comp one two).of_eq List.flatMap_append.symm

theorem single {m : ServerMessage} (writes : Writes f m.encode) : Says f [m] :=
  writes.of_eq (by simp [encodeServer])

variable (q2 : Libq2) (p : Player)

theorem commandFrame (cmd : Bytes) : Says (commandFrame q2 cmd) [.command cmd] :=
  single ((Writes.writeByte q2 scmdCommand).comp (Writes.writeString q2 cmd))

/-- What is stuffed to a player, if it is anything. -/
def stuff (cmd : Bytes) : List ServerMessage :=
  if cmd = [] then []
  else [.command (ascii "sv !stuff CL " ++ decimal p.clientID ++ ascii " " ++ cmd ++ ascii "\n")]

theorem stuffPlayer (cmd : Bytes) : Says (stuffPlayer q2 p cmd) (stuff p cmd) := by
  unfold Q2Admin.stuffPlayer stuff
  by_cases empty : cmd = []
  · simp only [empty, ↓reduceIte]
    exact nothing
  · simp only [empty, ↓reduceIte]
    exact commandFrame q2 _

theorem setupPlayerCookie (random : Bytes) : Says (setupPlayerCookie q2 p random)
    (stuff p (ascii "seta cl_cookie " ++ hexString random) ++
      stuff p (ascii "setu cl_cookie $cl_cookie")) :=
  (stuffPlayer q2 p _).comp (stuffPlayer q2 p _)

/-- The command that mutes somebody, for good if for no time. -/
def mute (seconds : Int) : List ServerMessage :=
  [.command (ascii "sv !mute CL " ++ decimal p.clientID ++ ascii " " ++
    (if 0 < seconds then decimal seconds else ascii "PERM") ++ ascii "\n")]

theorem mutePlayer (seconds : Int) : Says (mutePlayer q2 p seconds) (mute p seconds) := commandFrame q2 _

/-- The command that stifles somebody, and the notice. -/
def stifle (seconds : Int) : List ServerMessage :=
  [.command (ascii "sv !stifle CL " ++ decimal p.clientID ++ ascii " " ++ decimal (stifleSeconds seconds)),
    .sayClient p.clientID printHigh (ascii "You've been stifled")]

theorem stiflePlayer (seconds : Int) : Says (stiflePlayer q2 p seconds) (stifle p seconds) := by
  have notice : Says (fun fe => (((fe.writeByte q2 scmdSayClient).writeByte q2 p.clientID).writeByte q2
      printHigh).writeString q2 (ascii "You've been stifled"))
      [.sayClient p.clientID printHigh (ascii "You've been stifled")] :=
    single ((((Writes.writeByte q2 _).comp (Writes.writeByte q2 _)).comp
      (Writes.writeByte q2 _)).comp (Writes.writeString q2 _))
  exact (commandFrame q2 _).comp notice

/-- The text of a message to one client, if there is any. -/
def toClient (level : Int) (text : Bytes) : List ServerMessage :=
  if text = [] then [] else [.sayClient p.clientID level (newline text)]

theorem sayClient (level : Int) (text : Bytes) :
    Says (fun fe => if text = [] then fe
      else (((fe.writeByte q2 scmdSayClient).writeByte q2 p.clientID).writeByte q2 level).writeString
        q2 (newline text)) (toClient p level text) := by
  unfold toClient
  by_cases empty : text = []
  · simp only [empty, ↓reduceIte]
    exact nothing
  · simp only [empty, ↓reduceIte]
    exact single ((((Writes.writeByte q2 _).comp (Writes.writeByte q2 _)).comp
      (Writes.writeByte q2 _)).comp (Writes.writeString q2 _))

theorem sayPlayer (level : Int) (text : Bytes) :
    Says (sayPlayer q2 (some p) level text) (toClient p (printLevel level) text) :=
  sayClient q2 p (printLevel level) text

theorem sayEveryone (level : Int) (text : Bytes) : Says (sayEveryone q2 level text)
    (if text = [] then [] else [.sayAll (printLevel level) (newline text)]) := by
  unfold Q2Admin.sayEveryone
  by_cases empty : text = []
  · simp only [empty, ↓reduceIte]
    exact nothing
  · simp only [empty, ↓reduceIte]
    exact single (((Writes.writeByte q2 _).comp (Writes.writeByte q2 _)).comp (Writes.writeString q2 _))

/-- What is said when a player is kicked: the message, and the command. -/
def kick (msg : Bytes) : List ServerMessage :=
  toClient p printChat msg ++ [.command (ascii "kick " ++ decimal p.clientID ++ ascii "\n")]

theorem kickPlayer (msg : Bytes) : Says (kickPlayer q2 p msg) (kick p msg) :=
  (sayClient q2 p printChat msg).comp (commandFrame q2 _)

end Says
end Q2Admin
