import Q2Admin.Frontend

/-! `backend/command.go` and the sending half of `backend/backend.go`: what is queued for
a frontend, and how the queue goes out on its connection. -/

namespace Q2Admin
open Go

def scmdHelloAck : Int := 1
def scmdError : Int := 2
def scmdPong : Int := 3
def scmdCommand : Int := 4
def scmdSayClient : Int := 5
def scmdSayAll : Int := 6
def scmdTrusted : Int := 8
def scmdKey : Int := 9

def printLow : Int := 0
def printMedium : Int := 1
def printHigh : Int := 2
def printChat : Int := 3

/-- The longest stifle in seconds. -/
def stifleMax : Int := 300

namespace Frontend
variable (q2 : Libq2)

def writeByte (n : Int) (fe : Frontend) : Frontend :=
  { fe with messageOut := q2.writeByte fe.messageOut n }

def writeShort (n : Int) (fe : Frontend) : Frontend :=
  { fe with messageOut := q2.writeShort fe.messageOut n }

def writeString (s : Bytes) (fe : Frontend) : Frontend :=
  { fe with messageOut := q2.writeString fe.messageOut s }

def writeData (d : Bytes) (fe : Frontend) : Frontend :=
  { fe with messageOut := q2.writeData fe.messageOut d }

end Frontend

section
variable (q2 : Libq2)

/-- The text with a newline at its end. -/
def newline (text : Bytes) : Bytes :=
  if hasSuffix text (ascii "\n") then text else text ++ ascii "\n"

/-- A level that is none is `PRINT_LOW`. -/
def printLevel (level : Int) : Int := if level < 0 ∨ printChat < level then printLow else level

def commandFrame (cmd : Bytes) (fe : Frontend) : Frontend :=
  (fe.writeByte q2 scmdCommand).writeString q2 cmd

def consoleSay (print : Bytes) (fe : Frontend) : Frontend :=
  if print = [] then fe else commandFrame q2 (ascii "say " ++ print ++ ascii "\n") fe

def stuffPlayer (p : Player) (cmd : Bytes) (fe : Frontend) : Frontend :=
  if cmd = [] then fe
  else commandFrame q2
    (ascii "sv !stuff CL " ++ decimal p.clientID ++ ascii " " ++ cmd ++ ascii "\n") fe

/-- Zero or a negative number of seconds is for good. -/
def mutePlayer (p : Player) (seconds : Int) (fe : Frontend) : Frontend :=
  commandFrame q2 (ascii "sv !mute CL " ++ decimal p.clientID ++ ascii " " ++
    (if 0 < seconds then decimal seconds else ascii "PERM") ++ ascii "\n") fe

/-- The seconds of a stifle, from those asked for. -/
def stifleSeconds (seconds : Int) : Int :=
  let magnitude := if seconds < 0 then absInt seconds else seconds
  if stifleMax < magnitude then stifleMax else magnitude

def stiflePlayer (p : Player) (seconds : Int) (fe : Frontend) : Frontend :=
  let fe := commandFrame q2
    (ascii "sv !stifle CL " ++ decimal p.clientID ++ ascii " " ++ decimal (stifleSeconds seconds)) fe
  (((fe.writeByte q2 scmdSayClient).writeByte q2 p.clientID).writeByte q2 printHigh).writeString q2
    (ascii "You've been stifled")

def kickPlayer (p : Player) (msg : Bytes) (fe : Frontend) : Frontend :=
  let fe := if msg = [] then fe
    else (((fe.writeByte q2 scmdSayClient).writeByte q2 p.clientID).writeByte q2 printChat).writeString
      q2 (newline msg)
  commandFrame q2 (ascii "kick " ++ decimal p.clientID ++ ascii "\n") fe

def consoleCommand (cmd : Bytes) (fe : Frontend) : Frontend :=
  if cmd = [] then fe else commandFrame q2 (newline cmd) fe

def sayEveryone (level : Int) (text : Bytes) (fe : Frontend) : Frontend :=
  if text = [] then fe
  else ((fe.writeByte q2 scmdSayAll).writeByte q2 (printLevel level)).writeString q2 (newline text)

/-- Nothing is said to a nil player. -/
def sayPlayer (p : Option Player) (level : Int) (text : Bytes) (fe : Frontend) : Frontend :=
  match p with
  | none => fe
  | some p =>
    if text = [] then fe
    else (((fe.writeByte q2 scmdSayClient).writeByte q2 p.clientID).writeByte q2
      (printLevel level)).writeString q2 (newline text)

/-- The cookie is written to the player's config and added to the userinfo. -/
def setupPlayerCookie (p : Player) (random : Bytes) (fe : Frontend) : Frontend :=
  let fe := stuffPlayer q2 p (ascii "seta cl_cookie " ++ hexString random) fe
  stuffPlayer q2 p (ascii "setu cl_cookie $cl_cookie") fe

end

section
variable (pf : Platform)

/-- The queue as it goes out. The first block of an encrypted one is the next vector. -/
def Frontend.encryptQueue (fe : Frontend) : Except Fault Frontend :=
  if fe.trusted && fe.encrypted then do
    let cipher ← symmetricEncrypt pf.aes fe.symmetricKey fe.initVector
      (fe.messageOut.data.take fe.messageOut.index)
    .ok { fe with
      messageOut := pf.q2.newBuffer cipher
      previousIV := fe.initVector
      initVector := cipher.take aesIVLength }
  else .ok fe

/-- `SendMessages`: the frontend with its queue emptied, and what goes out. -/
def Frontend.flush (fe : Frontend) : Except Fault (Frontend × List (ConnId × Bytes)) :=
  if pf.q2.size fe.messageOut = 0 then .ok (fe, [])
  else do
    let fe ← fe.encryptQueue pf
    match fe.connection with
    | none => .error .nilConnection
    | some c => .ok ({ fe with messageOut := pf.q2.reset fe.messageOut }, [(c, fe.messageOut.data)])

/-- `RotateKeys` with the new key and vector: they go out under the old ones. -/
def Frontend.rotate (newkey newIV : Bytes) (fe : Frontend) :
    Except Fault (Frontend × List (ConnId × Bytes)) := do
  let (fe, sent) ← ((fe.writeByte pf.q2 scmdKey).writeData pf.q2 (newkey ++ newIV)).flush pf
  .ok ({ fe with symmetricKey := newkey, initVector := newIV }, sent)

/-- The frontend after sending, with what it sent on the wire. -/
def World.sent (w : World) (i : Nat) (result : Frontend × List (ConnId × Bytes)) : World :=
  { w.update i (fun _ => result.1) with wire := w.wire ++ result.2 }

def sendMessages (i : Nat) (w : World) : Except Fault World := do
  let result ← (w.fe i).flush pf
  .ok (w.sent i result)

def rotateKeys (i : Nat) (w : World) : Except Fault World :=
  if !(w.fe i).encrypted then .ok w
  else do
    let (newkey, w) := w.randomBytes aesBlockLength
    let (newIV, w) := w.randomBytes aesIVLength
    let result ← (w.fe i).rotate pf newkey newIV
    .ok (w.sent i result)

/-- `SendError`, to no player in particular when there is none. -/
def sendError (i : Nat) (pl : Option Player) (severity : Int) (err : Bytes) (w : World) :
    Except Fault World :=
  if err = [] then .ok w
  else
    let client : Int := match pl with
      | none => -1
      | some pl => pl.clientID
    sendMessages pf i (w.update i fun fe =>
      (((fe.writeByte pf.q2 scmdError).writeByte pf.q2 client).writeByte pf.q2 severity).writeString
        pf.q2 err)

end

/-! ## Queueing changes the queue only -/

structure Queues (f : Frontend → Frontend) : Prop where
  only : ∀ fe, f fe = { fe with messageOut := (f fe).messageOut }
  atEnd : ∀ fe, fe.messageOut.AtEnd → (f fe).messageOut.AtEnd

namespace Queues
variable {f g : Frontend → Frontend}

theorem nothing : Queues fun fe => fe := ⟨fun _ => rfl, fun _ => id⟩

theorem comp (first : Queues f) (second : Queues g) : Queues fun fe => g (f fe) where
  only := by
    intro fe
    calc g (f fe)
      _ = { f fe with messageOut := (g (f fe)).messageOut } := second.only (f fe)
      _ = { fe with messageOut := (g (f fe)).messageOut } :=
        congrArg (fun inner : Frontend => { inner with messageOut := (g (f fe)).messageOut })
          (first.only fe)
  atEnd := fun fe start => second.atEnd (f fe) (first.atEnd fe start)

theorem players (queues : Queues f) (fe : Frontend) : (f fe).players = fe.players := by
  rw [queues.only fe]

variable (q2 : Libq2)

theorem writeByte (n : Int) : Queues (Frontend.writeByte q2 n) where
  only := fun _ => rfl
  atEnd := fun fe start => (q2.writeByte_appends fe.messageOut n start).atEnd

theorem writeShort (n : Int) : Queues (Frontend.writeShort q2 n) where
  only := fun _ => rfl
  atEnd := fun fe start => (q2.writeShort_appends fe.messageOut n start).atEnd

theorem writeData (d : Bytes) : Queues (Frontend.writeData q2 d) where
  only := fun _ => rfl
  atEnd := fun fe start => (q2.writeData_appends fe.messageOut d start).atEnd

theorem writeString (s : Bytes) : Queues (Frontend.writeString q2 s) where
  only := fun _ => rfl
  atEnd := fun fe start => (q2.writeString_appends fe.messageOut s start).atEnd

theorem commandFrame (cmd : Bytes) : Queues (commandFrame q2 cmd) :=
  (writeByte q2 _).comp (writeString q2 cmd)

theorem mutePlayer (p : Player) (seconds : Int) : Queues (mutePlayer q2 p seconds) :=
  commandFrame q2 _

theorem consoleSay (print : Bytes) : Queues (consoleSay q2 print) := by
  unfold Q2Admin.consoleSay
  split
  · exact nothing
  · exact commandFrame q2 _

theorem consoleCommand (cmd : Bytes) : Queues (consoleCommand q2 cmd) := by
  unfold Q2Admin.consoleCommand
  split
  · exact nothing
  · exact commandFrame q2 _

theorem stiflePlayer (p : Player) (seconds : Int) : Queues (stiflePlayer q2 p seconds) := by
  unfold Q2Admin.stiflePlayer
  exact ((((commandFrame q2 _).comp (writeByte q2 _)).comp (writeByte q2 _)).comp (writeByte q2 _)).comp
    (writeString q2 _)

theorem kickPlayer (p : Player) (msg : Bytes) : Queues (kickPlayer q2 p msg) := by
  unfold Q2Admin.kickPlayer
  by_cases empty : msg = []
  · simp only [empty, ↓reduceIte]
    exact commandFrame q2 _
  · simp only [empty, ↓reduceIte]
    exact ((((writeByte q2 _).comp (writeByte q2 _)).comp (writeByte q2 _)).comp (writeString q2 _)).comp
      (commandFrame q2 _)

theorem stuffPlayer (p : Player) (cmd : Bytes) : Queues (stuffPlayer q2 p cmd) := by
  unfold Q2Admin.stuffPlayer
  split
  · exact nothing
  · exact commandFrame q2 _

theorem setupPlayerCookie (p : Player) (random : Bytes) : Queues (setupPlayerCookie q2 p random) :=
  (stuffPlayer q2 p _).comp (stuffPlayer q2 p _)

theorem sayEveryone (level : Int) (text : Bytes) : Queues (sayEveryone q2 level text) := by
  unfold Q2Admin.sayEveryone
  split
  · exact nothing
  · exact ((writeByte q2 _).comp (writeByte q2 _)).comp (writeString q2 _)

theorem sayPlayer (p : Option Player) (level : Int) (text : Bytes) :
    Queues (sayPlayer q2 p level text) := by
  unfold Q2Admin.sayPlayer
  cases p with
  | none => exact nothing
  | some p =>
    by_cases empty : text = []
    · simp only [empty, ↓reduceIte]
      exact nothing
    · simp only [empty, ↓reduceIte]
      exact (((writeByte q2 _).comp (writeByte q2 _)).comp (writeByte q2 _)).comp (writeString q2 _)

end Queues
end Q2Admin
