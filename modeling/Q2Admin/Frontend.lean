import Q2Admin.Buffer
import Q2Admin.Crypto
import Q2Admin.Player
import Q2Admin.Clock

/-! `type Frontend`, and the state of the process around it. A `*Frontend` is an index
into `be.frontends`, a `*Player` an index into the `Players` of its frontend. -/

namespace Q2Admin
open Go

/-- A connection, one for each run of `HandleConnection`. -/
abbrev ConnId := Nat

structure InviteBucket where
  tokens : Int := 0
  max : Int := 0
  freq : Int := 0
  lastAddition : Int := 0
  useCount : Int := 0
  deriving DecidableEq, Repr

structure Frontend where
  allowInvite : Bool := false
  allowTeleport : Bool := false
  challenge : Bytes := []
  connected : Bool := false
  connection : Option ConnId := none
  connectTime : Int := 0
  currentMap : Bytes := []
  enabled : Bool := false
  encrypted : Bool := false
  id : Int := 0
  initVector : Bytes := []
  invites : InviteBucket := {}
  ipAddress : Bytes := []
  hasMaplist : Bool := false
  maxPlayers : Nat := 0
  message : Buffer := {}
  messageOut : Buffer := {}
  name : Bytes := []
  owner : Bytes := []
  pingCount : Int := 0
  playerCount : Int := 0
  players : List Player := []
  port : Int := 0
  previousIV : Bytes := []
  previousMap : Bytes := []
  publicKey : Option PublicKey := none
  publicKeyData : Bytes := []
  rules : List Rule := []
  serverVars : StringMap := ∅
  symmetricKey : Bytes := []
  teleportCount : Int := 0
  trusted : Bool := false
  uuid : Bytes := []
  version : Int := 0
  deriving DecidableEq

instance : Inhabited Frontend := ⟨{}⟩

/-- The libraries the program is linked with. -/
structure Platform where
  q2 : Libq2
  aes : Aes
  keys : KeyLib
  rules : RuleLib
  /-- `strings.EqualFold`. -/
  equalFold : Bytes → Bytes → Bool
  /-- The groups of the leftmost match of a pattern, if there is one. -/
  submatch : Bytes → Bytes → Option (Nat → Bytes)
  /-- `utf8.RuneCountInString`, to which `Printf` pads. -/
  runeCount : Bytes → Nat

/-- A platform for runs on concrete bytes. -/
def Platform.plain : Platform where
  q2 := Libq2.plain
  aes := Aes.masking
  keys := KeyLib.plain
  rules := literalLib
  equalFold a b := a == b
  submatch _ _ := none
  runeCount := List.length

/-- What a run takes from its surroundings: the successive readings of the clock, the
successive random bytes, the successive results of inserting a row, and what a connection
finds of the files of its frontend. -/
structure Host where
  now : Nat → Int
  random : Nat → Nat → Byte
  /-- The id of the inserted row, or an error. -/
  insertID : Nat → Option Int
  /-- Whether `NewFrontendLogger` opens the log, which a connection asks for once. -/
  opensLog : ConnId → Bool
  /-- `os.ReadFile` in `LoadPublicKey`. -/
  readKey : ConnId → Bytes → Option Bytes
  serverVars : StringMap

/-- A host that counts, for runs on concrete bytes. -/
def Host.counting : Host where
  now reads := 1728145800 + reads
  random draws k := UInt8.ofNat (16 * draws + k)
  insertID inserts := some inserts
  opensLog _ := true
  readKey _ text := some text
  serverVars := ∅

/-- A row of the table `player_stat`. -/
structure PlayerStat where
  player : Int
  frags : Int
  deaths : Int
  suicides : Int
  kdr : Rat
  playTime : Int
  deriving DecidableEq

/-- A goroutine a message handler has started. -/
inductive Task where
  /-- Look the player up, check the rules and apply them. -/
  | connect (fe slot : Nat)
  /-- Change the map after five seconds. -/
  | changeMap (fe : Nat)
  deriving DecidableEq, Repr

structure World where
  /-- `be.frontends` -/
  frontends : List Frontend
  /-- `be.rules` -/
  rules : List Rule := []
  /-- What has been written to the connections, in order. -/
  wire : List (ConnId × Bytes) := []
  playerStats : List PlayerStat := []
  tasks : List Task := []
  host : Host
  clockReads : Nat := 0
  randomReads : Nat := 0
  inserts : Nat := 0

namespace World

def fe (w : World) (i : Nat) : Frontend := w.frontends.getD i default

def update (w : World) (i : Nat) (f : Frontend → Frontend) : World :=
  { w with frontends := w.frontends.modify i f }

/-- `time.Now().Unix()`. -/
def now (w : World) : Int × World :=
  (w.host.now w.clockReads, { w with clockReads := w.clockReads + 1 })

/-- `crypto.RandomBytes(length)`. -/
def randomBytes (w : World) (length : Nat) : Bytes × World :=
  ((List.range length).map (w.host.random w.randomReads), { w with randomReads := w.randomReads + 1 })

/-- An insert into the database. -/
def insert (w : World) : Option Int × World :=
  (w.host.insertID w.inserts, { w with inserts := w.inserts + 1 })

/-- `go func() { ... }()`. -/
def spawn (w : World) (task : Task) : World := { w with tasks := w.tasks ++ [task] }

theorem fe_update_self (w : World) {i : Nat} (live : i < w.frontends.length)
    (f : Frontend → Frontend) : (w.update i f).fe i = f (w.fe i) := by
  simp [fe, update, List.getD_eq_getElem?_getD, live]

theorem fe_update_ne (w : World) {i j : Nat} (apart : j ≠ i) (f : Frontend → Frontend) :
    (w.update i f).fe j = w.fe j := by
  simp [fe, update, List.getD_eq_getElem?_getD, List.getElem?_modify_ne f w.frontends (Ne.symm apart)]

/-- A frontend that is not there. -/
theorem fe_outside (w : World) {i : Nat} (outside : ¬ i < w.frontends.length) : w.fe i = {} := by
  rw [fe, List.getD_eq_getElem?_getD, List.getElem?_eq_none (Nat.le_of_not_lt outside)]
  rfl

theorem update_outside (w : World) {i : Nat} (outside : ¬ i < w.frontends.length)
    (f : Frontend → Frontend) : w.update i f = w := by
  rw [update, List.modify_eq_self (Nat.le_of_not_lt outside)]

theorem live_of_connected {w : World} {i : Nat} (connected : (w.fe i).connection.isSome = true) :
    i < w.frontends.length := by
  by_contra outside
  rw [fe_outside w outside] at connected
  simp at connected

/-- Only what the functions make of the frontend counts. -/
theorem update_congr {w : World} {i : Nat} {f g : Frontend → Frontend}
    (same : f (w.fe i) = g (w.fe i)) : w.update i f = w.update i g := by
  have lists : w.frontends.modify i f = w.frontends.modify i g := by
    apply List.ext_getElem?
    intro n
    simp only [List.getElem?_modify]
    by_cases here : i = n
    · cases found : w.frontends[n]? with
      | none => rfl
      | some fe =>
        have entry : w.fe i = fe := by simp [World.fe, List.getD_eq_getElem?_getD, here, found]
        rw [entry] at same
        simp [here, same]
    · simp [here]
  rw [update, update, lists]

theorem update_update (w : World) (i : Nat) (f g : Frontend → Frontend) :
    (w.update i f).update i g = w.update i fun fe => g (f fe) := by
  simp only [update, List.modify_modify_eq]
  rfl

@[simp] theorem length_update (w : World) (i : Nat) (f : Frontend → Frontend) :
    (w.update i f).frontends.length = w.frontends.length := by
  simp [update]

/-- What an update leaves alone on a frontend, it leaves alone on all of them. -/
theorem fe_update_field {α : Type} (w : World) (i j : Nat) {f : Frontend → Frontend}
    (field : Frontend → α) (kept : ∀ fe, field (f fe) = field fe) :
    field ((w.update i f).fe j) = field (w.fe j) := by
  by_cases same : j = i
  · subst same
    by_cases live : j < w.frontends.length
    · rw [fe_update_self w live, kept]
    · rw [update_outside w live]
  · rw [fe_update_ne w same]

/-- What an update leaves alone on its frontend, it leaves alone. -/
theorem map_update {α : Type} {field : Frontend → α} {w : World} {i : Nat} {f : Frontend → Frontend}
    (kept : field (f (w.fe i)) = field (w.fe i)) : (w.update i f).frontends.map field = w.frontends.map field := by
  apply List.ext_getElem?
  intro n
  simp only [update, List.getElem?_map, List.getElem?_modify]
  by_cases same : i = n
  · cases found : w.frontends[n]? with
    | none => rfl
    | some fe =>
      have here : w.fe i = fe := by simp [World.fe, List.getD_eq_getElem?_getD, same, found]
      rw [here] at kept
      simp [same, kept]
  · simp [same]

/-- Frontends alike in a list are alike one by one. -/
theorem field_of_map {α : Type} {field : Frontend → α} {w w' : World}
    (same : w'.frontends.map field = w.frontends.map field) (j : Nat) : field (w'.fe j) = field (w.fe j) := by
  have read (v : World) : field (v.fe j) = ((v.frontends.map field)[j]?).getD (field default) := by
    rw [List.getElem?_map, Option.getD_map, fe, List.getD_eq_getElem?_getD]
  rw [read, read, same]

end World

namespace Frontend

/-- `ValidPlayerID`. -/
def validPlayerID (fe : Frontend) (client : Int) : Bool :=
  0 ≤ client && client < fe.players.length

/-- `FindPlayer`: the slot of the player in use with that id. -/
def findPlayer (fe : Frontend) (client : Int) : Option Nat :=
  if fe.validPlayerID client then
    fe.players.findIdx? fun p => p.clientID = client && p.inUse
  else none

/-- `FindPlayerByName`. -/
def findPlayerByName (fe : Frontend) (name : Bytes) : Option Nat :=
  fe.players.findIdx? fun p => p.name = name

def player (fe : Frontend) (slot : Nat) : Player := fe.players.getD slot default

def updatePlayer (fe : Frontend) (slot : Nat) (f : Player → Player) : Frontend :=
  { fe with players := fe.players.modify slot f }

section
variable {fe fe' : Frontend} {slot k : Nat} {p : Player} {f : Player → Player}

theorem player_eq_getElem (inside : slot < fe.players.length) : fe.player slot = fe.players[slot] := by
  simp [player, List.getD_eq_getElem?_getD, inside]

theorem player_mem (inside : slot < fe.players.length) : fe.player slot ∈ fe.players :=
  player_eq_getElem inside ▸ List.getElem_mem inside

theorem player_outside (outside : ¬ slot < fe.players.length) : fe.player slot = {} := by
  rw [player, List.getD_eq_getElem?_getD, List.getElem?_eq_none (Nat.le_of_not_lt outside)]
  rfl

theorem player_set (inside : slot < fe.players.length) (set : fe'.players = fe.players.set slot p) :
    fe'.player slot = p := by
  simp [player, set, List.getD_eq_getElem?_getD, inside]

theorem player_set_ne (other : k ≠ slot) (set : fe'.players = fe.players.set slot p) :
    fe'.player k = fe.player k := by
  rw [player, player, set, List.getD_eq_getElem?_getD, List.getElem?_set_ne other.symm, ← List.getD_eq_getElem?_getD]

theorem player_modify (inside : slot < fe.players.length) (modified : fe'.players = fe.players.modify slot f) :
    fe'.player slot = f (fe.player slot) := by
  simp [player, modified, List.getD_eq_getElem?_getD, inside]

theorem player_modify_ne (other : k ≠ slot) (modified : fe'.players = fe.players.modify slot f) :
    fe'.player k = fe.player k := by
  simp [player, modified, List.getD_eq_getElem?_getD, other.symm]

end

theorem findPlayer_valid {fe : Frontend} {client : Int} {slot : Nat}
    (found : fe.findPlayer client = some slot) : fe.validPlayerID client = true := by
  unfold findPlayer at found
  split at found
  · assumption
  · simp at found

theorem findPlayer_lt {fe : Frontend} {client : Int} {slot : Nat}
    (found : fe.findPlayer client = some slot) : slot < fe.players.length := by
  unfold findPlayer at found
  split at found
  · exact (List.findIdx?_eq_some_iff_getElem.mp found).1
  · simp at found

end Frontend
end Q2Admin
