import Q2Admin.Buffer
import Q2Admin.Userinfo

/-! The messages of a frontend as it encodes them, and reading them back from a buffer. -/

namespace Q2Admin
open Go

/-- Keys and values, each behind a backslash. -/
def formatUserinfo (pairs : List (Bytes × Bytes)) : Bytes :=
  pairs.flatMap fun pair => backslash :: pair.1 ++ backslash :: pair.2

def IsUserinfo (ui : Bytes) : Prop :=
  ∃ pairs, (∀ pair ∈ pairs, backslash ∉ pair.1 ∧ backslash ∉ pair.2) ∧ ui = formatUserinfo pairs

theorem count_formatUserinfo {pairs : List (Bytes × Bytes)}
    (plain : ∀ pair ∈ pairs, backslash ∉ pair.1 ∧ backslash ∉ pair.2) :
    (formatUserinfo pairs).count backslash = 2 * pairs.length := by
  induction pairs with
  | nil => rfl
  | cons pair rest ih =>
    have front := plain pair (List.mem_cons_self ..)
    have tail := ih fun other member => plain other (List.mem_cons_of_mem _ member)
    have key : pair.1.count backslash = 0 := List.count_eq_zero.mpr front.1
    have value : pair.2.count backslash = 0 := List.count_eq_zero.mpr front.2
    rw [formatUserinfo] at tail
    rw [formatUserinfo, List.flatMap_cons, List.count_append, List.count_append, tail,
      List.count_cons_self, List.count_cons_self, key, value, List.length_cons]
    omega

theorem wholePairs_of_isUserinfo {ui : Bytes} (userinfo : IsUserinfo ui) : WholePairs ui := by
  obtain ⟨pairs, plain, rfl⟩ := userinfo
  have total := count_formatUserinfo plain
  cases pairs with
  | nil => exact .inl rfl
  | cons pair rest =>
    have first : formatUserinfo (pair :: rest) = backslash :: (formatUserinfo (pair :: rest)).tail := rfl
    rw [first, List.count_cons_self, List.length_cons] at total
    right
    omega

/-- A string that can be sent: the NUL ends it. -/
abbrev WireString := {s : Bytes // 0 ∉ s}

/-- The payload of a connect message, and of every entry of a player list. -/
structure PlayerEntry where
  client : Byte
  userinfo : WireString
  version : WireString

/-- A list whose length fits the byte in front of it. -/
abbrev PlayerList := {players : List PlayerEntry // players.length < 256}

inductive ClientMessage where
  | ping
  | print (level : Byte) (text : WireString)
  | map (mapname : WireString)
  | playerList (players : PlayerList)
  | playerUpdate (client : Byte) (userinfo : WireString)
  | connect (player : PlayerEntry)
  | disconnect (client : Byte)
  | teleport (client : Byte) (target : WireString)
  | invite (client : Byte) (text : WireString)

def WireString.encode (s : WireString) : Bytes := s.val ++ [0]

def PlayerEntry.encode (e : PlayerEntry) : Bytes :=
  e.client :: (e.userinfo.encode ++ e.version.encode)

namespace ClientMessage

def opcode : ClientMessage → Byte
  | ping => 12
  | print _ _ => 7
  | map _ => 11
  | playerList _ => 5
  | playerUpdate _ _ => 6
  | connect _ => 3
  | disconnect _ => 4
  | teleport _ _ => 8
  | invite _ _ => 8

/-- What follows the opcode. -/
def payload : ClientMessage → Bytes
  | ping => []
  | print level text => level :: text.encode
  | map mapname => mapname.encode
  | playerList players => UInt8.ofNat players.val.length :: players.val.flatMap PlayerEntry.encode
  | playerUpdate client userinfo => client :: userinfo.encode
  | connect player => player.encode
  | disconnect client => [client]
  | teleport client target => 0 :: client :: target.encode
  | invite client text => 1 :: client :: text.encode

def encode (m : ClientMessage) : Bytes := m.opcode :: m.payload

end ClientMessage

/-- The messages one after the other. -/
def encodeAll (messages : List ClientMessage) : Bytes := messages.flatMap ClientMessage.encode

/-! ## Reading -/

namespace Buffer

/-- What is left to read. -/
def unread (b : Buffer) : Bytes := b.data.drop b.index

def advance (count : Nat) (b : Buffer) : Buffer := { b with index := b.index + count }

theorem unread_advance (b : Buffer) (count : Nat) : (b.advance count).unread = b.unread.drop count := by
  simp only [unread, advance, List.drop_drop]

theorem advance_advance (b : Buffer) (m n : Nat) : (b.advance m).advance n = b.advance (m + n) := by
  simp only [advance, Nat.add_assoc]

/-- A buffer with something left to read, in the two parts the reads are described by. -/
theorem split_unread {b : Buffer} {x : Byte} {rest : Bytes} (left : b.unread = x :: rest) :
    ∃ done, b = ⟨done ++ x :: rest, done.length, b.length⟩ := by
  have inside : b.index ≤ b.data.length := by
    by_contra outside
    rw [unread, List.drop_of_length_le (by omega)] at left
    simp at left
  refine ⟨b.data.take b.index, ?_⟩
  rw [← left, unread, List.take_append_drop, List.length_take, Nat.min_eq_left inside]

end Buffer

namespace Libq2
variable (q2 : Libq2) {b : Buffer}

theorem readByte_unread {x : Byte} {rest : Bytes} (left : b.unread = x :: rest) :
    q2.readByte b = some (x, b.advance 1) := by
  obtain ⟨done, whole⟩ := Buffer.split_unread left
  rw [whole]
  exact q2.readByte_at done x rest b.length

theorem readString_unread (s : WireString) {rest : Bytes} (left : b.unread = s.encode ++ rest) :
    q2.readString b = some (s.val, b.advance s.encode.length) := by
  have nonempty : ∃ x more, s.val ++ 0 :: rest = x :: more := by
    cases s.val with
    | nil => exact ⟨0, rest, rfl⟩
    | cons x more => exact ⟨x, more ++ 0 :: rest, rfl⟩
  have text : b.unread = s.val ++ 0 :: rest := by simpa [WireString.encode] using left
  obtain ⟨x, more, same⟩ := nonempty
  obtain ⟨done, whole⟩ := Buffer.split_unread (text.trans same)
  rw [← same] at whole
  rw [whole, q2.readString_at done s.val rest b.length s.property]
  simp [Buffer.advance, WireString.encode]

end Libq2
end Q2Admin
