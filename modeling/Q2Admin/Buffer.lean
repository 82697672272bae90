import Q2Admin.Go

/-! `message.Buffer` of libq2, which is not part of the repository. Its fields are used
directly by the program; its methods are a parameter with the behaviour the program
relies on: reads take what is at the index, writes append. -/

namespace Q2Admin

/-- `message.Buffer`. -/
structure Buffer where
  data : Bytes := []
  index : Nat := 0
  length : Nat := 0
  deriving DecidableEq, Repr

/-- All written, none of it read: what a buffer for output looks like. -/
def Buffer.AtEnd (b : Buffer) : Prop := b.index = b.data.length

instance (b : Buffer) : Decidable b.AtEnd := inferInstanceAs (Decidable (b.index = b.data.length))

/-- The byte written for an integer, which is taken modulo 256. -/
def byteOf (n : Int) : Byte := UInt8.ofNat (n % 256).toNat

/-- The result of a write that appends. -/
structure Buffer.Appends (b : Buffer) (bytes : Bytes) (b' : Buffer) : Prop where
  data : b'.data = b.data ++ bytes
  atEnd : b'.AtEnd

/-- The result of a read that keeps to its own buffer. -/
structure Buffer.Advances (b b' : Buffer) : Prop where
  data : b'.data = b.data
  length : b'.length = b.length
  index : b.index ≤ b'.index

/-- The methods of `message.Buffer`; a read without a result is a fault. -/
structure Libq2 where
  newBuffer : Bytes → Buffer
  size : Buffer → Nat
  reset : Buffer → Buffer
  readByte : Buffer → Option (Byte × Buffer)
  readShort : Buffer → Option (Int × Buffer)
  readLong : Buffer → Option (Int × Buffer)
  readString : Buffer → Option (Bytes × Buffer)
  readData : Buffer → Int → Option (Bytes × Buffer)
  writeByte : Buffer → Int → Buffer
  writeShort : Buffer → Int → Buffer
  writeString : Buffer → Bytes → Buffer
  writeData : Buffer → Bytes → Buffer
  newBuffer_eq : ∀ bytes, newBuffer bytes = ⟨bytes, 0, bytes.length⟩
  size_eq : ∀ b : Buffer, b.AtEnd → size b = b.data.length
  reset_eq : ∀ b, reset b = {}
  readByte_at : ∀ (done : Bytes) (b : Byte) (rest : Bytes) (n : Nat),
    readByte ⟨done ++ b :: rest, done.length, n⟩ =
      some (b, ⟨done ++ b :: rest, done.length + 1, n⟩)
  /-- `ReadString` takes up to and including the next NUL. -/
  readString_at : ∀ (done s rest : Bytes) (n : Nat), 0 ∉ s →
    readString ⟨done ++ (s ++ 0 :: rest), done.length, n⟩ =
      some (s, ⟨done ++ (s ++ 0 :: rest), done.length + (s.length + 1), n⟩)
  readByte_advances : ∀ b x b', readByte b = some (x, b') → b.Advances b' ∧ b.index < b'.index
  readString_advances : ∀ b x b', readString b = some (x, b') → b.Advances b'
  writeByte_appends : ∀ (b : Buffer) n, b.AtEnd → b.Appends [byteOf n] (writeByte b n)
  /-- A short is written little-endian. -/
  writeShort_appends : ∀ (b : Buffer) n, b.AtEnd →
    b.Appends [byteOf n, byteOf (n / 256)] (writeShort b n)
  writeString_appends : ∀ (b : Buffer) s, b.AtEnd → b.Appends (s ++ [0]) (writeString b s)
  writeData_appends : ∀ (b : Buffer) d, b.AtEnd → b.Appends d (writeData b d)

namespace Buffer

def take (b : Buffer) (count : Nat) : Option (Bytes × Buffer) :=
  if b.index + count ≤ b.data.length then
    some ((b.data.drop b.index).take count, { b with index := b.index + count })
  else none

def append (b : Buffer) (bytes : Bytes) : Buffer :=
  { data := b.data ++ bytes, index := b.data.length + bytes.length, length := b.length }

/-- Little-endian, in two's complement. -/
def signed (bytes : Bytes) : Int :=
  let value : Int := bytes.foldr (fun b rest => b.toNat + 256 * rest) 0
  if 2 * value < 256 ^ bytes.length then value else value - 256 ^ bytes.length

theorem take_advances {b b' : Buffer} {count : Nat} {bytes : Bytes}
    (taken : b.take count = some (bytes, b')) : b.Advances b' ∧ b'.index = b.index + count := by
  unfold take at taken
  split at taken
  · simp only [Option.some.injEq, Prod.mk.injEq] at taken
    obtain ⟨-, rfl⟩ := taken
    exact ⟨⟨rfl, rfl, Nat.le_add_right _ _⟩, rfl⟩
  · simp at taken

theorem append_appends (b : Buffer) (bytes : Bytes) : b.Appends bytes (b.append bytes) where
  data := rfl
  atEnd := by simp [AtEnd, append]

end Buffer

/-- A library of that behaviour, for runs on concrete bytes. -/
def Libq2.plain : Libq2 where
  newBuffer bytes := ⟨bytes, 0, bytes.length⟩
  size b := b.data.length
  reset _ := {}
  readByte b := (b.take 1).map fun (bytes, b') => (bytes.headD 0, b')
  readShort b := (b.take 2).map fun (bytes, b') => (Buffer.signed bytes, b')
  readLong b := (b.take 4).map fun (bytes, b') => (Buffer.signed bytes, b')
  readString b :=
    let s := (b.data.drop b.index).takeWhile (· ≠ 0)
    (b.take (s.length + 1)).map fun (_, b') => (s, b')
  readData b count := if count < 0 then none else b.take count.toNat
  writeByte b n := b.append [byteOf n]
  writeShort b n := b.append [byteOf n, byteOf (n / 256)]
  writeString b s := b.append (s ++ [0])
  writeData b d := b.append d
  newBuffer_eq _ := rfl
  size_eq _ _ := rfl
  reset_eq _ := rfl
  readByte_at done b rest n := by simp [Buffer.take]
  readString_at done s rest n absent := by
    have nonzero : ∀ b ∈ s, decide (b ≠ 0) = true := fun b member => by
      simpa using ne_of_mem_of_not_mem member absent
    have text : (s ++ 0 :: rest).takeWhile (fun b => decide (b ≠ 0)) = s := by
      rw [List.takeWhile_append_of_pos nonzero]
      simp
    simp only [List.drop_left, text, Buffer.take, List.length_append, List.length_cons]
    rw [if_pos (by omega)]
    rfl
  readByte_advances b x b' read := by
    obtain ⟨⟨bytes, after⟩, taken, same⟩ := Option.map_eq_some_iff.mp read
    obtain ⟨advances, index⟩ := Buffer.take_advances taken
    simp only [Prod.mk.injEq] at same
    obtain ⟨-, rfl⟩ := same
    exact ⟨advances, by omega⟩
  readString_advances b x b' read := by
    obtain ⟨⟨bytes, after⟩, taken, same⟩ := Option.map_eq_some_iff.mp read
    simp only [Prod.mk.injEq] at same
    obtain ⟨-, rfl⟩ := same
    exact (Buffer.take_advances taken).1
  writeByte_appends b n _ := b.append_appends _
  writeShort_appends b n _ := b.append_appends _
  writeString_appends b s _ := b.append_appends _
  writeData_appends b d _ := b.append_appends _

/-- Reads take their bytes from the index on, and have no result where bytes are missing. -/
structure Libq2.Bounded (q2 : Libq2) : Prop where
  readByte_eq : ∀ b : Buffer, q2.readByte b = (b.take 1).map fun (bytes, b') => (bytes.headD 0, b')
  readShort_eq : ∀ b : Buffer, q2.readShort b = (b.take 2).map fun (bytes, b') => (Buffer.signed bytes, b')
  readLong_eq : ∀ b : Buffer, q2.readLong b = (b.take 4).map fun (bytes, b') => (Buffer.signed bytes, b')
  readString_eq : ∀ b : Buffer, q2.readString b =
    let s := (b.data.drop b.index).takeWhile (· ≠ 0)
    (b.take (s.length + 1)).map fun (_, b') => (s, b')
  readData_eq : ∀ (b : Buffer) count, q2.readData b count = if count < 0 then none else b.take count.toNat

theorem Libq2.plain_bounded : Libq2.plain.Bounded :=
  ⟨fun _ => rfl, fun _ => rfl, fun _ => rfl, fun _ => rfl, fun _ _ => rfl⟩

end Q2Admin
