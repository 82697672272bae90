import Mathlib.Algebra.Ring.Int.Defs
import Mathlib.Algebra.Ring.Nat
import Mathlib.Data.List.AList

/-! Go values as the program uses them: byte strings with the few functions of
`strings` and `strconv` it calls, maps whose missing keys read as the empty string,
and the run-time faults that end the process. -/

namespace Q2Admin

abbrev Byte := UInt8

/-- A Go string or byte slice. Strings from the wire are arbitrary bytes. -/
abbrev Bytes := List Byte

def charByte (c : Char) : Byte := UInt8.ofNat c.toNat

/-- A literal of the source, all of which are ASCII. -/
def ascii (text : String) : Bytes := text.toList.map charByte

/-- The range of an `int64`, which is also that of an `int`. -/
def IsInt64 (n : Int) : Prop := -(2 ^ 63) ≤ n ∧ n < 2 ^ 63

/-- What the process dies of. No goroutine of the program recovers. -/
inductive Fault where
  /-- A read behind the end of a message buffer. -/
  | bufferRead
  /-- `fe.Players[i]` with `i` out of range. -/
  | slotIndex
  /-- A field of a `*Player` that is nil. -/
  | nilPlayer
  /-- `data[i+1]` in `UserinfoMap`. -/
  | userinfoField
  /-- A slice expression whose bounds are out of range. -/
  | sliceBounds
  /-- An element of a slice that is too short. -/
  | sliceIndex
  /-- A type assertion on a value of another type. -/
  | typeAssertion
  /-- `*fe.Connection` with no connection. -/
  | nilConnection
  /-- A field of a `*Frontend` that is nil. -/
  | nilFrontend
  /-- A field of a `*pb.User` that is nil. -/
  | nilUser
  /-- A method of the `fe.Log` that `NewFrontendLogger` did not return. -/
  | nilLogger
  /-- A field of the `*pem.Block` that `pem.Decode` did not find. -/
  | nilBlock
  /-- `log.Panic` or a panic of the cipher package. -/
  | cryptoPanic
  /-- The bound on a loop of the model was too small. -/
  | outOfFuel
  deriving DecidableEq, Repr

namespace Go

/-- `%d`. -/
def decimal : Int → Bytes
  | .ofNat n => (Nat.toDigits 10 n).map charByte
  | .negSucc n => charByte '-' :: (Nat.toDigits 10 (n + 1)).map charByte

/-- `float64(n)`: 53 bits of precision, to the nearest, ties to the even one. -/
def floatOfNat (n : Nat) : Nat :=
  if n < 2 ^ 53 then n
  else
    let unit := 2 ^ (n.log2 - 52)
    let down := n / unit
    let rest := n % unit
    if 2 * rest < unit ∨ 2 * rest = unit ∧ down % 2 = 0 then down * unit else (down + 1) * unit

/-- `int(math.Abs(float64(n)))`. A float of 2^63 is out of range: what the language leaves open
is the least int here, as on amd64. -/
def absInt (n : Int) : Int :=
  if floatOfNat n.natAbs < 2 ^ 63 then floatOfNat n.natAbs else -(2 ^ 63)

def hasSuffix (s ending : Bytes) : Bool := ending.isSuffixOf s

def contains (s part : Bytes) : Bool := s.tails.any (part.isPrefixOf ·)

def split (s : Bytes) (separator : Char) : List Bytes := s.splitOn (charByte separator)

/-- White space as `unicode.IsSpace` has it, in UTF-8. -/
def whiteSpace : List Bytes :=
  [[9], [10], [11], [12], [13], [32], [0xC2, 0x85], [0xC2, 0xA0], [0xE1, 0x9A, 0x80]] ++
  (List.range 11).map (fun k => [0xE2, 0x80, UInt8.ofNat (0x80 + k)]) ++
  [[0xE2, 0x80, 0xA8], [0xE2, 0x80, 0xA9], [0xE2, 0x80, 0xAF], [0xE2, 0x81, 0x9F], [0xE3, 0x80, 0x80]]

/-- The bytes of the white space in front: none if there is none. -/
def spaceWidth (s : Bytes) : Nat := ((whiteSpace.find? (·.isPrefixOf s)).map List.length).getD 0

/-- `strings.Fields`, with the bytes of white space still to be passed and the field so far. -/
def fieldsFrom : Nat → Bytes → Bytes → List Bytes
  | _, field, [] => if field = [] then [] else [field]
  | skip + 1, field, _ :: rest => fieldsFrom skip field rest
  | 0, field, b :: rest =>
    match spaceWidth (b :: rest) with
    | 0 => fieldsFrom 0 (field ++ [b]) rest
    | width + 1 => (if field = [] then [] else [field]) ++ fieldsFrom width [] rest

def fields (s : Bytes) : List Bytes := fieldsFrom 0 [] s

def join (parts : List Bytes) (separator : Bytes) : Bytes := separator.intercalate parts

def trim (s : Bytes) (cutset : Bytes) : Bytes :=
  ((s.dropWhile (cutset.contains ·)).reverse.dropWhile (cutset.contains ·)).reverse

/-- `strings.ReplaceAll` of one byte by another. -/
def replaceAll (s : Bytes) (old new : Char) : Bytes :=
  s.map fun b => if b = charByte old then charByte new else b

def digit (b : Byte) : Option Nat :=
  if 48 ≤ b.toNat ∧ b.toNat ≤ 57 then some (b.toNat - 48) else none

def digits : Bytes → Nat → Option Nat
  | [], value => some value
  | b :: rest, value => do
      let d ← digit b
      digits rest (10 * value + d)

/-- `strconv.ParseInt(s, 10, bits)`; out of range is an error. -/
def parseInt (bits : Nat) (s : Bytes) : Option Int := do
  let negative := s.head? = some (charByte '-')
  let signed := negative ∨ s.head? = some (charByte '+')
  let number := if signed then s.tail else s
  if number = [] then none
  let magnitude ← digits number 0
  let value : Int := if negative then -(magnitude : Int) else magnitude
  if -(2 ^ (bits - 1) : Int) ≤ value ∧ value < 2 ^ (bits - 1) then some value else none

/-- `strconv.Atoi` on a 64-bit machine. -/
def atoi (s : Bytes) : Option Int := parseInt 64 s

/-- The conversion `int32(n)`, which keeps the low 32 bits. -/
def int32 (n : Int) : Int := n.bmod 4294967296

/-- The digits as `strconv.ParseUint` reads them: it stops where 64 bits are exceeded. -/
def saturatedDigits : Bytes → Nat → Option Nat
  | [], value => some value
  | b :: rest, value => do
      let d ← digit b
      if 2 ^ 64 ≤ 10 * value + d then some (2 ^ 64 - 1) else saturatedDigits rest (10 * value + d)

/-- What `strconv.Atoi` returns next to an error that is ignored: 0 for what is no number,
and the nearest integer for one that is out of range. -/
def atoiValue (s : Bytes) : Int :=
  let negative := s.head? = some (charByte '-')
  let signed := negative ∨ s.head? = some (charByte '+')
  let number := if signed then s.tail else s
  if number = [] then 0
  else match saturatedDigits number 0 with
    | none => 0
    | some magnitude =>
      if negative then max (-(magnitude : Int)) (-(2 ^ 63)) else min magnitude (2 ^ 63 - 1)

/-- `strings.Split(s, separator)[0]`, if the separator occurs. -/
def textBefore (separator : Bytes) : Bytes → Option Bytes
  | [] => if separator = [] then some [] else none
  | b :: rest =>
    if separator.isPrefixOf (b :: rest) then some []
    else (textBefore separator rest).map (b :: ·)

theorem contains_cons (b : Byte) (s part : Bytes) :
    contains (b :: s) part = (part.isPrefixOf (b :: s) || contains s part) := rfl

theorem contains_byte (s : Bytes) (b : Byte) : contains s [b] = true ↔ b ∈ s := by
  induction s with
  | nil => exact iff_of_false (by simp [contains]) List.not_mem_nil
  | cons c rest ih =>
    rw [contains_cons, Bool.or_eq_true, ih, List.isPrefixOf_iff_prefix, List.singleton_prefix_cons_iff, List.mem_cons]

theorem toNat_charByte {c : Char} (decimal : c.isDigit) : (charByte c).toNat = c.toNat ∧ 48 ≤ c.toNat ∧ c.toNat ≤ 57 := by
  have bounds : 48 ≤ c.toNat ∧ c.toNat ≤ 57 := Char.isDigit_iff_toNat.mp decimal
  refine ⟨?_, bounds⟩
  show c.toNat % 256 = c.toNat
  omega

theorem toNat_of_mem_decimal {n : Int} {b : Byte} (member : b ∈ decimal n) :
    b.toNat = 45 ∨ 48 ≤ b.toNat ∧ b.toNat ≤ 57 := by
  have digits_only (m : Nat) (digits : b ∈ (Nat.toDigits 10 m).map charByte) :
      48 ≤ b.toNat ∧ b.toNat ≤ 57 := by
    obtain ⟨c, digit, same⟩ := List.mem_map.mp digits
    obtain ⟨byte, low, high⟩ := toNat_charByte (Nat.isDigit_of_mem_toDigits (by decide) (by decide) digit)
    rw [← same, byte]
    exact ⟨low, high⟩
  cases n with
  | ofNat n => exact .inr (digits_only n member)
  | negSucc n =>
    rcases List.mem_cons.mp member with sign | digits
    · exact .inl (sign ▸ rfl)
    · exact .inr (digits_only (n + 1) digits)

theorem digits_map {cs : List Char} (decimal : ∀ c ∈ cs, c.isDigit) (value : Nat) :
    digits (cs.map charByte) value = some (Nat.ofDigitChars 10 cs value) := by
  induction cs generalizing value with
  | nil => simp [digits]
  | cons c cs ih =>
    obtain ⟨same, low, high⟩ := toNat_charByte (decimal c List.mem_cons_self)
    have read : digit (charByte c) = some (c.toNat - 48) := by
      rw [digit, same, if_pos ⟨low, high⟩]
    rw [List.map_cons, digits, read, Nat.ofDigitChars_cons]
    exact ih (fun d member => decimal d (List.mem_cons_of_mem c member)) _

theorem head_decimal {cs : List Char} (decimal : ∀ c ∈ cs, c.isDigit) {sign : Char} (apart : (charByte sign).toNat < 48) :
    (cs.map charByte).head? ≠ some (charByte sign) := by
  intro head
  obtain ⟨c, first, same⟩ := Option.map_eq_some_iff.mp (List.head?_map .. ▸ head)
  obtain ⟨byte, low, -⟩ := toNat_charByte (decimal c (List.mem_of_head? first))
  rw [same] at byte
  omega

/-- A decimal integer as people write it: with or without a sign, and with any zeros in front. -/
inductive Numeral : Bytes → Int → Prop where
  | bare {cs : List Char} (some : cs ≠ []) (decimal : ∀ c ∈ cs, c.isDigit) :
      Numeral (cs.map charByte) (Nat.ofDigitChars 10 cs 0)
  | plus {cs : List Char} (some : cs ≠ []) (decimal : ∀ c ∈ cs, c.isDigit) :
      Numeral (charByte '+' :: cs.map charByte) (Nat.ofDigitChars 10 cs 0)
  | minus {cs : List Char} (some : cs ≠ []) (decimal : ∀ c ∈ cs, c.isDigit) :
      Numeral (charByte '-' :: cs.map charByte) (-(Nat.ofDigitChars 10 cs 0 : Int))

theorem parseInt_numeral {bits : Nat} {text : Bytes} {n : Int} (numeral : Numeral text n)
    (low : -(2 ^ (bits - 1)) ≤ n) (high : n < 2 ^ (bits - 1)) : parseInt bits text = some n := by
  cases numeral with
  | @bare cs some decimal =>
    have plus : (cs.map charByte).head? ≠ Option.some (charByte '+') := head_decimal decimal (by decide)
    have minus : (cs.map charByte).head? ≠ Option.some (charByte '-') := head_decimal decimal (by decide)
    have some_digit : cs.map charByte ≠ [] := by simpa using some
    simp only [parseInt, plus, minus, or_self, ↓reduceIte, some_digit, digits_map decimal,
      Option.bind_eq_bind, Option.bind_some]
    exact if_pos ⟨low, high⟩
  | @plus cs some decimal =>
    have some_digit : cs.map charByte ≠ [] := by simpa using some
    have positive : charByte '+' ≠ charByte '-' := by decide
    simp only [parseInt, List.head?_cons, Option.some.injEq, positive, or_true, ↓reduceIte, List.tail_cons, some_digit,
      digits_map decimal, Option.bind_eq_bind, Option.bind_some]
    exact if_pos ⟨low, high⟩
  | @minus cs some decimal =>
    have some_digit : cs.map charByte ≠ [] := by simpa using some
    simp only [parseInt, List.head?_cons, true_or, ↓reduceIte, List.tail_cons, some_digit,
      digits_map decimal, Option.bind_eq_bind, Option.bind_some]
    exact if_pos ⟨low, high⟩

theorem numeral_decimal (n : Int) : Numeral (decimal n) n := by
  have digit (m : Nat) : ∀ c ∈ Nat.toDigits 10 m, c.isDigit :=
    fun c member => Nat.isDigit_of_mem_toDigits (by decide) (by decide) member
  cases n with
  | ofNat m =>
    have numeral := Numeral.bare (by simp) (digit m)
    rwa [Nat.ofDigitChars_ten_toDigits] at numeral
  | negSucc m =>
    have numeral := Numeral.minus (by simp) (digit (m + 1))
    rwa [Nat.ofDigitChars_ten_toDigits] at numeral

/-- `ParseInt` reads what `%d` prints. -/
theorem parseInt_decimal {bits : Nat} {n : Int} (low : -(2 ^ (bits - 1)) ≤ n) (high : n < 2 ^ (bits - 1)) :
    parseInt bits (decimal n) = some n :=
  parseInt_numeral (numeral_decimal n) low high

example : parseInt 32 (ascii "-204") = some (-204) := by decide

/-- `map[string]string`. -/
abbrev StringMap := AList (fun _ : Bytes => Bytes)

/-- `m[key]`, the empty string for a missing key. -/
def StringMap.at (m : StringMap) (key : Bytes) : Bytes := (m.lookup key).getD []

end Go

end Q2Admin
