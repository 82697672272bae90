import Mathlib.Data.Nat.Notation

/-! Base64 with the standard alphabet and padding. Three bytes are four characters of six
bits each, and what is encoded decodes to itself. -/

namespace Q2Admin.Lib.Base64

/-- The character of a number below 64. -/
def char (k : ℕ) : UInt8 :=
  UInt8.ofNat (if k < 26 then 65 + k else if k < 52 then 71 + k else if k < 62 then k - 4
    else if k = 62 then 43 else 47)

def value (c : UInt8) : Option ℕ :=
  let n := c.toNat
  if 65 ≤ n ∧ n ≤ 90 then some (n - 65)
  else if 97 ≤ n ∧ n ≤ 122 then some (n - 71)
  else if 48 ≤ n ∧ n ≤ 57 then some (n + 4)
  else if n = 43 then some 62
  else if n = 47 then some 63
  else none

def pad : UInt8 := 61

def encode : List UInt8 → List UInt8
  | [] => []
  | [a] => [char (a.toNat / 4), char (a.toNat % 4 * 16), pad, pad]
  | [a, b] => [char (a.toNat / 4), char (a.toNat % 4 * 16 + b.toNat / 16), char (b.toNat % 16 * 4), pad]
  | a :: b :: c :: rest =>
    char (a.toNat / 4) :: char (a.toNat % 4 * 16 + b.toNat / 16) ::
      char (b.toNat % 16 * 4 + c.toNat / 64) :: char (c.toNat % 64) :: encode rest

/-- Four characters at a time; only the last four may be padded. -/
def decodeQuads : List UInt8 → Option (List UInt8)
  | [] => some []
  | w :: x :: y :: z :: rest => do
    let s ← value w
    let t ← value x
    let a := UInt8.ofNat (s * 4 + t / 16)
    if z = pad then
      if rest ≠ [] then none
      else if y = pad then some [a]
      else do
        let u ← value y
        some [a, UInt8.ofNat (t % 16 * 16 + u / 4)]
    else do
      let u ← value y
      let v ← value z
      let more ← decodeQuads rest
      some (a :: UInt8.ofNat (t % 16 * 16 + u / 4) :: UInt8.ofNat (u % 4 * 64 + v) :: more)
  | _ => none

/-- Line breaks do not count. -/
def decode (text : List UInt8) : Option (List UInt8) :=
  decodeQuads (text.filter fun c => c ≠ 13 ∧ c ≠ 10)

theorem value_char {k : ℕ} (small : k < 64) : value (char k) = some k := by
  have all : ∀ j : Fin 64, value (char j) = some j.val := by decide
  exact all ⟨k, small⟩

theorem char_plain {k : ℕ} (small : k < 64) : char k ≠ pad ∧ char k ≠ 13 ∧ char k ≠ 10 := by
  have all : ∀ j : Fin 64, char j ≠ pad ∧ char j ≠ 13 ∧ char j ≠ 10 := by decide
  exact all ⟨k, small⟩

theorem ofNat_of_toNat {n : ℕ} {a : UInt8} (same : n = a.toNat) : UInt8.ofNat n = a := by
  rw [same, UInt8.ofNat_toNat]

theorem decodeQuads_encode (bytes : List UInt8) : decodeQuads (encode bytes) = some bytes := by
  fun_induction encode bytes with
  | case1 => rfl
  | case2 a =>
    have la := a.toNat_lt
    have first := value_char (k := a.toNat / 4) (by omega)
    have second := value_char (k := a.toNat % 4 * 16) (by omega)
    have byte : a.toNat / 4 * 4 + a.toNat % 4 * 16 / 16 = a.toNat := by omega
    simp only [decodeQuads, first, second, ofNat_of_toNat byte, Option.bind_eq_bind, Option.bind_some,
      ne_eq, not_true_eq_false, ↓reduceIte]
  | case3 a b =>
    have la := a.toNat_lt
    have lb := b.toNat_lt
    have first := value_char (k := a.toNat / 4) (by omega)
    have second := value_char (k := a.toNat % 4 * 16 + b.toNat / 16) (by omega)
    have third := value_char (k := b.toNat % 16 * 4) (by omega)
    have plain := (char_plain (k := b.toNat % 16 * 4) (by omega)).1
    have byte : a.toNat / 4 * 4 + (a.toNat % 4 * 16 + b.toNat / 16) / 16 = a.toNat := by omega
    have byte' : (a.toNat % 4 * 16 + b.toNat / 16) % 16 * 16 + b.toNat % 16 * 4 / 4 = b.toNat := by omega
    simp only [decodeQuads, first, second, third, plain, ofNat_of_toNat byte, ofNat_of_toNat byte',
      Option.bind_eq_bind, Option.bind_some, ne_eq, not_true_eq_false, ↓reduceIte]
  | case4 a b c rest ih =>
    have la := a.toNat_lt
    have lb := b.toNat_lt
    have lc := c.toNat_lt
    have first := value_char (k := a.toNat / 4) (by omega)
    have second := value_char (k := a.toNat % 4 * 16 + b.toNat / 16) (by omega)
    have third := value_char (k := b.toNat % 16 * 4 + c.toNat / 64) (by omega)
    have fourth := value_char (k := c.toNat % 64) (by omega)
    have plain := (char_plain (k := c.toNat % 64) (by omega)).1
    have byte : a.toNat / 4 * 4 + (a.toNat % 4 * 16 + b.toNat / 16) / 16 = a.toNat := by omega
    have byte' : (a.toNat % 4 * 16 + b.toNat / 16) % 16 * 16 + (b.toNat % 16 * 4 + c.toNat / 64) / 4 =
      b.toNat := by omega
    have byte'' : (b.toNat % 16 * 4 + c.toNat / 64) % 4 * 64 + c.toNat % 64 = c.toNat := by omega
    simp only [decodeQuads, first, second, third, fourth, plain, ih, ofNat_of_toNat byte,
      ofNat_of_toNat byte', ofNat_of_toNat byte'', Option.bind_eq_bind, Option.bind_some, ↓reduceIte]

theorem encode_unbroken (bytes : List UInt8) : ∀ c ∈ encode bytes, c ≠ 13 ∧ c ≠ 10 := by
  have padded : pad ≠ 13 ∧ pad ≠ 10 := by decide
  fun_induction encode bytes with
  | case1 => simp
  | case2 a =>
    have la := a.toNat_lt
    have first := (char_plain (k := a.toNat / 4) (by omega)).2
    have second := (char_plain (k := a.toNat % 4 * 16) (by omega)).2
    simp [first, second, padded]
  | case3 a b =>
    have la := a.toNat_lt
    have lb := b.toNat_lt
    have first := (char_plain (k := a.toNat / 4) (by omega)).2
    have second := (char_plain (k := a.toNat % 4 * 16 + b.toNat / 16) (by omega)).2
    have third := (char_plain (k := b.toNat % 16 * 4) (by omega)).2
    simp [first, second, third, padded]
  | case4 a b c rest ih =>
    have la := a.toNat_lt
    have lb := b.toNat_lt
    have lc := c.toNat_lt
    have first := (char_plain (k := a.toNat / 4) (by omega)).2
    have second := (char_plain (k := a.toNat % 4 * 16 + b.toNat / 16) (by omega)).2
    have third := (char_plain (k := b.toNat % 16 * 4 + c.toNat / 64) (by omega)).2
    have fourth := (char_plain (k := c.toNat % 64) (by omega)).2
    simpa [first, second, third, fourth] using ih

theorem decode_encode (bytes : List UInt8) : decode (encode bytes) = some bytes := by
  have whole : (encode bytes).filter (fun c => c ≠ 13 ∧ c ≠ 10) = encode bytes :=
    List.filter_eq_self.mpr fun c member => by simpa using encode_unbroken bytes c member
  rw [decode, whole, decodeQuads_encode]

end Q2Admin.Lib.Base64
