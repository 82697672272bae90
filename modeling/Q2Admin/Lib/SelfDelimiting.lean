import Mathlib.Data.List.Basic

/-! Self-delimiting codes: a reader gets a word back from the front of anything that
starts with it. A stream of such words has one reading, so that two sequences of words
with the same symbols are the same sequence. -/

namespace Q2Admin.Lib.SelfDelimiting

variable {α β : Type}

/-! ## Readers of one field -/

/-- The symbols before the first `stop`, which is read too. -/
def upTo [DecidableEq β] (stop : β) : List β → Option (List β × List β)
  | [] => none
  | x :: rest =>
    if x = stop then some ([], rest)
    else (upTo stop rest).map fun (front, behind) => (x :: front, behind)

theorem upTo_append [DecidableEq β] {stop : β} {text : List β} (absent : stop ∉ text) (rest : List β) :
    upTo stop (text ++ stop :: rest) = some (text, rest) := by
  induction text with
  | nil => simp [upTo]
  | cons x text ih =>
    have differs : x ≠ stop := fun same => absent (same ▸ List.mem_cons_self ..)
    have tail := ih fun member => absent (List.mem_cons_of_mem x member)
    rw [List.cons_append, upTo, if_neg differs, tail]
    rfl

/-- A field of a fixed number of symbols. -/
def exactly (count : Nat) (symbols : List β) : Option (List β × List β) :=
  if count ≤ symbols.length then some (symbols.take count, symbols.drop count) else none

theorem exactly_append {count : Nat} {field : List β} (size : field.length = count) (rest : List β) :
    exactly count (field ++ rest) = some (field, rest) := by
  subst size
  have enough : field.length ≤ (field ++ rest).length := by
    rw [List.length_append]
    omega
  rw [exactly, if_pos enough, List.take_left, List.drop_left]

/-! ## Streams of words -/

/-- The reader gets every word that is valid back, whatever follows it. -/
structure Reads (valid : α → Prop) (encode : α → List β) (read : List β → Option (α × List β)) : Prop where
  word : ∀ a, valid a → ∀ rest, read (encode a ++ rest) = some (a, rest)
  nonempty : ∀ a, valid a → encode a ≠ []

def readFor (read : List β → Option (α × List β)) : Nat → List β → Option (List α)
  | _, [] => some []
  | 0, _ :: _ => none
  | fuel + 1, x :: symbols =>
    match read (x :: symbols) with
    | none => none
    | some (a, rest) => (readFor read fuel rest).map (a :: ·)

/-- All words of a stream; a word has at least one symbol. -/
def readAll (read : List β → Option (α × List β)) (symbols : List β) : Option (List α) :=
  readFor read symbols.length symbols

namespace Reads
variable {valid : α → Prop} {encode : α → List β} {read : List β → Option (α × List β)}
  (reads : Reads valid encode read)
include reads

theorem readFor_flatMap {words : List α} (fine : ∀ a ∈ words, valid a) {fuel : Nat}
    (enough : words.length ≤ fuel) : readFor read fuel (words.flatMap encode) = some words := by
  induction words generalizing fuel with
  | nil => cases fuel <;> rfl
  | cons a words ih =>
    obtain ⟨fuel, rfl⟩ : ∃ less, fuel = less + 1 := ⟨fuel - 1, by simp only [List.length_cons] at enough; omega⟩
    have first := fine a (List.mem_cons_self ..)
    have later := ih (fun b member => fine b (List.mem_cons_of_mem a member)) (Nat.le_of_succ_le_succ enough)
    have front := reads.word a first (words.flatMap encode)
    obtain ⟨x, symbols, shape⟩ : ∃ x symbols, encode a ++ words.flatMap encode = x :: symbols :=
      List.exists_cons_of_ne_nil (List.append_ne_nil_of_left_ne_nil (reads.nonempty a first) _)
    rw [shape] at front
    rw [List.flatMap_cons, shape, readFor, front]
    simp only [later, Option.map_some]

theorem length_le_flatMap {words : List α} (fine : ∀ a ∈ words, valid a) :
    words.length ≤ (words.flatMap encode).length := by
  induction words with
  | nil => exact Nat.le_refl 0
  | cons a words ih =>
    have first := List.length_pos_of_ne_nil (reads.nonempty a (fine a (List.mem_cons_self ..)))
    have later := ih fun b member => fine b (List.mem_cons_of_mem a member)
    rw [List.flatMap_cons, List.length_append, List.length_cons]
    omega

/-- A stream of words is read as these words. -/
theorem readAll_flatMap {words : List α} (fine : ∀ a ∈ words, valid a) :
    readAll read (words.flatMap encode) = some words :=
  reads.readFor_flatMap fine (reads.length_le_flatMap fine)

/-- The code is uniquely decodable. -/
theorem flatMap_injective {first second : List α} (fine : ∀ a ∈ first, valid a)
    (fine' : ∀ a ∈ second, valid a) (same : first.flatMap encode = second.flatMap encode) :
    first = second := by
  have one := reads.readAll_flatMap fine
  have two := reads.readAll_flatMap fine'
  rw [same, two] at one
  exact (Option.some.inj one).symm

end Reads
end Q2Admin.Lib.SelfDelimiting
