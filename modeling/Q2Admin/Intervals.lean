import Q2Admin.Clock

/-! The notations for an interval in `rule.proto`, and what `durationToSeconds` makes of them. Its
loop takes a letter off the end at every unit that fits, so a notation with one unit or none is
read alike in whatever order the range over the unit map comes to its keys. -/

namespace Q2Admin
open Go

/-! ## Units -/

/-- The keys of the unit map. -/
inductive TimeUnit where
  | second
  | minute
  | hour
  | day
  | week
  | month
  | year
  deriving DecidableEq, Repr

namespace TimeUnit

def all : List TimeUnit := [.second, .minute, .hour, .day, .week, .month, .year]

def letter : TimeUnit → Byte
  | second => charByte 's'
  | minute => charByte 'm'
  | hour => charByte 'h'
  | day => charByte 'd'
  | week => charByte 'w'
  | month => charByte 'M'
  | year => charByte 'y'

def name (u : TimeUnit) : Bytes := [u.letter]

/-- A month has 30 days and a year 52 weeks. -/
def seconds : TimeUnit → Int
  | second => 1
  | minute => 60
  | hour => 3600
  | day => 86400
  | week => 7 * 86400
  | month => 30 * 86400
  | year => 52 * 7 * 86400

theorem multiplier_name (u : TimeUnit) : multiplier u.name = u.seconds := by
  cases u <;> decide

theorem letter_injective {u v : TimeUnit} (same : u.letter = v.letter) : u = v := by
  revert same
  cases u <;> cases v <;> decide

theorem mem_all (u : TimeUnit) : u ∈ all := by
  cases u <;> decide

end TimeUnit

/-- The library where the range over the unit map comes to its keys in this order. -/
def RuleLib.visiting (lib : RuleLib) (order : List TimeUnit) : RuleLib :=
  { lib with unitOrder := order.map TimeUnit.name }

/-! ## The loop -/

theorem hasSuffix_name (text : Bytes) (u : TimeUnit) :
    hasSuffix text u.name = true ↔ text.getLast? = some u.letter := by
  rw [hasSuffix, TimeUnit.name, List.isSuffixOf_iff_suffix, List.singleton_suffix_iff_getLast?_eq_some]

/-- A text without a unit stays as it is. -/
theorem stripUnits_other {order : List TimeUnit} {text : Bytes}
    (other : ∀ u ∈ order, text.getLast? ≠ some u.letter) (units : Bytes) :
    stripUnits (order.map TimeUnit.name) text units = (text, units) := by
  induction order with
  | nil => rfl
  | cons u rest ih =>
    have apart := mt (hasSuffix_name text u).mp (other u List.mem_cons_self)
    rw [List.map_cons, stripUnits, if_neg apart]
    exact ih fun v member => other v (List.mem_cons_of_mem u member)

/-- The last letter is taken off when the loop comes to its unit. -/
theorem stripUnits_own {before after : List TimeUnit} {u : TimeUnit} (first : u ∉ before) (text units : Bytes) :
    stripUnits ((before ++ u :: after).map TimeUnit.name) (text ++ u.name) units =
      stripUnits (after.map TimeUnit.name) text u.name := by
  have last : (text ++ u.name).getLast? = some u.letter := List.getLast?_concat
  induction before with
  | nil =>
    rw [List.nil_append, List.map_cons, stripUnits, if_pos ((hasSuffix_name _ u).mpr last)]
    rw [TimeUnit.name, List.dropLast_concat]
  | cons v rest ih =>
    have apart : ¬ hasSuffix (text ++ u.name) v.name = true := by
      rw [hasSuffix_name, last]
      intro same
      have own := TimeUnit.letter_injective (Option.some.inj same)
      exact first (own ▸ List.mem_cons_self)
    rw [List.cons_append, List.map_cons, stripUnits, if_neg apart]
    exact ih fun member => first (List.mem_cons_of_mem v member)

/-- A single unit is taken off in every order. -/
theorem stripUnits_single {order : List TimeUnit} (visits : order.Perm TimeUnit.all) {u : TimeUnit} {text : Bytes}
    (other : ∀ v : TimeUnit, text.getLast? ≠ some v.letter) (units : Bytes) :
    stripUnits (order.map TimeUnit.name) (text ++ u.name) units = (text, u.name) := by
  obtain ⟨before, after, rfl, first⟩ := List.eq_append_cons_of_mem (visits.mem_iff.mpr u.mem_all)
  rw [stripUnits_own first]
  exact stripUnits_other (fun v _ => other v) _

/-! ## Behind the loop -/

/-- What is trimmed. -/
def blanks : Bytes := ascii " \t\n"

theorem mem_blanks {b : Byte} : b ∈ blanks ↔ b = charByte ' ' ∨ b = charByte '\t' ∨ b = charByte '\n' := by
  have bytes : blanks = [charByte ' ', charByte '\t', charByte '\n'] := rfl
  simp only [bytes, List.mem_cons, List.not_mem_nil, or_false]

/-- `durationToSeconds` from the loop on. -/
def measured (lib : RuleLib) (trimmed units : Bytes) : Option Int :=
  if contains trimmed (ascii ".") then lib.scaledFloat trimmed (multiplier units)
  else
    let plain := (parseInt 32 trimmed).map (· * multiplier units)
    if contains trimmed (ascii ":") then (clockSeconds trimmed).getD plain else plain

theorem durationToSeconds_eq (lib : RuleLib) {order : List TimeUnit} {ts trimmed units : Bytes}
    (stripped : stripUnits (order.map TimeUnit.name) (trim ts blanks) TimeUnit.second.name = (trimmed, units)) :
    durationToSeconds (lib.visiting order) ts = measured lib trimmed units := by
  by_cases empty : ts = []
  · have nothing : trim ts blanks = [] := by rw [empty]; rfl
    rw [nothing, stripUnits_other (by simp)] at stripped
    obtain ⟨rfl, rfl⟩ := Prod.mk.inj stripped
    rw [durationToSeconds, if_pos empty]
    rfl
  · have whole : durationToSeconds (lib.visiting order) ts =
        measured lib (stripUnits (order.map TimeUnit.name) (trim ts blanks) TimeUnit.second.name).1
          (stripUnits (order.map TimeUnit.name) (trim ts blanks) TimeUnit.second.name).2 := by
      rw [durationToSeconds, if_neg empty]
      rfl
    rw [whole, stripped]

/-- A byte of a number. -/
def Numeric (b : Byte) : Prop := b = charByte '+' ∨ b = charByte '-' ∨ (digit b).isSome = true

instance : DecidablePred Numeric := fun _ => inferInstanceAs (Decidable (_ ∨ _ ∨ _))

theorem digits_numeric {s : Bytes} {value n : Nat} (read : digits s value = some n) {b : Byte} (member : b ∈ s) :
    Numeric b := by
  induction s generalizing value with
  | nil => cases member
  | cons c rest ih =>
    obtain ⟨d, digit, later⟩ := Option.bind_eq_some_iff.mp read
    rcases List.mem_cons.mp member with same | inside
    · rw [same]
      exact .inr (.inr (by rw [digit]; rfl))
    · exact ih later inside

theorem parseInt_numeric {bits : Nat} {s : Bytes} {n : Int} (read : parseInt bits s = some n) :
    s ≠ [] ∧ ∀ b ∈ s, Numeric b := by
  unfold parseInt at read
  dsimp only at read
  generalize numbered : (if s.head? = some (charByte '-') ∨ s.head? = some (charByte '+') then s.tail else s) =
    number at read
  split at read
  · cases read
  · next present =>
    obtain ⟨magnitude, valued, -⟩ := Option.bind_eq_some_iff.mp read
    have inside : ∀ b ∈ number, Numeric b := fun b member => digits_numeric valued member
    split at numbered
    · next signed =>
      cases s with
      | nil => simp at signed
      | cons sign rest =>
        have rest_eq : rest = number := numbered
        refine ⟨List.cons_ne_nil sign rest, fun b member => ?_⟩
        rcases List.mem_cons.mp member with same | later
        · rw [same]
          rcases signed with minus | plus
          · exact .inr (.inl (Option.some.inj minus))
          · exact .inl (Option.some.inj plus)
        · exact inside b (rest_eq ▸ later)
    · rw [numbered]
      exact ⟨present, inside⟩

theorem parseInt_colonless {bits : Nat} {s : Bytes} {n : Int} (read : parseInt bits s = some n) :
    charByte ':' ∉ s :=
  fun member => absurd ((parseInt_numeric read).2 _ member) (by decide)

/-- Minutes and seconds. -/
theorem clockSeconds_minutes {mm ss : Bytes} {m s : Int} (minute : parseInt 32 mm = some m)
    (second : parseInt 32 ss = some s) : clockSeconds (mm ++ charByte ':' :: ss) = some (some (s + m * 60)) := by
  have fields : split (mm ++ charByte ':' :: ss) ':' = [mm, ss] := by
    rw [split, List.splitOn_append_cons_self_of_not_mem (parseInt_colonless minute),
      List.splitOn_eq_singleton (parseInt_colonless second)]
  have sixty : multiplier (ascii "m") = 60 := by decide
  simp only [clockSeconds, fields, second, minute, sixty, Option.bind_eq_bind, Option.bind_some]
  rfl

/-- Hours, minutes and seconds. -/
theorem clockSeconds_hours {hh mm ss : Bytes} {h m s : Int} (hour : parseInt 32 hh = some h)
    (minute : parseInt 32 mm = some m) (second : parseInt 32 ss = some s) :
    clockSeconds (hh ++ charByte ':' :: (mm ++ charByte ':' :: ss)) = some (some (s + m * 60 + h * 3600)) := by
  have fields : split (hh ++ charByte ':' :: (mm ++ charByte ':' :: ss)) ':' = [hh, mm, ss] := by
    rw [split, List.splitOn_append_cons_self_of_not_mem (parseInt_colonless hour),
      List.splitOn_append_cons_self_of_not_mem (parseInt_colonless minute),
      List.splitOn_eq_singleton (parseInt_colonless second)]
  have sixty : multiplier (ascii "m") = 60 := by decide
  have hourly : multiplier (ascii "h") = 3600 := by decide
  simp only [clockSeconds, fields, second, minute, hour, sixty, hourly, Option.bind_eq_bind, Option.bind_some]
  rfl

/-- A byte of clock notation. -/
def ClockByte (b : Byte) : Prop := Numeric b ∨ b = charByte ':'

instance : DecidablePred ClockByte := fun _ => inferInstanceAs (Decidable (_ ∨ _))

namespace ClockByte
variable {b : Byte} (clock : ClockByte b)
include clock

theorem ne_letter (u : TimeUnit) : b ≠ u.letter := by
  rintro rfl
  revert clock
  cases u <;> decide

theorem ne_point : b ≠ charByte '.' := by
  rintro rfl
  exact absurd clock (by decide)

theorem not_blank : b ∉ blanks := by
  intro member
  rcases mem_blanks.mp member with rfl | rfl | rfl
  · exact absurd clock (by decide)
  · exact absurd clock (by decide)
  · exact absurd clock (by decide)

end ClockByte

theorem clockByte_of_parseInt {bits : Nat} {s : Bytes} {n : Int} (read : parseInt bits s = some n) :
    ∀ b ∈ s, ClockByte b :=
  fun b member => .inl ((parseInt_numeric read).2 b member)

theorem clockByte_append {front back : Bytes} (first : ∀ b ∈ front, ClockByte b)
    (second : ∀ b ∈ back, ClockByte b) : ∀ b ∈ front ++ charByte ':' :: back, ClockByte b := by
  intro b member
  rcases List.mem_append.mp member with inside | later
  · exact first b inside
  · rcases List.mem_cons.mp later with colon | inside
    · exact .inr colon
    · exact second b inside

theorem last_of_clockBytes {text : Bytes} (clock : ∀ b ∈ text, ClockByte b) (u : TimeUnit) :
    text.getLast? ≠ some u.letter :=
  fun last => (clock _ (List.mem_of_getLast? last)).ne_letter u rfl

theorem measured_of_clockBytes {text : Bytes} (clock : ∀ b ∈ text, ClockByte b) (lib : RuleLib) (units : Bytes) :
    measured lib text units =
      if charByte ':' ∈ text then (clockSeconds text).getD ((parseInt 32 text).map (· * multiplier units))
      else (parseInt 32 text).map (· * multiplier units) := by
  have point : ¬ contains text (ascii ".") = true :=
    fun inside => (clock _ ((contains_byte text _).mp inside)).ne_point rfl
  have colon : contains text (ascii ":") = true ↔ charByte ':' ∈ text := contains_byte text _
  simp only [measured, point, colon, Bool.false_eq_true, ↓reduceIte]

theorem trim_around {front text back cutset : Bytes} (before : ∀ b ∈ front, b ∈ cutset)
    (after : ∀ b ∈ back, b ∈ cutset) (plain : ∀ b ∈ text, b ∉ cutset) :
    trim (front ++ text ++ back) cutset = text := by
  have drops {l : Bytes} (rest : Bytes) (all : ∀ b ∈ l, b ∈ cutset) :
      (l ++ rest).dropWhile (cutset.contains ·) = rest.dropWhile (cutset.contains ·) :=
    List.dropWhile_append_of_pos fun b member => List.contains_iff_mem.mpr (all b member)
  have keeps {l : Bytes} (rest : Bytes) (some : l ≠ []) (outside : ∀ b ∈ l, b ∉ cutset) :
      (l ++ rest).dropWhile (cutset.contains ·) = l ++ rest := by
    cases l with
    | nil => exact absurd rfl some
    | cons b l => exact List.dropWhile_cons_of_neg (by simpa using outside b List.mem_cons_self)
  rw [trim, List.append_assoc, drops _ before]
  by_cases empty : text = []
  · have gone := drops [] after
    rw [List.append_nil] at gone
    rw [empty, List.nil_append, gone]
    rfl
  · have behind := keeps [] (mt List.reverse_eq_nil_iff.mp empty)
      (fun b member => plain b (List.mem_reverse.mp member))
    rw [List.append_nil] at behind
    rw [keeps _ empty plain, List.reverse_append, drops _ fun b member => after b (List.mem_reverse.mp member), behind,
      List.reverse_reverse]

/-! ## Notations -/

/-- What is written: a number with a unit or without one, minutes and seconds, or hours, minutes and
seconds. -/
inductive Interval where
  | plain (n : Int) (unit : Option TimeUnit)
  | minutes (m s : Int)
  | hours (h m s : Int)

namespace Interval

def numbers : Interval → List Int
  | plain n _ => [n]
  | minutes m s => [m, s]
  | hours h m s => [h, m, s]

def seconds : Interval → Int
  | plain n unit => n * unit.elim 1 TimeUnit.seconds
  | minutes m s => 60 * m + s
  | hours h m s => 3600 * h + 60 * m + s

/-- The products and sums that are formed on the way. -/
def steps : Interval → List Int
  | plain n unit => [n * unit.elim 1 TimeUnit.seconds]
  | minutes m s => [s, m * 60, s + m * 60]
  | hours h m s => [s, m * 60, s + m * 60, h * 3600, s + m * 60 + h * 3600]

/-- The notation, with its numbers written in some way. -/
inductive Written (number : Bytes → Int → Prop) : Interval → Bytes → Prop where
  | plain {n : Int} {text : Bytes} (numeral : number text n) (unit : Option TimeUnit) :
      Written number (.plain n unit) (text ++ unit.elim [] TimeUnit.name)
  | minutes {m s : Int} {mm ss : Bytes} (minute : number mm m) (second : number ss s) :
      Written number (.minutes m s) (mm ++ charByte ':' :: ss)
  | hours {h m s : Int} {hh mm ss : Bytes} (hour : number hh h) (minute : number mm m) (second : number ss s) :
      Written number (.hours h m s) (hh ++ charByte ':' :: (mm ++ charByte ':' :: ss))

/-- Numbers that `ParseInt` takes with 32 bits, with blanks, tabs and newlines around them all. -/
structure Spelt (interval : Interval) (ts : Bytes) : Prop where
  range : ∀ n ∈ interval.numbers, -2147483648 ≤ n ∧ n < 2147483648
  written : ∃ front text back, ts = front ++ text ++ back ∧ interval.Written Numeral text ∧
    (∀ b ∈ front, b ∈ blanks) ∧ ∀ b ∈ back, b ∈ blanks

section
variable (lib : RuleLib) {order : List TimeUnit} (visits : order.Perm TimeUnit.all)
include visits

/-- Clock notation, or a number, with blanks around it and a unit behind it. -/
theorem durationToSeconds_around {text front back : Bytes} (clock : ∀ b ∈ text, ClockByte b)
    (unit : Option TimeUnit) (before : ∀ b ∈ front, b ∈ blanks) (after : ∀ b ∈ back, b ∈ blanks) :
    durationToSeconds (lib.visiting order) (front ++ (text ++ unit.elim [] TimeUnit.name) ++ back) =
      measured lib text (unit.elim TimeUnit.second.name TimeUnit.name) := by
  have plain : ∀ b ∈ text ++ unit.elim [] TimeUnit.name, b ∉ blanks := by
    intro b member
    rcases List.mem_append.mp member with inside | own
    · exact (clock b inside).not_blank
    · cases unit with
      | none => cases own
      | some u =>
        rw [List.mem_singleton.mp own]
        cases u <;> decide
  apply durationToSeconds_eq
  rw [trim_around before after plain]
  cases unit with
  | none =>
    rw [Option.elim_none, List.append_nil]
    exact stripUnits_other (fun u _ => last_of_clockBytes clock u) _
  | some u => exact stripUnits_single visits (last_of_clockBytes clock) _

theorem durationToSeconds_spelt {interval : Interval} {ts : Bytes} (spelt : interval.Spelt ts) :
    durationToSeconds (lib.visiting order) ts = some interval.seconds := by
  obtain ⟨range, front, text, back, rfl, written, before, after⟩ := spelt
  have read {n : Int} (member : n ∈ interval.numbers) {text : Bytes} (numeral : Numeral text n) :
      parseInt 32 text = some n :=
    parseInt_numeral numeral (range n member).1 (range n member).2
  have bare {text : Bytes} (clock : ∀ b ∈ text, ClockByte b) :
      durationToSeconds (lib.visiting order) (front ++ text ++ back) = measured lib text TimeUnit.second.name := by
    have around := durationToSeconds_around lib visits clock none before after
    rwa [Option.elim_none, List.append_nil] at around
  cases written with
  | @plain n text numeral unit =>
    have number := read (by simp [numbers]) numeral
    have clock := clockByte_of_parseInt number
    rw [durationToSeconds_around lib visits clock unit before after, measured_of_clockBytes clock,
      if_neg (parseInt_colonless number), number]
    cases unit with
    | none => rfl
    | some u => rw [Option.elim_some, TimeUnit.multiplier_name]; rfl
  | @minutes m s mm ss minute second =>
    have minute := read (by simp [numbers]) minute
    have second := read (by simp [numbers]) second
    have clock := clockByte_append (clockByte_of_parseInt minute) (clockByte_of_parseInt second)
    rw [bare clock, measured_of_clockBytes clock, if_pos (by simp), clockSeconds_minutes minute second,
      Option.getD_some, seconds]
    congr 1
    omega
  | @hours h m s hh mm ss hour minute second =>
    have hour := read (by simp [numbers]) hour
    have minute := read (by simp [numbers]) minute
    have second := read (by simp [numbers]) second
    have clock := clockByte_append (clockByte_of_parseInt hour)
      (clockByte_append (clockByte_of_parseInt minute) (clockByte_of_parseInt second))
    rw [bare clock, measured_of_clockBytes clock, if_pos (by simp), clockSeconds_hours hour minute second,
      Option.getD_some, seconds]
    congr 1
    omega

end

/-- No product or sum overflows. -/
theorem isInt64_steps {interval : Interval} {ts : Bytes} (spelt : interval.Spelt ts) :
    ∀ step ∈ interval.steps, IsInt64 step := by
  have range := spelt.range
  unfold IsInt64
  cases interval with
  | plain n unit =>
    have bounds := range n (by simp [numbers])
    cases unit with
    | none => simp [steps]; omega
    | some u => cases u <;> simp [steps, TimeUnit.seconds] <;> omega
  | minutes m s =>
    have minute := range m (by simp [numbers])
    have second := range s (by simp [numbers])
    simp [steps]
    omega
  | hours h m s =>
    have hour := range h (by simp [numbers])
    have minute := range m (by simp [numbers])
    have second := range s (by simp [numbers])
    simp [steps]
    omega

/-- A numeral in blanks, tabs and newlines of its own. -/
def Padded (text : Bytes) (n : Int) : Prop :=
  ∃ front numeral back, text = front ++ numeral ++ back ∧ Numeral numeral n ∧
    (∀ b ∈ front, b ∈ blanks) ∧ ∀ b ∈ back, b ∈ blanks

end Interval

/-- Every notation is read as its seconds, in every order of the unit map and without overflow, so
two of them compare equal exactly if they are equally long. -/
theorem intervals_read (lib : RuleLib) (order order' : List TimeUnit) (visits : order.Perm TimeUnit.all)
    (visits' : order'.Perm TimeUnit.all) (interval other : Interval) (ts ts' : Bytes) (spelt : interval.Spelt ts)
    (spelt' : other.Spelt ts') :
    durationToSeconds (lib.visiting order) ts = some interval.seconds ∧
      (∀ step ∈ interval.steps, IsInt64 step) ∧
      (durationToSeconds (lib.visiting order) ts = durationToSeconds (lib.visiting order') ts' ↔
        interval.seconds = other.seconds) := by
  have read := Interval.durationToSeconds_spelt lib visits spelt
  have read' := Interval.durationToSeconds_spelt lib visits' spelt'
  refine ⟨read, Interval.isInt64_steps spelt, ?_⟩
  rw [read, read', Option.some_inj]

theorem five_spelt : (Interval.minutes 5 0).Spelt (ascii " 5:00\n") where
  range := by decide
  written := by
    have zeros : Numeral (ascii "00") 0 := @Numeral.bare ['0', '0'] (by simp) (by simp)
    refine ⟨ascii " ", ascii "5:00", ascii "\n", rfl, .minutes (numeral_decimal 5) zeros, ?_, ?_⟩
    · exact fun b member => mem_blanks.mpr (.inl (List.mem_singleton.mp member))
    · exact fun b member => mem_blanks.mpr (.inr (.inr (List.mem_singleton.mp member)))

theorem threeHundred_spelt : (Interval.plain 300 (some .second)).Spelt (ascii "300s") where
  range := by decide
  written := ⟨[], ascii "300s", [], rfl, .plain (numeral_decimal 300) (some .second), List.forall_mem_nil _,
    List.forall_mem_nil _⟩

/-- Five minutes are three hundred seconds, also with the unit map visited backwards. -/
theorem intervals_read_five :
    durationToSeconds (literalLib.visiting TimeUnit.all) (ascii " 5:00\n") = some 300 ∧
      (∀ step ∈ (Interval.minutes 5 0).steps, IsInt64 step) ∧
      (durationToSeconds (literalLib.visiting TimeUnit.all) (ascii " 5:00\n") =
          durationToSeconds (literalLib.visiting TimeUnit.all.reverse) (ascii "300s") ↔ (300 : Int) = 300) :=
  intervals_read literalLib TimeUnit.all TimeUnit.all.reverse (.refl _) (List.reverse_perm _) (.minutes 5 0)
    (.plain 300 (some .second)) _ _ five_spelt threeHundred_spelt

/-- Inside a notation blanks are not taken: five and a unit apart are no interval. -/
theorem intervals_apart_fail : ¬ ∀ (lib : RuleLib) (order : List TimeUnit) (interval : Interval) (ts : Bytes),
    order.Perm TimeUnit.all → (∀ n ∈ interval.numbers, -2147483648 ≤ n ∧ n < 2147483648) →
      interval.Written Interval.Padded ts → durationToSeconds (lib.visiting order) ts = some interval.seconds := by
  intro promised
  have blank : ∀ b ∈ ascii " ", b ∈ blanks := fun b member => mem_blanks.mpr (.inl (List.mem_singleton.mp member))
  have five : Interval.Padded (ascii "5 ") 5 :=
    ⟨[], ascii "5", ascii " ", rfl, numeral_decimal 5, List.forall_mem_nil _, blank⟩
  have read := promised literalLib TimeUnit.all (.plain 5 (some .minute)) (ascii "5 m") (.refl _) (by decide)
    (.plain five (some .minute))
  have failed : durationToSeconds (literalLib.visiting TimeUnit.all) (ascii "5 m") = none := by decide +kernel
  rw [failed] at read
  cases read

end Q2Admin
