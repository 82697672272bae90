import Q2Admin.Go

/-! Instants, and the two notations for time a rule can carry. Parsing the four
layouts and decimal fractions is left to parameters; everything `rules.go` does
around them is here. -/

namespace Q2Admin
open Go

/-- `time.Time`: an instant and the offset of the location it is shown in. -/
structure Time where
  unix : Int
  nsec : Nat := 0
  /-- Seconds east of UTC. -/
  offset : Int := 0
  deriving DecidableEq, Repr

namespace Time

def wall (t : Time) : Int := t.unix + t.offset
def hour (t : Time) : Int := t.wall % 86400 / 3600
def minute (t : Time) : Int := t.wall % 3600 / 60

/-- The proleptic Gregorian year, counting years from the first of March. -/
def year (t : Time) : Int :=
  let day := t.wall / 86400 + 719468
  let era := day / 146097
  let dayOfEra := day % 146097
  let yearOfEra := (dayOfEra - dayOfEra / 1460 + dayOfEra / 36524 - dayOfEra / 146096) / 365
  let dayOfYear := dayOfEra - (365 * yearOfEra + yearOfEra / 4 - yearOfEra / 100)
  let month := (5 * dayOfYear + 2) / 153
  yearOfEra + era * 400 + (if month < 10 then 0 else 1)

def before (t other : Time) : Bool :=
  t.unix < other.unix || (t.unix == other.unix && t.nsec < other.nsec)

def after (t other : Time) : Bool := other.before t

end Time

/-- The layouts `stringToTime` tries, in its order. -/
inductive Layout where
  | timeOnly
  | kitchen
  | dateOnly
  | dateTime
  deriving DecidableEq, Repr

/-- What the rule code takes from outside: networks and patterns may fail to parse,
and then match nothing. -/
structure RuleLib where
  /-- `net.ParseCIDR`, then whether the network contains the parsed address. -/
  parseCIDR : Bytes → Option (Bytes → Bool)
  /-- `regexp.Compile`, then `MatchString`. -/
  compile : Bytes → Option (Bytes → Bool)
  /-- `time.Parse` with one of the layouts. -/
  parseTime : Layout → Bytes → Option Time
  /-- `int(value * float64(unit))` of a decimal fraction read by `strconv.ParseFloat`. -/
  scaledFloat : Bytes → Int → Option Int
  /-- The order in which a range over the unit map happens to visit its keys. -/
  unitOrder : List Bytes

/-- A library for concrete runs: single addresses as networks, literal patterns, no times. -/
def literalLib : RuleLib where
  parseCIDR address := match split address '/' with
    | [host, bits] => if bits = ascii "32" then some fun ip => ip = host else none
    | _ => none
  compile pattern :=
    let literal := if (ascii "(?i)").isPrefixOf pattern then pattern.drop 4 else pattern
    some fun s => contains s literal
  parseTime _ _ := none
  scaledFloat _ _ := none
  unitOrder := [ascii "s", ascii "m", ascii "h", ascii "d", ascii "w", ascii "M", ascii "y"]

def stringToTime (lib : RuleLib) (t : Bytes) : Option Time :=
  if t = [] then none
  else match lib.parseTime .timeOnly t with
    | some ts => some ts
    | none => match lib.parseTime .kitchen t with
      | some ts => some ts
      | none => match lib.parseTime .dateOnly t with
        | some ts => some ts
        | none => lib.parseTime .dateTime t

/-- `multiplier[unit]`. -/
def multiplier (unit : Bytes) : Int :=
  if unit = ascii "s" then 1
  else if unit = ascii "m" then 60
  else if unit = ascii "h" then 3600
  else if unit = ascii "d" then 86400
  else if unit = ascii "w" then 86400 * 7
  else if unit = ascii "M" then 86400 * 30
  else if unit = ascii "y" then 86400 * 7 * 52
  else 0

/-- The range over the unit map. It does not stop at the unit it finds. -/
def stripUnits : List Bytes → Bytes → Bytes → Bytes × Bytes
  | [], trimmed, units => (trimmed, units)
  | u :: rest, trimmed, units =>
      if hasSuffix trimmed u then stripUnits rest trimmed.dropLast u
      else stripUnits rest trimmed units

/-- Clock notation. Other than two or three fields fall through to the plain integer. -/
def clockSeconds (trimmed : Bytes) : Option (Option Int) :=
  match split trimmed ':' with
  | [minutes, seconds] => some do
      let s ← parseInt 32 seconds
      let m ← parseInt 32 minutes
      return s + m * multiplier (ascii "m")
  | [hours, minutes, seconds] => some do
      let s ← parseInt 32 seconds
      let m ← parseInt 32 minutes
      let h ← parseInt 32 hours
      return s + m * multiplier (ascii "m") + h * multiplier (ascii "h")
  | _ => none

def durationToSeconds (lib : RuleLib) (ts : Bytes) : Option Int :=
  if ts = [] then none
  else
    let (trimmed, units) := stripUnits lib.unitOrder (trim ts (ascii " \t\n")) (ascii "s")
    if contains trimmed (ascii ".") then lib.scaledFloat trimmed (multiplier units)
    else
      let plain := (parseInt 32 trimmed).map (· * multiplier units)
      if contains trimmed (ascii ":") then (clockSeconds trimmed).getD plain else plain

end Q2Admin
