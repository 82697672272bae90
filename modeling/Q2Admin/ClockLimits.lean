import Q2Admin.RuleMatching

/-! Time limits without a date, which hold on any day. What they are meant to compare is the
time of day; the blocks of `CheckRule` compare hours with hours and minutes with minutes. -/

namespace Q2Admin
open Go Lib

namespace Time

/-- No later in the day than the other, to the minute. -/
def AtMost (t other : Time) : Prop := t.hour < other.hour ∨ t.hour = other.hour ∧ t.minute ≤ other.minute

def AtLeast (t other : Time) : Prop := other.AtMost t

/-- An earlier hour with a later minute. -/
def Crosses (t other : Time) : Prop := t.hour < other.hour ∧ other.minute < t.minute

instance (t other : Time) : Decidable (t.AtMost other) := inferInstanceAs (Decidable (_ ∨ _))
instance (t other : Time) : Decidable (t.Crosses other) := inferInstanceAs (Decidable (_ ∧ _))

/-- No earlier on the clock of the same day. -/
structure LaterSameDay (t t' : Time) : Prop where
  day : t'.wall / 86400 = t.wall / 86400
  later : t.wall ≤ t'.wall

theorem atMost_of_laterSameDay {t t' : Time} (same : LaterSameDay t t') : t.AtMost t' := by
  have day := same.day
  have later := same.later
  unfold AtMost hour minute
  omega

theorem AtMost.trans {s t u : Time} (first : s.AtMost t) (second : t.AtMost u) : s.AtMost u := by
  unfold AtMost at *
  omega

end Time

section
variable (lib : RuleLib)

/-- `time.Parse` fills the year in only where the layout has one. -/
def RuleLib.YearlessClocks : Prop := ∀ layout spec limit, layout = .timeOnly ∨ layout = .kitchen →
  lib.parseTime layout spec = some limit → limit.year = 0

/-- The limit is a time of day, in one of the two notations for it. -/
inductive ClockOnly (spec : Bytes) (limit : Time) : Prop where
  | timeOnly (present : spec ≠ []) (parsed : lib.parseTime .timeOnly spec = some limit)
  | kitchen (present : spec ≠ []) (other : lib.parseTime .timeOnly spec = none)
      (parsed : lib.parseTime .kitchen spec = some limit)

/-- The block asks for one thing and has it. -/
def CountsAsMet (block : Counters → Option Counters) : Prop := ∀ c : Counters, block c = some c.need.hit

/-- The rule asks for nothing but a time. -/
structure Rule.OnlyTimed (r : Rule) : Prop where
  address : r.address = []
  hostname : r.hostname = []
  name : r.name = []
  userInfo : r.userInfo = []
  vpn : r.vpn = false
  playTime : r.timespec.playTime = []

end

section
variable {lib : RuleLib} {spec : Bytes} {limit : Time}

theorem ClockOnly.present (clock : ClockOnly lib spec limit) : spec ≠ [] := by
  cases clock <;> assumption

theorem stringToTime_clock (clock : ClockOnly lib spec limit) : stringToTime lib spec = some limit := by
  rw [stringToTime, if_neg clock.present]
  cases clock with
  | timeOnly _ parsed => rw [parsed]
  | kitchen _ other parsed => rw [other, parsed]

theorem year_clock (years : lib.YearlessClocks) (clock : ClockOnly lib spec limit) : limit.year = 0 := by
  cases clock with
  | timeOnly _ parsed => exact years .timeOnly spec limit (.inl rfl) parsed
  | kitchen _ _ parsed => exact years .kitchen spec limit (.inr rfl) parsed

theorem beforeHolds_clock {t : Time} (clock : limit.year = 0) :
    beforeHolds t limit = true ↔ t.AtMost limit ∧ ¬ t.Crosses limit := by
  rw [beforeHolds, if_pos clock, Bool.and_eq_true, decide_eq_true_eq, decide_eq_true_eq]
  unfold Time.AtMost Time.Crosses
  omega

theorem afterHolds_clock {t : Time} (clock : limit.year = 0) :
    afterHolds t limit = true ↔ t.AtLeast limit ∧ ¬ limit.Crosses t := by
  rw [afterHolds, if_pos clock, Bool.and_eq_true, decide_eq_true_eq, decide_eq_true_eq]
  unfold Time.AtLeast Time.AtMost Time.Crosses
  omega

theorem countsAsMet_timingBlock {value : Type} {parse : Bytes → Option value} {holds : value → Bool} {v : value}
    (present : spec ≠ []) (parsed : parse spec = some v) :
    CountsAsMet (timingBlock spec parse holds) ↔ holds v = true := by
  cases held : holds v with
  | true => simp [CountsAsMet, timingBlock, present, parsed, held]
  | false =>
    simp only [CountsAsMet, timingBlock, if_neg present, parsed, held, Bool.false_eq_true, ↓reduceIte,
      Option.some.injEq, iff_false]
    intro met
    have counted := congrArg Tally.haves (met Tally.zero)
    cases counted

/-- What a rule without names decides: all it asks for has to be there. -/
theorem checkRule_unnamed_iff {p : Player} {r : Rule} {t : Time} {now : Int} (unnamed : r.name = []) :
    (checkRule lib p r t now).1 = true ↔ Live lib p r t now ∧ Carries r ∧ MeetsEvaluated lib p r t := by
  have none := nameHits_of_absent lib p r unnamed
  rw [checkRule_iff, meetsEvaluated_iff, Covered, none, nameNeed, if_pos unnamed]
  simp

theorem limitHolds_clock {holds : Time → Bool} (clock : ClockOnly lib spec limit) :
    LimitHolds spec (stringToTime lib) holds ↔ holds limit = true := by
  rw [LimitHolds, stringToTime_clock clock]
  simp

theorem meetsEvaluated_timed {p : Player} {r : Rule} {t : Time} (timed : r.OnlyTimed) :
    MeetsEvaluated lib p r t ↔
      (r.timespec.before ≠ [] → LimitHolds r.timespec.before (stringToTime lib) (beforeHolds t)) ∧
      (r.timespec.after ≠ [] → LimitHolds r.timespec.after (stringToTime lib) (afterHolds t)) where
  mp meets := ⟨meets.before, meets.after⟩
  mpr limits :=
    { address := fun asked => absurd timed.address asked
      hostname := fun asked => absurd timed.hostname asked
      name := fun asked => absurd timed.name asked
      userInfo := fun ui member => by
        rw [timed.userInfo] at member
        cases member
      vpn := fun asked => absurd (timed.vpn.symm.trans asked) (by decide)
      before := limits.1
      after := limits.2
      playTime := fun asked => absurd timed.playTime asked }

section
variable {p : Player} {r : Rule} {t : Time} {now : Int} (years : lib.YearlessClocks) (timed : r.OnlyTimed)
include years timed

/-- A rule that asks for the time of day to be late enough. -/
theorem checkRule_afterOnly_iff (unlimited : r.timespec.before = []) (clock : ClockOnly lib r.timespec.after limit) :
    (checkRule lib p r t now).1 = true ↔ Live lib p r t now ∧ t.AtLeast limit ∧ ¬ limit.Crosses t := by
  have carries : Carries r := .inr (.inr (.inr (.inr (.inr (.inr (.inl clock.present))))))
  rw [checkRule_unnamed_iff timed.name, meetsEvaluated_timed timed, limitHolds_clock clock,
    afterHolds_clock (year_clock years clock)]
  simp only [carries, unlimited, clock.present, ne_eq, not_true_eq_false, not_false_eq_true, false_implies,
    true_implies, true_and]

theorem checkRule_window_iff {opens closes : Time} (after : ClockOnly lib r.timespec.after opens)
    (before : ClockOnly lib r.timespec.before closes) :
    (checkRule lib p r t now).1 = true ↔ Live lib p r t now ∧
      (t.AtMost closes ∧ ¬ t.Crosses closes) ∧ t.AtLeast opens ∧ ¬ opens.Crosses t := by
  have carries : Carries r := .inr (.inr (.inr (.inr (.inr (.inr (.inl after.present))))))
  rw [checkRule_unnamed_iff timed.name, meetsEvaluated_timed timed, limitHolds_clock after, limitHolds_clock before,
    afterHolds_clock (year_clock years after), beforeHolds_clock (year_clock years before)]
  simp only [carries, after.present, before.present, ne_eq, not_false_eq_true, true_implies, true_and]

end
end

section
variable (lib : RuleLib) (p : Player) (r : Rule) (t : Time) (now : Int)

/-- At this instant the limits of the rule compare the time of day; a rule that asks for nothing
else goes on to match for the rest of the day, or matches inside its window. -/
structure ClockLimitsHonoured : Prop where
  before : ∀ limit, ClockOnly lib r.timespec.before limit →
    (CountsAsMet (beforeBlock lib r t) ↔ t.AtMost limit)
  after : ∀ limit, ClockOnly lib r.timespec.after limit →
    (CountsAsMet (afterBlock lib r t) ↔ t.AtLeast limit)
  afterOnly : ∀ limit, r.OnlyTimed → r.timespec.before = [] → ClockOnly lib r.timespec.after limit →
    (checkRule lib p r t now).1 = true →
    ∀ t' now', t.LaterSameDay t' → Live lib p r t' now' → (checkRule lib p r t' now').1 = true
  window : ∀ opens closes, r.OnlyTimed → ClockOnly lib r.timespec.after opens →
    ClockOnly lib r.timespec.before closes → Live lib p r t now →
    ((checkRule lib p r t now).1 = true ↔ t.AtLeast opens ∧ t.AtMost closes)

/-- No earlier hour comes with a later minute: not at this instant, nor later in the day where
the rule asks for nothing but to be late enough. -/
structure Uncrossed : Prop where
  before : ∀ limit, ClockOnly lib r.timespec.before limit → ¬ t.Crosses limit
  after : ∀ limit, ClockOnly lib r.timespec.after limit → ¬ limit.Crosses t
  later : ∀ limit, r.OnlyTimed → r.timespec.before = [] → ClockOnly lib r.timespec.after limit →
    Live lib p r t now → t.AtLeast limit →
    ∀ t' now', t.LaterSameDay t' → Live lib p r t' now' → ¬ limit.Crosses t'

variable {lib p r t now}

theorem before_honoured_iff (years : lib.YearlessClocks) {limit : Time} (clock : ClockOnly lib r.timespec.before limit) :
    (CountsAsMet (beforeBlock lib r t) ↔ t.AtMost limit) ↔ ¬ t.Crosses limit := by
  have met : CountsAsMet (beforeBlock lib r t) ↔ t.AtMost limit ∧ ¬ t.Crosses limit :=
    (countsAsMet_timingBlock clock.present (stringToTime_clock clock)).trans (beforeHolds_clock (year_clock years clock))
  have earlier : t.Crosses limit → t.AtMost limit := fun crosses => .inl crosses.1
  rw [met, and_iff_left_iff_imp]
  exact ⟨fun honoured crosses => honoured (earlier crosses) crosses, fun apart _ => apart⟩

theorem after_honoured_iff (years : lib.YearlessClocks) {limit : Time} (clock : ClockOnly lib r.timespec.after limit) :
    (CountsAsMet (afterBlock lib r t) ↔ t.AtLeast limit) ↔ ¬ limit.Crosses t := by
  have met : CountsAsMet (afterBlock lib r t) ↔ t.AtLeast limit ∧ ¬ limit.Crosses t :=
    (countsAsMet_timingBlock clock.present (stringToTime_clock clock)).trans (afterHolds_clock (year_clock years clock))
  have later : limit.Crosses t → t.AtLeast limit := fun crosses => .inl crosses.1
  rw [met, and_iff_left_iff_imp]
  exact ⟨fun honoured crosses => honoured (later crosses) crosses, fun apart _ => apart⟩

/-- Limits without a date are honoured exactly where no earlier hour comes with a later minute. -/
theorem clockLimits_iff (years : lib.YearlessClocks) :
    ClockLimitsHonoured lib p r t now ↔ Uncrossed lib p r t now := by
  constructor
  · intro honoured
    have after limit clock := (after_honoured_iff years clock).mp (honoured.after limit clock)
    refine ⟨fun limit clock => (before_honoured_iff years clock).mp (honoured.before limit clock), after, ?_⟩
    intro limit timed unlimited clock live late t' now' same live'
    have first := (checkRule_afterOnly_iff years timed unlimited clock).mpr ⟨live, late, after limit clock⟩
    have second := honoured.afterOnly limit timed unlimited clock first t' now' same live'
    exact ((checkRule_afterOnly_iff years timed unlimited clock).mp second).2.2
  · intro uncrossed
    refine ⟨fun limit clock => (before_honoured_iff years clock).mpr (uncrossed.before limit clock),
      fun limit clock => (after_honoured_iff years clock).mpr (uncrossed.after limit clock), ?_, ?_⟩
    · intro limit timed unlimited clock applies t' now' same live'
      obtain ⟨live, late, -⟩ := (checkRule_afterOnly_iff years timed unlimited clock).mp applies
      have late' : t'.AtLeast limit := late.trans (Time.atMost_of_laterSameDay same)
      have crossed := uncrossed.later limit timed unlimited clock live late t' now' same live'
      exact (checkRule_afterOnly_iff years timed unlimited clock).mpr ⟨live', late', crossed⟩
    · intro opens closes timed after before live
      have opened := uncrossed.after opens after
      have closed := uncrossed.before closes before
      rw [checkRule_window_iff years timed after before]
      tauto

end
/-- `15:04:05`, as an instant of the first of January of the year 0. -/
def clockTime (s : Bytes) : Option Time :=
  match split s ':' with
  | [hour, minute, second] => do
    let h ← atoi hour
    let m ← atoi minute
    let s ← atoi second
    if 0 ≤ h ∧ h < 24 ∧ 0 ≤ m ∧ m < 60 ∧ 0 ≤ s ∧ s < 60 then
      return ⟨-62167219200 + (3600 * h + 60 * m + s), 0, 0⟩
    else none
  | _ => none

/-- A library that knows the first of the layouts. -/
def clockLib : RuleLib := { literalLib with
  parseTime := fun layout s => match layout with
    | .timeOnly => clockTime s
    | _ => none }

theorem clockLib_yearless : clockLib.YearlessClocks := by
  intro layout spec limit clocked parsed
  cases layout with
  | kitchen | dateOnly | dateTime => cases parsed
  | timeOnly =>
    have day : ∀ seconds : Int, 0 ≤ seconds → seconds < 86400 → (Time.mk (-62167219200 + seconds) 0 0).year = 0 := by
      intro seconds low high
      have first : (-62167219200 + seconds + 0) / 86400 = -719528 := by omega
      simp only [Time.year, Time.wall, first]
      rfl
    simp only [clockLib, clockTime] at parsed
    split at parsed
    · simp only [Option.bind_eq_bind, Option.bind_eq_some_iff] at parsed
      obtain ⟨h, -, m, -, s, -, fits⟩ := parsed
      split_ifs at fits with range
      cases fits
      exact day _ (by omega) (by omega)
    · cases parsed

def afternoon : Rule := { type := .message, timespec := { before := ascii "16:30:00" } }

/-- A quarter to ten in the morning of the fifth of October. -/
def quarterToTen : Time := ⟨1728121500, 0, 0⟩

/-- At 9:45 it is not before 16:30. -/
theorem clockLimits_quarterToTen : ¬ ∀ (lib : RuleLib) (p : Player) (r : Rule) (t : Time) (now : Int),
    lib.YearlessClocks → ClockLimitsHonoured lib p r t now := by
  intro honoured
  have limits := honoured clockLib claire afternoon quarterToTen 0 clockLib_yearless
  have clock : ClockOnly clockLib afternoon.timespec.before ⟨-62167159800, 0, 0⟩ :=
    .timeOnly (by decide) (by decide)
  have crosses := (before_honoured_iff clockLib_yearless clock).mp (limits.before _ clock)
  exact crosses (by decide)

/-- At 10:15 it is. -/
theorem clockLimits_quarterPast : ClockLimitsHonoured clockLib claire afternoon ⟨1728123300, 0, 0⟩ 0 := by
  apply (clockLimits_iff clockLib_yearless).mpr
  refine ⟨?_, ?_, ?_⟩
  · intro limit clock
    have parsed := stringToTime_clock clock
    rw [show stringToTime clockLib afternoon.timespec.before = some ⟨-62167159800, 0, 0⟩ by decide] at parsed
    cases parsed
    decide
  · exact fun limit clock => absurd rfl clock.present
  · exact fun limit _ _ clock => absurd rfl clock.present

end Q2Admin
