import Q2Admin.Rules

/-! What `CheckRule` decides. Every block adds its own part to the counters, so the
verdict is a comparison of two sums. All parts but one are honest; the name block
adds one for every pattern that matches, and what it has to spare pays for others. -/

namespace Q2Admin
open Go Lib

/-- Some entry of the list parses and matches. -/
def SomeMatch (parse : Bytes → Option (Bytes → Bool)) (subject : Bytes) (entries : List Bytes) :
    Prop :=
  ∃ entry ∈ entries, ∃ accepts, parse entry = some accepts ∧ accepts subject = true

/-- A limit of a timespec parses and its block's test holds. -/
def LimitHolds {limit : Type} (spec : Bytes) (parse : Bytes → Option limit) (holds : limit → Bool) :
    Prop :=
  ∃ value, parse spec = some value ∧ holds value = true

section
variable (lib : RuleLib)

/-- The player meets every criterion of the rule that `CheckRule` evaluates. -/
structure MeetsEvaluated (p : Player) (r : Rule) (t : Time) : Prop where
  address : r.address ≠ [] → SomeMatch lib.parseCIDR p.ip r.address
  hostname : r.hostname ≠ [] →
    SomeMatch (fun host => lib.compile (caseless host)) p.hostname r.hostname
  name : r.name ≠ [] → SomeMatch (fun name => lib.compile (caseless name)) p.name r.name
  userInfo : ∀ ui ∈ r.userInfo, userinfoMatches lib ui p = true
  vpn : r.vpn = true → p.vpn = true
  before : r.timespec.before ≠ [] →
    LimitHolds r.timespec.before (stringToTime lib) (beforeHolds t)
  after : r.timespec.after ≠ [] →
    LimitHolds r.timespec.after (stringToTime lib) (afterHolds t)
  playTime : r.timespec.playTime ≠ [] →
    LimitHolds r.timespec.playTime (durationToSeconds lib) (playTimeHolds p t)

/-- The client criterion, which is in the message but in no block. -/
def ClientMet (p : Player) (r : Rule) : Prop :=
  r.client ≠ [] → SomeMatch lib.compile p.version r.client

/-- What a rule that applies promises: it is in force, nothing exempts the player, and
the player meets every criterion it carries. -/
structure Applies (p : Player) (r : Rule) (t : Time) (now : Int) : Prop where
  enabled : r.disabled = false
  current : expired r t = false
  clear : ∀ ex ∈ r.exception, ruleExceptionMatch lib now ex p = false
  evaluated : MeetsEvaluated lib p r t
  client : ClientMet lib p r

/-- The rule carries a criterion of a kind that `CheckRule` evaluates. -/
def Carries (r : Rule) : Prop :=
  r.address ≠ [] ∨ r.hostname ≠ [] ∨ r.name ≠ [] ∨ r.userInfo ≠ [] ∨ r.vpn = true ∨
    r.timespec.before ≠ [] ∨ r.timespec.after ≠ [] ∨ r.timespec.playTime ≠ []

def LimitsParse (r : Rule) : Prop :=
  (r.timespec.before ≠ [] → (stringToTime lib r.timespec.before).isSome = true) ∧
  (r.timespec.after ≠ [] → (stringToTime lib r.timespec.after).isSome = true) ∧
  (r.timespec.playTime ≠ [] → (durationToSeconds lib r.timespec.playTime).isSome = true)

/-- Nothing stops `CheckRule` before it compares its counters. -/
structure Live (p : Player) (r : Rule) (t : Time) (now : Int) : Prop where
  enabled : r.disabled = false
  current : expired r t = false
  limits : LimitsParse lib r
  clear : ∀ ex ∈ r.exception, ruleExceptionMatch lib now ex p = false

/-- `CheckRule` gets as far as counting criteria. -/
structure InForce (r : Rule) (t : Time) : Prop where
  enabled : r.disabled = false
  current : expired r t = false
  limits : LimitsParse lib r

/-- The player meets some criterion of the rule, whatever becomes of the others. The user_info
pairs are one criterion here. -/
def MeetsSome (p : Player) (r : Rule) (t : Time) : Prop :=
  SomeMatch lib.parseCIDR p.ip r.address ∨
  SomeMatch (fun host => lib.compile (caseless host)) p.hostname r.hostname ∨
  SomeMatch (fun name => lib.compile (caseless name)) p.name r.name ∨
  (r.userInfo ≠ [] ∧ ∀ ui ∈ r.userInfo, userinfoMatches lib ui p = true) ∨
  (r.vpn = true ∧ p.vpn = true) ∨
  (r.timespec.before ≠ [] ∧ LimitHolds r.timespec.before (stringToTime lib) (beforeHolds t)) ∨
  (r.timespec.after ≠ [] ∧ LimitHolds r.timespec.after (stringToTime lib) (afterHolds t)) ∨
  (r.timespec.playTime ≠ [] ∧
    LimitHolds r.timespec.playTime (durationToSeconds lib) (playTimeHolds p t))

/-! ## The parts -/

/-- A criterion that asks for one and gets it when it holds. -/
def part (present holds : Bool) : Tally := if present then ⟨1, holds.toNat, holds⟩ else Tally.zero

def listPart (parse : Bytes → Option (Bytes → Bool)) (subject : Bytes) (entries : List Bytes) :
    Tally :=
  part (entries ≠ []) (someEntry parse subject entries)

def limitPart {limit : Type} (spec : Bytes) (parse : Bytes → Option limit)
    (holds : limit → Bool) : Tally :=
  part (spec ≠ []) ((parse spec).any holds)

/-- The name patterns that match, all of them counted. -/
def nameHits (p : Player) (r : Rule) : Nat :=
  r.name.countP (entryMatches (fun name => lib.compile (caseless name)) p.name)

def nameNeed (r : Rule) : Nat := if r.name = [] then 0 else 1

def namePart (p : Player) (r : Rule) : Tally :=
  ⟨nameNeed r, nameHits lib p r, decide (0 < nameHits lib p r)⟩

def userInfoPart (p : Player) (r : Rule) : Tally :=
  ⟨r.userInfo.length, r.userInfo.countP (userinfoMatches lib · p),
    decide (r.userInfo ≠ [] ∧ r.userInfo.countP (userinfoMatches lib · p) = r.userInfo.length)⟩

/-- The parts of all blocks but the name block. -/
def honestParts (p : Player) (r : Rule) (t : Time) : List Tally :=
  [listPart lib.parseCIDR p.ip r.address,
    listPart (fun host => lib.compile (caseless host)) p.hostname r.hostname,
    userInfoPart lib p r,
    part r.vpn p.vpn,
    limitPart r.timespec.before (stringToTime lib) (beforeHolds t),
    limitPart r.timespec.after (stringToTime lib) (afterHolds t),
    limitPart r.timespec.playTime (durationToSeconds lib) (playTimeHolds p t)]

/-- Criteria the player does not meet, user_info pairs counted singly and names left out. -/
def unmet (p : Player) (r : Rule) (t : Time) : Nat := Tally.deficit (honestParts lib p r t)

end

theorem someEntry_iff (parse : Bytes → Option (Bytes → Bool)) (subject : Bytes)
    (entries : List Bytes) : someEntry parse subject entries = true ↔ SomeMatch parse subject entries := by
  simp only [someEntry, List.any_eq_true, SomeMatch, entryMatches]
  apply exists_congr
  intro entry
  apply and_congr_right
  intro _
  cases parse entry <;> simp

theorem firstHit_eq (parse : Bytes → Option (Bytes → Bool)) (subject : Bytes)
    (entries : List Bytes) (c : Counters) :
    firstHit parse subject entries c = if someEntry parse subject entries then c.hit else c := by
  induction entries with
  | nil => rfl
  | cons entry rest ih =>
    cases parsed : parse entry with
    | none => simpa [firstHit, someEntry, entryMatches, parsed] using ih
    | some accepts =>
      cases accepted : accepts subject with
      | false => simpa [firstHit, someEntry, entryMatches, parsed, accepted] using ih
      | true => simp [firstHit, someEntry, entryMatches, parsed, accepted]

theorem everyHit_eq (parse : Bytes → Option (Bytes → Bool)) (subject : Bytes)
    (entries : List Bytes) (c : Counters) :
    everyHit parse subject entries c =
      let hits := entries.countP (entryMatches parse subject)
      c.add ⟨0, hits, decide (0 < hits)⟩ := by
  induction entries generalizing c with
  | nil => exact (Tally.add_zero c).symm
  | cons entry rest ih =>
    cases parsed : parse entry with
    | none => simp [everyHit, entryMatches, parsed, ih]
    | some accepts =>
      cases accepted : accepts subject with
      | false => simp [everyHit, entryMatches, parsed, accepted, ih]
      | true =>
        have counted : entryMatches parse subject entry = true := by
          simp only [entryMatches, parsed, accepted]
        -- the flag is set for good, the count goes up by one
        simp only [everyHit, parsed, accepted, ih, Counters.hit, Tally.add, ↓reduceIte, counted,
          Bool.true_or, List.countP_cons_of_pos, Nat.zero_lt_succ, decide_true, Bool.or_true,
          Nat.add_zero, Tally.mk.injEq, true_and, and_true]
        omega

theorem userInfoLoop_eq (lib : RuleLib) (p : Player) (pairs : List UserInfo) (c : Counters) :
    userInfoLoop lib p pairs c =
      { c with needs := c.needs + pairs.length,
               haves := c.haves + pairs.countP (userinfoMatches lib · p) } := by
  induction pairs generalizing c with
  | nil => rfl
  | cons ui rest ih =>
    rw [userInfoLoop, ih]
    cases agrees : userinfoMatches lib ui p <;>
      simp [agrees, Counters.need] <;> omega

theorem part_honest (present holds : Bool) : (part present holds).Honest := by
  cases present <;> cases holds <;> constructor <;> simp [part, Tally.zero]

theorem part_met (present holds : Bool) :
    (part present holds).haves = (part present holds).needs ↔ (present = true → holds = true) := by
  cases present <;> cases holds <;> simp [part, Tally.zero]

theorem part_needs (present holds : Bool) : (part present holds).needs ≠ 0 ↔ present = true := by
  cases present <;> simp [part, Tally.zero]

section
variable (lib : RuleLib) (p : Player) (r : Rule) (t : Time) (now : Int)

theorem userInfoPart_honest : (userInfoPart lib p r).Honest where
  haves_le := List.countP_le_length
  matched_iff := by simp [userInfoPart]

theorem honestParts_honest : ∀ c ∈ honestParts lib p r t, c.Honest := by
  simp only [honestParts, List.forall_mem_cons, listPart, limitPart, part_honest,
    userInfoPart_honest, true_and]
  exact List.forall_mem_nil _

theorem addressBlock_eq (c : Counters) :
    addressBlock lib p r c = c.add (listPart lib.parseCIDR p.ip r.address) := by
  by_cases absent : r.address = []
  · simp [addressBlock, listPart, part, absent, Tally.add_zero]
  · cases found : someEntry lib.parseCIDR p.ip r.address <;>
      simp [addressBlock, listPart, part, absent, firstHit_eq, found, Counters.need, Counters.hit,
        Tally.add]

theorem hostnameBlock_eq (c : Counters) :
    hostnameBlock lib p r c =
      c.add (listPart (fun host => lib.compile (caseless host)) p.hostname r.hostname) := by
  by_cases absent : r.hostname = []
  · simp [hostnameBlock, listPart, part, absent, Tally.add_zero]
  · cases found : someEntry (fun host => lib.compile (caseless host)) p.hostname r.hostname <;>
      simp [hostnameBlock, listPart, part, absent, firstHit_eq, found, Counters.need, Counters.hit,
        Tally.add]

theorem nameBlock_eq (c : Counters) : nameBlock lib p r c = c.add (namePart lib p r) := by
  by_cases absent : r.name = []
  · simp [nameBlock, namePart, nameNeed, nameHits, absent, Tally.add]
  · simp [nameBlock, namePart, nameNeed, nameHits, absent, everyHit_eq, Counters.need, Tally.add]

theorem userInfoBlock_eq (c : Counters) :
    userInfoBlock lib p r c = c.add (userInfoPart lib p r) := by
  by_cases absent : r.userInfo = []
  · simp [userInfoBlock, userInfoPart, absent, Tally.add]
  · by_cases all : r.userInfo.countP (userinfoMatches lib · p) = r.userInfo.length
    · simp [userInfoBlock, userInfoPart, absent, userInfoLoop_eq, Tally.add, all]
    · simp [userInfoBlock, userInfoPart, absent, userInfoLoop_eq, Tally.add, all, Ne.symm all]

theorem vpnBlock_eq (c : Counters) : vpnBlock p r c = c.add (part r.vpn p.vpn) := by
  cases asked : r.vpn with
  | false => simp [vpnBlock, part, asked, Tally.add_zero]
  | true => cases isVpn : p.vpn <;>
      simp [vpnBlock, part, asked, isVpn, Counters.need, Counters.hit, Tally.add]

theorem timingBlock_eq {limit : Type} (spec : Bytes) (parse : Bytes → Option limit)
    (holds : limit → Bool) (parses : spec ≠ [] → (parse spec).isSome = true) (c : Counters) :
    timingBlock spec parse holds c = some (c.add (limitPart spec parse holds)) := by
  by_cases absent : spec = []
  · simp [timingBlock, limitPart, part, absent, Tally.add_zero]
  · obtain ⟨value, parsed⟩ := Option.isSome_iff_exists.mp (parses absent)
    cases held : holds value <;>
      simp [timingBlock, limitPart, part, absent, parsed, held, Counters.need, Counters.hit, Tally.add]

theorem timingBlock_none {limit : Type} {spec : Bytes} {parse : Bytes → Option limit}
    {holds : limit → Bool} (fails : ¬ (spec ≠ [] → (parse spec).isSome = true)) (c : Counters) :
    timingBlock spec parse holds c = none := by
  obtain ⟨present, unparsed⟩ := Classical.not_imp.mp fails
  simp [timingBlock, present, Option.not_isSome_iff_eq_none.mp unparsed]

/-- The counters are the sum of the parts, in whatever order they are added. -/
theorem countCriteria_eq (parses : LimitsParse lib r) :
    ∃ c, countCriteria lib p r t = some c ∧
      c.needs = nameNeed r + (Tally.total (honestParts lib p r t)).needs ∧
      c.haves = nameHits lib p r + (Tally.total (honestParts lib p r t)).haves ∧
      c.matched = (decide (0 < nameHits lib p r) || (Tally.total (honestParts lib p r t)).matched) := by
  obtain ⟨before, after, playTime⟩ := parses
  simp only [countCriteria, addressBlock_eq, hostnameBlock_eq, nameBlock_eq, userInfoBlock_eq,
    vpnBlock_eq, beforeBlock, afterBlock, playTimeBlock, timingBlock_eq _ _ _ before,
    timingBlock_eq _ _ _ after, timingBlock_eq _ _ _ playTime, Option.bind_eq_bind, Option.bind_some]
  refine ⟨_, rfl, ?_, ?_, ?_⟩
  · simp only [honestParts, Tally.total, List.foldl_cons, List.foldl_nil, Tally.needs_add, namePart]
    omega
  · simp only [honestParts, Tally.total, List.foldl_cons, List.foldl_nil, Tally.haves_add, namePart]
    omega
  · simp only [honestParts, Tally.total, List.foldl_cons, List.foldl_nil, Tally.matched_add, namePart]
    ac_rfl

theorem countCriteria_none (fails : ¬ LimitsParse lib r) : countCriteria lib p r t = none := by
  simp only [countCriteria, beforeBlock, afterBlock, playTimeBlock, Option.bind_eq_bind]
  by_cases before : r.timespec.before ≠ [] → (stringToTime lib r.timespec.before).isSome = true
  · rw [timingBlock_eq _ _ _ before, Option.bind_some]
    by_cases after : r.timespec.after ≠ [] → (stringToTime lib r.timespec.after).isSome = true
    · rw [timingBlock_eq _ _ _ after, Option.bind_some]
      exact timingBlock_none (fun playTime => fails ⟨before, after, playTime⟩) _
    · rw [timingBlock_none after, Option.bind_none]
  · rw [timingBlock_none before, Option.bind_none]

theorem part_matched (present holds : Bool) :
    (part present holds).matched = true ↔ present = true ∧ holds = true := by
  cases present <;> cases holds <;> simp [part, Tally.zero]

theorem someMatch_nil (parse : Bytes → Option (Bytes → Bool)) (subject : Bytes) :
    ¬ SomeMatch parse subject [] := by
  rintro ⟨_, member, -⟩
  cases member

theorem nameHits_pos : 0 < nameHits lib p r ↔
    SomeMatch (fun name => lib.compile (caseless name)) p.name r.name := by
  rw [← someEntry_iff, nameHits, List.countP_pos_iff, someEntry, List.any_eq_true]

theorem limit_any {limit : Type} (spec : Bytes) (parse : Bytes → Option limit)
    (holds : limit → Bool) : (parse spec).any holds = true ↔ LimitHolds spec parse holds := by
  rw [Option.any_eq_true, LimitHolds]

/-- The flag of the counters is up as soon as one criterion is met. -/
theorem meetsSome_iff : MeetsSome lib p r t ↔
    0 < nameHits lib p r ∨ (Tally.total (honestParts lib p r t)).matched = true := by
  have listed (parse : Bytes → Option (Bytes → Bool)) (subject : Bytes) (entries : List Bytes) :
      (listPart parse subject entries).matched = true ↔ SomeMatch parse subject entries := by
    rw [listPart, part_matched, someEntry_iff, decide_eq_true_eq]
    refine ⟨And.right, fun matched => ⟨fun absent => ?_, matched⟩⟩
    exact someMatch_nil parse subject (absent ▸ matched)
  have limited {limit : Type} (spec : Bytes) (parse : Bytes → Option limit) (holds : limit → Bool) :
      (limitPart spec parse holds).matched = true ↔ spec ≠ [] ∧ LimitHolds spec parse holds := by
    rw [limitPart, part_matched, decide_eq_true_eq, limit_any]
  have pairs : (userInfoPart lib p r).matched = true ↔
      r.userInfo ≠ [] ∧ ∀ ui ∈ r.userInfo, userinfoMatches lib ui p = true := by
    rw [userInfoPart, decide_eq_true_eq, List.countP_eq_length]
  rw [Tally.matched_total, nameHits_pos]
  simp only [honestParts, List.exists_mem_cons_iff, listed, limited, pairs, part_matched, MeetsSome,
    List.not_mem_nil, false_and, exists_false, or_false]
  tauto

/-! ## The verdict -/

/-- The name patterns that match cover the name criterion and every unmet criterion. -/
def Covered : Prop := unmet lib p r t + nameNeed r ≤ nameHits lib p r

theorem nameHits_of_absent (absent : r.name = []) : nameHits lib p r = 0 := by
  rw [nameHits, absent, List.countP_nil]

theorem carried_part (carries : Carries r) (unnamed : r.name = []) :
    ∃ c ∈ honestParts lib p r t, c.needs ≠ 0 := by
  have anyone : r.address ≠ [] ∨ r.hostname ≠ [] ∨ r.userInfo ≠ [] ∨ r.vpn = true ∨
      r.timespec.before ≠ [] ∨ r.timespec.after ≠ [] ∨ r.timespec.playTime ≠ [] := by
    rcases carries with h | h | h | h
    · exact .inl h
    · exact .inr (.inl h)
    · exact absurd unnamed h
    · exact .inr (.inr h)
  simpa [honestParts, listPart, limitPart, part_needs, userInfoPart] using anyone

theorem carries_of_part (needed : ∃ c ∈ honestParts lib p r t, c.needs ≠ 0) : Carries r := by
  have anyone : r.address ≠ [] ∨ r.hostname ≠ [] ∨ r.userInfo ≠ [] ∨ r.vpn = true ∨
      r.timespec.before ≠ [] ∨ r.timespec.after ≠ [] ∨ r.timespec.playTime ≠ [] := by
    simpa [honestParts, listPart, limitPart, part_needs, userInfoPart] using needed
  rcases anyone with h | h | h
  · exact .inl h
  · exact .inr (.inl h)
  · exact .inr (.inr (.inr h))

theorem needs_of_matched (matched : (Tally.total (honestParts lib p r t)).matched = true) :
    ∃ c ∈ honestParts lib p r t, c.needs ≠ 0 := by
  obtain ⟨c, member, hit⟩ := (Tally.matched_total _).mp matched
  exact ⟨c, member, ((honestParts_honest lib p r t c member).matched_iff.mp hit).1⟩

/-- The verdict in full: a live rule that carries something applies as soon as its
matching name patterns cover what is unmet. -/
theorem checkRule_iff :
    (checkRule lib p r t now).1 = true ↔
      Live lib p r t now ∧ Carries r ∧ Covered lib p r t := by
  constructor
  · intro verdict
    rw [checkRule] at verdict
    split_ifs at verdict with disabled old
    by_cases limits : LimitsParse lib r
    · obtain ⟨c, counted, needs, haves, matched⟩ := countCriteria_eq lib p r t limits
      have sum := Tally.needs_total (honestParts_honest lib p r t)
      simp only [counted, Bool.and_eq_true, decide_eq_true_eq, Bool.not_eq_true',
        List.any_eq_false, Bool.not_eq_true] at verdict
      obtain ⟨⟨hit, balance⟩, clear⟩ := verdict
      refine ⟨⟨Bool.eq_false_iff.mpr disabled, Bool.eq_false_iff.mpr old, limits, clear⟩, ?_, ?_⟩
      · rw [matched, Bool.or_eq_true, decide_eq_true_eq] at hit
        rcases hit with named | other
        · refine .inr (.inr (.inl fun absent => ?_))
          rw [nameHits_of_absent lib p r absent] at named
          exact Nat.lt_irrefl 0 named
        · exact carries_of_part lib p r t (needs_of_matched lib p r t other)
      · rw [Covered, unmet]
        omega
    · simp [countCriteria_none lib p r t limits] at verdict
  · rintro ⟨⟨enabled, current, limits, clear⟩, carries, covered⟩
    obtain ⟨c, counted, needs, haves, matched⟩ := countCriteria_eq lib p r t limits
    have sum := Tally.needs_total (honestParts_honest lib p r t)
    rw [Covered, unmet] at covered
    have hit : c.matched = true := by
      rw [matched, Bool.or_eq_true, decide_eq_true_eq]
      by_cases unnamed : r.name = []
      · right
        have none := nameHits_of_absent lib p r unnamed
        exact Tally.matched_of_met (honestParts_honest lib p r t) (by omega)
          (carried_part lib p r t carries unnamed)
      · left
        rw [nameNeed, if_neg unnamed] at covered
        omega
    have balance : c.needs ≤ c.haves := by omega
    have exempt : r.exception.any (ruleExceptionMatch lib now · p) = false := by
      simpa only [List.any_eq_false, Bool.not_eq_true] using clear
    simp [checkRule, enabled, current, counted, hit, balance, exempt]

/-- Nothing is unmet, and some name pattern matches if there are any: that is what it
means to meet the criteria. -/
theorem meetsEvaluated_iff : MeetsEvaluated lib p r t ↔
    unmet lib p r t = 0 ∧ nameNeed r ≤ nameHits lib p r := by
  have parts : unmet lib p r t = 0 ↔ ∀ c ∈ honestParts lib p r t, c.haves = c.needs :=
    Tally.deficit_eq_zero (honestParts_honest lib p r t)
  have pairs : (userInfoPart lib p r).haves = (userInfoPart lib p r).needs ↔
      ∀ ui ∈ r.userInfo, userinfoMatches lib ui p = true := List.countP_eq_length
  have names : nameNeed r ≤ nameHits lib p r ↔ (r.name ≠ [] →
      SomeMatch (fun name => lib.compile (caseless name)) p.name r.name) := by
    rw [← nameHits_pos, nameNeed]
    split <;> simp_all [Nat.one_le_iff_ne_zero, Nat.pos_iff_ne_zero]
  rw [parts, names]
  simp only [honestParts, List.forall_mem_cons, listPart, limitPart, part_met, decide_eq_true_eq,
    someEntry_iff, limit_any, pairs]
  constructor
  · rintro ⟨address, hostname, name, userInfo, vpn, before, after, playTime⟩
    exact ⟨⟨address, hostname, userInfo, vpn, before, after, playTime,
      fun _ member => absurd member List.not_mem_nil⟩, name⟩
  · rintro ⟨⟨address, hostname, userInfo, vpn, before, after, playTime, -⟩, name⟩
    exact ⟨address, hostname, name, userInfo, vpn, before, after, playTime⟩

/-- The rule does not get through on matches that were counted twice, or past client
patterns that were not counted at all. -/
def Sound : Prop :=
  ¬ Live lib p r t now ∨ ¬ Carries r ∨ ¬ Covered lib p r t ∨
    unmet lib p r t = 0 ∧ ClientMet lib p r

/-- `CheckRule` returns true only for a rule that applies, exactly when the rule does not
get through on surplus name matches or on a client list that no block reads. -/
theorem checkRule_conjunction_iff :
    ((checkRule lib p r t now).1 = true → Applies lib p r t now) ↔ Sound lib p r t now := by
  rw [checkRule_iff]
  constructor
  · intro promised
    by_cases through : Live lib p r t now ∧ Carries r ∧ Covered lib p r t
    · obtain ⟨-, -, -, evaluated, client⟩ := promised through
      exact .inr (.inr (.inr ⟨((meetsEvaluated_iff lib p r t).mp evaluated).1, client⟩))
    · rw [Sound]
      tauto
  · rintro sound ⟨live, carries, covered⟩
    rcases sound with stopped | bare | short | ⟨met, client⟩
    · exact absurd live stopped
    · exact absurd carries bare
    · exact absurd covered short
    · have names : nameNeed r ≤ nameHits lib p r := by
        rw [Covered, met, Nat.zero_add] at covered
        exact covered
      exact ⟨live.enabled, live.current, live.clear,
        (meetsEvaluated_iff lib p r t).mpr ⟨met, names⟩, client⟩

end

def claire : Player := { name := ascii "claire", ip := ascii "10.0.0.1" }

/-- Two patterns match the name, and the second match stands in for the address. -/
theorem checkRule_surplus_name : ¬ ∀ (lib : RuleLib) (p : Player) (r : Rule) (t : Time) (now : Int),
    (checkRule lib p r t now).1 = true → Applies lib p r t now := by
  intro promised
  let rule : Rule :=
    { type := .ban, address := [ascii "10.0.0.9/32"], name := [ascii "claire", ascii "cl"] }
  have applies := promised literalLib claire rule ⟨0, 0, 0⟩ 0 (by decide)
  have address := (someEntry_iff _ _ _).mpr (applies.evaluated.address (by decide))
  exact absurd address (by decide)

section
variable {lib : RuleLib} {p : Player} {r : Rule} {t : Time} {now : Int}

/-- Nobody is missed: an enabled, unexpired rule that carries something applies to every
player who meets what it carries and is not exempt. -/
theorem checkRule_misses_nobody (enabled : r.disabled = false) (current : expired r t = false)
    (limits : LimitsParse lib r) (carries : Carries r) (meets : MeetsEvaluated lib p r t)
    (clear : ∀ ex ∈ r.exception, ruleExceptionMatch lib now ex p = false) :
    (checkRule lib p r t now).1 = true := by
  obtain ⟨met, names⟩ := (meetsEvaluated_iff lib p r t).mp meets
  have covered : Covered lib p r t := by
    rw [Covered, met, Nat.zero_add]
    exact names
  exact (checkRule_iff lib p r t now).mpr ⟨⟨enabled, current, limits, clear⟩, carries, covered⟩

end

/-- A malformed network stands before the one that matches. -/
theorem checkRule_misses_nobody_malformed : (checkRule literalLib claire
    { type := .ban, address := [ascii "10.0.0", ascii "10.0.0.1/32"] } ⟨0, 0, 0⟩ 0).1 = true := by
  apply checkRule_misses_nobody rfl rfl
  · exact ⟨fun present => absurd rfl present, fun present => absurd rfl present,
      fun present => absurd rfl present⟩
  · exact .inl (by decide)
  · apply (meetsEvaluated_iff literalLib claire _ _).mpr
    decide
  · exact fun _ member => absurd member List.not_mem_nil

/-! ## The userinfo map -/

theorem userinfoMatchesIn_lookup (lib : RuleLib) (ui : UserInfo) (entries : List (Σ _ : Bytes, Bytes))
    (distinct : entries.NodupKeys) :
    userinfoMatchesIn lib ui entries = match entries.dlookup ui.property with
      | none => false
      | some v => entryMatches lib.compile v ui.value := by
  induction entries with
  | nil => rfl
  | cons entry rest ih =>
    obtain ⟨k, v⟩ := entry
    have fresh := List.notMem_keys_of_nodupKeys_cons distinct
    by_cases same : k = ui.property
    · subst same
      have absent : rest.dlookup ui.property = none := List.dlookup_eq_none.mpr fresh
      have remaining := ih (List.nodupKeys_of_nodupKeys_cons distinct)
      rw [absent] at remaining
      cases parsed : lib.compile ui.value <;>
        simp [userinfoMatchesIn, parsed, entryMatches, remaining]
    · rw [userinfoMatchesIn, if_neg same, ih (List.nodupKeys_of_nodupKeys_cons distinct),
        List.dlookup_cons_ne _ _ (Ne.symm same)]

/-- The order in which the range over the map visits its entries is of no consequence. -/
theorem userinfoMatchesIn_order (lib : RuleLib) (ui : UserInfo) (p : Player)
    (order : List (Σ _ : Bytes, Bytes)) (visits : order.Perm p.userinfoMap.entries) :
    userinfoMatchesIn lib ui order = userinfoMatches lib ui p := by
  have distinct : order.NodupKeys := (List.perm_nodupKeys visits).mpr p.userinfoMap.nodupKeys
  rw [userinfoMatches, userinfoMatchesIn_lookup lib ui order distinct,
    userinfoMatchesIn_lookup lib ui _ p.userinfoMap.nodupKeys,
    List.perm_dlookup ui.property distinct visits]

end Q2Admin
