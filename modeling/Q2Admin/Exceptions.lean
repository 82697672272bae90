import Q2Admin.RuleMatching

/-! One criterion read twice: by the blocks of `CheckRule` when a rule carries it and by
`RuleExceptionMatch` when an exception does. -/

namespace Q2Admin
open Go Lib

inductive Criterion where
  | address (networks : List Bytes)
  | hostname (patterns : List Bytes)
  | name (patterns : List Bytes)
  | client (patterns : List Bytes)
  | userInfo (pair : UserInfo)

/-- The fields in which a rule and an exception carry their criteria. -/
structure Criteria where
  address : List Bytes := []
  hostname : List Bytes := []
  name : List Bytes := []
  client : List Bytes := []
  userInfo : List UserInfo := []

def Criterion.fields : Criterion → Criteria
  | .address networks => { address := networks }
  | .hostname patterns => { hostname := patterns }
  | .name patterns => { name := patterns }
  | .client patterns => { client := patterns }
  | .userInfo pair => { userInfo := [pair] }

def Rule.criteria (r : Rule) : Criteria := ⟨r.address, r.hostname, r.name, r.client, r.userInfo⟩

def Exception.criteria (ex : Exception) : Criteria :=
  ⟨ex.address, ex.hostname, ex.name, ex.client, ex.userInfo⟩

/-- The rule asks for `c` and nothing else, and exempts nobody. -/
structure Rule.CarriesOnly (r : Rule) (c : Criterion) : Prop where
  fields : r.criteria = c.fields
  vpn : r.vpn = false
  timespec : r.timespec = {}
  exception : r.exception = []

/-- Not past its expiration time, if it has one. -/
def Exception.Unexpired (ex : Exception) (now : Int) : Prop :=
  ¬ (0 < ex.expirationTime ∧ ex.expirationTime < now)

instance (ex : Exception) (now : Int) : Decidable (ex.Unexpired now) :=
  inferInstanceAs (Decidable (¬ _))

section
variable (lib : RuleLib) (p : Player)

/-- What a rule takes the criterion for. -/
def Criterion.ruleReads : Criterion → Bool
  | .address networks => someEntry lib.parseCIDR p.ip networks
  | .hostname patterns => someEntry (fun host => lib.compile (caseless host)) p.hostname patterns
  | .name patterns => someEntry (fun name => lib.compile (caseless name)) p.name patterns
  | .client _ => false
  | .userInfo pair => userinfoMatches lib pair p

/-- What an exception takes the criterion for. -/
def Criterion.exceptionReads : Criterion → Bool
  | .address networks => someEntry lib.parseCIDR p.ip networks
  | .hostname patterns => someEntry (fun host => lib.compile (caseless host)) p.hostname patterns
  | .name patterns => someEntry lib.compile p.name patterns
  | .client _ => false
  | .userInfo pair => entryMatches lib.compile (p.userinfoMap.at pair.property) pair.value

variable {lib p} {c : Criterion}

theorem someEntry_nil (parse : Bytes → Option (Bytes → Bool)) (subject : Bytes) :
    someEntry parse subject [] = false := rfl

theorem ruleExceptionMatch_only {ex : Exception} {now : Int} (only : ex.criteria = c.fields)
    (current : ex.Unexpired now) : ruleExceptionMatch lib now ex p = c.exceptionReads lib p := by
  obtain ⟨address, hostname, name, client, userInfo, expirationTime⟩ := ex
  rw [ruleExceptionMatch, if_neg current]
  cases c <;> cases only <;> simp [Criterion.exceptionReads, someEntry_nil]

theorem someEntry_asked (parse : Bytes → Option (Bytes → Bool)) (subject : Bytes)
    (entries : List Bytes) :
    (entries ≠ [] ∧ (entries ≠ [] → someEntry parse subject entries = true)) ↔
      someEntry parse subject entries = true := by
  cases entries with
  | nil => simp [someEntry_nil]
  | cons entry rest => simp

/-- With names alone, or with none, no name match can stand in for anything. -/
theorem covered_iff_meets {r : Rule} {t : Time} (alone : r.name = [] ∨ unmet lib p r t = 0) :
    Covered lib p r t ↔ MeetsEvaluated lib p r t := by
  rw [meetsEvaluated_iff, Covered]
  rcases alone with unnamed | met
  · rw [nameHits_of_absent lib p r unnamed, nameNeed, if_pos unnamed]
    omega
  · omega

theorem checkRule_only {r : Rule} {t : Time} {now : Int} (enabled : r.disabled = false)
    (current : expired r t = false) (only : r.CarriesOnly c) :
    (checkRule lib p r t now).1 = c.ruleReads lib p := by
  obtain ⟨fields, vpn, timespec, exception⟩ := only
  have limits : LimitsParse lib r := by simp [LimitsParse, timespec]
  have live : Live lib p r t now := ⟨enabled, current, limits, by simp [exception]⟩
  have address : r.address = c.fields.address := congrArg Criteria.address fields
  have hostname : r.hostname = c.fields.hostname := congrArg Criteria.hostname fields
  have name : r.name = c.fields.name := congrArg Criteria.name fields
  have userInfo : r.userInfo = c.fields.userInfo := congrArg Criteria.userInfo fields
  have alone : r.name = [] ∨ unmet lib p r t = 0 := by
    cases c with
    | name patterns =>
      right
      simp [unmet, honestParts, listPart, userInfoPart, limitPart, part, address, hostname, userInfo,
        vpn, timespec, Criterion.fields, Tally.deficit, Tally.missing, Tally.zero]
    | _ => exact .inl name
  rw [Bool.eq_iff_iff, checkRule_iff, covered_iff_meets alone]
  have meets : MeetsEvaluated lib p r t ↔
      (c.fields.address ≠ [] → SomeMatch lib.parseCIDR p.ip c.fields.address) ∧
      (c.fields.hostname ≠ [] →
        SomeMatch (fun host => lib.compile (caseless host)) p.hostname c.fields.hostname) ∧
      (c.fields.name ≠ [] →
        SomeMatch (fun name => lib.compile (caseless name)) p.name c.fields.name) ∧
      ∀ ui ∈ c.fields.userInfo, userinfoMatches lib ui p = true := by
    rw [← address, ← hostname, ← name, ← userInfo]
    constructor
    · rintro ⟨address, hostname, name, userInfo, -⟩
      exact ⟨address, hostname, name, userInfo⟩
    · rintro ⟨address, hostname, name, userInfo⟩
      exact ⟨address, hostname, name, userInfo, by simp [vpn], by simp [timespec],
        by simp [timespec], by simp [timespec]⟩
  simp only [live, true_and, Carries, address, hostname, name, userInfo, vpn, timespec, meets, ← someEntry_iff]
  cases c with
  | address networks => simpa [Criterion.fields, Criterion.ruleReads] using someEntry_asked _ p.ip networks
  | hostname patterns => simpa [Criterion.fields, Criterion.ruleReads] using someEntry_asked _ p.hostname patterns
  | name patterns => simpa [Criterion.fields, Criterion.ruleReads] using someEntry_asked _ p.name patterns
  | client patterns => simp [Criterion.fields, Criterion.ruleReads]
  | userInfo pair => simp [Criterion.fields, Criterion.ruleReads]

variable (lib p) in
/-- When rules and exceptions read the criterion alike. Name patterns are not to depend on
case, and a user_info pattern on a key the player does not have is not to accept the
empty string. -/
def Criterion.ReadAlike : Criterion → Prop
  | .name patterns =>
    SomeMatch lib.compile p.name patterns ↔
      SomeMatch (fun name => lib.compile (caseless name)) p.name patterns
  | .userInfo pair =>
    pair.property ∈ p.userinfoMap ∨ ∀ accepts, lib.compile pair.value = some accepts → accepts [] = false
  | _ => True

theorem userInfo_readAlike (pair : UserInfo) :
    entryMatches lib.compile (p.userinfoMap.at pair.property) pair.value = userinfoMatches lib pair p ↔
      pair.property ∈ p.userinfoMap ∨
        ∀ accepts, lib.compile pair.value = some accepts → accepts [] = false := by
  rw [userinfoMatches, userinfoMatchesIn_lookup lib pair _ p.userinfoMap.nodupKeys, StringMap.at]
  have same : p.userinfoMap.entries.dlookup pair.property = p.userinfoMap.lookup pair.property := rfl
  rw [same]
  cases found : p.userinfoMap.lookup pair.property with
  | some v =>
    have present : pair.property ∈ p.userinfoMap := AList.lookup_isSome.mp (by rw [found]; rfl)
    simp [present]
  | none =>
    have absent : pair.property ∉ p.userinfoMap := AList.lookup_eq_none.mp found
    cases parsed : lib.compile pair.value <;> simp [absent, entryMatches, parsed]

/-- A rule that carries the criterion and an exception that carries it agree on a player
exactly when the criterion is one they read alike. -/
theorem exception_agrees_iff {r : Rule} {ex : Exception} {t : Time} {now : Int}
    (enabled : r.disabled = false) (current : expired r t = false) (only : r.CarriesOnly c)
    (unexpired : ex.Unexpired now) (same : ex.criteria = c.fields) :
    (ruleExceptionMatch lib now ex p = true ↔ (checkRule lib p r t now).1 = true) ↔
      c.ReadAlike lib p := by
  rw [ruleExceptionMatch_only same unexpired, checkRule_only enabled current only]
  cases c with
  | address networks => exact iff_true_intro Iff.rfl
  | hostname patterns => exact iff_true_intro Iff.rfl
  | name patterns =>
    rw [Criterion.exceptionReads, Criterion.ruleReads, someEntry_iff, someEntry_iff]
    exact Iff.rfl
  | client patterns => exact iff_true_intro Iff.rfl
  | userInfo pair => exact Bool.eq_iff_iff.symm.trans (userInfo_readAlike pair)

end

def lower (b : Byte) : Byte := if 65 ≤ b.toNat ∧ b.toNat ≤ 90 then b + 32 else b

/-- Literal patterns, in which `(?i)` makes ASCII letters compare without case. -/
def foldingLib : RuleLib :=
  { literalLib with
    compile := fun pattern =>
      if (ascii "(?i)").isPrefixOf pattern then
        some fun s => contains (s.map lower) ((pattern.drop 4).map lower)
      else some fun s => contains s pattern }

theorem exception_agrees_iff_named :
    (ruleExceptionMatch foldingLib 0 { name := [ascii "cl"] } claire = true ↔
      (checkRule foldingLib claire { type := .ban, name := [ascii "cl"] } ⟨0, 0, 0⟩ 0).1 = true) ↔
      (Criterion.name [ascii "cl"]).ReadAlike foldingLib claire :=
  exception_agrees_iff rfl (by decide) ⟨rfl, rfl, rfl, rfl⟩ (by decide) rfl

/-- A ban that matches without regard to case, with an exception of the same spelling. -/
theorem exception_reads_case : ¬ ∀ (lib : RuleLib) (p : Player) (c : Criterion) (r : Rule) (ex : Exception)
    (t : Time) (now : Int), r.disabled = false → expired r t = false → r.CarriesOnly c →
    ex.Unexpired now → ex.criteria = c.fields →
    (ruleExceptionMatch lib now ex p = true ↔ (checkRule lib p r t now).1 = true) := by
  intro promised
  have agrees := promised foldingLib claire (.name [ascii "CLAIRE"]) { type := .ban, name := [ascii "CLAIRE"] }
    { name := [ascii "CLAIRE"] } ⟨0, 0, 0⟩ 0 rfl (by decide) ⟨rfl, rfl, rfl, rfl⟩ (by decide) rfl
  revert agrees
  decide

end Q2Admin
