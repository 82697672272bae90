import Q2Admin.Lib.Grouping
import Q2Admin.RuleActions

/-! `SortRules` sorts by severity and is stable. `CheckRules` goes through the rules in that order,
and what it does to the player on the way decides nothing. -/

namespace Q2Admin
open Go Lib

/-- Bans before mutes, mutes before stifles, stifles before messages. -/
def RuleType.severity : RuleType → Nat
  | ban => 3
  | mute => 2
  | stifle => 1
  | message => 0

/-- The same rules by severity, those of a type in the order they had. -/
structure SeveritySort (rules sorted : List Rule) : Prop where
  perm : sorted.Perm rules
  ordered : sorted.Pairwise fun r s => s.type.severity ≤ r.type.severity
  stable : ∀ type, ofType type sorted = ofType type rules

/-! ## The sort -/

def ruleTypes : List RuleType := [.ban, .mute, .stifle, .message]

theorem mem_ruleTypes (type : RuleType) : type ∈ ruleTypes := by
  cases type <;> decide

theorem sortRules_eq (rules : List Rule) : sortRules rules = Grouping.grouped Rule.type ruleTypes rules := by
  show _ = ofType .ban rules ++ (ofType .mute rules ++ (ofType .stifle rules ++ (ofType .message rules ++ [])))
  rw [sortRules, List.append_nil, List.append_assoc, List.append_assoc]

/-- Sorting loses no rule and doubles none. -/
theorem sortRules_perm (rules : List Rule) : (sortRules rules).Perm rules := by
  rw [sortRules_eq]
  exact Grouping.grouped_perm (by decide) fun r _ => mem_ruleTypes r.type

theorem severitySort_sortRules (rules : List Rule) : SeveritySort rules (sortRules rules) where
  perm := sortRules_perm rules
  ordered := by
    rw [sortRules_eq]
    exact Grouping.grouped_pairwise (r := fun k k' : RuleType => k'.severity ≤ k.severity) (fun _ => le_rfl) (by decide)
  stable type := by
    rw [sortRules_eq]
    exact Grouping.filter_grouped (by decide) (mem_ruleTypes type)

theorem sortRules_sortRules (rules : List Rule) : sortRules (sortRules rules) = sortRules rules := by
  rw [sortRules_eq, sortRules_eq]
  exact Grouping.grouped_grouped (by decide)

/-! ## The rules that apply -/

section
variable (lib : RuleLib) (t : Time) (now : Int) (p : Player)

/-- At one instant the rules that apply are sorted like the ruleset. -/
theorem checkRules_sorted (rules : List Rule) : (checkRules lib (fun _ => (t, now)) rules p).1 =
    sortRules (rules.filter fun r => (checkRule lib p r t now).1) := by
  rw [checkRules_instant, sortRules_eq, sortRules_eq]
  exact Grouping.filter_of_grouped _

/-- The order of the ruleset decides nothing but the order of the rules of a type. -/
theorem severity_sort (rules other : List Rule) (reordered : other.Perm rules) :
    SeveritySort rules (sortRules rules) ∧ sortRules (sortRules rules) = sortRules rules ∧
      SeveritySort (rules.filter fun r => (checkRule lib p r t now).1) (checkRules lib (fun _ => (t, now)) rules p).1 ∧
      (checkRules lib (fun _ => (t, now)) other p).1.Perm (checkRules lib (fun _ => (t, now)) rules p).1 := by
  rw [checkRules_sorted, checkRules_sorted]
  have applies := reordered.filter fun r => (checkRule lib p r t now).1
  exact ⟨severitySort_sortRules rules, sortRules_sortRules rules, severitySort_sortRules _,
    (sortRules_perm _).trans (applies.trans (sortRules_perm _).symm)⟩

end

/-- The bans of the visitor stay in their order, and come before the message. -/
theorem severity_sort_barred :
    SeveritySort barred (sortRules barred) ∧ sortRules (sortRules barred) = sortRules barred ∧
      SeveritySort (barred.filter fun r => (checkRule literalLib visitor r (noon 0).1 (noon 0).2).1)
        (checkRules literalLib (fun _ => ((noon 0).1, (noon 0).2)) barred visitor).1 ∧
      (checkRules literalLib (fun _ => ((noon 0).1, (noon 0).2)) barred.reverse visitor).1.Perm
        (checkRules literalLib (fun _ => ((noon 0).1, (noon 0).2)) barred visitor).1 :=
  severity_sort literalLib (noon 0).1 (noon 0).2 visitor barred barred.reverse (List.reverse_perm barred)

end Q2Admin
