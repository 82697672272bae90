import Q2Admin.RuleMatching

/-! What becomes of a verdict when the lists of a rule grow or are put in another order. A rule
is wider than another when it needs no more of the player and gets no less. -/

namespace Q2Admin
open Go Lib

section
variable (lib : RuleLib) (p : Player) (t : Time) (now : Int)

/-- Whatever `r` gets of the player, `r'` gets too. -/
structure Widens (r r' : Rule) : Prop where
  disabled : r'.disabled = r.disabled
  expirationTime : r'.expirationTime = r.expirationTime
  timespec : r'.timespec = r.timespec
  exempts : ∀ ex ∈ r'.exception, ruleExceptionMatch lib now ex p = true →
    ∃ other ∈ r.exception, ruleExceptionMatch lib now other p = true
  carries : Carries r → Carries r'
  unmet : Q2Admin.unmet lib p r' t ≤ Q2Admin.unmet lib p r t
  nameNeed : Q2Admin.nameNeed r' ≤ Q2Admin.nameNeed r
  nameHits : Q2Admin.nameHits lib p r ≤ Q2Admin.nameHits lib p r'

variable {lib p t now} {r r' : Rule}

theorem live_of_widens (wider : Widens lib p t now r r') (live : Live lib p r t now) : Live lib p r' t now where
  enabled := wider.disabled.trans live.enabled
  current := by
    rw [expired, wider.expirationTime]
    exact live.current
  limits := by
    rw [LimitsParse, wider.timespec]
    exact live.limits
  clear := by
    intro ex member
    by_contra exempt
    obtain ⟨other, member', matched⟩ := wider.exempts ex member (Bool.eq_true_of_not_eq_false exempt)
    have unmatched := live.clear other member'
    rw [matched] at unmatched
    cases unmatched

/-- A wider rule applies wherever the other does. -/
theorem checkRule_widens (wider : Widens lib p t now r r') (applies : (checkRule lib p r t now).1 = true) :
    (checkRule lib p r' t now).1 = true := by
  obtain ⟨live, carries, covered⟩ := (checkRule_iff lib p r t now).mp applies
  have covered' : Covered lib p r' t :=
    calc unmet lib p r' t + nameNeed r'
      _ ≤ unmet lib p r t + nameNeed r := Nat.add_le_add wider.unmet wider.nameNeed
      _ ≤ nameHits lib p r := covered
      _ ≤ nameHits lib p r' := wider.nameHits
  exact (checkRule_iff lib p r' t now).mpr ⟨live_of_widens wider live, wider.carries carries, covered'⟩

theorem checkRule_eq_of_widens (wider : Widens lib p t now r r') (narrower : Widens lib p t now r' r) :
    (checkRule lib p r' t now).1 = (checkRule lib p r t now).1 :=
  Bool.eq_iff_iff.mpr ⟨checkRule_widens narrower, checkRule_widens wider⟩

/-! ## The parts of a wider rule -/

theorem missing_part_le {present present' holds holds' : Bool} (asked : present' = true → present = true)
    (met : holds = true → holds' = true) : (part present' holds').missing ≤ (part present holds).missing := by
  cases present <;> cases present' <;> cases holds <;> cases holds' <;>
    simp_all [part, Tally.missing, Tally.zero]

theorem missing_listPart_le (parse : Bytes → Option (Bytes → Bool)) (subject : Bytes) {entries entries' : List Bytes}
    (asked : entries' ≠ [] → entries ≠ []) (kept : entries ⊆ entries') :
    (listPart parse subject entries').missing ≤ (listPart parse subject entries).missing := by
  apply missing_part_le
  · simpa using asked
  · intro found
    rw [someEntry, List.any_eq_true] at found ⊢
    obtain ⟨entry, member, matched⟩ := found
    exact ⟨entry, kept member, matched⟩

theorem missing_userInfoPart (lib : RuleLib) (p : Player) (pairs : r.userInfo.Perm r'.userInfo) :
    (userInfoPart lib p r').missing = (userInfoPart lib p r).missing := by
  simp only [userInfoPart, Tally.missing, pairs.length_eq, pairs.countP_eq]

/-- The lists of `r` with further entries and in any order, and with fewer exceptions. -/
structure Longer (r r' : Rule) : Prop where
  others : r' = { r with
    address := r'.address, hostname := r'.hostname, name := r'.name, userInfo := r'.userInfo,
    exception := r'.exception }
  address : r.address.Subperm r'.address
  hostname : r.hostname.Subperm r'.hostname
  name : r.name.Subperm r'.name
  userInfo : r.userInfo.Perm r'.userInfo
  exception : r'.exception ⊆ r.exception
  addressAsked : r'.address ≠ [] → r.address ≠ []
  hostnameAsked : r'.hostname ≠ [] → r.hostname ≠ []
  nameAsked : r'.name ≠ [] → r.name ≠ []

theorem Longer.vpn (longer : Longer r r') : r'.vpn = r.vpn := by rw [longer.others]

theorem Longer.timespec (longer : Longer r r') : r'.timespec = r.timespec := by rw [longer.others]

theorem ne_nil_of_subperm {α : Type} {entries entries' : List α} (kept : entries.Subperm entries')
    (present : entries ≠ []) : entries' ≠ [] := by
  have size := kept.length_le
  have some := List.length_pos_of_ne_nil present
  exact List.ne_nil_of_length_pos (Nat.lt_of_lt_of_le some size)

theorem unmet_le (longer : Longer r r') : unmet lib p r' t ≤ unmet lib p r t := by
  have networks := missing_listPart_le lib.parseCIDR p.ip longer.addressAsked longer.address.subset
  have hosts := missing_listPart_le (fun host => lib.compile (caseless host)) p.hostname
    longer.hostnameAsked longer.hostname.subset
  have pairs := missing_userInfoPart lib p longer.userInfo
  simp only [unmet, honestParts, Tally.deficit_cons, longer.vpn, longer.timespec]
  omega

theorem carries_of_longer (longer : Longer r r') (carries : Carries r) : Carries r' := by
  unfold Carries
  rw [longer.vpn, longer.timespec]
  rcases carries with h | h | h | h | h
  · exact .inl (ne_nil_of_subperm longer.address h)
  · exact .inr (.inl (ne_nil_of_subperm longer.hostname h))
  · exact .inr (.inr (.inl (ne_nil_of_subperm longer.name h)))
  · exact .inr (.inr (.inr (.inl (ne_nil_of_subperm longer.userInfo.subperm h))))
  · exact .inr (.inr (.inr (.inr h)))

theorem widens_of_longer (longer : Longer r r') : Widens lib p t now r r' where
  disabled := by rw [longer.others]
  expirationTime := by rw [longer.others]
  timespec := longer.timespec
  exempts := fun ex member matched => ⟨ex, longer.exception member, matched⟩
  carries := carries_of_longer longer
  unmet := unmet_le longer
  nameNeed := by
    unfold nameNeed
    by_cases asked : r'.name = []
    · rw [if_pos asked]
      exact Nat.zero_le _
    · rw [if_neg asked, if_neg (longer.nameAsked asked)]
  nameHits := longer.name.countP_le _

/-- The rule with its lists in another order. -/
structure Reordered (r r' : Rule) : Prop where
  others : r' = { r with
    address := r'.address, hostname := r'.hostname, name := r'.name, userInfo := r'.userInfo,
    exception := r'.exception }
  address : r.address.Perm r'.address
  hostname : r.hostname.Perm r'.hostname
  name : r.name.Perm r'.name
  userInfo : r.userInfo.Perm r'.userInfo
  exception : r.exception.Perm r'.exception

theorem Reordered.symm (reordered : Reordered r r') : Reordered r' r where
  others := by rw [reordered.others]
  address := reordered.address.symm
  hostname := reordered.hostname.symm
  name := reordered.name.symm
  userInfo := reordered.userInfo.symm
  exception := reordered.exception.symm

theorem Reordered.longer (reordered : Reordered r r') : Longer r r' where
  others := reordered.others
  address := reordered.address.subperm
  hostname := reordered.hostname.subperm
  name := reordered.name.subperm
  userInfo := reordered.userInfo
  exception := reordered.exception.symm.subset
  addressAsked := ne_nil_of_subperm reordered.address.symm.subperm
  hostnameAsked := ne_nil_of_subperm reordered.hostname.symm.subperm
  nameAsked := ne_nil_of_subperm reordered.name.symm.subperm

theorem subperm_append {α : Type} (entries : List α) (entry : α) : entries.Subperm (entries ++ [entry]) :=
  (List.sublist_append_left entries [entry]).subperm

theorem longer_refl (r : Rule) : Longer r r where
  others := rfl
  address := List.Subperm.refl _
  hostname := List.Subperm.refl _
  name := List.Subperm.refl _
  userInfo := List.Perm.refl _
  exception := List.Subset.refl _
  addressAsked := id
  hostnameAsked := id
  nameAsked := id

end

/-- Widening a rule widens it, exceptions only narrow it, and no order of entries counts. -/
theorem checkRule_widening (lib : RuleLib) (p : Player) (r : Rule) (t : Time) (now : Int) :
    ((checkRule lib p r t now).1 = true →
      (r.address ≠ [] → ∀ network,
        (checkRule lib p { r with address := r.address ++ [network] } t now).1 = true) ∧
      (r.hostname ≠ [] → ∀ pattern,
        (checkRule lib p { r with hostname := r.hostname ++ [pattern] } t now).1 = true) ∧
      (r.name ≠ [] → ∀ pattern,
        (checkRule lib p { r with name := r.name ++ [pattern] } t now).1 = true)) ∧
    ((checkRule lib p r t now).1 = false → ∀ ex,
      (checkRule lib p { r with exception := r.exception ++ [ex] } t now).1 = false) ∧
    ∀ r', Reordered r r' → (checkRule lib p r' t now).1 = (checkRule lib p r t now).1 := by
  have same := longer_refl r
  refine ⟨fun applies => ⟨fun present network => ?_, fun present pattern => ?_, fun present pattern => ?_⟩,
    fun fails ex => ?_, fun r' reordered => ?_⟩
  · exact checkRule_widens (widens_of_longer { same with
      others := rfl
      address := subperm_append r.address network
      addressAsked := fun _ => present }) applies
  · exact checkRule_widens (widens_of_longer { same with
      others := rfl
      hostname := subperm_append r.hostname pattern
      hostnameAsked := fun _ => present }) applies
  · exact checkRule_widens (widens_of_longer { same with
      others := rfl
      name := subperm_append r.name pattern
      nameAsked := fun _ => present }) applies
  · by_contra applies
    -- without the exception the rule is the wider one
    have wider : Longer { r with exception := r.exception ++ [ex] } r := { same with
      others := rfl
      exception := List.subset_append_left _ _ }
    rw [checkRule_widens (widens_of_longer wider) (Bool.eq_true_of_not_eq_false applies)] at fails
    cases fails
  · exact checkRule_eq_of_widens (widens_of_longer reordered.longer) (widens_of_longer reordered.symm.longer)

end Q2Admin
