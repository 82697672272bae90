import Q2Admin.Outgoing
import Q2Admin.RuleMatching

/-! `CheckRules`, `SortRules` and `ApplyMatchedRules` of `backend/rules.go`: which rules of a
ruleset apply to a player, and what is done about them. -/

namespace Q2Admin
open Go Lib

/-! ## The rules that apply -/

def ofType (type : RuleType) (rules : List Rule) : List Rule := rules.filter fun r => r.type = type

/-- `SortRules`: bans, mutes, stifles and messages, each in the order of the list. -/
def sortRules (rules : List Rule) : List Rule :=
  ofType .ban rules ++ ofType .mute rules ++ ofType .stifle rules ++ ofType .message rules

/-- A turn of the loop over the rules: the rule, and the two clocks `CheckRule` reads. -/
structure Check where
  rule : Rule
  t : Time
  now : Int

/-- The loop of `CheckRules`: the rules that apply, and the player as it is left. -/
def checkEach (lib : RuleLib) : List Check → Player → List Rule × Player
  | [], p => ([], p)
  | c :: rest, p =>
    let (applies, p) := checkRule lib p c.rule c.t c.now
    let (rules, p) := checkEach lib rest p
    (if applies then c.rule :: rules else rules, p)

/-- The turns of the loop, with the clock as it is read in each of them. -/
def checksOf (clock : Nat → Time × Int) (ruleset : List Rule) : List Check :=
  (sortRules ruleset).zipIdx.map fun (r, k) => ⟨r, (clock k).1, (clock k).2⟩

/-- `CheckRules`. -/
def checkRules (lib : RuleLib) (clock : Nat → Time × Int) (ruleset : List Rule) (p : Player) :
    List Rule × Player :=
  checkEach lib (checksOf clock ruleset) p

/-! ## What is done about them -/

/-- `ApplyMatchedRules` up to its last line, on the player and its frontend. -/
def applyRules (q2 : Libq2) : List Rule → Player × Frontend → Player × Frontend
  | [], s => s
  | r :: rest, (p, fe) =>
    match r.type with
    | .ban => (p, kickPlayer q2 p (join r.message (ascii "\n")) fe)
    | .mute =>
      let p := { p with muted := true }
      let fe := sayPlayer q2 (some p) printChat (join r.message (ascii " ")) fe
      applyRules q2 rest (p, mutePlayer q2 p (-1) fe)
    | .stifle =>
      if p.muted then applyRules q2 rest (p, fe)
      else
        let p := { p with stifled := true, stifleLength := r.stifleLength }
        let fe := sayPlayer q2 (some p) printChat (ascii "You're stifled") fe
        applyRules q2 rest (p, mutePlayer q2 p p.stifleLength fe)
    | .message =>
      applyRules q2 rest (p, sayPlayer q2 (some p) printChat (join r.message (ascii " ")) fe)

/-- `ApplyMatchedRules` for the player in a slot. -/
def applyMatchedRules (pf : Platform) (i slot : Nat) (rules : List Rule) (w : World) :
    Except Fault World :=
  if rules = [] then .ok w
  else
    let (p, fe) := applyRules pf.q2 rules ((w.fe i).player slot, w.fe i)
    sendMessages pf i (w.update i fun _ => { fe with players := fe.players.set slot p })

/-! ## The player is marked

`CheckRule` reads none of the fields it writes, so a run over many rules comes apart into the
verdicts and the marks. -/

/-- The fields of a player that `CheckRule` writes. -/
structure Marks where
  muted : Bool
  stifled : Bool
  stifleLength : Int
  deriving DecidableEq

def Player.withMarks (p : Player) (m : Marks) : Player :=
  { p with muted := m.muted, stifled := m.stifled, stifleLength := m.stifleLength }

def Marks.add (m : Marks) (r : Rule) : Marks :=
  match r.type with
  | .stifle => { m with stifled := true, stifleLength := r.stifleLength }
  | .mute => { m with muted := true }
  | _ => m

namespace Check
variable (lib : RuleLib) (p : Player) (c : Check)

/-- The counters after all blocks, unless the rule is off or a limit does not parse. -/
def counted : Option Counters :=
  if c.rule.disabled || expired c.rule c.t then none else countCriteria lib p c.rule c.t

/-- Some criterion of the rule is met, whatever becomes of the others. -/
def touches : Bool := (c.counted lib p).any (·.matched)

/-- As many criteria are met as have to be. -/
def meets : Bool := (c.counted lib p).any fun counters => counters.needs ≤ counters.haves

def exempts : Bool := c.rule.exception.any (ruleExceptionMatch lib c.now · p)

def applies : Bool := c.touches lib p && c.meets lib p && !c.exempts lib p

/-- The rule is in force, and the player meets some criterion of it. -/
def Grazes : Prop := InForce lib c.rule c.t ∧ MeetsSome lib p c.rule c.t

/-- Nothing stops the rule, and its matching names make up for what the player does not meet. -/
def GetsThrough : Prop :=
  Live lib p c.rule c.t c.now ∧ Carries c.rule ∧ Covered lib p c.rule c.t

end Check

theorem checkRule_eq (lib : RuleLib) (p : Player) (c : Check) : checkRule lib p c.rule c.t c.now =
    (c.applies lib p, if c.touches lib p then markPlayer p c.rule else p) := by
  unfold checkRule Check.applies Check.touches Check.meets Check.exempts Check.counted
  by_cases disabled : c.rule.disabled = true
  · simp [disabled]
  by_cases old : expired c.rule c.t = true
  · simp [disabled, old]
  cases countCriteria lib p c.rule c.t with
  | none => simp [disabled, old]
  | some counters => simp [disabled, old]

section
variable (lib : RuleLib) (p : Player) (m : Marks)

theorem userInfoLoop_marks (pairs : List UserInfo) (c : Counters) :
    userInfoLoop lib (p.withMarks m) pairs c = userInfoLoop lib p pairs c := by
  induction pairs generalizing c with
  | nil => rfl
  | cons ui rest ih => exact ih _

theorem countCriteria_marks (r : Rule) (t : Time) :
    countCriteria lib (p.withMarks m) r t = countCriteria lib p r t := by
  have pairs : userInfoBlock lib (p.withMarks m) r = userInfoBlock lib p r := by
    funext c
    unfold userInfoBlock
    rw [userInfoLoop_marks]
  unfold countCriteria
  rw [pairs]
  rfl

theorem markPlayer_marks (r : Rule) : markPlayer (p.withMarks m) r = p.withMarks (m.add r) := by
  unfold markPlayer Marks.add
  cases r.type <;> rfl

theorem checkRule_marks (c : Check) : checkRule lib (p.withMarks m) c.rule c.t c.now =
    (c.applies lib p, p.withMarks (if c.touches lib p then m.add c.rule else m)) := by
  have same : c.counted lib (p.withMarks m) = c.counted lib p := by
    unfold Check.counted
    rw [countCriteria_marks]
  rw [checkRule_eq, Check.applies, Check.touches, Check.meets, same, markPlayer_marks]
  cases touches : (c.counted lib p).any (·.matched) with
  | true => simp only [Check.applies, Check.touches, Check.meets, touches]; rfl
  | false => simp only [Check.applies, Check.touches, Check.meets, touches]; rfl

/-- The marks left behind by the turns of the loop. -/
def marksAfter (checks : List Check) (m : Marks) : Marks :=
  checks.foldl (fun m c => if c.touches lib p then m.add c.rule else m) m

theorem checkEach_eq (checks : List Check) : checkEach lib checks (p.withMarks m) =
    ((checks.filter fun c => c.applies lib p).map Check.rule, p.withMarks (marksAfter lib p checks m)) := by
  induction checks generalizing m with
  | nil => rfl
  | cons c rest ih =>
    simp only [checkEach, checkRule_marks, ih, marksAfter, List.foldl_cons, List.filter_cons]
    cases c.applies lib p <;> rfl

theorem applies_touches {c : Check} (applies : c.applies lib p = true) : c.touches lib p = true := by
  simp only [Check.applies, Bool.and_eq_true] at applies
  exact applies.1.1

theorem muted_marksAfter (checks : List Check) : (marksAfter lib p checks m).muted = true ↔
    m.muted = true ∨ ∃ c ∈ checks, c.rule.type = .mute ∧ c.touches lib p = true := by
  induction checks generalizing m with
  | nil => simp [marksAfter]
  | cons c rest ih =>
    show (marksAfter lib p rest _).muted = true ↔ _
    rw [ih]
    by_cases touched : c.touches lib p = true
    · cases type : c.rule.type <;> simp [touched, type, Marks.add]
    · simp [touched]

theorem stifled_marksAfter (checks : List Check) : (marksAfter lib p checks m).stifled = true ↔
    m.stifled = true ∨ ∃ c ∈ checks, c.rule.type = .stifle ∧ c.touches lib p = true := by
  induction checks generalizing m with
  | nil => simp [marksAfter]
  | cons c rest ih =>
    show (marksAfter lib p rest _).stifled = true ↔ _
    rw [ih]
    by_cases touched : c.touches lib p = true
    · cases type : c.rule.type <;> simp [touched, type, Marks.add]
    · simp [touched]

/-- The last stifle of which some criterion is met. -/
def lastStifle (checks : List Check) : Option Check :=
  checks.reverse.find? fun c => c.rule.type = .stifle && c.touches lib p

/-- The check is of a stifle in force with a criterion that is met, and no later one is. -/
def LastGrazing (checks : List Check) (c : Check) : Prop :=
  ∃ front back, checks = front ++ c :: back ∧ c.rule.type = .stifle ∧ c.Grazes lib p ∧
    ∀ d ∈ back, d.rule.type = .stifle → ¬ d.Grazes lib p

/-- Every such stifle overwrites the length of the one before. -/
theorem stifleLength_marksAfter (checks : List Check) : (marksAfter lib p checks m).stifleLength =
    (lastStifle lib p checks).elim m.stifleLength fun c => c.rule.stifleLength := by
  induction checks generalizing m with
  | nil => rfl
  | cons c rest ih =>
    show (marksAfter lib p rest _).stifleLength = _
    rw [ih, lastStifle, lastStifle, List.reverse_cons, List.find?_append]
    cases rest.reverse.find? fun c => c.rule.type = .stifle && c.touches lib p with
    | some d => rfl
    | none =>
      by_cases touched : c.touches lib p = true
      · cases type : c.rule.type <;> simp [touched, type, Marks.add, List.find?]
      · simp [touched, List.find?]

theorem touches_iff (c : Check) : c.touches lib p = true ↔ c.Grazes lib p := by
  unfold Check.touches Check.counted Check.Grazes
  by_cases disabled : c.rule.disabled = true
  · simpa [disabled] using fun force : InForce lib c.rule c.t => absurd disabled (by simp [force.enabled])
  by_cases old : expired c.rule c.t = true
  · simpa [old] using fun force : InForce lib c.rule c.t => absurd old (by simp [force.current])
  by_cases limits : LimitsParse lib c.rule
  · obtain ⟨counters, counted, -, -, matched⟩ := countCriteria_eq lib p c.rule c.t limits
    have force : InForce lib c.rule c.t := ⟨by simpa using disabled, by simpa using old, limits⟩
    simp [disabled, old, counted, matched, force, meetsSome_iff]
  · have stopped : ¬ InForce lib c.rule c.t := fun force => limits force.limits
    simp [countCriteria_none lib p c.rule c.t limits, stopped]

theorem applies_iff (c : Check) : c.applies lib p = true ↔ c.GetsThrough lib p := by
  rw [Check.GetsThrough, ← checkRule_iff, checkRule_eq]

theorem lastStifle_eq_some_iff (checks : List Check) (c : Check) :
    lastStifle lib p checks = some c ↔ LastGrazing lib p checks c := by
  simp only [lastStifle, List.find?_eq_some_iff_append, Bool.and_eq_true, decide_eq_true_eq, touches_iff,
    Bool.not_eq_true', Bool.and_eq_false_iff, decide_eq_false_iff_not]
  constructor
  · rintro ⟨⟨type, grazes⟩, later, earlier, split, none⟩
    have order : checks = earlier.reverse ++ c :: later.reverse := by
      rw [← List.reverse_reverse checks, split]
      simp
    refine ⟨earlier.reverse, later.reverse, order, type, grazes, fun d member stifle grazed => ?_⟩
    have touched := (touches_iff lib p d).mpr grazed
    rcases none d (List.mem_reverse.mp member) with other | apart
    · exact other stifle
    · rw [touched] at apart
      cases apart
  · rintro ⟨front, back, rfl, type, grazes, none⟩
    refine ⟨⟨type, grazes⟩, back.reverse, front.reverse, by simp, fun d member => ?_⟩
    by_cases stifle : d.rule.type = .stifle
    · right
      rw [Bool.eq_false_iff]
      exact fun touched => none d (List.mem_reverse.mp member) stifle ((touches_iff lib p d).mp touched)
    · exact .inl stifle

theorem lastStifle_isSome_iff (checks : List Check) : (∃ c, lastStifle lib p checks = some c) ↔
    ∃ c ∈ checks, c.rule.type = .stifle ∧ c.touches lib p = true := by
  rw [← Option.isSome_iff_exists, lastStifle, List.find?_isSome]
  simp

end

/-! ## Rules that do not apply -/

/-- The marks of the player are those of the rules that apply. -/
structure Traceless (rules : List Rule) (p : Player) : Prop where
  muted : p.muted = true ↔ ∃ r ∈ rules, r.type = .mute
  stifled : p.stifled = true ↔ ∃ r ∈ rules, r.type = .stifle
  stifleLength : p.stifled = true → ∃ r ∈ rules, r.type = .stifle ∧ p.stifleLength = r.stifleLength

section
variable (lib : RuleLib) (clock : Nat → Time × Int) (ruleset : List Rule) {p : Player}

theorem checkRules_eq (p : Player) : checkRules lib clock ruleset p =
    (((checksOf clock ruleset).filter fun c => c.applies lib p).map Check.rule,
      p.withMarks (marksAfter lib p (checksOf clock ruleset) ⟨p.muted, p.stifled, p.stifleLength⟩)) :=
  checkEach_eq lib p ⟨p.muted, p.stifled, p.stifleLength⟩ _

theorem returned_iff (type : RuleType) (p : Player) :
    (∃ r ∈ (checkRules lib clock ruleset p).1, r.type = type) ↔
      ∃ c ∈ checksOf clock ruleset, c.rule.type = type ∧ c.applies lib p = true := by
  rw [checkRules_eq]
  simp only [List.mem_map, List.mem_filter]
  constructor
  · rintro ⟨_, ⟨c, ⟨member, applies⟩, rfl⟩, same⟩
    exact ⟨c, member, same, applies⟩
  · rintro ⟨c, member, same, applies⟩
    exact ⟨_, ⟨c, ⟨member, applies⟩, rfl⟩, same⟩

theorem checkRules_muted_iff (unmuted : p.muted = false) : (checkRules lib clock ruleset p).2.muted = true ↔
    ∃ c ∈ checksOf clock ruleset, c.rule.type = .mute ∧ c.touches lib p = true := by
  rw [checkRules_eq]
  show (marksAfter lib p _ _).muted = true ↔ _
  simp only [muted_marksAfter, unmuted, Bool.false_eq_true, false_or]

theorem checkRules_stifled_iff (unstifled : p.stifled = false) :
    (checkRules lib clock ruleset p).2.stifled = true ↔
      ∃ c, lastStifle lib p (checksOf clock ruleset) = some c := by
  rw [checkRules_eq, lastStifle_isSome_iff]
  show (marksAfter lib p _ _).stifled = true ↔ _
  simp only [stifled_marksAfter, unstifled, Bool.false_eq_true, false_or]

theorem checkRules_stifleLength {c : Check} (last : lastStifle lib p (checksOf clock ruleset) = some c) :
    (checkRules lib clock ruleset p).2.stifleLength = c.rule.stifleLength := by
  rw [checkRules_eq]
  show (marksAfter lib p _ _).stifleLength = _
  rw [stifleLength_marksAfter, last]
  rfl

theorem traceless_iff_touches (unmuted : p.muted = false) (unstifled : p.stifled = false) :
    Traceless (checkRules lib clock ruleset p).1 (checkRules lib clock ruleset p).2 ↔
      ((∃ c ∈ checksOf clock ruleset, c.rule.type = .mute ∧ c.touches lib p = true) →
        ∃ c ∈ checksOf clock ruleset, c.rule.type = .mute ∧ c.applies lib p = true) ∧
      ∀ c, lastStifle lib p (checksOf clock ruleset) = some c →
        ∃ d ∈ checksOf clock ruleset, d.rule.type = .stifle ∧ d.applies lib p = true ∧
          d.rule.stifleLength = c.rule.stifleLength := by
  have muted := checkRules_muted_iff lib clock ruleset unmuted
  have stifled := checkRules_stifled_iff lib clock ruleset unstifled
  constructor
  case mp =>
    intro traceless
    constructor
    · intro touched
      exact (returned_iff lib clock ruleset .mute p).mp (traceless.muted.mp (muted.mpr touched))
    · intro c last
      obtain ⟨r, member, type, same⟩ := traceless.stifleLength (stifled.mpr ⟨c, last⟩)
      rw [checkRules_eq] at member
      obtain ⟨d, chosen, rfl⟩ := List.mem_map.mp member
      obtain ⟨there, applies⟩ := List.mem_filter.mp chosen
      rw [checkRules_stifleLength lib clock ruleset last] at same
      exact ⟨d, there, type, applies, same.symm⟩
  case mpr =>
    rintro ⟨mutes, stifles⟩
    constructor
    case muted =>
      rw [muted, returned_iff]
      constructor
      · exact mutes
      · rintro ⟨c, member, type, applies⟩
        exact ⟨c, member, type, applies_touches lib p applies⟩
    case stifled =>
      rw [stifled, returned_iff]
      constructor
      · rintro ⟨c, last⟩
        obtain ⟨d, member, type, applies, -⟩ := stifles c last
        exact ⟨d, member, type, applies⟩
      · rintro ⟨c, member, type, applies⟩
        exact (lastStifle_isSome_iff lib p _).mpr ⟨c, member, type, applies_touches lib p applies⟩
    case stifleLength =>
      intro marked
      obtain ⟨c, last⟩ := stifled.mp marked
      obtain ⟨d, member, type, applies, same⟩ := stifles c last
      refine ⟨d.rule, ?_, type, ?_⟩
      · rw [checkRules_eq]
        exact List.mem_map.mpr ⟨d, List.mem_filter.mpr ⟨member, applies⟩, rfl⟩
      · rw [checkRules_stifleLength lib clock ruleset last, same]

/-- Rules that do not apply leave no trace exactly if none of them is met in a part that would
show: when the player meets a criterion of some mute in force, some mute gets through; and the
last stifle in force with a criterion that is met is as long as a stifle that gets through. -/
theorem checkRules_traceless_iff (unmuted : p.muted = false) (unstifled : p.stifled = false) :
    Traceless (checkRules lib clock ruleset p).1 (checkRules lib clock ruleset p).2 ↔
      ((∃ c ∈ checksOf clock ruleset, c.rule.type = .mute ∧ c.Grazes lib p) →
        ∃ c ∈ checksOf clock ruleset, c.rule.type = .mute ∧ c.GetsThrough lib p) ∧
      ∀ c, LastGrazing lib p (checksOf clock ruleset) c →
        ∃ d ∈ checksOf clock ruleset, d.rule.type = .stifle ∧ d.GetsThrough lib p ∧
          d.rule.stifleLength = c.rule.stifleLength := by
  rw [traceless_iff_touches lib clock ruleset unmuted unstifled]
  simp only [touches_iff, applies_iff, lastStifle_eq_some_iff]

end

def visitor : Player := { clientID := 3, name := ascii "claire", ip := ascii "10.0.0.1", hostname := ascii "10.0.0.1" }

/-- A mute of anyone called claire at another address, and a stifle of claire with an
exception for her own. -/
def nearMisses : List Rule := [
  { type := .mute, address := [ascii "10.0.0.9/32"], name := [ascii "claire"] },
  { type := .stifle, stifleLength := 60, name := [ascii "claire"],
    exception := [{ address := [ascii "10.0.0.1/32"] }] }]

/-- A clock that stands still, at noon. -/
def noon (_ : Nat) : Time × Int := (⟨1728129600, 0, 0⟩, 1728129600)

theorem checkRules_traceless_claire :
    Traceless (checkRules literalLib noon nearMisses visitor).1 (checkRules literalLib noon nearMisses visitor).2 ↔
      ((∃ c ∈ checksOf noon nearMisses, c.rule.type = .mute ∧ c.Grazes literalLib visitor) →
        ∃ c ∈ checksOf noon nearMisses, c.rule.type = .mute ∧ c.GetsThrough literalLib visitor) ∧
      ∀ c, LastGrazing literalLib visitor (checksOf noon nearMisses) c →
        ∃ d ∈ checksOf noon nearMisses, d.rule.type = .stifle ∧ d.GetsThrough literalLib visitor ∧
          d.rule.stifleLength = c.rule.stifleLength :=
  checkRules_traceless_iff literalLib noon nearMisses rfl rfl

theorem nearMisses_marked : (checkRules literalLib noon nearMisses visitor).1 = [] ∧
    (checkRules literalLib noon nearMisses visitor).2.muted = true := by
  decide +kernel

theorem rules_leave_traces : ¬ ∀ (lib : RuleLib) (clock : Nat → Time × Int) (ruleset : List Rule)
    (p : Player), p.muted = false → p.stifled = false →
      Traceless (checkRules lib clock ruleset p).1 (checkRules lib clock ruleset p).2 := by
  intro traceless
  have claimed := (traceless literalLib noon nearMisses visitor rfl rfl).muted.mp nearMisses_marked.2
  rw [nearMisses_marked.1] at claimed
  simp at claimed

/-! ## Bans -/

/-- A message that throws somebody off the server. -/
def ServerMessage.Kicks (m : ServerMessage) : Prop := ∃ line, m = .command (ascii "kick " ++ line)

/-- What `ApplyMatchedRules` queues. -/
def rulesSay : List Rule → Player → List ServerMessage
  | [], _ => []
  | r :: rest, p =>
    let text := Says.toClient p (printLevel printChat)
    match r.type with
    | .ban => Says.kick p (join r.message (ascii "\n"))
    | .mute => text (join r.message (ascii " ")) ++ Says.mute p (-1) ++ rulesSay rest { p with muted := true }
    | .stifle =>
      if p.muted then rulesSay rest p
      else text (ascii "You're stifled") ++ Says.mute p r.stifleLength ++
        rulesSay rest { p with stifled := true, stifleLength := r.stifleLength }
    | .message => text (join r.message (ascii " ")) ++ rulesSay rest p

theorem says_applyRules (q2 : Libq2) (rules : List Rule) (p : Player) :
    Says (fun fe => (applyRules q2 rules (p, fe)).2) (rulesSay rules p) := by
  induction rules generalizing p with
  | nil => exact Says.nothing
  | cons r rest ih =>
    cases type : r.type with
    | ban =>
      simp only [applyRules, rulesSay, type]
      exact Says.kickPlayer q2 p _
    | mute =>
      simp only [applyRules, rulesSay, type]
      exact ((Says.sayPlayer q2 _ _ _).comp (Says.mutePlayer q2 _ _)).comp (ih _)
    | stifle =>
      by_cases muted : p.muted = true
      · simp only [applyRules, rulesSay, type, muted, ↓reduceIte]
        exact ih p
      · simp only [applyRules, rulesSay, type, muted, Bool.false_eq_true, ↓reduceIte]
        exact ((Says.sayPlayer q2 _ _ _).comp (Says.mutePlayer q2 _ _)).comp (ih _)
    | message =>
      simp only [applyRules, rulesSay, type]
      exact (Says.sayPlayer q2 _ _ _).comp (ih _)

theorem toClient_tame (p : Player) (level : Int) (text : Bytes) :
    ∀ m ∈ Says.toClient p level text, ¬ m.Kicks := by
  intro m member
  unfold Says.toClient at member
  split at member
  · cases member
  · rw [List.mem_singleton.mp member]
    rintro ⟨line, same⟩
    cases same

theorem mute_tame (p : Player) (seconds : Int) : ∀ m ∈ Says.mute p seconds, ¬ m.Kicks := by
  intro m member
  rw [List.mem_singleton.mp member]
  rintro ⟨line, same⟩
  have first := congrArg List.head? (ServerMessage.command.inj same)
  simp [ascii, charByte] at first

/-- Rules that are no bans queue messages and mutes. -/
theorem rulesSay_tame {rules : List Rule} (none : ∀ r ∈ rules, r.type ≠ .ban) (p : Player) :
    ∀ m ∈ rulesSay rules p, ¬ m.Kicks := by
  induction rules generalizing p with
  | nil => exact fun _ member => absurd member List.not_mem_nil
  | cons r rest ih =>
    have later := fun p => ih (fun other member => none other (List.mem_cons_of_mem _ member)) p
    cases type : r.type with
    | ban => exact absurd type (none r List.mem_cons_self)
    | mute =>
      simp only [rulesSay, type, List.forall_mem_append]
      exact ⟨⟨toClient_tame p _ _, mute_tame p _⟩, later _⟩
    | stifle =>
      by_cases muted : p.muted = true
      · simp only [rulesSay, type, muted, ↓reduceIte]
        exact later p
      · simp only [rulesSay, type, muted, Bool.false_eq_true, ↓reduceIte, List.forall_mem_append]
        exact ⟨⟨toClient_tame p _ _, mute_tame p _⟩, later _⟩
    | message =>
      simp only [rulesSay, type, List.forall_mem_append]
      exact ⟨toClient_tame p _ _, later _⟩

section
variable (q2 : Libq2) (lib : RuleLib) (t : Time) (now : Int) (ruleset : List Rule) (p : Player)

/-- The first ban of the ruleset that applies, at an instant. -/
def firstBan : Option Rule := ruleset.find? fun r => r.type = .ban && (checkRule lib p r t now).1

theorem checkRules_instant : (checkRules lib (fun _ => (t, now)) ruleset p).1 =
    (sortRules ruleset).filter fun r => (checkRule lib p r t now).1 := by
  have verdict : (fun r => (checkRule lib p r t now).1) = fun r => Check.applies lib p ⟨r, t, now⟩ := by
    funext r
    exact congrArg Prod.fst (checkRule_eq lib p ⟨r, t, now⟩)
  have rules : (sortRules ruleset).zipIdx.map Prod.fst = sortRules ruleset := List.zipIdx_map_fst ..
  rw [checkRules_eq, checksOf, List.filter_map, List.map_map, verdict]
  conv => rhs; rw [← rules, List.filter_map]
  rfl

theorem checkRules_ban {r : Rule} (banned : firstBan lib t now ruleset p = some r) :
    ∃ rest, (checkRules lib (fun _ => (t, now)) ruleset p).1 = r :: rest := by
  have bans : (ofType .ban ruleset).filter (fun r => (checkRule lib p r t now).1) =
      ruleset.filter fun r => r.type = .ban && (checkRule lib p r t now).1 := by
    rw [ofType, List.filter_filter]
    congr 1
    funext r
    rw [Bool.and_comm]
  obtain ⟨rest, split⟩ : ∃ rest, (ofType .ban ruleset).filter (fun r => (checkRule lib p r t now).1) =
      r :: rest := by
    rw [bans]
    rw [firstBan, ← List.head?_filter] at banned
    exact List.head?_eq_some_iff.mp banned
  rw [checkRules_instant, sortRules]
  simp only [List.filter_append, split, List.cons_append]
  exact ⟨_, rfl⟩

theorem checkRules_no_ban (free : firstBan lib t now ruleset p = none) :
    ∀ r ∈ (checkRules lib (fun _ => (t, now)) ruleset p).1, r.type ≠ .ban := by
  intro r member ban
  rw [checkRules_instant] at member
  obtain ⟨sorted, applies⟩ := List.mem_filter.mp member
  have there : r ∈ ruleset := by
    simp only [sortRules, List.mem_append, ofType, List.mem_filter] at sorted
    tauto
  have missed := List.find?_eq_none.mp free r there
  simp [ban, applies] at missed

/-- A ban wins: the first one that applies decides what the player is told and is the only
rule to be acted on, and without one the player stays. -/
theorem ban_wins {fe : Frontend} (atEnd : fe.messageOut.AtEnd) :
    let checked := checkRules lib (fun _ => (t, now)) ruleset p
    let queue := (applyRules q2 checked.1 (checked.2, fe)).2.messageOut
    match firstBan lib t now ruleset p with
    | some r => fe.messageOut.Appends (encodeServer (Says.kick p (join r.message (ascii "\n")))) queue
    | none => fe.messageOut.Appends (encodeServer (rulesSay checked.1 checked.2)) queue ∧
        ∀ m ∈ rulesSay checked.1 checked.2, ¬ m.Kicks := by
  intro checked queue
  cases banned : firstBan lib t now ruleset p with
  | some r =>
    obtain ⟨rest, first⟩ := checkRules_ban lib t now ruleset p banned
    have ban : r.type = .ban := by
      have chosen := List.find?_some banned
      simp only [Bool.and_eq_true, decide_eq_true_eq] at chosen
      exact chosen.1
    have kicked : (applyRules q2 checked.1 (checked.2, fe)).2 =
        kickPlayer q2 checked.2 (join r.message (ascii "\n")) fe := by
      simp only [checked, first, applyRules, ban]
    have marked : checked.2 = p.withMarks _ := congrArg Prod.snd (checkRules_eq lib _ ruleset p)
    simp only [queue]
    rw [kicked, marked]
    exact (Says.kickPlayer q2 _ _).appends fe atEnd
  | none =>
    exact ⟨(says_applyRules q2 checked.1 checked.2).appends fe atEnd,
      rulesSay_tame (checkRules_no_ban lib t now ruleset p banned) checked.2⟩

end

/-- A message for everybody, a ban of others, and two bans of the visitor. -/
def barred : List Rule := [
  { type := .message, name := [ascii "claire"], message := [ascii "hello"] },
  { type := .ban, name := [ascii "nobody"], message := [ascii "not you"] },
  { type := .ban, name := [ascii "claire"], message := [ascii "banned", ascii "for good"] },
  { type := .ban, address := [ascii "10.0.0.1/32"] }]

theorem barred_first : (firstBan literalLib (noon 0).1 (noon 0).2 barred visitor).map Rule.message =
    some [ascii "banned", ascii "for good"] := by
  decide +kernel

/-- The message of the second ban is the one that is read. -/
theorem ban_wins_visitor :
    (firstBan literalLib (noon 0).1 (noon 0).2 barred visitor).map Rule.message =
        some [ascii "banned", ascii "for good"] ∧
      let checked := checkRules literalLib (fun _ => ((noon 0).1, (noon 0).2)) barred visitor
      let queue := (applyRules Libq2.plain checked.1 (checked.2, {})).2.messageOut
      match firstBan literalLib (noon 0).1 (noon 0).2 barred visitor with
      | some r => ({} : Frontend).messageOut.Appends
          (encodeServer (Says.kick visitor (join r.message (ascii "\n")))) queue
      | none => ({} : Frontend).messageOut.Appends (encodeServer (rulesSay checked.1 checked.2)) queue ∧
          ∀ m ∈ rulesSay checked.1 checked.2, ¬ m.Kicks :=
  ⟨barred_first, ban_wins Libq2.plain literalLib (noon 0).1 (noon 0).2 barred visitor
    (show ({} : Frontend).messageOut.AtEnd from rfl)⟩

end Q2Admin
