import Q2Admin.Lib.Wildcard
import Q2Admin.Obituary

/-! Whom an obituary credits. The patterns of `CalculateDeath` are literals between wildcards, and
what the wildcards take in are names that players choose: a name can hold the phrase of another
pattern, or that of its own once more. -/

namespace Q2Admin
open Go Lib Wildcard

/-! ## The patterns -/

def newlineByte : Byte := charByte '\n'

/-- The characters that stand for themselves in a pattern. -/
def plainChar (b : Byte) : Bool := !(ascii "\\.+*?()|[]\x7b\x7d^$").contains b

/-- A wildcard at the front of a pattern, in a group or not. -/
def wildcardAt (pattern : Bytes) : Option (Bool × Bytes) :=
  if ascii "(.+)" <+: pattern then some (true, pattern.drop 4)
  else if ascii ".+" <+: pattern then some (false, pattern.drop 2)
  else none

/-- `regexp.Compile` of a pattern in which wildcards and literals take turns. -/
def compileWildcards : Nat → Bytes → Option (Pattern Byte)
  | _, [] => some []
  | 0, _ :: _ => none
  | fuel + 1, pattern =>
    match wildcardAt pattern with
    | none => none
    | some (captured, rest) =>
      let literal := rest.takeWhile plainChar
      (compileWildcards fuel (rest.drop literal.length)).map (⟨captured, literal⟩ :: ·)

/-- The groups of the leftmost match, the match itself being the first of them. -/
def wildcardSubmatch (pattern text : Bytes) : Option (Nat → Bytes) :=
  (compileWildcards pattern.length pattern).bind fun pieces =>
    (search newlineByte pieces text).map fun fills n => (render pieces fills :: captures pieces fills).getD n []

namespace ObitTest

def pattern (t : ObitTest) : Pattern Byte :=
  (compileWildcards (ascii t.matchstr).length (ascii t.matchstr)).getD []

/-- The literal behind the victim. -/
def phrase (t : ObitTest) : Bytes :=
  match t.pattern with
  | piece :: _ => piece.literal
  | [] => []

/-- The obituary of this form. -/
def obituary (t : ObitTest) (fills : List Bytes) : Bytes := render t.pattern fills

/-- The form is found in a text: its phrase with something in front of it, and so on. -/
def FoundIn (t : ObitTest) (text : Bytes) : Prop := Legible newlineByte t.pattern text

instance (t : ObitTest) (text : Bytes) : Decidable (t.FoundIn text) :=
  inferInstanceAs (Decidable (Legible _ _ _))

end ObitTest

/-- The tables, gone through once. -/
theorem tables_checked : (∀ t ∈ duo ++ solo,
    (compileWildcards (ascii t.matchstr).length (ascii t.matchstr) = some t.pattern ∧
      t.pattern.head? = some ⟨true, t.phrase⟩) ∧ ∀ piece ∈ t.pattern, newlineByte ∉ piece.literal) ∧
    ∀ t ∈ duo, t.pattern.tail.map Piece.captured = [true] := by decide +kernel

/-- All patterns are in the fragment, and start with the victim. -/
theorem patterns_compile (t : ObitTest) (form : t ∈ duo ++ solo) :
    compileWildcards (ascii t.matchstr).length (ascii t.matchstr) = some t.pattern ∧
    t.pattern.head? = some ⟨true, t.phrase⟩ := (tables_checked.1 t form).1

/-- Those of two also capture the murderer, and end in a literal. -/
theorem duo_patterns (t : ObitTest) (form : t ∈ duo) : t.pattern.tail.map Piece.captured = [true] :=
  tables_checked.2 t form

/-- No literal breaks the line. -/
theorem literals_whole (t : ObitTest) (form : t ∈ duo ++ solo) :
    ∀ piece ∈ t.pattern, newlineByte ∉ piece.literal := (tables_checked.1 t form).2

/-- Two forms of one means of death do not go on alike behind the victim. -/
theorem phrases_differ : (duo ++ solo).Pairwise fun s t => s.mod = t.mod →
    ¬ s.phrase <+: t.phrase ∧ ¬ t.phrase <+: s.phrase := by decide +kernel

/-! ## The first form that is found -/

section
variable {submatch : Bytes → Bytes → Option (Nat → Bytes)} {obit : Bytes}

theorem firstObit_append (front back : List ObitTest) : firstObit submatch obit (front ++ back) =
    (firstObit submatch obit front).or (firstObit submatch obit back) := by
  induction front with
  | nil => rfl
  | cons t front ih =>
    rw [List.cons_append, firstObit, firstObit]
    cases submatch (ascii t.matchstr) obit with
    | some groups => rfl
    | none => exact ih

theorem firstObit_none {tests : List ObitTest} :
    firstObit submatch obit tests = none ↔ ∀ t ∈ tests, submatch (ascii t.matchstr) obit = none := by
  induction tests with
  | nil => simp [firstObit]
  | cons t tests ih =>
    rw [firstObit, List.forall_mem_cons, ← ih]
    cases submatch (ascii t.matchstr) obit <;> simp

end

section
variable {t : ObitTest} {text : Bytes}

theorem pattern_cons (form : t ∈ duo ++ solo) : t.pattern = ⟨true, t.phrase⟩ :: t.pattern.tail := by
  have head := (patterns_compile t form).2
  cases shape : t.pattern with
  | nil =>
    rw [shape] at head
    cases head
  | cons piece pieces =>
    rw [shape] at head
    cases Option.some.inj head
    rfl

theorem wildcardSubmatch_eq (form : t ∈ duo ++ solo) : wildcardSubmatch (ascii t.matchstr) text =
    (search newlineByte t.pattern text).map fun fills n =>
      (render t.pattern fills :: captures t.pattern fills).getD n [] := by
  rw [wildcardSubmatch, (patterns_compile t form).1, Option.bind_some]

theorem wildcardSubmatch_none (form : t ∈ duo ++ solo) (whole : newlineByte ∉ text) :
    wildcardSubmatch (ascii t.matchstr) text = none ↔ ¬ t.FoundIn text := by
  rw [wildcardSubmatch_eq form, Option.map_eq_none_iff, ObitTest.FoundIn, pattern_cons form, search_eq whole,
    matchStart_none]

/-- The first group of a form that is found, which its phrase stands behind. -/
theorem wildcardSubmatch_first (form : t ∈ duo ++ solo) (whole : newlineByte ∉ text) {groups : Nat → Bytes}
    (found : wildcardSubmatch (ascii t.matchstr) text = some groups) :
    groups 1 ++ t.phrase <+: text ∧ ∃ more, search newlineByte t.pattern text = some (groups 1 :: more) := by
  rw [wildcardSubmatch_eq form, Option.map_eq_some_iff] at found
  obtain ⟨fills, searched, rfl⟩ := found
  rw [pattern_cons form, search_eq whole] at searched
  obtain ⟨fill, more, rfl, -, ⟨rest, -, -, same, -⟩, -⟩ := matchStart_cons searched
  have first : captures t.pattern (fill :: more) = fill :: captures t.pattern.tail more := by
    rw [pattern_cons form]
    rfl
  have group : (fun n =>
      (render t.pattern (fill :: more) :: captures t.pattern (fill :: more)).getD n []) 1 = fill := by
    rw [first]
    rfl
  rw [group, pattern_cons form, search_eq whole]
  exact ⟨⟨rest, by rw [same, List.append_assoc]⟩, more, searched⟩

end

/-! ## The credit -/

section
variable (fe : Frontend)

/-- A player in use whose name can stand in an obituary and is nobody else's. -/
structure Nameable (slot : Nat) : Prop where
  inside : slot < fe.players.length
  used : (fe.player slot).inUse = true
  named : (fe.player slot).name ≠ []
  whole : newlineByte ∉ (fe.player slot).name
  only : ∀ other < fe.players.length, other ≠ slot → (fe.player other).name ≠ (fe.player slot).name

variable {fe} {slot : Nat}

theorem findPlayerByName_iff (nameable : Nameable fe slot) (name : Bytes) :
    fe.findPlayerByName name = some slot ↔ name = (fe.player slot).name := by
  unfold Frontend.findPlayerByName
  rw [List.findIdx?_eq_some_iff_getElem]
  constructor
  · rintro ⟨inside, same, -⟩
    rw [Frontend.player_eq_getElem inside]
    exact (of_decide_eq_true same).symm
  · rintro rfl
    refine ⟨nameable.inside, ?_, fun other less => ?_⟩
    · rw [Frontend.player_eq_getElem nameable.inside]
      exact decide_eq_true rfl
    · have inside : other < fe.players.length := Nat.lt_trans less nameable.inside
      have apart := nameable.only other inside (Nat.ne_of_lt less)
      rw [Frontend.player_eq_getElem inside] at apart
      simpa using apart

/-- Nothing in the text passes for a form that is tried before, nor for this one behind the name. -/
structure Unmistaken (tried : List ObitTest) (t : ObitTest) (name text : Bytes) : Prop where
  first : ∀ other ∈ tried, ¬ other.FoundIn text
  once : ¬ t.FoundIn (text.drop name.length)

variable {tried rest : List ObitTest} {t : ObitTest} {text : Bytes} {fills : List Bytes}

theorem phrase_behind (form : t ∈ duo ++ solo) {name : Bytes}
    (splits : Splits newlineByte t.pattern (name :: fills) text) : name ++ t.phrase <+: text := by
  rw [pattern_cons form] at splits
  obtain ⟨rest, -, -, same, -⟩ := splits_cons_iff.mp splits
  exact ⟨rest, by rw [same, List.append_assoc]⟩

/-- A form that is tried before and found does not credit this player with this death. -/
theorem not_credited_before (order : duo ++ solo = tried ++ t :: rest) (nameable : Nameable fe slot)
    (splits : Splits newlineByte t.pattern ((fe.player slot).name :: fills) text) (whole : newlineByte ∉ text)
    {mod : Means} {groups : Nat → Bytes} (found : firstObit wildcardSubmatch text tried = some (mod, groups)) :
    ¬ (mod = t.mod ∧ fe.findPlayerByName (groups 1) = some slot) := by
  rintro ⟨same, credited⟩
  obtain ⟨other, member, rfl, matched⟩ := firstObit_some found
  have form : t ∈ duo ++ solo := order ▸ List.mem_append_right _ List.mem_cons_self
  have otherForm : other ∈ duo ++ solo := order ▸ List.mem_append_left _ member
  have front := (wildcardSubmatch_first otherForm whole matched).1
  rw [(findPlayerByName_iff nameable _).mp credited] at front
  have own := phrase_behind form splits
  have apart := phrases_differ
  rw [order, List.pairwise_append] at apart
  have differ := apart.2.2 other member t List.mem_cons_self same
  rcases List.prefix_or_prefix_of_prefix front own with shorter | longer
  · exact differ.1 ((List.prefix_append_right_inj _).mp shorter)
  · exact differ.2 ((List.prefix_append_right_inj _).mp longer)

/-- The first group is the name exactly if the form cannot be made out behind the name. -/
theorem first_group_iff (form : t ∈ duo ++ solo) {name : Bytes}
    (splits : Splits newlineByte t.pattern (name :: fills) text) (whole : newlineByte ∉ text) {groups : Nat → Bytes}
    (matched : wildcardSubmatch (ascii t.matchstr) text = some groups) :
    groups 1 = name ↔ ¬ t.FoundIn (text.drop name.length) := by
  obtain ⟨more, searched⟩ := (wildcardSubmatch_first form whole matched).2
  rw [pattern_cons form] at splits searched
  rw [ObitTest.FoundIn, pattern_cons form, ← search_first_iff whole splits, searched]
  constructor
  · intro same
    exact ⟨more, by rw [same]⟩
  · intro found
    obtain ⟨other, same⟩ := found
    exact (List.cons.inj (Option.some.inj same)).1

/-- The first form that is found is this one, with this victim, exactly if nothing is mistaken. -/
theorem firstObit_credited_iff (order : duo ++ solo = tried ++ t :: rest) (nameable : Nameable fe slot)
    (splits : Splits newlineByte t.pattern ((fe.player slot).name :: fills) text) (whole : newlineByte ∉ text) :
    (∃ mod groups, firstObit wildcardSubmatch text (duo ++ solo) = some (mod, groups) ∧ mod = t.mod ∧
      fe.findPlayerByName (groups 1) = some slot) ↔ Unmistaken tried t (fe.player slot).name text := by
  have form : t ∈ duo ++ solo := order ▸ List.mem_append_right _ List.mem_cons_self
  have earlier : ∀ other ∈ tried, other ∈ duo ++ solo := fun other member => order ▸ List.mem_append_left _ member
  have missed : firstObit wildcardSubmatch text tried = none ↔ ∀ other ∈ tried, ¬ other.FoundIn text := by
    rw [firstObit_none]
    exact forall₂_congr fun other member => wildcardSubmatch_none (earlier other member) whole
  rw [order, firstObit_append]
  cases before : firstObit wildcardSubmatch text tried with
  | some found =>
    constructor
    · rintro ⟨mod, groups, same, credited⟩
      cases Option.some.inj same
      exact absurd credited (not_credited_before order nameable splits whole before)
    · intro unmistaken
      rw [missed.mpr unmistaken.first] at before
      cases before
  | none =>
    have found : t.FoundIn text := ⟨_, splits⟩
    cases matched : wildcardSubmatch (ascii t.matchstr) text with
    | none => exact absurd found ((wildcardSubmatch_none form whole).mp matched)
    | some groups =>
      have result : firstObit wildcardSubmatch text (t :: rest) = some (t.mod, groups) := by rw [firstObit, matched]
      have firstGroup := first_group_iff form splits whole matched
      rw [Option.none_or, result]
      constructor
      · rintro ⟨mod, groups', same, -, credited⟩
        cases Option.some.inj same
        exact ⟨missed.mp before, firstGroup.mp ((findPlayerByName_iff nameable _).mp credited)⟩
      · intro unmistaken
        exact ⟨_, _, rfl, rfl, (findPlayerByName_iff nameable _).mpr (firstGroup.mpr unmistaken.once)⟩

end

section
variable (fe : Frontend)

/-- The obituary is told as a death of this kind, and of this player. -/
def CreditsVictim (t : ObitTest) (victim : Nat) (text : Bytes) : Prop :=
  ∃ d, fe.calculateDeath wildcardSubmatch text = some d ∧ d.means = t.mod ∧ d.victim = some victim

/-- And by this player's hand. -/
def CreditsBoth (t : ObitTest) (victim murderer : Nat) (text : Bytes) : Prop :=
  ∃ d, fe.calculateDeath wildcardSubmatch text = some d ∧ d.means = t.mod ∧ d.victim = some victim ∧
    d.murderer = some murderer

/-- The name of the player in a slot. -/
def Frontend.nameAt (slot : Nat) : Bytes := (fe.player slot).name

variable {fe} {before after : List ObitTest} {t : ObitTest} {victim murderer : Nat} {text : Bytes}

theorem creditsVictim_iff (nonempty : text ≠ []) : CreditsVictim fe t victim text ↔
    ∃ mod groups, firstObit wildcardSubmatch text (duo ++ solo) = some (mod, groups) ∧ mod = t.mod ∧
      fe.findPlayerByName (groups 1) = some victim := by
  unfold CreditsVictim Frontend.calculateDeath
  rw [if_neg nonempty, firstObit_append]
  cases two : firstObit wildcardSubmatch text duo with
  | some found =>
    obtain ⟨mod, groups⟩ := found
    simp
  | none =>
    cases one : firstObit wildcardSubmatch text solo with
    | some found =>
      obtain ⟨mod, groups⟩ := found
      simp
    | none => simp

/-- The form filled in with the victim's name, and with what the other wildcards take in. -/
theorem obituary_splits (form : t ∈ duo ++ solo) (nameable : Nameable fe victim) {others : List Bytes}
    (count : others.length + 1 = t.pattern.length) (fine : ∀ fill ∈ others, fill ≠ [] ∧ newlineByte ∉ fill) :
    Splits newlineByte t.pattern (fe.nameAt victim :: others) (t.obituary (fe.nameAt victim :: others)) ∧
    newlineByte ∉ t.obituary (fe.nameAt victim :: others) ∧ t.obituary (fe.nameAt victim :: others) ≠ [] := by
  have all : ∀ fill ∈ fe.nameAt victim :: others, fill ≠ [] ∧ newlineByte ∉ fill :=
    List.forall_mem_cons.mpr ⟨⟨nameable.named, nameable.whole⟩, fine⟩
  refine ⟨splits_render count all, not_mem_render (literals_whole t form) fun fill member => (all fill member).2, ?_⟩
  rw [ObitTest.obituary, pattern_cons form, render]
  exact List.append_ne_nil_of_left_ne_nil nameable.named _

/-- The second group of a form for two, where the first is right. -/
theorem murderer_group (form : t ∈ duo) (whole : newlineByte ∉ t.obituary [fe.nameAt victim, fe.nameAt murderer])
    (killer : Nameable fe murderer) {groups : Nat → Bytes}
    (found : wildcardSubmatch (ascii t.matchstr) (t.obituary [fe.nameAt victim, fe.nameAt murderer]) = some groups)
    (first : groups 1 = fe.nameAt victim) : groups 2 = fe.nameAt murderer := by
  have inAll : t ∈ duo ++ solo := List.mem_append_left _ form
  obtain ⟨piece, shape, captured⟩ : ∃ piece, t.pattern.tail = [piece] ∧ piece.captured = true := by
    have mapped := duo_patterns t form
    cases tail : t.pattern.tail with
    | nil => simp [tail] at mapped
    | cons piece pieces =>
      simp only [tail, List.map_cons, List.cons.injEq, List.map_eq_nil_iff] at mapped
      exact ⟨piece, by rw [mapped.2], mapped.1⟩
  rw [wildcardSubmatch_eq inAll, Option.map_eq_some_iff] at found
  obtain ⟨fills, searched, rfl⟩ := found
  have pattern := pattern_cons inAll
  rw [shape] at pattern
  rw [pattern, search_eq whole] at searched
  obtain ⟨fill, more, rfl, -, ⟨rest, -, -, same, left⟩, -⟩ := matchStart_cons searched
  simp only [pattern, captures, ↓reduceIte, List.getD_cons_succ, List.getD_cons_zero] at first ⊢
  rw [first, ObitTest.obituary, pattern] at same
  have behind : fe.nameAt murderer ++ piece.literal = rest := by
    have tails := List.append_cancel_left (List.append_cancel_left same)
    simpa [render] using tails
  rw [← behind] at left
  rw [matchStart_last killer.named killer.whole left]
  simp only [captures, captured, ↓reduceIte]
  rfl

/-- The obituary of two, read off as death of this kind, of this player by that one. -/
theorem duo_credits_iff (order : duo = before ++ t :: after) (dead : Nameable fe victim)
    (killer : Nameable fe murderer) :
    CreditsBoth fe t victim murderer (t.obituary [fe.nameAt victim, fe.nameAt murderer]) ↔
      Unmistaken before t (fe.nameAt victim) (t.obituary [fe.nameAt victim, fe.nameAt murderer]) := by
  have form : t ∈ duo := order ▸ List.mem_append_right _ List.mem_cons_self
  have inAll : t ∈ duo ++ solo := List.mem_append_left _ form
  have count : [fe.nameAt murderer].length + 1 = t.pattern.length := by
    have mapped := congrArg List.length (duo_patterns t form)
    rw [List.length_map] at mapped
    rw [pattern_cons inAll]
    exact congrArg Nat.succ mapped.symm
  have fine : ∀ fill ∈ [fe.nameAt murderer], fill ≠ [] ∧ newlineByte ∉ fill :=
    List.forall_mem_singleton.mpr ⟨killer.named, killer.whole⟩
  obtain ⟨splits, whole, nonempty⟩ := obituary_splits inAll dead count fine
  have all : duo ++ solo = before ++ t :: (after ++ solo) := by rw [order, List.append_assoc, List.cons_append]
  have credited := firstObit_credited_iff all dead splits whole
  constructor
  · rintro ⟨d, told, means, named, -⟩
    exact credited.mp ((creditsVictim_iff nonempty).mp ⟨d, told, means, named⟩)
  · intro unmistaken
    obtain ⟨mod, groups, found, same, named⟩ := credited.mpr unmistaken
    have missed : firstObit wildcardSubmatch (t.obituary [fe.nameAt victim, fe.nameAt murderer]) before = none :=
      firstObit_none.mpr fun other member =>
        (wildcardSubmatch_none (all ▸ List.mem_append_left _ member) whole).mpr (unmistaken.first other member)
    cases matched : wildcardSubmatch (ascii t.matchstr) (t.obituary [fe.nameAt victim, fe.nameAt murderer]) with
    | none => exact absurd ⟨_, splits⟩ ((wildcardSubmatch_none inAll whole).mp matched)
    | some own =>
      have two : firstObit wildcardSubmatch (t.obituary [fe.nameAt victim, fe.nameAt murderer]) duo =
          some (t.mod, own) := by
        rw [order, firstObit_append, missed, Option.none_or, firstObit, matched]
      rw [firstObit_append, two, Option.some_or] at found
      cases found
      have first := (findPlayerByName_iff dead _).mp named
      have second := murderer_group form whole killer matched first
      refine ⟨_, by rw [Frontend.calculateDeath, if_neg nonempty, two], rfl, named, ?_⟩
      exact (findPlayerByName_iff killer _).mpr second

/-- The obituary of one. -/
theorem solo_credits_iff (order : solo = before ++ t :: after) (dead : Nameable fe victim) {others : List Bytes}
    (count : others.length + 1 = t.pattern.length) (fine : ∀ fill ∈ others, fill ≠ [] ∧ newlineByte ∉ fill) :
    CreditsVictim fe t victim (t.obituary (fe.nameAt victim :: others)) ↔
      Unmistaken (duo ++ before) t (fe.nameAt victim) (t.obituary (fe.nameAt victim :: others)) := by
  have inAll : t ∈ duo ++ solo := List.mem_append_right _ (order ▸ List.mem_append_right _ List.mem_cons_self)
  obtain ⟨splits, whole, nonempty⟩ := obituary_splits inAll dead count fine
  have all : duo ++ solo = (duo ++ before) ++ t :: after := by rw [order, List.append_assoc]
  rw [creditsVictim_iff nonempty]
  exact firstObit_credited_iff all dead splits whole

/-- An obituary is read for what it says exactly if no form that is tried before can be made out in
it, nor its own once more behind the victim's name. -/
theorem obituary_credits_iff (dead : Nameable fe victim) :
    (∀ before t after murderer, duo = before ++ t :: after → Nameable fe murderer → murderer ≠ victim →
      (CreditsBoth fe t victim murderer (t.obituary [fe.nameAt victim, fe.nameAt murderer]) ↔
        Unmistaken before t (fe.nameAt victim) (t.obituary [fe.nameAt victim, fe.nameAt murderer]))) ∧
    (∀ before t after others, solo = before ++ t :: after → others.length + 1 = t.pattern.length →
      (∀ fill ∈ others, fill ≠ [] ∧ newlineByte ∉ fill) →
      (CreditsVictim fe t victim (t.obituary (fe.nameAt victim :: others)) ↔
        Unmistaken (duo ++ before) t (fe.nameAt victim) (t.obituary (fe.nameAt victim :: others)))) := by
  refine ⟨fun before t after murderer order killer _ => ?_, fun before t after others order count fine => ?_⟩
  · exact duo_credits_iff order dead killer
  · exact solo_credits_iff order dead count fine

end

/-- Two players. -/
def duel (victim murderer : String) : Frontend :=
  { players := [{ clientID := 0, name := ascii victim, connectTime := 1 },
      { clientID := 1, name := ascii murderer, connectTime := 1 }] }

def feelsPain : ObitTest := ⟨"(.+) feels (.+)'s pain", .heldGrenade⟩

def railed : ObitTest := ⟨"(.+) was railed by (.+)", .railgun⟩

theorem duel_nameable (victim murderer : String) (apart : ascii victim ≠ ascii murderer)
    (fine : ∀ name ∈ [ascii victim, ascii murderer], name ≠ [] ∧ newlineByte ∉ name) :
    Nameable (duel victim murderer) 0 ∧ Nameable (duel victim murderer) 1 := by
  obtain ⟨first, second⟩ := List.forall_mem_cons.mp fine
  have second := List.forall_mem_singleton.mp second
  constructor
  · refine ⟨Nat.zero_lt_two, rfl, first.1, first.2, fun other (inside : other < 2) another => ?_⟩
    obtain rfl : other = 1 := by omega
    exact apart.symm
  · refine ⟨Nat.one_lt_two, rfl, second.1, second.2, fun other (inside : other < 2) another => ?_⟩
    obtain rfl : other = 0 := by omega
    exact apart

theorem obituary_credits_claire :
    CreditsBoth (duel "claire" "scarred") feelsPain 0 1 (ascii "claire feels scarred's pain") := by
  have names := duel_nameable "claire" "scarred" (by decide) (by decide)
  have order : duo = duo.take 16 ++ feelsPain :: duo.drop 17 := rfl
  have text : ascii "claire feels scarred's pain" =
      feelsPain.obituary [(duel "claire" "scarred").nameAt 0, (duel "claire" "scarred").nameAt 1] := by decide +kernel
  rw [text]
  refine ((obituary_credits_iff names.1).1 _ _ _ 1 order names.2 (by decide)).mpr ⟨?_, ?_⟩
  · decide +kernel
  · decide +kernel

/-- A name that is an obituary itself. -/
theorem obituary_credits_quoting : ¬ ∀ (fe : Frontend) (t : ObitTest) (victim murderer : Nat), t ∈ duo →
    Nameable fe victim → Nameable fe murderer → murderer ≠ victim →
    CreditsBoth fe t victim murderer (t.obituary [fe.nameAt victim, fe.nameAt murderer]) := by
  intro promised
  have names := duel_nameable "x was blasted by y" "bob" (by decide) (by decide)
  have credited := promised _ railed 0 1 (by simp [railed, duo]) names.1 names.2 (by decide)
  have order : duo = duo.take 10 ++ railed :: duo.drop 11 := rfl
  have unmistaken := (duo_credits_iff order names.1 names.2).mp credited
  exact unmistaken.first ⟨"(.+) was blasted by (.+)", .blaster⟩ (by simp [duo]) (by decide +kernel)

end Q2Admin
