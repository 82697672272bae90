import Q2Admin.Evasion
import Q2Admin.Stifling

/-! How long a stifle silences. Three functions issue the command: `ApplyMatchedRules` and
`ParsePrint` with the length a rule has, whatever it is, and `StiflePlayer`, which bounds the
seconds it is given. -/

namespace Q2Admin
open Go

/-! ## The bound of `StiflePlayer` -/

/-- The unit of a float that is large, but below 2^62, is at most 2^9. -/
theorem floatOfNat_near {n : Nat} (low : 2 ^ 53 ≤ n) (high : n < 2 ^ 62) :
    n < floatOfNat n + 512 ∧ floatOfNat n ≤ n + 512 := by
  have positive : n ≠ 0 := by omega
  have exponent : n.log2 < 62 := (Nat.log2_lt positive).mpr high
  have unitLe : 2 ^ (n.log2 - 52) ≤ 2 ^ 9 := Nat.pow_le_pow_right (by decide) (by omega)
  have unitPos : 0 < 2 ^ (n.log2 - 52) := Nat.two_pow_pos _
  rw [floatOfNat, if_neg (by omega)]
  generalize 2 ^ (n.log2 - 52) = unit at unitLe unitPos
  have split := Nat.div_add_mod' n unit
  have rest := Nat.mod_lt n unitPos
  simp only []
  split
  · omega
  · rw [Nat.add_mul, Nat.one_mul]
    omega

theorem floatOfNat_top {n : Nat} (low : 2 ^ 62 ≤ n) (high : n < 2 ^ 63) :
    2 ^ 62 ≤ floatOfNat n ∧ (floatOfNat n < 2 ^ 63 ↔ n < 2 ^ 63 - 512) := by
  have exponent : n.log2 = 62 := (Nat.log2_eq_iff (by omega)).mpr ⟨low, high⟩
  rw [floatOfNat, if_neg (by omega), exponent]
  simp only [Nat.reduceSub, Nat.reducePow] at *
  split <;> omega

theorem floatOfNat_two_pow : floatOfNat (2 ^ 63) = 2 ^ 63 := by decide +kernel

/-- The absolute value is right or too large to matter, but for the last ints before the least,
which are rounded to it. -/
theorem absInt_cases {n : Int} (low : -(2 ^ 63) ≤ n) (negative : n < 0) :
    -(2 ^ 63 - 512) < n ∧ (absInt n = -n ∨ stifleMax < absInt n) ∨ n ≤ -(2 ^ 63 - 512) ∧ absInt n = -(2 ^ 63) := by
  have size : (n.natAbs : Int) = -n := by omega
  unfold absInt stifleMax
  by_cases small : n.natAbs < 2 ^ 53
  · have exact_ : floatOfNat n.natAbs = n.natAbs := by rw [floatOfNat, if_pos small]
    left
    rw [exact_, if_pos (by omega)]
    omega
  · by_cases middle : n.natAbs < 2 ^ 62
    · have near := floatOfNat_near (by omega) middle
      left
      rw [if_pos (by omega)]
      omega
    · by_cases top : n.natAbs < 2 ^ 63
      · have bounds := floatOfNat_top (by omega) top
        split <;> omega
      · have least : n.natAbs = 2 ^ 63 := by omega
        rw [least, floatOfNat_two_pow, if_neg (by decide)]
        omega

theorem stifleSeconds_iff {seconds : Int} (low : -(2 ^ 63) ≤ seconds) :
    1 ≤ stifleSeconds seconds ∧ stifleSeconds seconds ≤ stifleMax ↔ seconds ≠ 0 ∧ -(2 ^ 63 - 512) < seconds := by
  unfold stifleSeconds
  by_cases negative : seconds < 0
  · have magnitude := absInt_cases low negative
    simp only [if_pos negative]
    unfold stifleMax at *
    split <;> omega
  · simp only [if_neg negative]
    unfold stifleMax
    split <;> omega

/-! ## What the commands say -/

theorem decimal_injective {m n : Int} (same : decimal m = decimal n) : m = n := by
  -- both are read back if the word is wide enough
  have wide (k : Int) (bits : Nat) (large : k.natAbs ≤ bits) : -(2 ^ (bits + 1 - 1)) ≤ k ∧ k < 2 ^ (bits + 1 - 1) := by
    have power : k.natAbs < 2 ^ bits := Nat.lt_of_lt_of_le Nat.lt_two_pow_self (Nat.pow_le_pow_right (by decide) large)
    have cast : ((2 ^ bits : Nat) : Int) = 2 ^ bits := by norm_cast
    rw [Nat.add_sub_cancel]
    omega
  have first := wide m (m.natAbs + n.natAbs) (by omega)
  have second := wide n (m.natAbs + n.natAbs) (by omega)
  have read := parseInt_decimal first.1 first.2
  rw [same, parseInt_decimal second.1 second.2] at read
  exact (Option.some.inj read).symm

/-- A mute with this text where the seconds stand. -/
def mutedText (client : Int) (text : Bytes) : ServerMessage :=
  .command (ascii "sv !mute CL " ++ decimal client ++ ascii " " ++ text ++ ascii "\n")

/-- The two commands that silence a client for some seconds. -/
def mutedFor (client seconds : Int) : ServerMessage := mutedText client (decimal seconds)

def stifledFor (client seconds : Int) : ServerMessage :=
  .command (ascii "sv !stifle CL " ++ decimal client ++ ascii " " ++ decimal seconds)

/-- The message silences the client, for no longer than a stifle may last. -/
def Short (client : Int) (m : ServerMessage) : Prop :=
  ∃ n, 1 ≤ n ∧ n ≤ stifleMax ∧ (m = mutedFor client n ∨ m = stifledFor client n)

def ServerMessage.isCommand : ServerMessage → Bool
  | command _ => true
  | sayClient _ _ _ | sayAll _ _ => false

theorem mutedText_injective {client : Int} {s t : Bytes} (same : mutedText client s = mutedText client t) : s = t :=
  List.append_cancel_left (List.append_cancel_right (ServerMessage.command.inj same))

theorem mutedText_ne_stifledFor (client : Int) (text : Bytes) (n : Int) : mutedText client text ≠ stifledFor client n := by
  intro same
  have fifth := congrArg (fun message => match message with
    | .command cmd => cmd[4]?
    | _ => none) same
  simp [mutedText, stifledFor, ascii, charByte] at fifth

theorem permanent_ne_decimal (n : Int) : ascii "PERM" ≠ decimal n := by
  intro same
  have member : charByte 'P' ∈ decimal n := same ▸ List.mem_cons_self
  have range := toNat_of_mem_decimal member
  rw [show (charByte 'P').toNat = 80 from rfl] at range
  omega

/-- What `MutePlayer` says is short exactly when its seconds are. -/
theorem short_mute_iff (p : Player) (seconds : Int) :
    (∀ m ∈ Says.mute p seconds, Short p.clientID m) ↔ 1 ≤ seconds ∧ seconds ≤ stifleMax := by
  have text : Says.mute p seconds = [mutedText p.clientID (if 0 < seconds then decimal seconds else ascii "PERM")] := rfl
  rw [text]
  simp only [List.mem_singleton, forall_eq]
  constructor
  · rintro ⟨n, low, high, muted | stifled⟩
    · have same := mutedText_injective muted
      by_cases positive : 0 < seconds
      · rw [if_pos positive] at same
        rw [decimal_injective same]
        exact ⟨low, high⟩
      · rw [if_neg positive] at same
        exact absurd same (permanent_ne_decimal n)
    · exact absurd stifled (mutedText_ne_stifledFor _ _ n)
  · rintro ⟨low, high⟩
    rw [if_pos (show 0 < seconds by omega)]
    exact ⟨seconds, low, high, .inl rfl⟩

theorem short_stifledFor_iff (client seconds : Int) :
    Short client (stifledFor client seconds) ↔ 1 ≤ seconds ∧ seconds ≤ stifleMax := by
  constructor
  · rintro ⟨n, low, high, muted | stifled⟩
    · exact absurd muted.symm (mutedText_ne_stifledFor client (decimal n) seconds)
    · have same := decimal_injective (List.append_cancel_left (ServerMessage.command.inj stifled))
      exact ⟨same ▸ low, same ▸ high⟩
  · rintro ⟨low, high⟩
    exact ⟨seconds, low, high, .inr rfl⟩

/-! ## On whose account a command is issued -/

/-- What `ApplyMatchedRules` queues, with the rule each message is queued for. -/
def rulesTell : List Rule → Player → List (Rule × ServerMessage)
  | [], _ => []
  | r :: rest, p =>
    let text := Says.toClient p (printLevel printChat)
    let told := List.map (Prod.mk r)
    match r.type with
    | .ban => told (Says.kick p (join r.message (ascii "\n")))
    | .mute => told (text (join r.message (ascii " ")) ++ Says.mute p (-1)) ++ rulesTell rest { p with muted := true }
    | .stifle =>
      if p.muted then rulesTell rest p
      else told (text (ascii "You're stifled") ++ Says.mute p r.stifleLength) ++
        rulesTell rest { p with stifled := true, stifleLength := r.stifleLength }
    | .message => told (text (join r.message (ascii " "))) ++ rulesTell rest p

theorem map_rulesTell (rules : List Rule) (p : Player) : (rulesTell rules p).map Prod.snd = rulesSay rules p := by
  have untold (r : Rule) (messages : List ServerMessage) : (messages.map (Prod.mk r)).map Prod.snd = messages := by
    rw [List.map_map]
    exact List.map_id messages
  induction rules generalizing p with
  | nil => rfl
  | cons r rest ih =>
    cases type : r.type with
    | ban =>
      simp only [rulesTell, rulesSay, type]
      exact untold r _
    | mute => simp only [rulesTell, rulesSay, type, List.map_append, untold, ih]
    | stifle =>
      by_cases muted : p.muted = true
      · simp only [rulesTell, rulesSay, type, muted, ↓reduceIte, ih]
      · simp only [rulesTell, rulesSay, type, muted, Bool.false_eq_true, ↓reduceIte, List.map_append, untold, ih]
    | message => simp only [rulesTell, rulesSay, type, List.map_append, untold, ih]

/-- The stifles that are acted on: those before the first ban or mute, for a player who may talk. -/
def stiflesActedOn (rules : List Rule) (p : Player) : List Rule :=
  if p.muted then [] else (rules.takeWhile fun r => r.type ≠ .ban ∧ r.type ≠ .mute).filter fun r => r.type = .stifle

/-- Every command the rules issue because of a stifle is short. -/
def RuleStiflesShort (rules : List Rule) (p : Player) : Prop :=
  ∀ told ∈ rulesTell rules p, told.1.type = .stifle → told.2.isCommand = true → Short p.clientID told.2

/-- So is every command a chat line brings upon the stifled players of its name. -/
def ChatStiflesShort (fe : Frontend) (line : Bytes) : Prop :=
  ∀ p ∈ fe.stifledAt (fe.getPlayerFromPrint line), Short p.clientID (muteAgain p)

/-- And the command for the seconds given on a console. -/
def ConsoleStifleShort (p : Player) (seconds : Int) : Prop :=
  ∀ m ∈ Says.stifle p seconds, m.isCommand = true → Short p.clientID m

theorem stiflesActedOn_muted {rules : List Rule} {p : Player} (muted : p.muted = true) : stiflesActedOn rules p = [] :=
  if_pos muted

theorem stiflesActedOn_cons {r : Rule} {rest : List Rule} {p : Player} (free : p.muted = false) :
    stiflesActedOn (r :: rest) p = match r.type with
      | .ban | .mute => []
      | .stifle => r :: stiflesActedOn rest p
      | .message => stiflesActedOn rest p := by
  unfold stiflesActedOn
  cases type : r.type <;> simp [free, type]

theorem rulesTell_muted {rules : List Rule} {p : Player} (muted : p.muted = true) :
    ∀ told ∈ rulesTell rules p, told.1.type ≠ .stifle := by
  have other {type : RuleType} {r : Rule} (rtype : r.type = type) (apart : type ≠ .stifle) (messages : List ServerMessage) :
      ∀ told ∈ messages.map (Prod.mk r), told.1.type ≠ .stifle := by
    intro told member
    obtain ⟨m, -, rfl⟩ := List.mem_map.mp member
    exact rtype.symm ▸ apart
  induction rules generalizing p with
  | nil => exact fun told member => absurd member List.not_mem_nil
  | cons r rest ih =>
    cases type : r.type with
    | ban =>
      simp only [rulesTell, type]
      exact other type (by decide) _
    | mute =>
      simp only [rulesTell, type, List.forall_mem_append]
      exact ⟨other type (by decide) _, ih rfl⟩
    | stifle =>
      simp only [rulesTell, type, muted, ↓reduceIte]
      exact ih muted
    | message =>
      simp only [rulesTell, type, List.forall_mem_append]
      exact ⟨other type (by decide) _, ih muted⟩

/-- One rule's messages: only a stifle that is acted on counts. -/
theorem told_short_iff {r : Rule} {client : Int} {messages : List ServerMessage} :
    (∀ told ∈ messages.map (Prod.mk r), told.1.type = .stifle → told.2.isCommand = true → Short client told.2) ↔
      (r.type = .stifle → ∀ m ∈ messages, m.isCommand = true → Short client m) := by
  simp only [List.forall_mem_map]
  exact ⟨fun short stifle m member => short m member stifle, fun short m member stifle => short stifle m member⟩

theorem stifleMessages_short_iff (p : Player) (notice : Bytes) (seconds : Int) :
    (∀ m ∈ Says.toClient p (printLevel printChat) notice ++ Says.mute p seconds,
      m.isCommand = true → Short p.clientID m) ↔ 1 ≤ seconds ∧ seconds ≤ stifleMax := by
  rw [← short_mute_iff, List.forall_mem_append]
  have said : ∀ m ∈ Says.toClient p (printLevel printChat) notice, m.isCommand = true → Short p.clientID m := by
    intro m member command
    unfold Says.toClient at member
    split at member
    · cases member
    · rw [List.mem_singleton.mp member] at command
      cases command
  have commands : ∀ m ∈ Says.mute p seconds, m.isCommand = true := by
    intro m member
    rw [List.mem_singleton.mp member]
    rfl
  exact ⟨fun short m member => short.2 m member (commands m member), fun short => ⟨said, fun m member _ => short m member⟩⟩

theorem ruleStiflesShort_iff (rules : List Rule) (p : Player) :
    RuleStiflesShort rules p ↔ ∀ r ∈ stiflesActedOn rules p, 1 ≤ r.stifleLength ∧ r.stifleLength ≤ stifleMax := by
  cases muted : p.muted with
  | true =>
    rw [stiflesActedOn_muted muted]
    exact ⟨fun _ r member => absurd member List.not_mem_nil,
      fun _ told member stifle => absurd stifle (rulesTell_muted muted told member)⟩
  | false =>
    unfold RuleStiflesShort
    induction rules generalizing p with
    | nil => simp [rulesTell, stiflesActedOn]
    | cons r rest ih =>
      rw [stiflesActedOn_cons muted]
      cases type : r.type with
      | ban => simp [rulesTell, type]
      | mute =>
        have silent : ∀ told ∈ rulesTell rest { p with muted := true }, told.1.type ≠ .stifle := rulesTell_muted rfl
        simp only [rulesTell, type, List.forall_mem_append, told_short_iff]
        exact ⟨fun _ r member => absurd member List.not_mem_nil,
          fun _ => ⟨fun stifle => absurd stifle (by decide), fun told member stifle => absurd stifle (silent told member)⟩⟩
      | stifle =>
        have later := ih { p with stifled := true, stifleLength := r.stifleLength } muted
        have told : rulesTell (r :: rest) p =
            (Says.toClient p (printLevel printChat) (ascii "You're stifled") ++ Says.mute p r.stifleLength).map (Prod.mk r) ++
              rulesTell rest { p with stifled := true, stifleLength := r.stifleLength } := by
          simp only [rulesTell, type]
          exact if_neg (Bool.eq_false_iff.mp muted)
        have first : (∀ told ∈ (Says.toClient p (printLevel printChat) (ascii "You're stifled") ++
              Says.mute p r.stifleLength).map (Prod.mk r),
            told.1.type = .stifle → told.2.isCommand = true → Short p.clientID told.2) ↔
            1 ≤ r.stifleLength ∧ r.stifleLength ≤ stifleMax := by
          rw [told_short_iff, stifleMessages_short_iff]
          exact ⟨fun short => short type, fun short _ => short⟩
        rw [told, List.forall_mem_append, first, List.forall_mem_cons]
        exact and_congr_right fun _ => later
      | message =>
        simp only [rulesTell, type, List.forall_mem_append, told_short_iff]
        rw [ih p muted]
        exact ⟨fun short => short.2, fun short => ⟨fun stifle => absurd stifle (by decide), short⟩⟩

theorem chatStiflesShort_iff (fe : Frontend) (line : Bytes) : ChatStiflesShort fe line ↔
    ∀ p ∈ fe.stifledAt (fe.getPlayerFromPrint line), 1 ≤ p.stifleLength ∧ p.stifleLength ≤ stifleMax := by
  have own (p : Player) : Short p.clientID (muteAgain p) ↔ 1 ≤ p.stifleLength ∧ p.stifleLength ≤ stifleMax := by
    rw [← short_mute_iff]
    exact ⟨fun short m member => List.mem_singleton.mp member ▸ short, fun short => short _ List.mem_cons_self⟩
  exact forall₂_congr fun p _ => own p

theorem consoleStifleShort_iff (p : Player) {seconds : Int} (low : -(2 ^ 63) ≤ seconds) :
    ConsoleStifleShort p seconds ↔ seconds ≠ 0 ∧ -(2 ^ 63 - 512) < seconds := by
  rw [← stifleSeconds_iff low, ← short_stifledFor_iff p.clientID, ConsoleStifleShort]
  constructor
  · exact fun short => short _ List.mem_cons_self rfl
  · intro short m member command
    rcases List.mem_cons.mp member with first | notice
    · rw [first]
      exact short
    · rw [List.mem_singleton.mp notice] at command
      cases command

/-- A stifle is short and temporary exactly where the lengths that are stored and the seconds that
are given let it be: no function but `StiflePlayer` bounds them, and it lets zero through. -/
theorem stifles_short_iff (pf : Platform) (i : Nat) (rules : List Rule) (p : Player) (line : Bytes) (w : World)
    {seconds : Int} (low : -(2 ^ 63) ≤ seconds) :
    (Says (fun fe => (applyRules pf.q2 rules (p, fe)).2) ((rulesTell rules p).map Prod.snd) ∧
      (RuleStiflesShort rules p ↔
        ∀ r ∈ stiflesActedOn rules p, 1 ≤ r.stifleLength ∧ r.stifleLength ≤ stifleMax)) ∧
    ((∃ f, onPrint pf i (byteOf printChat) (line ++ ascii "\n") w = .ok (w.update i f) ∧
        Says f (((w.fe i).stifledAt ((w.fe i).getPlayerFromPrint line)).map muteAgain)) ∧
      (ChatStiflesShort (w.fe i) line ↔ ∀ p ∈ (w.fe i).stifledAt ((w.fe i).getPlayerFromPrint line),
        1 ≤ p.stifleLength ∧ p.stifleLength ≤ stifleMax)) ∧
    (Says (stiflePlayer pf.q2 p seconds) (Says.stifle p seconds) ∧
      (ConsoleStifleShort p seconds ↔ seconds ≠ 0 ∧ -(2 ^ 63 - 512) < seconds)) := by
  have told : Says (fun fe => (applyRules pf.q2 rules (p, fe)).2) ((rulesTell rules p).map Prod.snd) := by
    rw [map_rulesTell]
    exact says_applyRules pf.q2 rules p
  exact ⟨⟨told, ruleStiflesShort_iff rules p⟩,
    ⟨⟨_, onPrint_chat line, says_muteAll pf _⟩, chatStiflesShort_iff (w.fe i) line⟩,
    Says.stiflePlayer pf.q2 p seconds, consoleStifleShort_iff p low⟩

def unboundedStifle : Rule := { type := .stifle }

/-- A rule without a length silences for good. -/
theorem stifles_short_unbounded : ¬ ∀ (rules : List Rule) (p : Player) (fe : Frontend) (line : Bytes) (seconds : Int),
    -(2 ^ 63) ≤ seconds → seconds < 2 ^ 63 →
    RuleStiflesShort rules p ∧ ChatStiflesShort fe line ∧ ConsoleStifleShort p seconds := by
  intro promised
  obtain ⟨rule, -, -⟩ := promised [unboundedStifle] visitor {} [] 5 (by decide) (by decide)
  have bounds := (ruleStiflesShort_iff _ _).mp rule unboundedStifle (by decide)
  exact absurd bounds.1 (by decide)

/-- Half a minute from a rule and from the console. -/
theorem stifles_short_halfMinute :
    RuleStiflesShort [{ type := .stifle, stifleLength := 30 }] visitor ∧ ConsoleStifleShort visitor (-30) := by
  have short := stifles_short_iff Platform.plain 0 [{ type := .stifle, stifleLength := 30 }] visitor []
    (stifledWorld (ascii "claire")) (show -(2 ^ 63) ≤ (-30 : Int) by decide)
  exact ⟨short.1.2.mpr (by decide), short.2.2.2.mpr (by decide)⟩

end Q2Admin
