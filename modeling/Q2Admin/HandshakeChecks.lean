import Q2Admin.Handshake

/-! What the checks on the two packets of a handshake are worth: whether the reads stay
inside the buffer, and whether an answer is accepted only if it proves something. -/

namespace Q2Admin
open Go Lib

/-! ## The reads

They stay inside as long as the uuid of a greeting leaves room for the fields behind it,
and an answer does not announce more ciphertext than it carries. The checks of the total
length imply neither. -/

/-- A packet that `ParseGreeting` starts to read. -/
def GreetingHeader (input : Bytes) : Prop :=
  Buffer.signed (input.take 4) = protocolMagic ∧ (input.drop 4).headD 0 = cmdHello ∧
    greetingLength ≤ input.length

/-- Behind the uuid there is room for its NUL, four numbers of 4, 2, 1 and 1 bytes, and the
challenge. -/
def GreetingFits (input : Bytes) : Prop :=
  5 + ((input.drop 5).takeWhile (· ≠ 0)).length + 1 + 8 + rsaKeyLength ≤ input.length

/-- A packet of which `AuthenticateClient` reads the ciphertext. -/
def AuthHeader (input : Bytes) : Prop :=
  input.length = rsaKeyLength + 3 ∧ input.headD 0 = cmdAuth

/-- The ciphertext is not announced as longer than the rest of the packet. -/
def AuthFits (input : Bytes) : Prop :=
  0 ≤ Buffer.signed ((input.drop 1).take 2) ∧ Buffer.signed ((input.drop 1).take 2) ≤ rsaKeyLength

/-- The code returns, and no read of it has left the buffer. -/
def ReadsInside {α : Type} (x : Except Fault α) : Prop := ∃ result, x = .ok result

namespace ReadsInside
variable {α β : Type}

@[simp] theorem ok (a : α) : ReadsInside (.ok a) := ⟨a, rfl⟩

theorem map_iff {α β : Type} (f : α → β) (x : Except Fault α) : ReadsInside (x.map f) ↔ ReadsInside x := by
  cases x with
  | error fault => simp [ReadsInside, Except.map]
  | ok a => simp [ReadsInside, Except.map]

@[simp] theorem not_error (fault : Fault) : ¬ ReadsInside (.error fault : Except Fault α) := by
  simp [ReadsInside]

/-- What is only computed from the result reads nothing. -/
theorem bind_ok_iff {x : Except Fault α} {f : α → β} :
    ReadsInside (x >>= fun a => .ok (f a)) ↔ ReadsInside x := by
  cases x with
  | ok a => exact iff_of_true (ok (f a)) (ok a)
  | error fault => exact iff_of_false (not_error fault) (not_error fault)

theorem ite_ok {c : Prop} [Decidable c] (a b : α) : ReadsInside (if c then .ok a else .ok b) := by
  split
  · exact ok a
  · exact ok b

theorem not_of_faults {x : Except Fault α} (faults : Yields x (fun _ => False) fun _ => True) :
    ¬ ReadsInside x := fun ⟨_, returned⟩ => faults.of_ok returned

end ReadsInside

namespace Buffer

/-- A received packet of which some bytes have been read. -/
def readTo (input : Bytes) (count : Nat) : Buffer := ⟨input, count, input.length⟩

end Buffer

/-- A read of so many bytes stays inside the buffer if there are so many left, and the code
goes on behind them. -/
theorem demand_take_iff {α β : Type} (value : Bytes → α) (input : Bytes) (count size : Nat)
    {f : α × Buffer → Except Fault β} :
    ReadsInside (demand (((Buffer.readTo input count).take size).map fun (bytes, b) => (value bytes, b)) >>= f) ↔
      count + size ≤ input.length ∧
        ReadsInside (f (value ((input.drop count).take size), .readTo input (count + size))) := by
  rw [Buffer.take]
  by_cases inside : count + size ≤ input.length
  · rw [if_pos (by exact inside)]
    simp only [inside, true_and]
    rfl
  · rw [if_neg (by exact inside)]
    exact iff_of_false (ReadsInside.not_error .bufferRead) fun whole => inside whole.1

section
variable {q2 : Libq2} (bounded : q2.Bounded) (input : Bytes) (count : Nat) {β : Type}
include bounded

theorem readByte_inside_iff {f : Byte × Buffer → Except Fault β} :
    ReadsInside (demand (q2.readByte (.readTo input count)) >>= f) ↔
      count + 1 ≤ input.length ∧
        ReadsInside (f ((input.drop count).headD 0, .readTo input (count + 1))) := by
  have first : ((input.drop count).take 1).headD 0 = (input.drop count).headD 0 := by
    cases input.drop count <;> rfl
  rw [bounded.readByte_eq, ← first]
  exact demand_take_iff (fun bytes => bytes.headD 0) input count 1

theorem readShort_inside_iff {f : Int × Buffer → Except Fault β} :
    ReadsInside (demand (q2.readShort (.readTo input count)) >>= f) ↔
      count + 2 ≤ input.length ∧
        ReadsInside (f (Buffer.signed ((input.drop count).take 2), .readTo input (count + 2))) := by
  rw [bounded.readShort_eq]
  exact demand_take_iff Buffer.signed input count 2

theorem readLong_inside_iff {f : Int × Buffer → Except Fault β} :
    ReadsInside (demand (q2.readLong (.readTo input count)) >>= f) ↔
      count + 4 ≤ input.length ∧
        ReadsInside (f (Buffer.signed ((input.drop count).take 4), .readTo input (count + 4))) := by
  rw [bounded.readLong_eq]
  exact demand_take_iff Buffer.signed input count 4

theorem readString_inside_iff {f : Bytes × Buffer → Except Fault β} :
    ReadsInside (demand (q2.readString (.readTo input count)) >>= f) ↔
      count + (((input.drop count).takeWhile (· ≠ 0)).length + 1) ≤ input.length ∧
        ReadsInside (f ((input.drop count).takeWhile (· ≠ 0),
          .readTo input (count + (((input.drop count).takeWhile (· ≠ 0)).length + 1)))) := by
  rw [bounded.readString_eq]
  exact demand_take_iff (fun _ => (input.drop count).takeWhile (· ≠ 0)) input count _

theorem readData_inside_iff {size : Int} {f : Bytes × Buffer → Except Fault β} :
    ReadsInside (demand (q2.readData (.readTo input count) size) >>= f) ↔
      0 ≤ size ∧ count + size.toNat ≤ input.length ∧
        ReadsInside (f ((input.drop count).take size.toNat, .readTo input (count + size.toNat))) := by
  rw [bounded.readData_eq]
  by_cases negative : size < 0
  · rw [if_pos negative]
    exact iff_of_false (ReadsInside.not_error .bufferRead) fun whole => Int.not_le.mpr negative whole.1
  · rw [if_neg negative]
    have whole := demand_take_iff id input count size.toNat (f := f)
    simp only [id, Prod.mk.eta, Option.map_id'] at whole
    simp only [Int.not_lt.mp negative, true_and]
    exact whole

/-- A greeting is read to its end exactly if its uuid leaves room for the rest. -/
theorem parseGreeting_inside_iff (long : greetingLength ≤ input.length) :
    ReadsInside (parseGreeting q2 (.readTo input 5)) ↔ GreetingFits input := by
  have open_ : ¬ (Buffer.readTo input 5).length < greetingLength := Nat.not_lt.mpr long
  unfold parseGreeting GreetingFits
  rw [if_neg open_, readString_inside_iff bounded]
  simp only [readLong_inside_iff bounded, readShort_inside_iff bounded, readByte_inside_iff bounded,
    readData_inside_iff bounded, ReadsInside.ok, Int.toNat_natCast, and_true]
  omega

omit bounded in
theorem parseGreeting_short (short : ¬ greetingLength ≤ input.length) :
    parseGreeting q2 (.readTo input 5) = .ok none := by
  have closed : (Buffer.readTo input 5).length < greetingLength := Nat.not_le.mp short
  rw [parseGreeting, if_pos closed]

end

section
variable (pf : Platform) (bounded : pf.q2.Bounded) (input : Bytes)
include bounded

theorem checkGreeting_inside_iff (w : World) :
    ReadsInside (checkGreeting pf w input) ↔ (GreetingHeader input → GreetingFits input) := by
  have received : pf.q2.newBuffer input = .readTo input 0 := pf.q2.newBuffer_eq input
  unfold checkGreeting
  rw [ReadsInside.map_iff]
  unfold findGreeted GreetingHeader
  simp only [received]
  by_cases short : input.length < 5
  · have unread : ¬ greetingLength ≤ input.length := by
      unfold greetingLength
      omega
    simp only [unread, and_false, false_implies, iff_true]
    rw [if_pos (by exact short)]
    exact ReadsInside.ok none
  rw [if_neg (by exact short), readLong_inside_iff bounded]
  have first : 0 + 4 ≤ input.length := by omega
  have second : 0 + 4 + 1 ≤ input.length := by omega
  by_cases magic : Buffer.signed (input.take 4) = protocolMagic
  case neg => simp only [List.drop_zero, magic, first, ne_eq, not_false_eq_true, ↓reduceIte,
    ReadsInside.ok, true_and, false_and, false_implies]
  simp only [List.drop_zero, magic, first, ne_eq, not_true_eq_false, ↓reduceIte, true_and]
  rw [readByte_inside_iff bounded]
  by_cases hello : (input.drop 4).headD 0 = cmdHello
  case neg => simp only [hello, second, not_false_eq_true, ↓reduceIte, ReadsInside.ok,
    true_and, false_and, false_implies]
  simp only [hello, second, not_true_eq_false, ↓reduceIte, true_and, ReadsInside.bind_ok_iff]
  by_cases long : greetingLength ≤ input.length
  · simp only [long, true_implies]
    exact parseGreeting_inside_iff bounded input long
  · simp only [long, false_implies, iff_true]
    rw [parseGreeting_short input long]
    exact ReadsInside.ok none

theorem authCipher_inside_iff (name : Bytes) :
    ReadsInside (authCipher pf.q2 name (pf.q2.newBuffer input)) ↔ (AuthHeader input → AuthFits input) := by
  have received : pf.q2.newBuffer input = .readTo input 0 := pf.q2.newBuffer_eq input
  unfold authCipher AuthHeader AuthFits
  simp only [received]
  by_cases whole : input.length = rsaKeyLength + 3
  case neg =>
    simp only [whole, false_and, false_implies, iff_true]
    rw [if_pos (by exact whole)]
    exact ReadsInside.ok _
  rw [if_neg (by exact not_not.mpr whole), readByte_inside_iff bounded]
  have rsa : rsaKeyLength = 256 := rfl
  have first : 0 + 1 ≤ input.length := by omega
  have second : 0 + 1 + 2 ≤ input.length := by omega
  by_cases auth : input.headD 0 = cmdAuth
  case neg => simp only [List.drop_zero, auth, first, ne_eq, not_false_eq_true, ↓reduceIte,
    ReadsInside.ok, and_false, false_implies, and_self]
  simp only [List.drop_zero, auth, whole, ne_eq, not_true_eq_false, ↓reduceIte, and_self, true_implies]
  rw [readShort_inside_iff bounded]
  simp only [whole, rsa, Nat.zero_add, Nat.reduceAdd, Nat.reduceLeDiff, true_and]
  rw [readData_inside_iff bounded]
  simp only [ReadsInside.ite_ok, and_true]
  omega

/-- Handshake parsing stays inside the buffer exactly if the packets are what their
headers promise: a first packet that is taken for a greeting has a uuid that ends early
enough, and an answer to the challenge has the ciphertext it announces. -/
theorem handshake_inside_iff (w : World) (fe : Frontend) :
    (ReadsInside (checkGreeting pf w input) ↔ (GreetingHeader input → GreetingFits input)) ∧
      (ReadsInside (authenticateClient pf fe (pf.q2.newBuffer input)) ↔
        (AuthHeader input → AuthFits input)) := by
  refine ⟨checkGreeting_inside_iff pf bounded input w, ?_⟩
  unfold authenticateClient
  rw [ReadsInside.bind_ok_iff]
  exact authCipher_inside_iff pf bounded input fe.name

end

theorem handshake_inside_open :
    (ReadsInside (checkGreeting Platform.plain openWorld openGreeting) ↔
        (GreetingHeader openGreeting → GreetingFits openGreeting)) ∧
      (ReadsInside (authenticateClient Platform.plain openFrontend
          (Platform.plain.q2.newBuffer openGreeting)) ↔
        (AuthHeader openGreeting → AuthFits openGreeting)) :=
  handshake_inside_iff Platform.plain Libq2.plain_bounded openGreeting openWorld openFrontend

/-- A greeting of the right length whose uuid does not end. -/
def endlessGreeting : Bytes := ascii "Q2AC" ++ cmdHello :: List.replicate 301 (charByte 'a')

/-- An answer that announces one byte more than it carries. -/
def greedyAnswer : Bytes := cmdAuth :: 1 :: 1 :: List.replicate rsaKeyLength 0

theorem endless_outside : ¬ ReadsInside (checkGreeting Platform.plain openWorld endlessGreeting) :=
  ReadsInside.not_of_faults (by decide +kernel)

theorem greedy_outside : ¬ ReadsInside (authenticateClient Platform.plain openFrontend
    (Platform.plain.q2.newBuffer greedyAnswer)) :=
  ReadsInside.not_of_faults (by decide +kernel)

/-- Either packet takes the process down. -/
theorem handshake_outside :
    (¬ ∀ pf : Platform, pf.q2.Bounded → ∀ (input : Bytes) (w : World),
      ReadsInside (checkGreeting pf w input)) ∧
    ¬ ∀ pf : Platform, pf.q2.Bounded → ∀ (input : Bytes) (fe : Frontend),
      ReadsInside (authenticateClient pf fe (pf.q2.newBuffer input)) := by
  constructor
  · intro inside
    exact endless_outside (inside Platform.plain Libq2.plain_bounded endlessGreeting openWorld)
  · intro inside
    exact greedy_outside (inside Platform.plain Libq2.plain_bounded greedyAnswer openFrontend)

/-! ## The verdict -/

/-- The message carries a ciphertext that decrypts to the digest of the challenge. -/
def Proves (pf : Platform) (fe : Frontend) (msg : Buffer) : Prop :=
  ∃ cipher plaintext, authCipher pf.q2 fe.name msg = .ok (.ok cipher) ∧
    pf.keys.privateDecrypt cipher = some plaintext ∧ fe.challenge ≠ [] ∧
    messageDigest pf.keys fe.challenge = some plaintext

/-- The message carries a ciphertext of which the decryption leaves no bytes, as it does
when it fails. -/
def CarriesNothing (pf : Platform) (fe : Frontend) (msg : Buffer) : Prop :=
  ∃ cipher, authCipher pf.q2 fe.name msg = .ok (.ok cipher) ∧
    (pf.keys.privateDecrypt cipher).getD [] = []

theorem authenticateClient_true_iff (pf : Platform) (fe : Frontend) (msg : Buffer) :
    authenticateClient pf fe msg = .ok (.ok true) ↔
      ∃ cipher, authCipher pf.q2 fe.name msg = .ok (.ok cipher) ∧
        (pf.keys.privateDecrypt cipher).getD [] = (messageDigest pf.keys fe.challenge).getD [] := by
  unfold authenticateClient
  cases authCipher pf.q2 fe.name msg with
  | error fault => simp [Bind.bind, Except.bind]
  | ok read =>
    cases read with
    | error text => simp [Bind.bind, Except.bind, Except.map]
    | ok cipher => simp [Bind.bind, Except.bind, Except.map]

/-- An answer is accepted only for a proof exactly if there is a challenge to answer, or
what the answer carries decrypts to something: two errors compare as equal. -/
theorem fails_closed_iff (pf : Platform) (fe : Frontend) (msg : Buffer) :
    (authenticateClient pf fe msg = .ok (.ok true) → Proves pf fe msg) ↔
      (fe.challenge = [] → ¬ CarriesNothing pf fe msg) := by
  rw [authenticateClient_true_iff]
  by_cases empty : fe.challenge = []
  case pos =>
    have undigested : messageDigest pf.keys [] = none := rfl
    have unproven : ¬ Proves pf fe msg := fun ⟨_, _, _, _, nonempty, _⟩ => nonempty empty
    simp only [empty, undigested, Option.getD_none, unproven, imp_false, true_implies, CarriesNothing]
  case neg =>
    simp only [empty, false_implies, iff_true]
    rintro ⟨cipher, read, same⟩
    have decrypted := (digest_eq_iff pf empty cipher).mp same
    refine ⟨cipher, _, read, decrypted, empty, ?_⟩
    rw [messageDigest, if_neg empty]

/-- An answer whose ciphertext does not decrypt. -/
def brokenAnswer : Bytes := cmdAuth :: 0 :: 1 :: List.replicate rsaKeyLength 0

theorem brokenAnswer_accepted : authenticateClient Platform.plain openFrontend
    (Platform.plain.q2.newBuffer brokenAnswer) = .ok (.ok true) := by
  decide +kernel

theorem fails_open : ¬ ∀ (pf : Platform) (fe : Frontend) (msg : Buffer),
    authenticateClient pf fe msg = .ok (.ok true) → Proves pf fe msg := by
  intro closed
  obtain ⟨_, _, _, _, nonempty, _⟩ := closed Platform.plain openFrontend _ brokenAnswer_accepted
  exact nonempty rfl

end Q2Admin
