import Q2Admin.Lib.Base64
import Q2Admin.Crypto

/-! The bearer tokens of the RPC server: `makeToken` of `cmd/rpc_client.go`, and
`checkRPCAuthorization` and `validateBearerToken` of `backend/rpc.go`. -/

namespace Q2Admin
open Go Lib

/-- `message User`, as far as tokens are concerned. -/
structure User where
  email : Bytes := []
  /-- The lines of the key. -/
  rpcPublicKey : List Bytes := []
  allowRpc : Bool := false
  deriving DecidableEq

/-- `rsa.PrivateKey`. -/
structure PrivateKey where
  publicKey : PublicKey
  d : Nat
  deriving DecidableEq

/-- What `x509.ParsePKIXPublicKey` returns without an error. -/
inductive ParsedKey where
  | rsa (key : PublicKey)
  /-- A key of another kind. -/
  | other
  deriving DecidableEq

/-- The libraries that tokens go through. -/
structure TokenLib where
  /-- `base64.StdEncoding.EncodeToString`. -/
  encode : Bytes → Bytes
  /-- `base64.StdEncoding.DecodeString`. -/
  decode : Bytes → Option Bytes
  /-- The bytes of the block that `pem.Decode` finds. -/
  pemDecode : Bytes → Option Bytes
  parsePKIXPublicKey : Bytes → Option ParsedKey
  sha256 : Bytes → Fin 32 → Byte
  signPKCS1v15 : PrivateKey → Bytes → Option Bytes
  verifyPKCS1v15 : PublicKey → Bytes → Bytes → Bool

/-- The encoding of a digest that is signed, with the name of SHA-256 in front of it. -/
def paddedDigest (digest : Bytes) : Bytes :=
  0 :: 1 :: List.replicate (rsaKeyLength - 22 - digest.length) 255 ++ 0 ::
    [48, 49, 48, 13, 6, 9, 96, 134, 72, 1, 101, 3, 4, 2, 1, 5, 0, 4, 32] ++ digest

/-- The encoding of an RSA key with modulus 15 and exponent 1. -/
def smallKeyText : Bytes :=
  [48, 26, 48, 13, 6, 9, 42, 134, 72, 134, 247, 13, 1, 1, 1, 5, 0, 3, 9, 0, 48, 6, 2, 1, 15, 2, 1, 1]

/-- Base64 as it is, blocks of PEM without headers, that one key, a hash that keeps the first
bytes, and RSA with its exponents one. For runs on concrete bytes. -/
def TokenLib.plain : TokenLib where
  encode := Base64.encode
  decode := Base64.decode
  pemDecode text :=
    match split text '\n' with
    | first :: rest =>
      if first = ascii "-----BEGIN PUBLIC KEY-----" ∧
          rest.getLast? = some (ascii "-----END PUBLIC KEY-----") then
        Base64.decode rest.dropLast.flatten
      else none
    | [] => none
  parsePKIXPublicKey der := if der = smallKeyText then some (.rsa ⟨15, 1⟩) else none
  sha256 := Blocks.block 0
  signPKCS1v15 _ digest := some (paddedDigest digest)
  verifyPKCS1v15 _ digest signature := signature = paddedDigest digest

inductive TokenError where
  | missingMetadata
  | missingHeader
  | invalidTokenFormat
  | payload (text : Bytes)
  | blankEmail
  | access (email : Bytes)
  | expiration (ttl : Bytes)
  | expired
  | publicKey
  deriving DecidableEq

/-- The text of an error; `quote` is what `Printf` makes of `%q`. -/
def TokenError.text (quote : Bytes → Bytes) : TokenError → Bytes
  | missingMetadata => ascii "metadata missing from context"
  | missingHeader => ascii "authorization header missing"
  | invalidTokenFormat => ascii "invalid token format"
  | payload text => ascii "invalid token payload: " ++ quote text
  | blankEmail => ascii "getting user from payload: blank email address"
  | access email => ascii "RPC access not allowed for user " ++ quote email
  | expiration ttl => ascii "unable to parse token expiration " ++ quote ttl ++ ascii " as unix timestamp"
  | expired => ascii "expired token"
  | publicKey => ascii "invalid public key data"

/-- What the validation of a token returns. -/
structure Verdict where
  valid : Bool
  email : Bytes
  error : Option TokenError
  deriving DecidableEq

def refused (email : Bytes) (error : TokenError) : Verdict := ⟨false, email, some error⟩

/-- `strings.SplitN(s, ":", 2)`, when there are two parts. -/
def splitColon (s : Bytes) : Option (Bytes × Bytes) :=
  match s.span (· ≠ charByte ':') with
  | (email, _ :: ttl) => some (email, ttl)
  | (_, []) => none

/-- `GetUserByEmail`. The outer failure is its error; no user is found without one. -/
def getUserByEmail (users : List User) (email : Bytes) : Option (Option User) :=
  if email = [] then none else some (users.find? fun u => u.email = email)

/-- The int64 a sum of two of them is. -/
def wrap64 (n : Int) : Int := n.bmod (2 ^ 64)

/-- `data[0]`, `data[1:length+1]` and `data[length+1:]`. The first slice may end behind the
data, in its capacity, but then the second is out of range. -/
def sliceToken (data : Bytes) : Except Fault (Bytes × Bytes) :=
  match data with
  | [] => .error .sliceIndex
  | length :: _ =>
    -- the sum is one of bytes
    let behind := (length + 1).toNat
    if behind < 1 ∨ data.length < behind then .error .sliceBounds
    else .ok ((data.take behind).drop 1, data.drop behind)

/-- The checks of a payload up to the key: the user it names, if they let it through. A
user that is not found reads as one without any fields. -/
def claimant (users : List User) (now : Int) (payload : Bytes) : Except Verdict User :=
  match splitColon payload with
  | none => .error (refused [] (.payload payload))
  | some (email, ttl) =>
    match getUserByEmail users email with
    | none => .error (refused [] .blankEmail)
    | some found =>
      let u := found.getD {}
      if !u.allowRpc then .error (refused u.email (.access u.email))
      else match parseInt 64 ttl with
        | none => .error (refused u.email (.expiration ttl))
        | some expires => if expires < now then .error (refused u.email .expired) else .ok u

section
variable (lib : TokenLib)

/-- `Sign`. A signature that fails is printed and is no bytes. -/
def sign (key : PrivateKey) (plaintext : Bytes) : Bytes :=
  (lib.signPKCS1v15 key (List.ofFn (lib.sha256 plaintext))).getD []

def verifySignature (key : PublicKey) (plaintext signature : Bytes) : Bool :=
  lib.verifyPKCS1v15 key (List.ofFn (lib.sha256 plaintext)) signature

/-- `public.(*rsa.PublicKey)`, on a nil interface where the parser had an error. -/
def assertRSA : Option ParsedKey → Except Fault PublicKey
  | some (.rsa key) => .ok key
  | _ => .error .typeAssertion

/-- The lines of the key, as `pem.Decode` gets them. -/
def User.keyText (u : User) : Bytes := join u.rpcPublicKey (ascii "\n")

/-- The rest of `validateBearerToken`, with the user the payload names. -/
def checkSignature (u : User) (payload signature : Bytes) : Except Fault Verdict :=
  match lib.pemDecode u.keyText with
  | none => .ok (refused u.email .publicKey)
  | some der => do
    let pu ← assertRSA (lib.parsePKIXPublicKey der)
    .ok ⟨verifySignature lib pu payload signature, u.email, none⟩

def validateBearerToken (users : List User) (now : Int) (t : Bytes) : Except Fault Verdict :=
  match lib.decode t with
  | none => .ok (refused [] .invalidTokenFormat)
  | some data => do
    let (payload, signature) ← sliceToken data
    match claimant users now payload with
    | .error verdict => .ok verdict
    | .ok u => checkSignature lib u payload signature

/-- The tokens are the authorization headers of the request, if it has metadata. -/
def checkRPCAuthorization (users : List User) (now : Int) (md : Option (List Bytes)) :
    Except Fault Verdict :=
  match md with
  | none => .ok (refused [] .missingMetadata)
  | some [token] =>
    if (ascii "Bearer ").isPrefixOf token then validateBearerToken lib users now (token.drop 7)
    else .ok (refused [] .invalidTokenFormat)
  | some _ => .ok (refused [] .missingHeader)

/-- What is signed: the address and the time at which the token expires. -/
def tokenPayload (email : Bytes) (ttl now : Int) : Bytes :=
  email ++ ascii ":" ++ decimal (wrap64 (now + ttl))

def makeToken (email : Bytes) (ttl now : Int) (privkey : PrivateKey) : Bytes :=
  let t := tokenPayload email ttl now
  lib.encode (UInt8.ofNat t.length :: t ++ sign lib privkey t)

/-! ## Faults -/

/-- The token has a length byte below 255, and so many bytes behind it. -/
def Sliceable (data : Bytes) : Prop :=
  ∃ length rest, data = length :: rest ∧ length.toNat < 255 ∧ length.toNat ≤ rest.length

/-- Where the text of the key is that of a key at all, it is that of an RSA key. -/
def User.HasRSAKey (u : User) : Prop :=
  ∀ der, lib.pemDecode u.keyText = some der → ∃ key, lib.parsePKIXPublicKey der = some (.rsa key)

theorem toNat_succ {length : Byte} (small : length.toNat < 255) : (length + 1).toNat = length.toNat + 1 := by
  rw [UInt8.toNat_add]
  show (length.toNat + 1) % 256 = _
  omega

theorem sliceToken_eq {length : Byte} (payload signature : Bytes) (small : length.toNat < 255)
    (whole : length.toNat = payload.length) :
    sliceToken (length :: (payload ++ signature)) = .ok (payload, signature) := by
  have behind := toNat_succ small
  have inside : ¬ (payload.length + 1 < 1 ∨
      (length :: (payload ++ signature)).length < payload.length + 1) := by
    simp only [List.length_cons, List.length_append]
    omega
  simp only [sliceToken, inside, ↓reduceIte, behind, whole, List.take_succ_cons, List.drop_succ_cons,
    List.take_left, List.drop_left, List.drop_zero]

theorem sliceToken_of_sliceable {data : Bytes} (sliceable : Sliceable data) :
    sliceToken data = .ok ((data.drop 1).take (data.headD 0).toNat, (data.drop 1).drop (data.headD 0).toNat) := by
  obtain ⟨length, rest, rfl, small, enough⟩ := sliceable
  have parts := sliceToken_eq (rest.take length.toNat) (rest.drop length.toNat) small
    (List.length_take_of_le enough).symm
  rw [List.take_append_drop] at parts
  exact parts

theorem sliceToken_fault {data : Bytes} (outside : ¬ Sliceable data) :
    ∃ fault, sliceToken data = .error fault := by
  cases data with
  | nil => exact ⟨_, rfl⟩
  | cons length rest =>
    refine ⟨.sliceBounds, ?_⟩
    have bounds : (length + 1).toNat < 1 ∨ (length :: rest).length < (length + 1).toNat := by
      by_cases small : length.toNat < 255
      · have behind := toNat_succ small
        have short : ¬ length.toNat ≤ rest.length := fun enough => outside ⟨length, rest, rfl, small, enough⟩
        simp only [List.length_cons]
        omega
      · -- the length byte is 255, and the bound behind it is 0
        have last := length.toNat_lt
        have wrapped : (length + 1).toNat = 0 := by
          rw [UInt8.toNat_add]
          show (length.toNat + 1) % 256 = 0
          omega
        omega
    simp only [sliceToken, bounds, ↓reduceIte]

theorem checkSignature_returns_iff (u : User) (payload signature : Bytes) :
    (∃ verdict, checkSignature lib u payload signature = .ok verdict) ↔ u.HasRSAKey lib := by
  unfold checkSignature User.HasRSAKey
  cases lib.pemDecode u.keyText with
  | none => simp
  | some der =>
    cases parsed : lib.parsePKIXPublicKey der with
    | none => simp [assertRSA, parsed, Bind.bind, Except.bind]
    | some key => cases key <;> simp [assertRSA, parsed, Bind.bind, Except.bind]

/-- The validation of a token returns exactly if the token has the bytes it announces, fewer
than 255 of them, and a user who is let through has an RSA key, unless it has none at all. -/
theorem validateBearerToken_returns_iff (users : List User) (now : Int) (t : Bytes) :
    (∃ verdict, validateBearerToken lib users now t = .ok verdict) ↔
      ∀ data, lib.decode t = some data → Sliceable data ∧
        ∀ u, claimant users now ((data.drop 1).take (data.headD 0).toNat) = .ok u → u.HasRSAKey lib := by
  unfold validateBearerToken
  cases decoded : lib.decode t with
  | none => simp
  | some data =>
    simp only [Option.some.injEq, forall_eq']
    by_cases sliceable : Sliceable data
    · simp only [sliceToken_of_sliceable sliceable, sliceable, true_and, Bind.bind, Except.bind]
      cases claimed : claimant users now ((data.drop 1).take (data.headD 0).toNat) with
      | error verdict => simp
      | ok u => simp [checkSignature_returns_iff lib u]
    · obtain ⟨fault, sliced⟩ := sliceToken_fault sliceable
      simp [sliced, sliceable, Bind.bind, Except.bind]

/-! ## Which tokens are valid -/

/-- What a payload and its signature must be to pass as a user. -/
structure TokenPasses (users : List User) (now : Int) (u : User) (payload signature : Bytes) : Prop where
  named : u.email ≠ []
  unexpired : ∃ ttl expires, splitColon payload = some (u.email, ttl) ∧ parseInt 64 ttl = some expires ∧ now ≤ expires
  found : users.find? (fun v => v.email = u.email) = some u
  allowed : u.allowRpc = true
  verified : ∃ der key, lib.pemDecode u.keyText = some der ∧ lib.parsePKIXPublicKey der = some (.rsa key) ∧
    verifySignature lib key payload signature = true

theorem claimant_ok_iff {users : List User} {now : Int} {payload : Bytes} {u : User} :
    claimant users now payload = .ok u ↔ u.email ≠ [] ∧ u.allowRpc = true ∧
      users.find? (fun v => v.email = u.email) = some u ∧
      ∃ ttl expires, splitColon payload = some (u.email, ttl) ∧ parseInt 64 ttl = some expires ∧ now ≤ expires := by
  constructor
  · intro claimed
    unfold claimant at claimed
    split at claimed
    · cases claimed
    rename_i email ttl parts
    unfold getUserByEmail at claimed
    by_cases blank : email = []
    · simp [blank] at claimed
    simp only [blank, ↓reduceIte] at claimed
    cases found : users.find? fun v => v.email = email with
    | none => simp [found] at claimed
    | some v =>
      have same : v.email = email := by simpa using List.find?_some found
      subst same
      simp only [found, Option.getD_some] at claimed
      cases allowed : v.allowRpc with
      | false => simp [allowed] at claimed
      | true =>
        cases read : parseInt 64 ttl with
        | none => simp [allowed, read] at claimed
        | some expires =>
          simp only [allowed, read, Bool.not_true, Bool.false_eq_true, ↓reduceIte] at claimed
          split at claimed
          · cases claimed
          · rename_i early
            cases claimed
            exact ⟨blank, allowed, found, ttl, expires, parts, read, not_lt.mp early⟩
  · rintro ⟨named, allowed, found, ttl, expires, parts, read, early⟩
    simp [claimant, parts, getUserByEmail, named, found, allowed, read, not_lt.mpr early]

theorem claimant_refused {users : List User} {now : Int} {payload : Bytes} {verdict : Verdict}
    (claimed : claimant users now payload = .error verdict) : verdict.valid = false := by
  unfold claimant at claimed
  split at claimed
  · exact Except.error.inj claimed ▸ rfl
  split at claimed
  · exact Except.error.inj claimed ▸ rfl
  dsimp only at claimed
  split at claimed
  · exact Except.error.inj claimed ▸ rfl
  split at claimed
  · exact Except.error.inj claimed ▸ rfl
  split at claimed
  · exact Except.error.inj claimed ▸ rfl
  · cases claimed

theorem checkSignature_valid_iff {u : User} {payload signature : Bytes} :
    (∃ verdict, checkSignature lib u payload signature = .ok verdict ∧ verdict.valid = true ∧ verdict.email = u.email) ↔
      ∃ der key, lib.pemDecode u.keyText = some der ∧ lib.parsePKIXPublicKey der = some (.rsa key) ∧
        verifySignature lib key payload signature = true := by
  unfold checkSignature
  cases lib.pemDecode u.keyText with
  | none => simp [refused]
  | some der =>
    cases parsed : lib.parsePKIXPublicKey der with
    | none => simp [assertRSA, parsed, Bind.bind, Except.bind]
    | some key => cases key <;> simp [assertRSA, parsed, Bind.bind, Except.bind]

theorem checkSignature_email {u : User} {payload signature : Bytes} {verdict : Verdict}
    (checked : checkSignature lib u payload signature = .ok verdict) : verdict.email = u.email := by
  unfold checkSignature at checked
  split at checked
  · exact Except.ok.inj checked ▸ rfl
  · rename_i der pem
    cases asserted : assertRSA (lib.parsePKIXPublicKey der) with
    | error fault => simp [asserted, Bind.bind, Except.bind] at checked
    | ok key =>
      simp only [asserted, Bind.bind, Except.bind] at checked
      exact Except.ok.inj checked ▸ rfl

/-- A token is valid for an address exactly if it passes as the first user with it. -/
theorem validateBearerToken_valid_iff {users : List User} {now : Int} {t email : Bytes} :
    (∃ verdict, validateBearerToken lib users now t = .ok verdict ∧ verdict.valid = true ∧ verdict.email = email) ↔
      ∃ data payload signature u, lib.decode t = some data ∧ sliceToken data = .ok (payload, signature) ∧
        u.email = email ∧ TokenPasses lib users now u payload signature := by
  unfold validateBearerToken
  cases decoded : lib.decode t with
  | none => simp [refused]
  | some data =>
    cases sliced : sliceToken data with
    | error fault => simp [sliced, Bind.bind, Except.bind]
    | ok parts =>
      obtain ⟨payload, signature⟩ := parts
      simp only [sliced, Bind.bind, Except.bind, Option.some.injEq]
      constructor
      · rintro ⟨verdict, returned, valid, named⟩
        split at returned
        · rename_i other claimed
          rw [← Except.ok.inj returned, claimant_refused claimed] at valid
          cases valid
        · rename_i u claimed
          have own := checkSignature_email lib returned
          obtain ⟨blank, allowed, found, unexpired⟩ := claimant_ok_iff.mp claimed
          have verified := (checkSignature_valid_iff lib).mp ⟨verdict, returned, valid, own⟩
          exact ⟨data, payload, signature, u, rfl, sliced, own ▸ named, blank, unexpired, found, allowed, verified⟩
      · rintro ⟨_, _, _, u, rfl, same, named, passes⟩
        rw [sliced] at same
        cases same
        have claimed : claimant users now payload = .ok u :=
          claimant_ok_iff.mpr ⟨passes.named, passes.allowed, passes.found, passes.unexpired⟩
        obtain ⟨verdict, checked, valid, own⟩ := (checkSignature_valid_iff lib).mpr passes.verified
        rw [claimed]
        exact ⟨verdict, checked, valid, own.trans named⟩

end

/-- The token is empty. -/
theorem empty_token_faults : ¬ ∀ (lib : TokenLib) (users : List User) (now : Int) (t : Bytes),
    ∃ verdict, validateBearerToken lib users now t = .ok verdict := by
  intro returns
  obtain ⟨verdict, returned⟩ := returns TokenLib.plain [] 0 []
  have stopped : validateBearerToken TokenLib.plain [] 0 [] = .error .sliceIndex := rfl
  rw [stopped] at returned
  cases returned

/-! ## What the client makes the server accepts -/

theorem isInt64_wrap64 (n : Int) : IsInt64 (wrap64 n) := by
  have low := Int.le_bmod (x := n) (show 0 < 2 ^ 64 by decide)
  have high := Int.bmod_lt (x := n) (show 0 < 2 ^ 64 by decide)
  unfold IsInt64 wrap64
  omega

theorem wrap64_eq {n : Int} (range : IsInt64 n) : wrap64 n = n := by
  obtain ⟨low, high⟩ := range
  exact Int.bmod_eq_of_le (by omega) (by omega)

/-- A sum of two int64 that overflows upwards comes out below both. -/
theorem wrap64_lt {a b : Int} (first : IsInt64 a) (second : IsInt64 b) (overflow : 2 ^ 63 ≤ a + b) :
    wrap64 (a + b) < a := by
  have turned : wrap64 (a + b) = a + b - 2 ^ 64 := by
    unfold IsInt64 at first second
    rw [← wrap64_eq (n := a + b - 2 ^ 64) ⟨by omega, by omega⟩]
    exact (Int.sub_bmod_right (a + b) (2 ^ 64)).symm
  unfold IsInt64 at second
  omega

theorem splitColon_append {email : Bytes} (colonless : charByte ':' ∉ email) (ttl : Bytes) :
    splitColon (email ++ ascii ":" ++ ttl) = some (email, ttl) := by
  have before : (email ++ ascii ":" ++ ttl).span (· ≠ charByte ':') = (email, charByte ':' :: ttl) := by
    rw [List.span_eq_takeWhile_dropWhile, List.append_assoc]
    have plain : ∀ b ∈ email, decide (b ≠ charByte ':') = true := by
      intro b member
      simp only [decide_eq_true_eq]
      rintro rfl
      exact colonless member
    rw [List.takeWhile_append_of_pos plain, List.dropWhile_append_of_pos plain]
    simp [ascii]
  simp only [splitColon, before]

section
variable {lib : TokenLib} {users : List User} {u : User}

theorem claimant_tokenPayload (known : users.find? (fun v => v.email = u.email) = some u)
    (allowed : u.allowRpc = true) (colonless : charByte ':' ∉ u.email) (ttl now time : Int) :
    claimant users time (tokenPayload u.email ttl now) =
      if u.email = [] then .error (refused [] .blankEmail)
      else if wrap64 (now + ttl) < time then .error (refused u.email .expired) else .ok u := by
  have expires : parseInt 64 (decimal (wrap64 (now + ttl))) = some (wrap64 (now + ttl)) :=
    parseInt_decimal (isInt64_wrap64 (now + ttl)).1 (isInt64_wrap64 (now + ttl)).2
  simp only [claimant, tokenPayload, splitColon_append colonless, getUserByEmail]
  by_cases blank : u.email = []
  · simp only [blank, ↓reduceIte]
  · simp only [blank, ↓reduceIte, known, Option.getD_some, allowed, Bool.not_true, Bool.false_eq_true,
      expires]

theorem checkSignature_sign {key : PrivateKey} {der : Bytes} (pem : lib.pemDecode u.keyText = some der)
    (pkix : lib.parsePKIXPublicKey der = some (.rsa key.publicKey))
    (signs : ∀ text, verifySignature lib key.publicKey text (sign lib key text) = true) (text : Bytes) :
    checkSignature lib u text (sign lib key text) = .ok ⟨true, u.email, none⟩ := by
  simp only [checkSignature, pem, pkix, assertRSA, Bind.bind, Except.bind, signs text]

theorem sliceToken_payload {payload : Bytes} (short : payload.length < 255) (signature : Bytes) :
    sliceToken (UInt8.ofNat payload.length :: payload ++ signature) = .ok (payload, signature) := by
  have length : (UInt8.ofNat payload.length).toNat = payload.length := UInt8.toNat_ofNat_of_lt' (by
    show payload.length < 256
    omega)
  exact sliceToken_eq payload signature (by omega) length

theorem sliceToken_longest {payload : Bytes} (longest : payload.length = 255) (signature : Bytes) :
    sliceToken (UInt8.ofNat payload.length :: payload ++ signature) = .error .sliceBounds := by
  rw [longest]
  rfl

/-- A token that is made for a user is accepted as that user until it expires exactly if its
payload is shorter than the longest one, the address is not blank and the time at which it
expires is an int64. -/
theorem makeToken_accepted_iff {key : PrivateKey} {der : Bytes} {ttl now : Int}
    (known : users.find? (fun v => v.email = u.email) = some u) (allowed : u.allowRpc = true)
    (colonless : charByte ':' ∉ u.email) (clock : IsInt64 now) (range : IsInt64 ttl) (forward : 0 ≤ ttl)
    (fits : (tokenPayload u.email ttl now).length ≤ 255)
    (base64 : ∀ data, lib.decode (lib.encode data) = some data)
    (pem : lib.pemDecode u.keyText = some der)
    (pkix : lib.parsePKIXPublicKey der = some (.rsa key.publicKey))
    (signs : ∀ text, verifySignature lib key.publicKey text (sign lib key text) = true) :
    (∀ time, IsInt64 time → time ≤ now + ttl →
      validateBearerToken lib users time (makeToken lib u.email ttl now key) =
        .ok ⟨true, u.email, none⟩) ↔
      (tokenPayload u.email ttl now).length < 255 ∧ u.email ≠ [] ∧ now + ttl < 2 ^ 63 := by
  have claimed := claimant_tokenPayload known allowed colonless ttl now
  have signed := checkSignature_sign pem pkix signs
  constructor
  · intro accepted
    have early := accepted now clock (by omega)
    simp only [validateBearerToken, makeToken, base64] at early
    have short : (tokenPayload u.email ttl now).length < 255 := by
      by_contra long
      rw [sliceToken_longest (by omega)] at early
      cases early
    rw [sliceToken_payload short] at early
    simp only [Bind.bind, Except.bind, claimed now] at early
    have named : u.email ≠ [] := by
      intro blank
      simp [blank, refused] at early
    refine ⟨short, named, ?_⟩
    by_contra overflow
    have expired := wrap64_lt clock range (not_lt.mp overflow)
    simp [named, expired, refused] at early
  · rintro ⟨short, named, represented⟩ time - early
    have exact : wrap64 (now + ttl) = now + ttl := wrap64_eq ⟨by have := clock.1; omega, represented⟩
    simp only [validateBearerToken, makeToken, base64, sliceToken_payload short, Bind.bind, Except.bind,
      claimed time, named, ↓reduceIte, exact, not_lt.mpr early, signed]

end

def smallKey : PrivateKey := ⟨⟨15, 1⟩, 1⟩

/-- A user with that key and the other fields of an account. -/
def keyHolder (email : Bytes) : User where
  email := email
  rpcPublicKey := [ascii "-----BEGIN PUBLIC KEY-----", ascii "MBowDQYJKoZIhvcNAQEBBQADCQAwBgIBDwIBAQ==",
    ascii "-----END PUBLIC KEY-----"]
  allowRpc := true

theorem plain_pem (email : Bytes) : TokenLib.plain.pemDecode (keyHolder email).keyText = some smallKeyText := by
  show TokenLib.plain.pemDecode (keyHolder []).keyText = some smallKeyText
  decide +kernel

theorem plain_signs (key : PublicKey) (text : Bytes) :
    verifySignature TokenLib.plain key text (sign TokenLib.plain smallKey text) = true := by
  simp [verifySignature, sign, TokenLib.plain]

theorem makeToken_accepted_claire :
    (∀ time, IsInt64 time → time ≤ 1767019152 + 5 →
      validateBearerToken TokenLib.plain [keyHolder (ascii "claire@packetflinger.com")] time
        (makeToken TokenLib.plain (ascii "claire@packetflinger.com") 5 1767019152 smallKey) =
          .ok ⟨true, ascii "claire@packetflinger.com", none⟩) ↔
      (tokenPayload (ascii "claire@packetflinger.com") 5 1767019152).length < 255 ∧
        ascii "claire@packetflinger.com" ≠ [] ∧ (1767019152 + 5 : Int) < 2 ^ 63 :=
  makeToken_accepted_iff (u := keyHolder (ascii "claire@packetflinger.com")) (by decide) rfl (by decide)
    (by unfold IsInt64; omega) (by unfold IsInt64; omega) (by decide) (by decide)
    Base64.decode_encode (plain_pem _) rfl (plain_signs smallKey.publicKey)

/-- The payload has 255 bytes. -/
theorem longest_token_faults : ¬ ∀ (lib : TokenLib) (users : List User) (u : User) (key : PrivateKey)
    (der : Bytes) (ttl now : Int), users.find? (fun v => v.email = u.email) = some u →
    u.allowRpc = true → charByte ':' ∉ u.email → IsInt64 now → IsInt64 ttl → 0 ≤ ttl →
    (tokenPayload u.email ttl now).length ≤ 255 → (∀ data, lib.decode (lib.encode data) = some data) →
    lib.pemDecode u.keyText = some der → lib.parsePKIXPublicKey der = some (.rsa key.publicKey) →
    (∀ text, verifySignature lib key.publicKey text (sign lib key text) = true) →
    ∀ time, IsInt64 time → time ≤ now + ttl →
      validateBearerToken lib users time (makeToken lib u.email ttl now key) =
        .ok ⟨true, u.email, none⟩ := by
  intro accepts
  have longest : (tokenPayload (List.replicate 244 (charByte 'a')) 5 1767019152).length = 255 := by decide +kernel
  have accepted := accepts TokenLib.plain [keyHolder (List.replicate 244 (charByte 'a'))]
    (keyHolder (List.replicate 244 (charByte 'a'))) smallKey smallKeyText 5 1767019152 (by decide +kernel) rfl
    (by decide +kernel) (by unfold IsInt64; omega) (by unfold IsInt64; omega) (by decide) longest.le
    Base64.decode_encode (plain_pem _) rfl (plain_signs smallKey.publicKey) 1767019152
    (by unfold IsInt64; omega) (by decide)
  have base64 : ∀ data, TokenLib.plain.decode (TokenLib.plain.encode data) = some data := Base64.decode_encode
  change validateBearerToken _ _ _ (makeToken _ (List.replicate 244 (charByte 'a')) _ _ _) = _ at accepted
  simp only [validateBearerToken, makeToken, base64, sliceToken_longest longest] at accepted
  cases accepted

end Q2Admin
