import Q2Admin.RpcToken
import Q2Admin.Website

/-! The users and how they get in: the keys of `backend/ssh.go`, the sessions of
`backend/website.go`, and the logins of `backend/oauth.go` that begin them. A `*pb.User` is
an index into `be.users`. -/

namespace Q2Admin
open Go

/-- `message Session`, as far as it is filled. -/
structure WebSession where
  id : Bytes := []
  creation : Int := 0
  expiration : Int := 0
  authToken : Bytes := []
  avatar : Bytes := []
  name : Bytes := []
  deriving DecidableEq

/-- `message User` with its other fields. A nil session reads like an empty one. -/
structure Account extends User where
  uuid : Bytes := []
  name : Bytes := []
  disabled : Bool := false
  session : WebSession := {}
  publicKey : Bytes := []
  allowSsh : Bool := false
  deriving DecidableEq

instance : Inhabited Account := ⟨{}⟩

/-- `jwt.StandardClaims`, as far as it is filled. -/
structure JwtClaims where
  expiresAt : Int
  id : Bytes
  issuedAt : Int
  subject : Bytes
  deriving DecidableEq

/-- The libraries that keys and cookies go through. -/
structure AccountLib where
  /-- `ssh.ParseAuthorizedKey`: the key in its wire format, by which `ssh.KeysEqual` compares. -/
  parseAuthorizedKey : Bytes → Option Bytes
  /-- `jwt.NewWithClaims` and `SignedString` with this secret, or the error. -/
  signedString : JwtClaims → Bytes → Except Bytes Bytes
  /-- `jwt.ParseWithClaims` of this token, with this secret and at this time: the claims and
  whether the token is valid, unless there is an error. -/
  parseWithClaims : Bytes → Bytes → Int → Option (JwtClaims × Bool)
  /-- `%q`. -/
  quote : Bytes → Bytes

/-- What the website reads of the process. -/
structure Site where
  /-- `be.users` -/
  users : List Account
  /-- `Website.Secret` -/
  secret : Bytes
  /-- `time.Now().Unix()` -/
  now : Int

namespace Site

def user (s : Site) (i : Nat) : Account := s.users.getD i default

/-- The first user with this address. -/
def named (s : Site) (email : Bytes) : Option Nat := s.users.findIdx? fun u => u.email = email

/-- The last user with this address. -/
def lastNamed (s : Site) (email : Bytes) : Option Account := s.users.reverse.find? fun u => u.email = email

/-- `GetUserByEmail`. The outer failure is its error. -/
def getUserByEmail (s : Site) (email : Bytes) : Option (Option Nat) :=
  if email = [] then none else some (s.named email)

def setSession (s : Site) (i : Nat) (session : WebSession) : Site :=
  { s with users := s.users.modify i fun u => { u with session := session } }

end Site

section
variable (lib : AccountLib)

/-- `publicKeyHandler`. -/
def publicKeyHandler (s : Site) (login key : Bytes) : Bool :=
  match s.lastNamed login with
  | none => false
  | some usr =>
    if usr.disabled then false
    else if !usr.allowSsh then false
    else match lib.parseAuthorizedKey usr.publicKey with
      | none => false
      | some pub => key = pub

/-- `CreateSessionToken`. An empty id is replaced by a `fresh` one. -/
def createSessionToken (u : Account) (id fresh : Bytes) (length : Int) (secret : Bytes) (now : Int) :
    Except Bytes Bytes :=
  if secret = [] then .error (ascii "can't create session token: empty secret")
  else
    let length := if length < 600 then 600 else length
    lib.signedString {
      expiresAt := now + length
      id := if id = [] then fresh else id
      issuedAt := now
      subject := u.email } secret

/-- `ValidateSessionToken`. -/
def validateSessionToken (s : Site) (token : Bytes) : Except Bytes Nat :=
  match lib.parseWithClaims token s.secret s.now with
  | none => .error (ascii "unable to parse session token")
  | some (claims, valid) =>
    if valid then
      match s.named claims.subject with
      | some i => .ok i
      | none => .error (ascii "unknown session user: " ++ claims.subject)
    else .error (ascii "invalid session token")

/-- `GetSessionUser`, by the cookie of the request. -/
def getSessionUser (s : Site) (cookie : Option Bytes) : Except Bytes Nat :=
  match cookie with
  | none => .error (ascii "http: named cookie not present")
  | some value => validateSessionToken lib s value

/-- A session with this id, and within its time. -/
def WebSession.current (session : WebSession) (id : Bytes) (now : Int) : Bool :=
  session.id = id && session.creation ≤ now && now < session.expiration

/-- `ValidateSession`. -/
def validateSession (s : Site) (sess : Bytes) : Except Bytes Nat := do
  let _ ← validateSessionToken lib s sess
  match s.users.findIdx? fun u => u.session.current sess s.now with
  | some i => .ok i
  | none => .error (ascii "invalid session")

/-- `AuthLogout`. -/
def authLogout (s : Site) (cookie : Option Bytes) : Site :=
  match getSessionUser lib s cookie with
  | .error _ => s
  | .ok i => s.setSession i {}

/-- What a login does. -/
structure LoginResult where
  site : Site
  /-- The cookie that is set. -/
  cookie : Option Bytes := none
  reply : Reply := .text []

/-- The end of every login: a signed token for the cookie and a session for the user. -/
def beginSession (s : Site) (i : Nat) (ttl : Int) (session : WebSession) : LoginResult :=
  match createSessionToken lib (s.user i) session.id [] ttl s.secret s.now with
  | .error _ => { site := s }
  | .ok signedJWT => {
      site := s.setSession i session
      cookie := some signedJWT
      reply := .redirect 302 (ascii "/dashboard") }

/-- `MockLogin`. The `id` is what `uuid.NewString` returns. -/
def mockLogin (s : Site) (email id : Bytes) : LoginResult :=
  match s.getUserByEmail email with
  | none => { site := s }
  | some none => {
      site := s
      reply := .text (ascii "User " ++ lib.quote email ++ ascii " unknown, you can only mock existing users") }
  | some (some i) =>
    let ttl := 86400
    beginSession lib s i ttl {
      id := id
      creation := s.now
      expiration := s.now + ttl
      authToken := ascii "blah"
      name := if (s.user i).name = [] then email else (s.user i).name }

/-- What a provider says about who has signed in there. -/
structure Profile where
  email : Bytes
  /-- What a user without a name is called. -/
  username : Bytes
  /-- The address of a picture. -/
  picture : Bytes
  accessToken : Bytes
  /-- The time at which the access token expires. -/
  expiry : Int

/-- The session that begins with a profile. -/
def Profile.session (profile : Profile) (u : Account) (id : Bytes) (now : Int) : WebSession where
  id := id
  creation := now
  expiration := profile.expiry
  authToken := profile.accessToken
  avatar := profile.picture
  name := if u.name = [] then profile.username else u.name

/-- `ProcessDiscordLogin` from the profile on. A day is given in nanoseconds, and counts as seconds. -/
def processDiscordLogin (s : Site) (profile : Profile) (id : Bytes) : LoginResult :=
  match s.getUserByEmail profile.email with
  | none => { site := s }
  -- there is no check for a user who is not found
  | some none => { site := s, reply := .aborted }
  | some (some i) =>
    let ttl := 1000000000 * 86400
    beginSession lib s i ttl (profile.session (s.user i) id s.now)

/-- `ProcessGoogleLogin` from the profile on: an unknown user is added, under a `fresh` UUID.
Writing the file of users may fail. -/
def processGoogleLogin (s : Site) (profile : Profile) (id fresh : Bytes) (written : Bool) : LoginResult :=
  let ttl := 86400
  match s.getUserByEmail profile.email with
  | none => { site := s }
  | some none =>
    let u : Account := { uuid := fresh, email := profile.email }
    let s := { s with users := s.users ++ [u] }
    if written then beginSession lib s (s.users.length - 1) ttl (profile.session u id s.now) else { site := s }
  | some (some i) => beginSession lib s i ttl (profile.session (s.user i) id s.now)

end

/-- The key of a user who may use it. -/
def Account.AcceptsKey (lib : AccountLib) (u : Account) (key : Bytes) : Prop :=
  u.allowSsh = true ∧ lib.parseAuthorizedKey u.publicKey = some key

section
variable {lib : AccountLib} {s : Site} {i : Nat}

theorem publicKeyHandler_iff {login key : Bytes} : publicKeyHandler lib s login key = true ↔
    ∃ u, s.lastNamed login = some u ∧ u.disabled = false ∧ u.AcceptsKey lib key := by
  unfold publicKeyHandler Account.AcceptsKey
  cases s.lastNamed login with
  | none => simp
  | some u =>
    cases disabled : u.disabled with
    | true => simp [disabled]
    | false =>
      cases allowed : u.allowSsh with
      | false => simp [disabled, allowed]
      | true =>
        cases parsed : lib.parseAuthorizedKey u.publicKey with
        | none => simp [disabled, allowed, parsed]
        | some pub =>
          simp only [disabled, allowed, parsed, Option.some.injEq, true_and, exists_eq_left']
          simp [eq_comm]

theorem validateSessionToken_ok_iff {token : Bytes} : validateSessionToken lib s token = .ok i ↔
    ∃ claims, lib.parseWithClaims token s.secret s.now = some (claims, true) ∧ s.named claims.subject = some i := by
  unfold validateSessionToken
  cases lib.parseWithClaims token s.secret s.now with
  | none => simp
  | some parsed =>
    obtain ⟨claims, valid⟩ := parsed
    cases valid with
    | false => simp
    | true => cases named : s.named claims.subject <;> simp [named]

theorem validateSession_ok_iff {sess : Bytes} : validateSession lib s sess = .ok i ↔
    (∃ j, validateSessionToken lib s sess = .ok j) ∧
      s.users.findIdx? (fun u => u.session.current sess s.now) = some i := by
  unfold validateSession
  cases validateSessionToken lib s sess with
  | error failure => simp [Bind.bind, Except.bind]
  | ok j =>
    cases found : s.users.findIdx? fun u => u.session.current sess s.now <;>
      simp [Bind.bind, Except.bind]

end

/-- Libraries that know one token: the claims it is signed for, and the secret. -/
def AccountLib.only (claims : JwtClaims) (secret token : Bytes) : AccountLib where
  parseAuthorizedKey := some
  signedString c key := if c = claims ∧ key = secret then .ok token else .error (ascii "unknown claims")
  parseWithClaims t key now :=
    if t = token ∧ key = secret ∧ claims.issuedAt ≤ now ∧ now ≤ claims.expiresAt then some (claims, true) else none
  quote s := charByte '"' :: s ++ [charByte '"']

theorem AccountLib.only_parse {claims : JwtClaims} {now : Int} (secret token : Bytes) (issued : claims.issuedAt ≤ now)
    (early : now ≤ claims.expiresAt) :
    (AccountLib.only claims secret token).parseWithClaims token secret now = some (claims, true) :=
  if_pos ⟨rfl, rfl, issued, early⟩

/-- The claims of a login at 1728145800, and the token it gets. -/
def loginClaims : JwtClaims where
  expiresAt := 1728232200
  id := ascii "6fa1"
  issuedAt := 1728145800
  subject := ascii "claire@q2"

def loginToken : Bytes := ascii <|
  "eyJhbGciOiJIUzI1NiIsInR5cCI6IkpXVCJ9." ++
  "eyJleHAiOjE3MjgyMzIyMDAsImp0aSI6IjZmYTEiLCJpYXQiOjE3MjgxNDU4MDAsInN1YiI6ImNsYWlyZUBxMiJ9." ++
  "WQ2ViOX3Lly6lM5ybLrNMKyL9t3YUBjK9oaWuC07ewU"

def loginLib : AccountLib := .only loginClaims (ascii "tastyspleen") loginToken

end Q2Admin
