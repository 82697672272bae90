import Q2Admin.Lib.Runs
import Q2Admin.Accounts

/-! The life of a session: logins, logouts, and what the two checks of a session say of the
cookies that logins have set. One reads the signed token and nothing else, the other looks for
the whole cookie among the ids of the sessions, where it never is. -/

namespace Q2Admin
open Go Lib

/-- A cookie that a login has set, and what is to become of it. -/
structure Issued where
  cookie : Bytes
  user : Nat
  /-- The expiration that is signed. -/
  tokenExpires : Int
  /-- The expiration of the session. -/
  sessionExpires : Int
  /-- Somebody has logged out with it. -/
  ended : Bool := false
  deriving DecidableEq

structure SiteRun where
  site : Site
  issued : List Issued := []

inductive SiteEvent where
  | mockLogin (email id : Bytes)
  | discordLogin (profile : Profile) (id : Bytes)
  | googleLogin (profile : Profile) (id fresh : Bytes) (written : Bool)
  | logout (cookie : Option Bytes)
  | tick (seconds : Nat)

/-- A UUID, other than a signed token, has no dots. -/
def SiteEvent.Fresh : SiteEvent → Prop
  | .mockLogin _ id => charByte '.' ∉ id
  | .discordLogin _ id => charByte '.' ∉ id
  | .googleLogin _ id _ _ => charByte '.' ∉ id
  | .logout _ => True
  | .tick _ => True

instance SiteEvent.decidableFresh : (e : SiteEvent) → Decidable e.Fresh
  | .mockLogin _ id => inferInstanceAs (Decidable (charByte '.' ∉ id))
  | .discordLogin _ id => inferInstanceAs (Decidable (charByte '.' ∉ id))
  | .googleLogin _ id _ _ => inferInstanceAs (Decidable (charByte '.' ∉ id))
  | .logout _ => inferInstanceAs (Decidable True)
  | .tick _ => inferInstanceAs (Decidable True)

/-- The cookie of a login of the user with this address, for a token that lasts so long. -/
def LoginResult.issued (result : LoginResult) (email : Bytes) (ttl : Int) : List Issued :=
  match result.cookie, result.site.named email with
  | some cookie, some i => [{
      cookie := cookie
      user := i
      tokenExpires := result.site.now + ttl
      sessionExpires := (result.site.user i).session.expiration }]
  | _, _ => []

def SiteRun.login (r : SiteRun) (result : LoginResult) (email : Bytes) (ttl : Int) : SiteRun where
  site := result.site
  issued := r.issued ++ result.issued email ttl

def SiteRun.logout (lib : AccountLib) (r : SiteRun) (cookie : Option Bytes) : SiteRun where
  site := authLogout lib r.site cookie
  issued := r.issued.map fun c => if cookie = some c.cookie then { c with ended := true } else c

def AccountLib.siteStep (lib : AccountLib) (r : SiteRun) : SiteEvent → Except Empty SiteRun
  | .mockLogin email id => .ok (r.login (mockLogin lib r.site email id) email 86400)
  | .discordLogin profile id =>
    .ok (r.login (processDiscordLogin lib r.site profile id) profile.email (1000000000 * 86400))
  | .googleLogin profile id fresh written =>
    .ok (r.login (processGoogleLogin lib r.site profile id fresh written) profile.email 86400)
  | .logout cookie => .ok (r.logout lib cookie)
  | .tick seconds => .ok { r with site := { r.site with now := r.site.now + seconds } }

/-- What a check should say of a cookie: the user who logged in, until the session has been
logged out of or has expired. -/
def Issued.expected (c : Issued) (now : Int) : Option Nat :=
  if c.ended = true ∨ c.sessionExpires ≤ now then none else some c.user

/-- Both checks say what they should. -/
def SiteRun.Agrees (lib : AccountLib) (r : SiteRun) (c : Issued) : Prop :=
  (getSessionUser lib r.site (some c.cookie)).toOption = c.expected r.site.now ∧
    (validateSession lib r.site c.cookie).toOption = c.expected r.site.now

instance (lib : AccountLib) (r : SiteRun) (c : Issued) : Decidable (r.Agrees lib c) :=
  inferInstanceAs (Decidable (_ ∧ _))

/-- Tokens signed with the secret are valid from their issue to their expiration, and they
have dots between their parts. -/
structure AccountLib.Correct (lib : AccountLib) (secret : Bytes) : Prop where
  valid : ∀ claims token now, lib.signedString claims secret = .ok token → 0 < claims.issuedAt →
    claims.issuedAt ≤ now → now ≤ claims.expiresAt → lib.parseWithClaims token secret now = some (claims, true)
  expired : ∀ claims token now, lib.signedString claims secret = .ok token → 0 < claims.expiresAt →
    claims.expiresAt < now → lib.parseWithClaims token secret now = none
  dotted : ∀ claims token, lib.signedString claims secret = .ok token → charByte '.' ∈ token

/-! ## What later states keep -/

/-- What stays as it is at the site. -/
structure Site.Later (s s' : Site) : Prop where
  secret : s'.secret = s.secret
  now : s.now ≤ s'.now
  named : ∀ email i, s.named email = some i → s'.named email = some i

/-- The ids of the sessions are UUIDs. -/
def Site.PlainIds (s : Site) : Prop := ∀ u ∈ s.users, charByte '.' ∉ u.session.id

instance (s : Site) : Decidable s.PlainIds := inferInstanceAs (Decidable (∀ u ∈ s.users, charByte '.' ∉ u.session.id))

/-- A cookie is the token of a login of its user that is past. -/
def Issued.Sound (lib : AccountLib) (s : Site) (c : Issued) : Prop :=
  ∃ claims, lib.signedString claims s.secret = .ok c.cookie ∧ claims.expiresAt = c.tokenExpires ∧
    0 < claims.issuedAt ∧ claims.issuedAt ≤ claims.expiresAt ∧ claims.issuedAt ≤ s.now ∧
    s.named claims.subject = some c.user

variable {lib : AccountLib} {s s' : Site} {c : Issued} {i : Nat}

theorem Site.Later.refl (s : Site) : s.Later s := ⟨rfl, le_rfl, fun _ _ => id⟩

theorem Issued.Sound.later (sound : c.Sound lib s) (later : s.Later s') : c.Sound lib s' := by
  obtain ⟨claims, signed, expires, positive, ordered, past, user⟩ := sound
  exact ⟨claims, later.secret ▸ signed, expires, positive, ordered, past.trans later.now, later.named _ _ user⟩

theorem Issued.Sound.end (sound : c.Sound lib s) : ({ c with ended := true }).Sound lib s := sound

theorem Site.named_eq (s : Site) (email : Bytes) :
    s.named email = (s.users.map fun u => u.email).findIdx? fun e => e = email := by
  rw [Site.named, List.findIdx?_map]
  rfl

theorem Site.named_setSession (s : Site) (i : Nat) (session : WebSession) (email : Bytes) :
    (s.setSession i session).named email = s.named email := by
  have emails : ((s.setSession i session).users.map fun u => u.email) = s.users.map fun u => u.email := by
    apply List.ext_getElem?
    intro n
    simp only [Site.setSession, List.getElem?_map, List.getElem?_modify]
    cases s.users[n]? with
    | none => rfl
    | some u => by_cases same : i = n <;> simp [same]
  rw [Site.named_eq, Site.named_eq, emails]

theorem Site.later_setSession (s : Site) (i : Nat) (session : WebSession) : s.Later (s.setSession i session) :=
  ⟨rfl, le_rfl, fun email _ found => (s.named_setSession i session email).trans found⟩

theorem Site.later_append (s : Site) (u : Account) : s.Later { s with users := s.users ++ [u] } := by
  refine ⟨rfl, le_rfl, fun email i found => ?_⟩
  rw [Site.named] at found ⊢
  rw [List.findIdx?_append, found]
  rfl

theorem Site.named_inside {email : Bytes} (found : s.named email = some i) :
    i < s.users.length ∧ (s.user i).email = email := by
  obtain ⟨inside, same, -⟩ := List.findIdx?_eq_some_iff_getElem.mp found
  exact ⟨inside, by simpa [Site.user, inside] using same⟩

theorem Site.PlainIds.setSession (plain : s.PlainIds) {session : WebSession} (id : charByte '.' ∉ session.id) :
    (s.setSession i session).PlainIds := by
  intro u member
  obtain ⟨n, found⟩ := List.mem_iff_getElem?.mp member
  rw [Site.setSession, List.getElem?_modify] at found
  obtain ⟨old, before, same⟩ := Option.map_eq_some_iff.mp found
  split at same
  · exact same ▸ id
  · exact same ▸ plain old (List.mem_of_getElem? before)

theorem Site.getUserByEmail_some {email : Bytes} (found : s.getUserByEmail email = some (some i)) :
    s.named email = some i := by
  unfold Site.getUserByEmail at found
  split at found
  · cases found
  · exact Option.some.inj found

theorem Site.getUserByEmail_unknown {email : Bytes} (found : s.getUserByEmail email = some none) :
    s.named email = none := by
  unfold Site.getUserByEmail at found
  split at found
  · cases found
  · exact Option.some.inj found

/-- A user who is added under a new address is found by it. -/
theorem Site.named_append_new (s : Site) {u : Account} (new : s.named u.email = none) :
    ({ s with users := s.users ++ [u] } : Site).named u.email = some ((s.users ++ [u]).length - 1) := by
  rw [Site.named] at new ⊢
  rw [List.findIdx?_append, new]
  simp

/-! ## Steps -/

/-- What a login leaves: a later state, plain ids, and sound cookies. -/
structure LoginResult.Sound (lib : AccountLib) (s : Site) (result : LoginResult) (email : Bytes) (ttl : Int) :
    Prop where
  later : s.Later result.site
  plain : result.site.PlainIds
  issued : ∀ c ∈ result.issued email ttl, c.Sound lib result.site

variable {email : Bytes} {ttl : Int}

theorem LoginResult.sound_none {result : LoginResult} (later : s.Later result.site) (plain : result.site.PlainIds)
    (nothing : result.cookie = none) : result.Sound lib s email ttl := by
  refine ⟨later, plain, fun c member => ?_⟩
  simp [LoginResult.issued, nothing] at member

theorem LoginResult.Sound.before {s₀ : Site} {result : LoginResult} (sound : result.Sound lib s email ttl)
    (before : s₀.Later s) : result.Sound lib s₀ email ttl where
  later :=
    { secret := sound.later.secret.trans before.secret
      now := before.now.trans sound.later.now
      named := fun email i found => sound.later.named email i (before.named email i found) }
  plain := sound.plain
  issued := sound.issued

theorem beginSession_sound {session : WebSession} (plain : s.PlainIds) (clock : 0 < s.now)
    (user : s.named email = some i) (id : charByte '.' ∉ session.id) (long : 600 ≤ ttl) :
    (beginSession lib s i ttl session).Sound lib s email ttl := by
  unfold beginSession
  split
  · exact LoginResult.sound_none (.refl s) plain rfl
  rename_i signedJWT token
  refine ⟨s.later_setSession i session, plain.setSession id, fun c member => ?_⟩
  have named : (s.setSession i session).named email = some i := (s.named_setSession i session email).trans user
  simp only [LoginResult.issued, named, List.mem_singleton] at member
  subst member
  have own : (s.user i).email = email := (Site.named_inside user).2
  unfold createSessionToken at token
  split at token
  · cases token
  simp only [not_lt.mpr long, ↓reduceIte] at token
  refine ⟨_, token, rfl, clock, ?_, le_rfl, ?_⟩
  · show s.now ≤ s.now + ttl
    omega
  · rw [own]
    exact named

theorem mockLogin_sound (plain : s.PlainIds) (clock : 0 < s.now) (email : Bytes) {id : Bytes}
    (fresh : charByte '.' ∉ id) : (mockLogin lib s email id).Sound lib s email 86400 := by
  unfold mockLogin
  split
  · exact LoginResult.sound_none (.refl s) plain rfl
  · exact LoginResult.sound_none (.refl s) plain rfl
  · rename_i i found
    exact beginSession_sound plain clock (Site.getUserByEmail_some found) fresh (by decide)

theorem processDiscordLogin_sound (plain : s.PlainIds) (clock : 0 < s.now) (profile : Profile) {id : Bytes}
    (fresh : charByte '.' ∉ id) :
    (processDiscordLogin lib s profile id).Sound lib s profile.email (1000000000 * 86400) := by
  unfold processDiscordLogin
  split
  · exact LoginResult.sound_none (.refl s) plain rfl
  · exact LoginResult.sound_none (.refl s) plain rfl
  · rename_i i found
    exact beginSession_sound plain clock (Site.getUserByEmail_some found) fresh (by decide)

theorem processGoogleLogin_sound (plain : s.PlainIds) (clock : 0 < s.now) (profile : Profile) {id : Bytes}
    (fresh : charByte '.' ∉ id) (uuid : Bytes) (written : Bool) :
    (processGoogleLogin lib s profile id uuid written).Sound lib s profile.email 86400 := by
  unfold processGoogleLogin
  split
  · exact LoginResult.sound_none (.refl s) plain rfl
  · rename_i found
    have added := s.later_append { uuid := uuid, email := profile.email }
    have plain_added : ({ s with users := s.users ++ [{ uuid := uuid, email := profile.email }] } : Site).PlainIds := by
      intro u member
      rcases List.mem_append.mp member with old | new
      · exact plain u old
      · rw [List.mem_singleton.mp new]
        exact List.not_mem_nil
    dsimp only
    split
    · refine (beginSession_sound plain_added clock ?_ fresh (by decide)).before added
      exact s.named_append_new (Site.getUserByEmail_unknown found)
    · exact LoginResult.sound_none added plain_added rfl
  · rename_i i found
    exact beginSession_sound plain clock (Site.getUserByEmail_some found) fresh (by decide)

/-- What a run relies on, and keeps. -/
structure SiteRun.Sound (lib : AccountLib) (secret : Bytes) (r : SiteRun) : Prop where
  secret : r.site.secret = secret
  clock : 0 < r.site.now
  plain : r.site.PlainIds
  issued : ∀ c ∈ r.issued, c.Sound lib r.site

variable {secret : Bytes}

theorem SiteRun.Sound.login {r : SiteRun} {result : LoginResult} (sound : r.Sound lib secret)
    (new : result.Sound lib r.site email ttl) : (r.login result email ttl).Sound lib secret where
  secret := new.later.secret.trans sound.secret
  clock := sound.clock.trans_le new.later.now
  plain := new.plain
  issued := by
    intro c member
    rcases List.mem_append.mp member with old | issued
    · exact (sound.issued c old).later new.later
    · exact new.issued c issued

theorem authLogout_later (lib : AccountLib) (s : Site) (cookie : Option Bytes) : s.Later (authLogout lib s cookie) := by
  unfold authLogout
  split
  · exact .refl s
  · exact s.later_setSession ..

theorem authLogout_plain (plain : s.PlainIds) (cookie : Option Bytes) : (authLogout lib s cookie).PlainIds := by
  unfold authLogout
  split
  · exact plain
  · exact plain.setSession List.not_mem_nil

theorem SiteRun.Sound.logout {r : SiteRun} (sound : r.Sound lib secret) (cookie : Option Bytes) :
    (r.logout lib cookie).Sound lib secret where
  secret := (authLogout_later lib r.site cookie).secret.trans sound.secret
  clock := sound.clock.trans_le (authLogout_later lib r.site cookie).now
  plain := authLogout_plain sound.plain cookie
  issued := by
    intro c member
    obtain ⟨old, before, rfl⟩ := List.mem_map.mp member
    have kept := (sound.issued old before).later (authLogout_later lib r.site cookie)
    split
    · exact kept.end
    · exact kept

theorem SiteRun.Sound.tick {r : SiteRun} (sound : r.Sound lib secret) (seconds : Nat) :
    ({ r with site := { r.site with now := r.site.now + seconds } } : SiteRun).Sound lib secret where
  secret := sound.secret
  clock := by
    have := sound.clock
    show 0 < r.site.now + seconds
    omega
  plain := sound.plain
  issued := by
    intro c member
    refine (sound.issued c member).later ⟨rfl, ?_, fun _ _ => id⟩
    show r.site.now ≤ r.site.now + seconds
    omega

theorem SiteRun.Sound.step {r r' : SiteRun} {e : SiteEvent} (sound : r.Sound lib secret) (fresh : e.Fresh)
    (stepped : lib.siteStep r e = .ok r') : r'.Sound lib secret := by
  cases e with
  | mockLogin email id =>
    exact Except.ok.inj stepped ▸ sound.login (mockLogin_sound sound.plain sound.clock email fresh)
  | discordLogin profile id =>
    exact Except.ok.inj stepped ▸ sound.login (processDiscordLogin_sound sound.plain sound.clock profile fresh)
  | googleLogin profile id uuid written =>
    exact Except.ok.inj stepped ▸
      sound.login (processGoogleLogin_sound sound.plain sound.clock profile fresh uuid written)
  | logout cookie => exact Except.ok.inj stepped ▸ sound.logout cookie
  | tick seconds => exact Except.ok.inj stepped ▸ sound.tick seconds

/-! ## What the checks say -/

/-- While the token is valid, the first check finds the user. -/
theorem getSessionUser_valid (correct : lib.Correct s.secret) (sound : c.Sound lib s)
    (early : s.now ≤ c.tokenExpires) : getSessionUser lib s (some c.cookie) = .ok c.user := by
  obtain ⟨claims, signed, expires, positive, -, past, user⟩ := sound
  have parsed := correct.valid claims c.cookie s.now signed positive past (expires ▸ early)
  exact validateSessionToken_ok_iff.mpr ⟨claims, parsed, user⟩

theorem getSessionUser_expired (correct : lib.Correct s.secret) (sound : c.Sound lib s)
    (late : c.tokenExpires < s.now) : (getSessionUser lib s (some c.cookie)).toOption = none := by
  obtain ⟨claims, signed, expires, positive, ordered, -, -⟩ := sound
  have parsed := correct.expired claims c.cookie s.now signed (positive.trans_le ordered) (expires ▸ late)
  simp [getSessionUser, validateSessionToken, parsed, Except.toOption]

/-- The second check never finds anybody: no session has the whole cookie for its id. -/
theorem validateSession_never (correct : lib.Correct s.secret) (plain : s.PlainIds) (sound : c.Sound lib s) :
    (validateSession lib s c.cookie).toOption = none := by
  cases checked : validateSession lib s c.cookie with
  | error failure => rfl
  | ok i =>
    obtain ⟨claims, signed, -⟩ := sound
    obtain ⟨-, found⟩ := validateSession_ok_iff.mp checked
    obtain ⟨inside, current, -⟩ := List.findIdx?_eq_some_iff_getElem.mp found
    simp only [WebSession.current, Bool.and_eq_true, decide_eq_true_eq] at current
    have dotted := correct.dotted claims c.cookie signed
    rw [← current.1.1] at dotted
    exact absurd dotted (plain _ (List.getElem_mem inside))

theorem agrees_iff {r : SiteRun} (correct : lib.Correct secret) (sound : r.Sound lib secret) (member : c ∈ r.issued) :
    r.Agrees lib c ↔ c.tokenExpires < r.site.now ∧ (c.ended = true ∨ c.sessionExpires ≤ r.site.now) := by
  rw [← sound.secret] at correct
  have issued := sound.issued c member
  rw [SiteRun.Agrees, validateSession_never correct sound.plain issued]
  by_cases late : c.tokenExpires < r.site.now
  · rw [getSessionUser_expired correct issued late, and_self, Issued.expected, eq_comm]
    simp [late, or_iff_not_imp_left]
  · rw [getSessionUser_valid correct issued (not_lt.mp late)]
    refine iff_of_false (fun both => ?_) fun behind => late behind.1
    have same := both.1.trans both.2.symm
    cases same

/-- In every run of logins and logouts, the two checks follow a session exactly when its token
has expired and it is over: until then the one lets in whoever has the cookie, logged out or
not, and the other nobody. -/
theorem session_checks_agree_iff {r r' : SiteRun} {events : List SiteEvent} (correct : lib.Correct r.site.secret)
    (start : r.issued = []) (clock : 0 < r.site.now) (plain : r.site.PlainIds)
    (fresh : Allowed lib.siteStep (fun _ e => e.Fresh) r events) (ran : run lib.siteStep r events = .ok r')
    (member : c ∈ r'.issued) :
    r'.Agrees lib c ↔ c.tokenExpires < r'.site.now ∧ (c.ended = true ∨ c.sessionExpires ≤ r'.site.now) := by
  have begun : r.Sound lib r.site.secret := ⟨rfl, clock, plain, by simp [start]⟩
  have sound := run_invariant (SiteRun.Sound lib r.site.secret)
    (fun _ _ _ sound fresh stepped => sound.step fresh stepped) begun fresh ran
  exact agrees_iff correct sound member

/-- A site with a user at the time of that login. -/
def loginSite : SiteRun where
  site := {
    users := [{ email := ascii "claire@q2" }]
    secret := ascii "tastyspleen"
    now := 1728145800 }

theorem loginLib_correct (secret : Bytes) : loginLib.Correct secret := by
  have known {claims : JwtClaims} {token : Bytes} (signed : loginLib.signedString claims secret = .ok token) :
      claims = loginClaims ∧ secret = ascii "tastyspleen" ∧ token = loginToken := by
    dsimp only [loginLib, AccountLib.only] at signed
    split at signed
    · rename_i same
      exact ⟨same.1, same.2, (Except.ok.inj signed).symm⟩
    · cases signed
  refine ⟨?_, ?_, ?_⟩
  · intro claims token now signed _ issued early
    obtain ⟨same, key, text⟩ := known signed
    rw [same] at issued early ⊢
    rw [key, text]
    exact AccountLib.only_parse (ascii "tastyspleen") loginToken issued early
  · intro claims token now signed _ late
    obtain ⟨same, -, -⟩ := known signed
    rw [same] at late
    exact if_neg fun valid => absurd valid.2.2.2 (not_le.mpr late)
  · intro claims token signed
    obtain ⟨-, -, text⟩ := known signed
    rw [text]
    decide +kernel

/-- A login, a day, and a second. -/
def dayOfLogin : List SiteEvent := [.mockLogin (ascii "claire@q2") (ascii "6fa1"), .tick 86400, .tick 1]

theorem session_checks_agree_login : ∃ r', run loginLib.siteStep loginSite dayOfLogin = .ok r' ∧
    r'.issued.length = 1 ∧ ∀ c ∈ r'.issued, r'.Agrees loginLib c := by
  have computed : Yields (run loginLib.siteStep loginSite dayOfLogin)
      (fun r' => r'.issued.length = 1 ∧ ∀ c ∈ r'.issued, c.tokenExpires < r'.site.now ∧ c.sessionExpires ≤ r'.site.now)
      fun _ => False := by decide +kernel
  obtain ⟨r', ran, one, behind⟩ := computed.returns
  refine ⟨r', ran, one, fun c member => ?_⟩
  exact (session_checks_agree_iff (loginLib_correct _) rfl (by decide) (by decide +kernel) (by decide +kernel) ran
    member).mpr ⟨(behind c member).1, .inr (behind c member).2⟩

/-- After the logout the one check still finds the user; right after the login the other did not. -/
theorem session_checks_disagree : Yields
    (run loginLib.siteStep loginSite [.mockLogin (ascii "claire@q2") (ascii "6fa1"), .logout (some loginToken)])
    (fun r' => ∃ c ∈ r'.issued, ¬ r'.Agrees loginLib c) (fun _ => False) ∧
    Yields (run loginLib.siteStep loginSite [.mockLogin (ascii "claire@q2") (ascii "6fa1")])
      (fun r' => ∃ c ∈ r'.issued, ¬ r'.Agrees loginLib c) fun _ => False := by
  constructor
  · decide +kernel
  · decide +kernel

end Q2Admin
