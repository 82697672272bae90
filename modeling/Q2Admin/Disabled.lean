import Q2Admin.Accounts

/-! What the flag of a disabled user cuts off. The keys of the SSH server look at it; bearer
tokens and sessions are checked as if it were not there. -/

namespace Q2Admin
open Go

/-- What somebody who is disabled may still hold. -/
structure Credentials where
  sshKey : Bytes
  token : Bytes
  cookie : Bytes

section
variable (lib : AccountLib) (tokens : TokenLib) (s : Site) (held : Credentials) (i : Nat)

/-- The user is let in nowhere. -/
structure CutOff : Prop where
  ssh : publicKeyHandler lib s (s.user i).email held.sshKey = false
  rpc : ∀ verdict, validateBearerToken tokens (s.users.map Account.toUser) s.now held.token = .ok verdict →
    ¬ (verdict.valid = true ∧ verdict.email = (s.user i).email)
  website : getSessionUser lib s (some held.cookie) ≠ .ok i
  api : validateSession lib s held.cookie ≠ .ok i

/-- What is held would not do for an enabled user either. Only the SSH key may be good, unless
another user comes later in the table with the same address. -/
structure Powerless : Prop where
  sshKey : ∀ u, s.lastNamed (s.user i).email = some u → u.disabled = true ∨ ¬ u.AcceptsKey lib held.sshKey
  token : ∀ data payload signature u, tokens.decode held.token = some data → sliceToken data = .ok (payload, signature) →
    u.email = (s.user i).email → ¬ TokenPasses tokens (s.users.map Account.toUser) s.now u payload signature
  cookie : ∀ claims, lib.parseWithClaims held.cookie s.secret s.now = some (claims, true) →
    s.named claims.subject ≠ some i
  session : ∀ claims j, lib.parseWithClaims held.cookie s.secret s.now = some (claims, true) →
    s.named claims.subject = some j → s.users.findIdx? (fun u => u.session.current held.cookie s.now) ≠ some i

end

section
variable {lib : AccountLib} {tokens : TokenLib} {s : Site} {held : Credentials} {i : Nat}

theorem publicKeyHandler_refuses_iff {login key : Bytes} : publicKeyHandler lib s login key = false ↔
    ∀ u, s.lastNamed login = some u → u.disabled = true ∨ ¬ u.AcceptsKey lib key := by
  rw [Bool.eq_false_iff, ne_eq, publicKeyHandler_iff, not_exists]
  apply forall_congr'
  intro u
  cases u.disabled <;> simp

theorem getSessionUser_ne_iff {cookie : Bytes} : getSessionUser lib s (some cookie) ≠ .ok i ↔
    ∀ claims, lib.parseWithClaims cookie s.secret s.now = some (claims, true) → s.named claims.subject ≠ some i := by
  rw [getSessionUser, ne_eq, validateSessionToken_ok_iff, not_exists]
  simp only [not_and]

theorem validateSession_ne_iff {cookie : Bytes} : validateSession lib s cookie ≠ .ok i ↔
    ∀ claims j, lib.parseWithClaims cookie s.secret s.now = some (claims, true) → s.named claims.subject = some j →
      s.users.findIdx? (fun u => u.session.current cookie s.now) ≠ some i := by
  simp only [ne_eq, validateSession_ok_iff, validateSessionToken_ok_iff, not_and, forall_exists_index, and_imp]
  exact ⟨fun never claims j => never j claims, fun never j claims => never claims j⟩

theorem validateBearerToken_refuses_iff {users : List User} {now : Int} {token email : Bytes} :
    (∀ verdict, validateBearerToken tokens users now token = .ok verdict →
      ¬ (verdict.valid = true ∧ verdict.email = email)) ↔
      ∀ data payload signature u, tokens.decode token = some data → sliceToken data = .ok (payload, signature) →
        u.email = email → ¬ TokenPasses tokens users now u payload signature := by
  have valid := not_congr (@validateBearerToken_valid_iff tokens users now token email)
  simpa only [not_exists, not_and] using valid

/-- A user is cut off exactly if what is held would not do. Of the flag that is asked for
nowhere but at the login by SSH: the rest is the same for a disabled user and for another. -/
theorem cut_off_iff : CutOff lib tokens s held i ↔ Powerless lib tokens s held i := by
  constructor
  · rintro ⟨ssh, rpc, website, api⟩
    exact ⟨publicKeyHandler_refuses_iff.mp ssh, validateBearerToken_refuses_iff.mp rpc,
      getSessionUser_ne_iff.mp website, validateSession_ne_iff.mp api⟩
  · rintro ⟨sshKey, token, cookie, session⟩
    exact ⟨publicKeyHandler_refuses_iff.mpr sshKey, validateBearerToken_refuses_iff.mpr token,
      getSessionUser_ne_iff.mpr cookie, validateSession_ne_iff.mpr session⟩

/-- The site with the flags of its users set anew. -/
def Site.flag (s : Site) (disabled : Nat → Bool) : Site :=
  { s with users := s.users.mapIdx fun i u => { u with disabled := disabled i } }

theorem findIdx_mapIdx {users : List Account} {f : Nat → Account → Account} {p : Account → Bool}
    (blind : ∀ i u, p (f i u) = p u) : (users.mapIdx f).findIdx? p = users.findIdx? p := by
  induction users generalizing f with
  | nil => rfl
  | cons u users ih =>
    rw [List.mapIdx_cons, List.findIdx?_cons, List.findIdx?_cons, blind, ih fun i => blind (i + 1)]

/-- Whether a bearer token, a session at the website or one at the API is good does not
depend on who is disabled. -/
theorem flag_ignored (s : Site) (disabled : Nat → Bool) (token cookie : Bytes) :
    validateBearerToken tokens ((s.flag disabled).users.map Account.toUser) s.now token =
        validateBearerToken tokens (s.users.map Account.toUser) s.now token ∧
      getSessionUser lib (s.flag disabled) (some cookie) = getSessionUser lib s (some cookie) ∧
      validateSession lib (s.flag disabled) cookie = validateSession lib s cookie := by
  have users : (s.flag disabled).users.map Account.toUser = s.users.map Account.toUser := by
    apply List.ext_getElem
    · simp [Site.flag]
    · intro n inside inside'
      simp [Site.flag]
  have named (email : Bytes) : (s.flag disabled).named email = s.named email := findIdx_mapIdx fun _ _ => rfl
  have session : validateSessionToken lib (s.flag disabled) cookie = validateSessionToken lib s cookie := by
    simp only [validateSessionToken, named]
    rfl
  have current : ((s.flag disabled).users.findIdx? fun u => u.session.current cookie s.now) =
      s.users.findIdx? fun u => u.session.current cookie s.now := findIdx_mapIdx fun _ _ => rfl
  refine ⟨by rw [users], session, ?_⟩
  rw [validateSession, session, validateSession]
  apply congrArg
  funext _
  rw [← current]
  rfl

end

/-- A disabled user, soon after a login. -/
def bannedSite : Site where
  users := [{ email := ascii "claire@q2", disabled := true }]
  secret := ascii "tastyspleen"
  now := 1728145900

theorem not_cut_off : (bannedSite.user 0).disabled = true ∧
    ¬ CutOff loginLib TokenLib.plain bannedSite ⟨[], [], loginToken⟩ 0 := by
  refine ⟨rfl, fun cut => ?_⟩
  have parsed : loginLib.parseWithClaims loginToken bannedSite.secret bannedSite.now = some (loginClaims, true) :=
    AccountLib.only_parse (ascii "tastyspleen") loginToken (by decide) (by decide)
  have absent := getSessionUser_ne_iff.mp cut.website loginClaims
  dsimp only at absent
  rw [parsed] at absent
  exact absent rfl (by decide)

end Q2Admin
