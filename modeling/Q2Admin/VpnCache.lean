import Mathlib.Data.List.Induction
import Q2Admin.Go

/-! `backend/vpn.go`: whether an address belongs to a VPN provider. The answer of the
service is kept in a cache, next to a time from which on it is stale. -/

namespace Q2Admin
open Go

/-- `VPNConfig` of `vpn.proto`. -/
structure VPNConfig where
  enabled : Bool := false
  lookupURL : Bytes := []
  apiKey : Bytes := []
  deriving DecidableEq, Repr

structure VPNCacheEntry where
  ip : Bytes
  vpn : Bool
  ttl : Int
  lookups : Int
  deriving DecidableEq, Repr

/-- `map[string]VPNCacheEntry`. -/
abbrev VPNCache := AList (fun _ : Bytes => VPNCacheEntry)

/-- The service, and how it is asked: its answers do not change. -/
structure VpnService where
  /-- `fmt.Sprintf` of the URL pattern with the address and the key. -/
  sprintf : Bytes → Bytes → Bytes → Bytes
  /-- The body that is got from a URL, or an error. -/
  get : Bytes → Except Bytes Bytes
  /-- `results.Security.VPN` after `json.Unmarshal`. -/
  unmarshal : Bytes → Except Bytes Bool

section
variable (service : VpnService)

def lookupVPNStatus (ip : Bytes) (config : Option VPNConfig) : Except Bytes Bool :=
  if ip = [] then .error (ascii "empty ip looking up vpn status")
  else match config with
    | none => .error (ascii "null config looking up vpn status")
    | some config => do
      let body ← service.get (service.sprintf config.lookupURL ip config.apiKey)
      service.unmarshal body

/-- 86400 * 30 seconds. -/
def vpnMonth : Int := 2592000

/-- `IsVPN`, with what becomes of the cache. The clock is read at most once. -/
def isVPN (ip : Bytes) (cache : VPNCache) (config : Option VPNConfig) (now : Int) : Except Bytes Bool × VPNCache :=
  match config with
  | none => (.error (ascii "null config"), cache)
  | some config =>
    if !config.enabled then (.ok false, cache)
    else match cache.lookup ip with
      | some r => (.ok (r.vpn && decide (now < r.ttl)), cache)
      | none => match lookupVPNStatus service ip config with
        | .error err => (.error err, cache)
        | .ok lookup => (.ok lookup, cache.insert ip ⟨ip, lookup, now + vpnMonth, 0⟩)

/-- The cache after some queries, each an address and the time it is asked at. -/
def cacheAfter (config : Option VPNConfig) (queries : List (Bytes × Int)) : VPNCache :=
  queries.foldl (fun cache query => (isVPN service query.1 cache config query.2).2) ∅

/-- Every query returns what asking the service directly returns. -/
def Transparent (config : Option VPNConfig) (queries : List (Bytes × Int)) : Prop :=
  ∀ front query back, queries = front ++ query :: back →
    (isVPN service query.1 (cacheAfter service config front) config query.2).1 =
      lookupVPNStatus service query.1 config

/-- The first query for an address. -/
def firstAsked (queries : List (Bytes × Int)) (ip : Bytes) : Option (Bytes × Int) :=
  queries.find? fun query => query.1 = ip

/-- No address of a VPN is asked for a month or more after it was first. -/
def WithinMonth (config : Option VPNConfig) (queries : List (Bytes × Int)) : Prop :=
  ∀ front query back, queries = front ++ query :: back → lookupVPNStatus service query.1 config = .ok true →
    ∀ first, firstAsked front query.1 = some first → query.2 < first.2 + vpnMonth

/-- What the cache holds of an address once it has been asked for. -/
def VpnService.entry (config : Option VPNConfig) (first : Bytes × Int) : Option VPNCacheEntry :=
  match lookupVPNStatus service first.1 config with
  | .error _ => none
  | .ok lookup => some ⟨first.1, lookup, first.2 + vpnMonth, 0⟩

variable {service} {config : VPNConfig} (enabled : config.enabled = true)
include enabled

/-- One query fills the entry of its address, if that is empty and the service answers. -/
theorem isVPN_cache (cache : VPNCache) (query : Bytes × Int) (ip : Bytes) :
    (isVPN service query.1 cache (some config) query.2).2.lookup ip =
      (cache.lookup ip).or (if query.1 = ip then service.entry (some config) query else none) := by
  cases held : cache.lookup query.1 with
  | some r =>
    simp only [isVPN, enabled, Bool.not_true, Bool.false_eq_true, ↓reduceIte, held]
    by_cases same : query.1 = ip
    · rw [← same, held, Option.some_or]
    · rw [if_neg same, Option.or_none]
  | none =>
    simp only [isVPN, enabled, Bool.not_true, Bool.false_eq_true, ↓reduceIte, held, VpnService.entry]
    cases lookupVPNStatus service query.1 (some config) with
    | error err => simp only [ite_self, Option.or_none]
    | ok lookup =>
      by_cases same : query.1 = ip
      · rw [← same, if_pos rfl, held, AList.lookup_insert, Option.none_or]
      · rw [if_neg same, Option.or_none, AList.lookup_insert_ne (Ne.symm same)]

/-- The entry of an address is that of the first query for it, and stays so. -/
theorem cacheAfter_lookup (queries : List (Bytes × Int)) (ip : Bytes) :
    (cacheAfter service (some config) queries).lookup ip =
      (firstAsked queries ip).bind (service.entry (some config)) := by
  induction queries using List.reverseRecOn with
  | nil => rfl
  | append_singleton front query ih =>
    have last : cacheAfter service (some config) (front ++ [query]) =
        (isVPN service query.1 (cacheAfter service (some config) front) (some config) query.2).2 := by
      simp only [cacheAfter, List.foldl_append, List.foldl_cons, List.foldl_nil]
    rw [last, isVPN_cache enabled, ih, firstAsked, firstAsked, List.find?_append, List.find?_singleton]
    cases found : front.find? fun query => query.1 = ip with
    | none => by_cases same : query.1 = ip <;> simp [same]
    | some first =>
      -- a service that has failed once for an address fails again
      have asked : first.1 = ip := by simpa using List.find?_some found
      simp only [Option.some_or, Option.bind_some]
      by_cases same : query.1 = ip
      · rw [if_pos same]
        cases entry : service.entry (some config) first with
        | some r => rfl
        | none =>
          unfold VpnService.entry at entry ⊢
          rw [same, ← asked]
          cases answer : lookupVPNStatus service first.1 (some config) with
          | error err => rfl
          | ok lookup => simp [answer] at entry
      · rw [if_neg same, Option.or_none]

/-- A query returns what the service says, unless the entry it finds is of a VPN and stale. -/
theorem isVPN_eq_iff (front : List (Bytes × Int)) (query : Bytes × Int) :
    (isVPN service query.1 (cacheAfter service (some config) front) (some config) query.2).1 =
        lookupVPNStatus service query.1 (some config) ↔
      (lookupVPNStatus service query.1 (some config) = .ok true →
        ∀ first, firstAsked front query.1 = some first → query.2 < first.2 + vpnMonth) := by
  have held : (cacheAfter service (some config) front).lookup query.1 = _ := cacheAfter_lookup enabled front query.1
  simp only [isVPN, enabled, Bool.not_true, Bool.false_eq_true, ↓reduceIte]
  cases asked : firstAsked front query.1 with
  | none =>
    rw [asked, Option.bind_none] at held
    simp only [held]
    cases lookupVPNStatus service query.1 (some config) <;> simp
  | some first =>
    have same : first.1 = query.1 := by simpa using List.find?_some asked
    rw [asked, Option.bind_some, VpnService.entry, same] at held
    cases answer : lookupVPNStatus service query.1 (some config) with
    | error err => simp [held, answer]
    | ok lookup =>
      simp only [answer] at held
      cases lookup <;> simp [held]

/-- The cache is transparent exactly on queries that do not outlive the entry of a VPN. -/
theorem vpnCache_transparent_iff (queries : List (Bytes × Int)) :
    Transparent service (some config) queries ↔ WithinMonth service (some config) queries := by
  unfold Transparent WithinMonth
  simp only [isVPN_eq_iff enabled]

end

/-- A service that knows one address of a VPN. -/
def oneVpn : VpnService where
  sprintf _ ip _ := ip
  get url := .ok url
  unmarshal body := .ok (body = ascii "154.6.80.10")

/-- Asked again after a day, and about another address. -/
def asksSoon : List (Bytes × Int) :=
  [(ascii "154.6.80.10", 1728145800), (ascii "8.8.8.8", 1728145801), (ascii "154.6.80.10", 1728232200)]

theorem vpnCache_transparent_soon : Transparent oneVpn (some { enabled := true }) asksSoon := by
  apply (vpnCache_transparent_iff rfl asksSoon).mpr
  have near : ∀ query ∈ asksSoon, ∀ first ∈ asksSoon, query.2 < first.2 + vpnMonth := by decide
  intro front query back split _ first asked
  have inside : first ∈ front := List.mem_of_find?_eq_some asked
  exact near query (by simp [split]) first (by simp [split, inside])

/-- Asked again after a month. -/
def asksLate : List (Bytes × Int) := [(ascii "154.6.80.10", 1728145800), (ascii "154.6.80.10", 1730737800)]

/-- From then on nobody uses a VPN there, although the service says so. -/
theorem vpnCache_stale : ¬ ∀ (service : VpnService) (config : VPNConfig) (queries : List (Bytes × Int)),
    config.enabled = true → (∀ ip ≠ [], ∃ answer, lookupVPNStatus service ip (some config) = .ok answer) →
    queries.Pairwise (fun query later => query.2 ≤ later.2) → Transparent service (some config) queries := by
  intro transparent
  have answers : ∀ ip ≠ [], ∃ answer, lookupVPNStatus oneVpn ip (some { enabled := true }) = .ok answer :=
    fun ip given => ⟨_, if_neg given⟩
  have late := transparent oneVpn { enabled := true } asksLate rfl answers (by decide)
    [(ascii "154.6.80.10", 1728145800)] (ascii "154.6.80.10", 1730737800) [] rfl
  have denied : (isVPN oneVpn (ascii "154.6.80.10") (cacheAfter oneVpn (some { enabled := true })
      [(ascii "154.6.80.10", 1728145800)]) (some { enabled := true }) 1730737800).1 = .ok false := by decide +kernel
  have confirmed : lookupVPNStatus oneVpn (ascii "154.6.80.10") (some { enabled := true }) = .ok true := by
    decide +kernel
  rw [denied, confirmed] at late
  exact absurd late (by simp)

end Q2Admin
