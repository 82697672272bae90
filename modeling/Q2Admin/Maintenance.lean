import Q2Admin.ClockLimits
import Q2Admin.Evasion
import Q2Admin.RuleOrder
import Q2Admin.Throttling

/-! `startMaintenance` of `backend/maintenance.go`: the pass over frontends and players that
checks the rules with time limits. Its loops range over slices of structs, so what it holds
are copies of the frontends and of the players. -/

namespace Q2Admin
open Go Lib

/-! ## The rules that are due -/

/-- The checks of one rule, one for each of the two limits it may have. -/
def dueChecks (clock : Nat → Time × Int) (r : Rule) (k : Nat) : List Check :=
  (if r.timespec.playTime = [] then [] else [⟨r, (clock (2 * k)).1, (clock (2 * k)).2⟩]) ++
    (if r.timespec.after = [] then [] else [⟨r, (clock (2 * k + 1)).1, (clock (2 * k + 1)).2⟩])

/-- The checks of the loop over the rules, with the clock as it is read in each of them. -/
def passChecks (clock : Nat → Time × Int) (rules : List Rule) : List Check :=
  rules.zipIdx.flatMap fun (r, k) => dueChecks clock r k

/-- What is handed to `ApplyMatchedRules`, and the player as the checks leave it. -/
def matchDue (lib : RuleLib) (clock : Nat → Time × Int) (rules : List Rule) (p : Player) : List Rule × Player :=
  let (matched, p) := checkEach lib (passChecks clock rules) p
  (sortRules matched, p)

section
variable (pf : Platform) (i : Nat)

/-! ## The pass -/

/-- The turn of one player. `p` is a copy of the slot, and is returned as it goes out of scope;
the queue is that of the stored frontend, which the player points to. -/
def maintainPlayer (clock : Nat → Time × Int) (cl : Frontend) (slot : Nat) (w : World) : Except Fault (Player × World) :=
  let p := (w.fe i).player slot
  if p.connectTime = 0 then .ok (p, w)
  else
    let (rules, p) := matchDue pf.rules clock cl.rules p
    if rules = [] then .ok (p, w)
    else do
      let (p, fe) := applyRules pf.q2 rules (p, w.fe i)
      let w ← sendMessages pf i (w.update i fun _ => fe)
      .ok (p, w)

def maintainPlayers (clock : Nat → Nat → Time × Int) (cl : Frontend) : List Nat → World → Except Fault World
  | [], w => .ok w
  | slot :: rest, w => do
    let (_, w) ← maintainPlayer pf i (clock slot) cl slot w
    maintainPlayers clock cl rest w

/-- The turn of one frontend: the copy with the variables just fetched, and the world. -/
def maintainFrontend (clock : Nat → Nat → Time × Int) (vars : StringMap) (w : World) :
    Except Fault (Frontend × World) :=
  let cl := w.fe i
  if !cl.connected && !cl.trusted then .ok (cl, w)
  else do
    let w ← maintainPlayers pf i clock cl (List.range cl.players.length) (inviteBucketAdd i w)
    .ok ({ cl with serverVars := vars }, w)

end

section
variable (pf : Platform) (clock : Nat → Nat → Nat → Time × Int) (vars : Nat → StringMap)

def maintainFrontends : List Nat → World → Except Fault World
  | [], w => .ok w
  | i :: rest, w => do
    let (_, w) ← maintainFrontend pf i (clock i) (vars i) w
    maintainFrontends rest w

/-- One pass of the loop of `startMaintenance`. -/
def maintain (w : World) : Except Fault World :=
  maintainFrontends pf clock vars (List.range w.frontends.length) w

end

/-! ## No rule twice -/

theorem flatMap_replicate_eq {α β : Type} {l : List α} {times : α → Nat} (f : α → β) (few : ∀ a ∈ l, times a ≤ 1) :
    (l.flatMap fun a => List.replicate (times a) (f a)) = (l.filter fun a => 0 < times a).map f := by
  induction l with
  | nil => rfl
  | cons a l ih =>
    have first := few a List.mem_cons_self
    rw [List.flatMap_cons, ih fun b member => few b (List.mem_cons_of_mem a member)]
    rcases Nat.le_one_iff_eq_zero_or_eq_one.mp first with none | one
    · simp [none]
    · simp [one]

section
variable (lib : RuleLib) (clock : Nat → Time × Int) (rules : List Rule) (p : Player)

theorem applies_eq (c : Check) : c.applies lib p = (checkRule lib p c.rule c.t c.now).1 := by
  rw [checkRule_eq]

/-- How often the rule is appended to the matches. -/
def timesMatched (rk : Rule × Nat) : Nat := (dueChecks clock rk.1 rk.2).countP fun c => (checkRule lib p c.rule c.t c.now).1

theorem matched_dueChecks (r : Rule) (k : Nat) : ((dueChecks clock r k).filter fun c => c.applies lib p).map Check.rule =
    List.replicate (timesMatched lib clock p (r, k)) r := by
  apply List.eq_replicate_iff.mpr
  constructor
  · simp only [List.length_map, timesMatched, List.countP_eq_length_filter, applies_eq]
  · intro other member
    obtain ⟨c, chosen, rfl⟩ := List.mem_map.mp member
    have own := (List.mem_filter.mp chosen).1
    unfold dueChecks at own
    rcases List.mem_append.mp own with first | second
    · split at first
      · cases first
      · rw [List.mem_singleton.mp first]
    · split at second
      · cases second
      · rw [List.mem_singleton.mp second]

theorem matchDue_eq : (matchDue lib clock rules p).1 =
    sortRules (rules.zipIdx.flatMap fun rk => List.replicate (timesMatched lib clock p rk) rk.1) := by
  have checked := checkEach_eq lib p ⟨p.muted, p.stifled, p.stifleLength⟩ (passChecks clock rules)
  have same : p.withMarks ⟨p.muted, p.stifled, p.stifleLength⟩ = p := rfl
  rw [same] at checked
  rw [matchDue, checked]
  simp only [passChecks, List.filter_flatMap, List.map_flatMap, matched_dueChecks]

/-- The rules with a limit for which `CheckRule` is true when the pass comes to it. -/
def dueRules : List Rule :=
  (rules.zipIdx.filter fun rk => (dueChecks clock rk.1 rk.2).any fun c => (checkRule lib p c.rule c.t c.now).1).map Prod.fst

/-- The pass hands on every rule that is due, and none of them twice. -/
structure AppliesOnce : Prop where
  nodup : (matchDue lib clock rules p).1.Nodup
  due : (matchDue lib clock rules p).1 = sortRules (dueRules lib clock rules p)

/-- The rule has both limits and `CheckRule` is true for each of them. -/
def DueTwice (rk : Rule × Nat) : Prop :=
  rk.1.timespec.playTime ≠ [] ∧ rk.1.timespec.after ≠ [] ∧
    (checkRule lib p rk.1 (clock (2 * rk.2)).1 (clock (2 * rk.2)).2).1 = true ∧
    (checkRule lib p rk.1 (clock (2 * rk.2 + 1)).1 (clock (2 * rk.2 + 1)).2).1 = true

theorem timesMatched_le (rk : Rule × Nat) : timesMatched lib clock p rk ≤ 1 ↔ ¬ DueTwice lib clock p rk := by
  unfold timesMatched dueChecks DueTwice
  by_cases playTime : rk.1.timespec.playTime = [] <;> by_cases after : rk.1.timespec.after = [] <;>
    simp only [playTime, after, ↓reduceIte, List.nil_append, List.append_nil, List.countP_nil, List.countP_cons,
      List.cons_append, ne_eq, not_true_eq_false, not_false_eq_true, false_and, true_and, zero_add]
  · simp
  · split <;> simp
  · split <;> simp
  · split <;> split <;> simp_all

variable {lib clock rules p}

/-- A rule that is due twice stands in the list twice. -/
theorem not_nodup_of_dueTwice {rk : Rule × Nat} (member : rk ∈ rules.zipIdx) (twice : DueTwice lib clock p rk) :
    ¬ (matchDue lib clock rules p).1.Nodup := by
  have times : 2 ≤ timesMatched lib clock p rk := by
    have few := (timesMatched_le lib clock p rk).mp
    by_contra less
    exact few (by omega) twice
  have pair : [rk.1, rk.1].Sublist (List.replicate (timesMatched lib clock p rk) rk.1) :=
    List.replicate_sublist_replicate rk.1 |>.mpr times
  have inside : (List.replicate (timesMatched lib clock p rk) rk.1).Sublist
      (rules.zipIdx.flatMap fun rk => List.replicate (timesMatched lib clock p rk) rk.1) := by
    rw [List.flatMap_def]
    exact List.sublist_flatten_of_mem (List.mem_map_of_mem member)
  rw [matchDue_eq, (sortRules_perm _).nodup_iff]
  exact fun nodup => List.nodup_iff_sublist.mp nodup rk.1 (pair.trans inside)

/-- A pass applies each rule once exactly if no rule is due for both of its limits. -/
theorem appliesOnce_iff (distinct : (rules.map Rule.uuid).Nodup) :
    AppliesOnce lib clock rules p ↔ ∀ rk ∈ rules.zipIdx, ¬ DueTwice lib clock p rk := by
  constructor
  · intro once rk member twice
    exact not_nodup_of_dueTwice member twice once.nodup
  · intro single
    have few : ∀ rk ∈ rules.zipIdx, timesMatched lib clock p rk ≤ 1 := fun rk member =>
      (timesMatched_le lib clock p rk).mpr (single rk member)
    have due : (rules.zipIdx.flatMap fun rk => List.replicate (timesMatched lib clock p rk) rk.1) =
        dueRules lib clock rules p := by
      rw [flatMap_replicate_eq Prod.fst few, dueRules]
      congr 1
      apply List.filter_congr
      intro rk _
      rw [Bool.eq_iff_iff, decide_eq_true_eq, timesMatched, List.countP_pos_iff, List.any_eq_true]
    have nodup : (dueRules lib clock rules p).Nodup := by
      have fewer : (dueRules lib clock rules p).Sublist (rules.zipIdx.map Prod.fst) := List.filter_sublist.map Prod.fst
      rw [List.zipIdx_map_fst] at fewer
      exact distinct.of_map.sublist fewer
    refine ⟨?_, ?_⟩
    · rw [matchDue_eq, due, (sortRules_perm _).nodup_iff]
      exact nodup
    · rw [matchDue_eq, due]

end

/-- After a minute on the server, and after eight in the morning. -/
def lingering : Rule :=
  { uuid := ascii "a", type := .message, timespec := { playTime := ascii "60", after := ascii "08:00:00" } }

def regular : Player := { visitor with connectTime := 1728100000 }

/-- Both limits are over at noon, and the rule is applied twice. -/
theorem appliesOnce_lingering : ¬ ∀ (lib : RuleLib) (clock : Nat → Time × Int) (rules : List Rule) (p : Player),
    (rules.map Rule.uuid).Nodup → AppliesOnce lib clock rules p := by
  intro promised
  have once := (promised clockLib noon [lingering] regular (List.nodup_singleton _)).nodup
  exact not_nodup_of_dueTwice (show (lingering, 0) ∈ [lingering].zipIdx from List.mem_cons_self)
    (by unfold DueTwice; decide) once

def daytime : Rule := { type := .message, timespec := { after := ascii "08:00:00" } }

/-- A rule with one limit. -/
theorem appliesOnce_daytime : AppliesOnce clockLib noon [daytime] regular := by
  have distinct : ([daytime].map Rule.uuid).Nodup := List.nodup_singleton _
  apply (appliesOnce_iff distinct).mpr
  intro rk member twice
  rw [List.mem_singleton.mp member] at twice
  exact twice.1 rfl

/-! ## What is left of a pass -/

/-- A frontend but for its queue, its vectors and its bucket of invites. -/
def Frontend.atRest (fe : Frontend) : Frontend := { fe with
  initVector := []
  invites := {}
  messageOut := {}
  previousIV := [] }

def World.atRest (w : World) : List Frontend := w.frontends.map Frontend.atRest

theorem atRest_of_queues {f : Frontend → Frontend} (queues : Queues f) (fe : Frontend) : (f fe).atRest = fe.atRest := by
  rw [queues.only fe]
  rfl

/-- Nothing is written but queues, vectors and buckets. -/
def Rests (w : World) {α : Type} (x : Except Fault (α × World)) : Prop :=
  Yields x (fun result => result.2.atRest = w.atRest) fun _ => True

def RestsAlone (w : World) (x : Except Fault World) : Prop := Yields x (fun w' => w'.atRest = w.atRest) fun _ => True

section
variable (pf : Platform) (i : Nat)

theorem encryptQueue_atRest (fe : Frontend) :
    Yields (fe.encryptQueue pf) (fun fe' => fe'.atRest = fe.atRest) fun _ => True := by
  unfold Frontend.encryptQueue
  split
  · apply Yields.bind (Yields.top _)
    exact fun _ _ _ => rfl
  · exact rfl

theorem flush_atRest (fe : Frontend) :
    Yields (fe.flush pf) (fun result => result.1.atRest = fe.atRest) fun _ => True := by
  unfold Frontend.flush
  split
  · exact rfl
  apply Yields.bind (encryptQueue_atRest pf fe)
  intro fe' _ same
  split
  · trivial
  · exact same

theorem atRest_update {w : World} {f : Frontend → Frontend} (kept : (f (w.fe i)).atRest = (w.fe i).atRest) :
    (w.update i f).atRest = w.atRest := World.map_update kept

theorem sendMessages_atRest (w : World) : RestsAlone w (sendMessages pf i w) := by
  apply Yields.bind (flush_atRest pf (w.fe i))
  intro result _ same
  exact atRest_update i (f := fun _ => result.1) same

theorem inviteBucketAdd_atRest (w : World) : (inviteBucketAdd i w).atRest = w.atRest := atRest_update i rfl

theorem maintainPlayer_atRest (clock : Nat → Time × Int) (cl : Frontend) (slot : Nat) (w : World) :
    Rests w (maintainPlayer pf i clock cl slot w) := by
  unfold maintainPlayer
  simp only []
  split
  · exact rfl
  split
  · exact rfl
  · have queued := atRest_of_queues (says_applyRules pf.q2 (matchDue pf.rules clock cl.rules ((w.fe i).player slot)).1
      (matchDue pf.rules clock cl.rules ((w.fe i).player slot)).2).toQueues (w.fe i)
    have stored : (w.update i fun _ => (applyRules pf.q2 (matchDue pf.rules clock cl.rules ((w.fe i).player slot)).1
        ((matchDue pf.rules clock cl.rules ((w.fe i).player slot)).2, w.fe i)).2).atRest = w.atRest :=
      atRest_update i queued
    apply Yields.bind (sendMessages_atRest pf i _)
    exact fun _ _ same => same.trans stored

theorem maintainPlayers_atRest (clock : Nat → Nat → Time × Int) (cl : Frontend) (slots : List Nat) (w : World) :
    RestsAlone w (maintainPlayers pf i clock cl slots w) := by
  induction slots generalizing w with
  | nil => exact rfl
  | cons slot rest ih =>
    apply Yields.bind (maintainPlayer_atRest pf i (clock slot) cl slot w)
    intro result _ same
    exact (ih result.2).mono (fun _ later => later.trans same) fun _ => id

theorem maintainFrontend_atRest (clock : Nat → Nat → Time × Int) (vars : StringMap) (w : World) :
    Rests w (maintainFrontend pf i clock vars w) := by
  unfold maintainFrontend
  simp only []
  split
  · exact rfl
  · apply Yields.bind (maintainPlayers_atRest pf i clock _ _ _)
    exact fun _ _ same => same.trans (inviteBucketAdd_atRest i w)

end

section
variable (pf : Platform) (clock : Nat → Nat → Nat → Time × Int) (vars : Nat → StringMap)

theorem maintainFrontends_atRest (indices : List Nat) (w : World) :
    RestsAlone w (maintainFrontends pf clock vars indices w) := by
  induction indices generalizing w with
  | nil => exact rfl
  | cons i rest ih =>
    apply Yields.bind (maintainFrontend_atRest pf i (clock i) (vars i) w)
    intro result _ same
    exact (ih result.2).mono (fun _ later => later.trans same) fun _ => id

/-- What a pass hands to `ApplyMatchedRules` for the player in a slot. -/
def World.handed (w : World) (i slot : Nat) : List Rule :=
  (matchDue pf.rules (clock i slot) (w.fe i).rules ((w.fe i).player slot)).1

variable {pf clock vars} {w w' : World}

theorem World.field_of_atRest {α : Type} (same : w'.atRest = w.atRest) (i : Nat) (field : Frontend → α)
    (apart : ∀ fe : Frontend, field fe.atRest = field fe) : field (w'.fe i) = field (w.fe i) := by
  have fields : field (w'.fe i).atRest = field (w.fe i).atRest := congrArg field (World.field_of_map same i)
  rwa [apart, apart] at fields

/-- The marks of the rules that were matched are on the player. An unmuted player is one whom no
rule has muted by the time of the stifles. -/
structure MarksKept (matched : List Rule) (p p' : Player) : Prop where
  muted : (∃ r ∈ matched, r.type = .mute) → p'.muted = true
  stifled : p.muted = false → (∀ r ∈ matched, r.type ≠ .mute) → (∃ r ∈ matched, r.type = .stifle) →
    p'.stifled = true ∧ ∃ r ∈ matched, r.type = .stifle ∧ p'.stifleLength = r.stifleLength

/-- What was found out about a frontend in a pass is stored. -/
structure Persisted (matched : Nat → List Rule) (vars : StringMap) (fe fe' : Frontend) : Prop where
  marks : ∀ slot, (fe.player slot).inUse = true → MarksKept (matched slot) (fe.player slot) (fe'.player slot)
  serverVars : fe'.serverVars = vars

/-- The results of a pass persist exactly where they were there before it. -/
theorem maintain_persists_iff (passed : maintain pf clock vars w = .ok w') :
    (∀ i < w.frontends.length, (w.fe i).connected = true →
      Persisted (w.handed pf clock i) (vars i) (w.fe i) (w'.fe i)) ↔
    ∀ i < w.frontends.length, (w.fe i).connected = true →
      Persisted (w.handed pf clock i) (vars i) (w.fe i) (w.fe i) := by
  have rests := (maintainFrontends_atRest pf clock vars _ w).of_ok passed
  have players i : (w'.fe i).player = (w.fe i).player := World.field_of_atRest rests i Frontend.player fun _ => rfl
  have fetched i : (w'.fe i).serverVars = (w.fe i).serverVars :=
    World.field_of_atRest rests i Frontend.serverVars fun _ => rfl
  have same i : Persisted (w.handed pf clock i) (vars i) (w.fe i) (w'.fe i) ↔
      Persisted (w.handed pf clock i) (vars i) (w.fe i) (w.fe i) := by
    constructor
    · intro stored
      exact ⟨fun slot used => players i ▸ stored.marks slot used, (fetched i).symm.trans stored.serverVars⟩
    · intro before
      exact ⟨fun slot used => (players i).symm ▸ before.marks slot used, (fetched i).trans before.serverVars⟩
  exact forall₃_congr fun i _ _ => same i

end

/-! A mute from eight in the morning on. -/

def morningMute : Rule := { uuid := ascii "m", type := .mute, timespec := { after := ascii "08:00:00" } }

def clockPlatform : Platform := { Platform.plain with rules := clockLib }

def maintained (p : Player) : World where
  frontends := [{ connected := true, connection := some 0, trusted := true, players := [p], rules := [morningMute] }]
  host := Host.counting

def mutedRegular : Player := { regular with muted := true }

theorem maintained_passes (p : Player) (known : p = regular ∨ p = mutedRegular) :
    ∃ w', maintain clockPlatform (fun _ _ => noon) (fun _ => ∅) (maintained p) = .ok w' := by
  have passes : ∀ q ∈ [regular, mutedRegular],
      (maintain clockPlatform (fun _ _ => noon) (fun _ => ∅) (maintained q)).toOption.isSome = true := by
    decide +kernel
  have some := passes p (by simpa using known)
  cases passed : maintain clockPlatform (fun _ _ => noon) (fun _ => ∅) (maintained p) with
  | ok w' => exact ⟨w', rfl⟩
  | error fault =>
    rw [passed] at some
    cases some

/-- The pass mutes her on the server, but the slot does not know. -/
theorem maintain_persists_regular : ¬ ∀ (pf : Platform) (clock : Nat → Nat → Nat → Time × Int)
    (vars : Nat → StringMap) (w w' : World), maintain pf clock vars w = .ok w' →
    ∀ i < w.frontends.length, (w.fe i).connected = true →
      Persisted (w.handed pf clock i) (vars i) (w.fe i) (w'.fe i) := by
  intro promised
  obtain ⟨w', passed⟩ := maintained_passes regular (.inl rfl)
  have stored := promised clockPlatform (fun _ _ => noon) (fun _ => ∅) (maintained regular) w' passed 0 (by decide) rfl
  have rests := (maintainFrontends_atRest clockPlatform (fun _ _ => noon) (fun _ => ∅) _ (maintained regular)).of_ok passed
  have kept : (w'.fe 0).player = ((maintained regular).fe 0).player :=
    World.field_of_atRest rests 0 Frontend.player fun _ => rfl
  have matched : (maintained regular).handed clockPlatform (fun _ _ => noon) 0 0 = [morningMute] := by decide +kernel
  have muted := (stored.marks 0 (by decide)).muted ⟨morningMute, by rw [matched]; exact List.mem_cons_self, rfl⟩
  rw [kept] at muted
  cases muted

/-- She was muted before. -/
theorem maintain_persists_mutedRegular : ∃ w',
    maintain clockPlatform (fun _ _ => noon) (fun _ => ∅) (maintained mutedRegular) = .ok w' ∧
    Persisted ((maintained mutedRegular).handed clockPlatform (fun _ _ => noon) 0) ∅
      ((maintained mutedRegular).fe 0) (w'.fe 0) := by
  obtain ⟨w', passed⟩ := maintained_passes mutedRegular (.inr rfl)
  refine ⟨w', passed, (maintain_persists_iff passed).mpr ?_ 0 (by decide) rfl⟩
  intro i inside _
  have only : i = 0 := Nat.lt_one_iff.mp inside
  subst only
  refine ⟨fun slot used => ?_, rfl⟩
  have first : slot = 0 := by
    by_contra other
    obtain ⟨k, rfl⟩ := Nat.exists_eq_succ_of_ne_zero other
    cases used
  subst first
  exact ⟨fun _ => rfl, fun unmuted => by cases unmuted⟩

end Q2Admin
