import Q2Admin.Lib.Runs
import Q2Admin.Lib.Slices
import Q2Admin.Ownership

/-! Who points where. `HandleConnection` keeps a pointer to its frontend for as long as the
connection lasts, while `CreateFrontend` appends to the frontends and `DeleteFrontend` builds
them anew. Either can leave the array that the pointer points into. What is said here of a
frontend leaves out its players and its message buffers. -/

namespace Q2Admin
open Go Lib

/-- A frontend without its players and its message buffers. All copies of it share their arrays,
through which a write can be seen wherever it is made; what is left is copied with it. -/
def WebFrontend.byValue (f : WebFrontend) : WebFrontend :=
  { f with players := [], message := {}, messageOut := {} }

structure Memory where
  /-- The arrays of frontends, each without what all copies share. -/
  heap : Heap WebFrontend
  /-- `be.frontends` -/
  slice : Slice
  /-- The variable `fe` of each connection that has found its frontend. -/
  sessions : Nat → Option Cell
  clientDirectory : Bytes
  table : List FrontendRow
  files : Bytes → Option Bytes

inductive MemoryEvent where
  /-- A game server greets, and what is written to its frontend before the first packet. -/
  | connect (k : Nat) (lookup : Bytes) (f : WebFrontend → WebFrontend)
  /-- A packet is handled, with what that does to the frontend. -/
  | work (k : Nat) (f : WebFrontend → WebFrontend)
  /-- The connection is left, with what is last written. -/
  | close (k : Nat) (f : WebFrontend → WebFrontend)
  /-- Something is written to `be.frontends[i]`: by the website, by the maintenance, or by a
  player who is sent there. -/
  | edit (i : Nat) (f : WebFrontend → WebFrontend)
  | create (f : WebFrontend) (results : Results)
  | delete (name : Bytes) (results : Results)

/-- The event is the connection's own. -/
def MemoryEvent.By (k : Nat) : MemoryEvent → Prop
  | connect l _ _ | work l _ | close l _ => l = k
  | edit .. | create .. | delete .. => False

instance (k : Nat) : (e : MemoryEvent) → Decidable (e.By k)
  | .connect l _ _ | .work l _ | .close l _ => inferInstanceAs (Decidable (l = k))
  | .edit .. | .create .. | .delete .. => inferInstanceAs (Decidable False)

/-- The connection begins or ends. -/
def MemoryEvent.Rebinds (k : Nat) : MemoryEvent → Prop
  | connect l _ _ | close l _ => l = k
  | work .. | edit .. | create .. | delete .. => False

instance (k : Nat) : (e : MemoryEvent) → Decidable (e.Rebinds k)
  | .connect l _ _ | .close l _ => inferInstanceAs (Decidable (l = k))
  | .work .. | .edit .. | .create .. | .delete .. => inferInstanceAs (Decidable False)

/-- What the end of `HandleConnection` writes. -/
def WebFrontend.disconnect (f : WebFrontend) : WebFrontend :=
  { f with connection := none, connected := false, trusted := false }

namespace Memory

/-- The frontends that everybody sees who looks them up. -/
def frontends (m : Memory) : List WebFrontend := m.heap.contents m.slice

def backend (m : Memory) : Backend where
  clientDirectory := m.clientDirectory
  frontends := m.frontends
  table := m.table
  files := m.files

def modify (m : Memory) (c : Cell) (f : WebFrontend → WebFrontend) : Memory :=
  { m with heap := m.heap.modify c fun r => (f r).byValue }

variable (spare : Nat → Nat)

/-- `Startup` -/
def start (b : Backend) : Memory :=
  let built := Heap.build spare {} (b.frontends.map WebFrontend.byValue)
  { b with heap := built.1, slice := built.2, sessions := fun _ => none }

/-- `CreateFrontend` -/
def createFrontend (m : Memory) (f : WebFrontend) (results : Results) : Memory × Option Bytes :=
  match results.exec with
  | some failure => (m, some failure)
  | none =>
    let inserted := { m with table := m.table ++ [f.row results.rowID] }
    match results.lastInsertId with
    | some failure => (inserted, some failure)
    | none =>
      let appended := m.heap.append spare m.slice { f.byValue with id := results.rowID }
      ({ inserted with heap := appended.1, slice := appended.2 }, none)

/-- `DeleteFrontend` -/
def deleteFrontend (m : Memory) (name : Bytes) (results : Results) : Option Memory := do
  let i ← m.backend.findFrontendByName name
  if results.exec.isSome then none
  else
    let built := m.heap.build spare (m.frontends.filter fun f => f.name ≠ name)
    some { m with
      table := m.table.filter fun row => row.id ≠ (m.backend.fe i).id
      heap := built.1
      slice := built.2 }

def step (m : Memory) : MemoryEvent → Except Empty Memory
  | .connect k lookup f => .ok <|
    match m.backend.findFrontend lookup with
    | none => m
    | some i =>
      let c : Cell := ⟨m.slice.array, i⟩
      { m.modify c f with sessions := Function.update m.sessions k (some c) }
  | .work k f => .ok <|
    match m.sessions k with
    | none => m
    | some c => m.modify c f
  | .close k f => .ok <|
    match m.sessions k with
    | none => m
    | some c => { m.modify c f with sessions := Function.update m.sessions k none }
  | .edit i f => .ok <| if i < m.slice.length then m.modify ⟨m.slice.array, i⟩ f else m
  | .create f results => .ok (m.createFrontend spare f results).1
  | .delete name results => .ok ((m.deleteFrontend spare name results).getD m)

/-- The event leaves the array the frontends are in. -/
def Moves (m : Memory) : MemoryEvent → Prop
  | .create _ results => results.exec = none ∧ results.lastInsertId = none ∧ m.heap.Full m.slice
  | .delete name results => m.backend.findFrontendByName name ≠ none ∧ results.exec = none
  | .connect .. | .work .. | .close .. | .edit .. => False

instance (m : Memory) : (e : MemoryEvent) → Decidable (m.Moves e)
  | .create .. => inferInstanceAs (Decidable (_ ∧ _ ∧ _))
  | .delete .. => inferInstanceAs (Decidable (_ ∧ _))
  | .connect .. | .work .. | .close .. | .edit .. => inferInstanceAs (Decidable False)

/-- Every connection points to a frontend that is or was. -/
structure Sound (m : Memory) : Prop where
  slice : m.slice.Sound m.heap
  issued : ∀ k c, m.sessions k = some c → c.Issued m.heap m.slice

end Memory

variable {spare : Nat → Nat} {m m' : Memory} {c : Cell} {k : Nat}

/-! ## Seen through `be.frontends` -/

theorem start_frontends (b : Backend) : (Memory.start spare b).frontends = b.frontends.map WebFrontend.byValue :=
  (Heap.build_spec spare _).1

/-- To everybody who looks frontends up, `CreateFrontend` is what it is without arrays. -/
theorem createFrontend_backend (sound : m.Sound) (f : WebFrontend) (results : Results) :
    (m.createFrontend spare f.byValue results).1.backend = (m.backend.createFrontend f.byValue results).1 := by
  unfold Memory.createFrontend Backend.createFrontend
  cases results.exec with
  | some failure => rfl
  | none =>
    cases results.lastInsertId with
    | some failure => rfl
    | none =>
      have contents := Heap.contents_append spare { f.byValue with id := results.rowID } sound.slice
      unfold Memory.backend Memory.frontends
      exact congrArg (fun frontends => Backend.mk m.clientDirectory frontends _ m.files) contents

/-- And so is `DeleteFrontend`. -/
theorem deleteFrontend_backend (name : Bytes) (results : Results) :
    (m.deleteFrontend spare name results).map Memory.backend = m.backend.deleteFrontend name results := by
  unfold Memory.deleteFrontend Backend.deleteFrontend
  cases m.backend.findFrontendByName name with
  | none => rfl
  | some i =>
    by_cases failed : results.exec.isSome
    · simp [failed]
    · simp only [failed]
      have contents := (Heap.build_spec (h := m.heap) spare (m.frontends.filter fun f => f.name ≠ name)).1
      unfold Memory.backend Memory.frontends
      exact congrArg (fun frontends => some (Backend.mk m.clientDirectory frontends _ m.files)) contents

/-! ## Pointers -/

theorem start_sound (b : Backend) : (Memory.start spare b).Sound where
  slice := (Heap.build_spec spare _).2.1
  issued := by
    intro k c nobody
    cases nobody

/-- Where the pointers are after a step: the same frontends as before, unless it has moved them. -/
structure Memory.Keeps (m m' : Memory) (moved : Prop) : Prop where
  slice : m'.slice.Sound m'.heap
  issued : ∀ c, Cell.Issued c m.heap m.slice → Cell.Issued c m'.heap m'.slice
  follows : ∀ c, Cell.Issued c m.heap m.slice → (c.Follows m'.slice ↔ c.Follows m.slice ∧ ¬ moved)

theorem Memory.Sound.stay (sound : m.Sound) {moved : Prop} (still : ¬ moved) (heap : m'.heap = m.heap)
    (slice : m'.slice = m.slice) : m.Keeps m' moved := by
  refine ⟨?_, ?_, ?_⟩
  · rw [heap, slice]
    exact sound.slice
  · rw [heap, slice]
    exact fun _ issued => issued
  · rw [slice]
    exact fun _ _ => (and_iff_left still).symm

theorem Memory.Sound.modify (sound : m.Sound) (c : Cell) (f : WebFrontend → WebFrontend) :
    m.Keeps (m.modify c f) False where
  slice := sound.slice.modify
  issued := fun _ issued => issued.modify
  follows := fun _ _ => (and_iff_left not_false).symm

theorem Memory.Sound.createFrontend (sound : m.Sound) (f : WebFrontend) (results : Results) :
    m.Keeps (m.createFrontend spare f results).1 (m.Moves (.create f results)) := by
  unfold Memory.createFrontend
  split
  · next failure exec =>
    exact sound.stay (fun moves => nomatch exec.symm.trans moves.1) rfl rfl
  next exec =>
  split
  · next failure lastInsertId =>
    exact sound.stay (fun moves => nomatch lastInsertId.symm.trans moves.2.1) rfl rfl
  next lastInsertId =>
  refine ⟨sound.slice.append .., fun c issued => (issued.append ..).1, fun c issued => ?_⟩
  have follows := (issued.append spare { f.byValue with id := results.rowID }).2
  have moves : m.Moves (.create f results) ↔ m.heap.Full m.slice :=
    ⟨fun moves => moves.2.2, fun full => ⟨exec, lastInsertId, full⟩⟩
  rw [moves]
  exact follows

theorem Memory.Sound.deleteFrontend (sound : m.Sound) (name : Bytes) (results : Results) :
    m.Keeps ((m.deleteFrontend spare name results).getD m) (m.Moves (.delete name results)) := by
  unfold Memory.deleteFrontend
  cases found : m.backend.findFrontendByName name with
  | none => exact sound.stay (fun moves => moves.1 found) rfl rfl
  | some i =>
    cases exec : results.exec with
    | some failure => exact sound.stay (fun moves => nomatch exec.symm.trans moves.2) rfl rfl
    | none =>
      have named : m.backend.findFrontendByName name ≠ none := found ▸ Option.some_ne_none i
      have moves : m.Moves (.delete name results) := ⟨named, exec⟩
      have built := Heap.build_spec (h := m.heap) spare (m.frontends.filter fun f => f.name ≠ name)
      refine ⟨built.2.1, fun c issued => (issued.build ..).1, fun c issued => ?_⟩
      exact iff_of_false (issued.build ..).2 fun both => both.2 moves

theorem createFrontend_sessions (f : WebFrontend) (results : Results) :
    (m.createFrontend spare f results).1.sessions = m.sessions := by
  unfold Memory.createFrontend
  split
  · rfl
  split
  · rfl
  · rfl

theorem deleteFrontend_sessions (name : Bytes) (results : Results) :
    ((m.deleteFrontend spare name results).getD m).sessions = m.sessions := by
  unfold Memory.deleteFrontend
  cases m.backend.findFrontendByName name with
  | none => rfl
  | some i =>
    cases results.exec with
    | some failure => rfl
    | none => rfl

/-- The pointer that a lookup gives. -/
theorem Memory.Sound.found (sound : m.Sound) {lookup : Bytes} {i : Nat}
    (found : m.backend.findFrontend lookup = some i) :
    Cell.Issued ⟨m.slice.array, i⟩ m.heap m.slice := by
  have inside : i < m.slice.length := by
    obtain ⟨-, inside, -⟩ := Backend.findFrontend_inside found
    rwa [← sound.slice.length_contents]
  refine ⟨?_, fun _ => inside⟩
  by_contra outside
  have beyond : m.heap.arrays.length ≤ m.slice.array := Nat.le_of_not_lt outside
  have none : m.heap.cells m.slice.array = [] := by
    unfold Heap.cells
    rw [List.getD_eq_getElem?_getD, List.getElem?_eq_none beyond]
    rfl
  have short : m.slice.length ≤ (m.heap.cells m.slice.array).length := sound.slice
  rw [none] at short
  exact Nat.not_lt_zero i (Nat.lt_of_lt_of_le inside short)

/-- A step leaves every connection that neither begins nor ends its pointer, and says whether
this goes on following the frontends. -/
theorem step_pointers (sound : m.Sound) {e : MemoryEvent} (stepped : m.step spare e = .ok m') :
    m'.Sound ∧ ∀ k c, m.sessions k = some c → ¬ e.Rebinds k →
      m'.sessions k = some c ∧ (c.Follows m'.slice ↔ c.Follows m.slice ∧ ¬ m.Moves e) := by
  have spec (m' : Memory) (keeps : m.Keeps m' (m.Moves e))
      (issued : ∀ k c, m'.sessions k = some c → Cell.Issued c m.heap m.slice)
      (same : ∀ k, ¬ e.Rebinds k → m'.sessions k = m.sessions k) :
      m'.Sound ∧ ∀ k c, m.sessions k = some c → ¬ e.Rebinds k →
        m'.sessions k = some c ∧ (c.Follows m'.slice ↔ c.Follows m.slice ∧ ¬ m.Moves e) :=
    ⟨⟨keeps.slice, fun k c holds => keeps.issued c (issued k c holds)⟩,
      fun k c holds own => ⟨(same k own).trans holds, keeps.follows c (sound.issued k c holds)⟩⟩
  have update (sessions : Nat → Option Cell) (l : Nat) (last : Option Cell)
      (issued : ∀ c, last = some c → Cell.Issued c m.heap m.slice) (k : Nat) (c : Cell)
      (holds : Function.update m.sessions l last k = some c) : Cell.Issued c m.heap m.slice := by
    by_cases same : k = l
    · rw [same, Function.update_self] at holds
      exact issued c holds
    · rw [Function.update_of_ne same] at holds
      exact sound.issued k c holds
  unfold Memory.step at stepped
  cases e with
  | connect l lookup f =>
    obtain rfl := Except.ok.inj stepped
    cases found : m.backend.findFrontend lookup with
    | none => exact spec m (sound.stay not_false rfl rfl) sound.issued fun _ _ => rfl
    | some i =>
      have keeps := sound.modify ⟨m.slice.array, i⟩ f
      refine spec _ ⟨keeps.slice, keeps.issued, keeps.follows⟩ (update m.sessions l _ ?_) fun k own => ?_
      · intro c same
        exact Option.some.inj same ▸ sound.found found
      · exact Function.update_of_ne (Ne.symm own) ..
  | work l f =>
    obtain rfl := Except.ok.inj stepped
    cases holds : m.sessions l with
    | none => exact spec m (sound.stay not_false rfl rfl) sound.issued fun _ _ => rfl
    | some c => exact spec _ (sound.modify c f) sound.issued fun _ _ => rfl
  | close l f =>
    obtain rfl := Except.ok.inj stepped
    cases holds : m.sessions l with
    | none => exact spec m (sound.stay not_false rfl rfl) sound.issued fun _ _ => rfl
    | some c =>
      have keeps := sound.modify c f
      refine spec _ ⟨keeps.slice, keeps.issued, keeps.follows⟩ (update m.sessions l none ?_) fun k own => ?_
      · exact fun c same => nomatch same
      · exact Function.update_of_ne (Ne.symm own) ..
  | edit i f =>
    obtain rfl := Except.ok.inj stepped
    by_cases inside : i < m.slice.length
    · simp only [inside]
      exact spec _ (sound.modify ⟨m.slice.array, i⟩ f) sound.issued fun _ _ => rfl
    · simp only [inside]
      exact spec m (sound.stay not_false rfl rfl) sound.issued fun _ _ => rfl
  | create f results =>
    obtain rfl := Except.ok.inj stepped
    have same : (m.createFrontend spare f results).1.sessions = m.sessions := createFrontend_sessions f results
    exact spec _ (sound.createFrontend f results) (same ▸ sound.issued) fun k _ => congrFun same k
  | delete name results =>
    obtain rfl := Except.ok.inj stepped
    have same : ((m.deleteFrontend spare name results).getD m).sessions = m.sessions :=
      deleteFrontend_sessions name results
    exact spec _ (sound.deleteFrontend name results) (same ▸ sound.issued) fun k _ => congrFun same k

theorem run_pointers {events : List MemoryEvent} (sound : m.Sound) (ran : run (Memory.step spare) m events = .ok m') :
    m'.Sound :=
  run_invariant Memory.Sound (fun _ _ _ held _ stepped => (step_pointers held stepped).1) sound
    (allowed_all _ events) ran

/-! ## Seen and not seen -/

/-- What is written through the pointer of a connection. -/
def Memory.write (m : Memory) (k : Nat) (f : WebFrontend → WebFrontend) : Memory :=
  match m.sessions k with
  | none => m
  | some c => m.modify c f

/-- What is written through a pointer is seen exactly if the pointer follows the frontends. -/
theorem write_seen_iff (sound : m.Sound) (holds : m.sessions k = some c) :
    (∃ f, (m.write k f).frontends ≠ m.frontends) ↔ c.Follows m.slice := by
  have written (f : WebFrontend → WebFrontend) : (m.write k f).frontends = (m.modify c f).frontends := by
    unfold Memory.write
    rw [holds]
  constructor
  · intro seen
    obtain ⟨f, differ⟩ := seen
    by_contra left
    exact differ ((written f).trans (Heap.contents_modify_left left))
  · intro follows
    have inside : c.index < (m.heap.contents m.slice).length := by
      rw [sound.slice.length_contents]
      exact (sound.issued k c holds).inside follows
    refine ⟨fun r => { connected := !r.connected }, fun same => ?_⟩
    rw [written] at same
    have there := congrArg (fun frontends => frontends[c.index]?) ((Heap.contents_modify follows).symm.trans same)
    rw [Memory.frontends, List.getElem?_modify_eq, List.getElem?_eq_getElem inside] at there
    have flipped := congrArg (fun r : WebFrontend => r.connected) (Option.some.inj there)
    exact Bool.not_ne_self _ flipped

theorem connect_pointer {lookup : Bytes} {f : WebFrontend → WebFrontend}
    (known : m.backend.findFrontend lookup ≠ none) (stepped : m.step spare (.connect k lookup f) = .ok m') :
    ∃ c, m'.sessions k = some c ∧ c.Follows m'.slice := by
  obtain rfl := Except.ok.inj stepped
  obtain ⟨i, found⟩ := Option.ne_none_iff_exists'.mp known
  rw [found]
  exact ⟨⟨m.slice.array, i⟩, Function.update_self .., rfl⟩

/-- A connection's pointer follows the frontends until one is added that finds the array full,
or one is deleted. -/
theorem session_follows_iff {events : List MemoryEvent} {lookup : Bytes} {greeted : WebFrontend → WebFrontend}
    (sound : m.Sound) (known : m.backend.findFrontend lookup ≠ none) (own : ∀ e ∈ events, ¬ e.Rebinds k)
    (ran : run (Memory.step spare) m (.connect k lookup greeted :: events) = .ok m') :
    m'.Sound ∧ ∃ c, m'.sessions k = some c ∧ (c.Follows m'.slice ↔
      Allowed (Memory.step spare) (fun m e => ¬ m.Moves e) m (.connect k lookup greeted :: events)) := by
  obtain ⟨joined, first, later⟩ := run_cons_ok ran
  obtain ⟨c, holds, follows⟩ := connect_pointer known first
  have lasts := run_lasts_iff (fun m => m.Sound ∧ m.sessions k = some c) (fun m => c.Follows m.slice)
    (fun s e s' member held stepped => by
      have pointers := step_pointers held.1 stepped
      have mine := pointers.2 k c held.2 (own e member)
      exact ⟨⟨pointers.1, mine.1⟩, mine.2⟩) ⟨(step_pointers sound first).1, holds⟩ later
  refine ⟨lasts.1.1, c, lasts.1.2, ?_⟩
  rw [lasts.2, and_iff_right follows]
  have only (s' : Memory) (stepped : m.step spare (.connect k lookup greeted) = .ok s') : s' = joined :=
    Except.ok.inj (stepped.symm.trans first)
  constructor
  · exact fun fair => ⟨not_false, fun s' stepped => (only s' stepped).symm ▸ fair⟩
  · exact fun fair => fair.2 joined first

/-- What a connection does to the fields of its frontend is seen, by whoever looks the frontend
up, exactly as long as no frontend is added that finds the array full, and none is deleted. -/
theorem session_seen_iff {b : Backend} {front events : List MemoryEvent} {lookup : Bytes}
    {greeted : WebFrontend → WebFrontend} (reached : run (Memory.step spare) (.start spare b) front = .ok m)
    (known : m.backend.findFrontend lookup ≠ none) (own : ∀ e ∈ events, ¬ e.Rebinds k)
    (ran : run (Memory.step spare) m (.connect k lookup greeted :: events) = .ok m') :
    (∃ f, (m'.write k f).frontends ≠ m'.frontends) ↔
      Allowed (Memory.step spare) (fun m e => ¬ m.Moves e) m (.connect k lookup greeted :: events) := by
  have sound := run_pointers (start_sound b) reached
  obtain ⟨sound', c, holds, follows⟩ := session_follows_iff sound known own ran
  rw [write_seen_iff sound' holds, follows]

/-- A game server connects, and somebody adds a server. -/
def joinedByAnother : List MemoryEvent := [
  .connect 0 (ascii "a1") fun f => { f with connected := true, trusted := true },
  .create { name := ascii "duel", uuid := ascii "b2" } { uuid := ascii "b2", rowID := 2 }]

theorem joinedByAnother_moves :
    Yields (run (Memory.step fun _ => 0) (.start (fun _ => 0) ffaBackend) joinedByAnother)
      (fun m => (m.frontends.map fun f => f.connected) = [true, false]) fun _ => False := by decide +kernel

theorem ffaBackend_reached : run (Memory.step fun _ => 0) (.start (fun _ => 0) ffaBackend) [] =
    .ok (.start (fun _ => 0) ffaBackend) := rfl

/-- The array of the frontends was full: what the game server's connection does from now on
is not seen. -/
theorem session_seen_iff_full :
    ∃ m, run (Memory.step fun _ => 0) (.start (fun _ => 0) ffaBackend) joinedByAnother = .ok m ∧
      ¬ ∃ f, (m.write 0 f).frontends ≠ m.frontends := by
  obtain ⟨m, ran, -⟩ := joinedByAnother_moves.returns
  have seen := session_seen_iff ffaBackend_reached (by decide +kernel) (by decide) ran
  exact ⟨m, ran, fun differ => absurd (seen.mp differ) (by decide +kernel)⟩

/-! ## Without arrays -/

/-- The process as if a connection worked on `be.frontends` at an index. -/
structure Indexed where
  backend : Backend
  sessions : Nat → Option Nat

namespace Indexed

def modify (x : Indexed) (i : Nat) (f : WebFrontend → WebFrontend) : Indexed :=
  { x with backend := x.backend.update i fun r => (f r).byValue }

def step (x : Indexed) : MemoryEvent → Except Empty Indexed
  | .connect k lookup f => .ok <|
    match x.backend.findFrontend lookup with
    | none => x
    | some i => { x.modify i f with sessions := Function.update x.sessions k (some i) }
  | .work k f => .ok <|
    match x.sessions k with
    | none => x
    | some i => x.modify i f
  | .close k f => .ok <|
    match x.sessions k with
    | none => x
    | some i => { x.modify i f with sessions := Function.update x.sessions k none }
  | .edit i f => .ok (x.modify i f)
  | .create f results => .ok { x with backend := (x.backend.createFrontend f.byValue results).1 }
  | .delete name results => .ok { x with backend := (x.backend.deleteFrontend name results).getD x.backend }

end Indexed

/-- Seen through `be.frontends`, with an index for every pointer. -/
structure Memory.Refines (m : Memory) (x : Indexed) : Prop where
  backend : m.backend = x.backend
  sessions : ∀ k, m.sessions k = (x.sessions k).map (Cell.mk m.slice.array)

/-- The frontends move only while no game server is connected. -/
def Memory.Undisturbed (m : Memory) (e : MemoryEvent) : Prop := m.Moves e → ∀ k, m.sessions k = none

section
variable {x : Indexed} (refines : m.Refines x)
include refines

theorem Memory.Refines.modify (i : Nat) (f : WebFrontend → WebFrontend) :
    (m.modify ⟨m.slice.array, i⟩ f).Refines (x.modify i f) where
  backend := by
    have written : (m.modify ⟨m.slice.array, i⟩ f).frontends = m.frontends.modify i fun r => (f r).byValue :=
      Heap.contents_modify (c := ⟨m.slice.array, i⟩) rfl
    have same : (m.modify ⟨m.slice.array, i⟩ f).backend = m.backend.update i fun r => (f r).byValue :=
      congrArg (fun frontends => Backend.mk m.clientDirectory frontends m.table m.files) written
    rw [same, refines.backend]
    rfl
  sessions := refines.sessions

theorem Memory.Refines.update (l : Nat) (last : Option Nat) :
    Memory.Refines { m with sessions := Function.update m.sessions l (last.map (Cell.mk m.slice.array)) }
      { x with sessions := Function.update x.sessions l last } where
  backend := refines.backend
  sessions := by
    intro k
    dsimp only
    by_cases same : k = l
    · rw [same, Function.update_self, Function.update_self]
    · rw [Function.update_of_ne same, Function.update_of_ne same]
      exact refines.sessions k

/-- A step that moves the frontends, if it does, under no connection. -/
theorem Memory.Refines.of_backend (sound : m.Sound) {e : MemoryEvent} (still : m.Undisturbed e)
    (stepped : m.step spare e = .ok m') (same : m'.sessions = m.sessions) (others : ∀ k, ¬ e.Rebinds k) {b : Backend}
    (backend : m'.backend = b) : m'.Refines { x with backend := b } where
  backend := backend
  sessions := by
    intro k
    have before := refines.sessions k
    cases known : x.sessions k with
    | none =>
      rw [known] at before
      rw [same]
      exact before
    | some i =>
      rw [known] at before
      have unmoved : ¬ m.Moves e := fun moves => nomatch before.symm.trans (still moves k)
      obtain ⟨holds, follows⟩ := (step_pointers sound stepped).2 k _ before (others k)
      have array : m.slice.array = m'.slice.array := follows.mpr ⟨rfl, unmoved⟩
      rw [holds, ← array]
      rfl

end

theorem modify_outside {b : Backend} {i : Nat} (outside : b.frontends.length ≤ i) (f : WebFrontend → WebFrontend) :
    b.update i f = b := by
  unfold Backend.update
  rw [List.modify_eq_set_getElem?, List.getElem?_eq_none outside]
  rfl

/-- A step does with pointers what it does with indexes. -/
theorem step_refines {x : Indexed} {e : MemoryEvent} (sound : m.Sound) (refines : m.Refines x) (still : m.Undisturbed e)
    (stepped : m.step spare e = .ok m') : ∃ x', x.step e = .ok x' ∧ m'.Refines x' := by
  cases e with
  | connect l lookup f =>
    obtain rfl := Except.ok.inj stepped
    refine ⟨_, rfl, ?_⟩
    rw [← refines.backend]
    cases m.backend.findFrontend lookup with
    | none => exact refines
    | some i => exact (refines.modify i f).update l (some i)
  | work l f =>
    obtain rfl := Except.ok.inj stepped
    refine ⟨_, rfl, ?_⟩
    rw [refines.sessions l]
    cases x.sessions l with
    | none => exact refines
    | some i => exact refines.modify i f
  | close l f =>
    obtain rfl := Except.ok.inj stepped
    refine ⟨_, rfl, ?_⟩
    rw [refines.sessions l]
    cases x.sessions l with
    | none => exact refines
    | some i => exact (refines.modify i f).update l none
  | edit i f =>
    obtain rfl := Except.ok.inj stepped
    refine ⟨_, rfl, ?_⟩
    split
    · exact refines.modify i f
    next outside =>
    have beyond : x.backend.frontends.length ≤ i := by
      rw [← refines.backend]
      exact sound.slice.length_contents.trans_le (Nat.le_of_not_lt outside)
    have same : x.modify i f = x := congrArg (fun b => Indexed.mk b x.sessions) (modify_outside beyond _)
    rw [same]
    exact refines
  | create f results =>
    refine ⟨_, rfl, refines.of_backend sound still stepped ?_ (fun _ => not_false) ?_⟩
    · exact Except.ok.inj stepped ▸ createFrontend_sessions f results
    · rw [← refines.backend, ← Except.ok.inj stepped]
      exact createFrontend_backend sound f results
  | delete name results =>
    refine ⟨_, rfl, refines.of_backend sound still stepped ?_ (fun _ => not_false) ?_⟩
    · exact Except.ok.inj stepped ▸ deleteFrontend_sessions name results
    · rw [← refines.backend, ← deleteFrontend_backend name results, ← Except.ok.inj stepped]
      cases m.deleteFrontend spare name results <;> rfl

/-- As long as servers are added to a full array, and deleted, only while no game server is
connected, the process behaves, players and buffers apart, as if every connection worked on the
frontends at an index. -/
theorem indexed_run {b : Backend} {events : List MemoryEvent}
    (fair : Allowed (Memory.step spare) Memory.Undisturbed (.start spare b) events)
    (ran : run (Memory.step spare) (.start spare b) events = .ok m) :
    ∃ x, run Indexed.step ⟨{ b with frontends := b.frontends.map WebFrontend.byValue }, fun _ => none⟩ events =
      .ok x ∧
      m.backend = x.backend ∧ ∀ k, m.sessions k = (x.sessions k).map (Cell.mk m.slice.array) := by
  have start : (Memory.start spare b).Refines
      ⟨{ b with frontends := b.frontends.map WebFrontend.byValue }, fun _ => none⟩ := by
    refine ⟨?_, fun _ => rfl⟩
    exact congrArg (fun frontends => Backend.mk b.clientDirectory frontends b.table b.files) (start_frontends b)
  obtain ⟨x, through, -, refines⟩ := run_simulates (fun m x => m.Sound ∧ Memory.Refines m x)
    (fun m x e m' held still stepped => by
      obtain ⟨x', matched, refines⟩ := step_refines held.1 held.2 still stepped
      exact ⟨x', matched, (step_pointers held.1 stepped).1, refines⟩) ⟨start_sound b, start⟩ fair ran
  exact ⟨x, through, refines.backend, refines.sessions⟩

/-- Somebody adds a server, and then the first game server connects and hangs up. -/
def addedBefore : List MemoryEvent := [
  .create { name := ascii "duel", uuid := ascii "b2" } { uuid := ascii "b2", rowID := 2 },
  .connect 0 (ascii "a1") fun f => { f with connected := true, trusted := true },
  .close 0 WebFrontend.disconnect]

theorem addedBefore_ran : Yields (run (Memory.step fun _ => 0) (.start (fun _ => 0) ffaBackend) addedBefore)
    (fun m => (m.backend.frontends.map fun f => f.connected) = [false, false]) fun _ => False := by decide +kernel

theorem indexed_run_added : ∃ m x, run (Memory.step fun _ => 0) (.start (fun _ => 0) ffaBackend) addedBefore = .ok m ∧
    run Indexed.step ⟨{ ffaBackend with frontends := ffaBackend.frontends.map WebFrontend.byValue }, fun _ => none⟩
      addedBefore = .ok x ∧ m.backend = x.backend := by
  obtain ⟨m, ran, -⟩ := addedBefore_ran.returns
  have fair : Allowed (Memory.step fun _ => 0) Memory.Undisturbed (.start (fun _ => 0) ffaBackend) addedBefore :=
    ⟨fun _ _ => rfl, fun _ _ => ⟨fun moves => moves.elim, fun _ _ => ⟨fun moves => moves.elim, fun _ _ => trivial⟩⟩⟩
  obtain ⟨x, through, same, -⟩ := indexed_run fair ran
  exact ⟨m, x, ran, through, same⟩

/-! ## Left behind -/

/-- The same but for what is in the array that a connection was left behind in, and for
whether this connection still lasts. -/
structure Memory.AgreesBehind (c : Cell) (k : Nat) (m m' : Memory) : Prop where
  heap : m.heap.AgreesBut m'.heap c.array
  slice : m'.slice = m.slice
  left : m.slice.array ≠ c.array
  allocated : c.array < m.heap.arrays.length
  sessions : ∀ l, l ≠ k → m'.sessions l = m.sessions l
  mine : ∀ d, m.sessions k = some d → d = c
  clientDirectory : m'.clientDirectory = m.clientDirectory
  table : m'.table = m.table
  files : m'.files = m.files

section
variable (agrees : m.AgreesBehind c k m')
include agrees

theorem Memory.AgreesBehind.frontends : m'.frontends = m.frontends := by
  unfold Memory.frontends
  rw [agrees.slice]
  exact agrees.heap.contents agrees.left

theorem Memory.AgreesBehind.backend : m'.backend = m.backend := by
  unfold Memory.backend
  rw [agrees.frontends, agrees.clientDirectory, agrees.table, agrees.files]

theorem Memory.AgreesBehind.modify (d : Cell) (f : WebFrontend → WebFrontend) :
    (m.modify d f).AgreesBehind c k (m'.modify d f) :=
  { agrees with
    heap := agrees.heap.modify d _
    allocated := by
      unfold Memory.modify
      rw [Heap.length_modify]
      exact agrees.allocated }

theorem Memory.AgreesBehind.modify_left (f : WebFrontend → WebFrontend) : (m.modify c f).AgreesBehind c k m' :=
  { agrees with
    heap := agrees.heap.modify_left rfl
    allocated := by
      unfold Memory.modify
      rw [Heap.length_modify]
      exact agrees.allocated }

/-- Another connection begins or ends. -/
theorem Memory.AgreesBehind.update {l : Nat} (other : l ≠ k) (last : Option Cell) :
    Memory.AgreesBehind c k { m with sessions := Function.update m.sessions l last }
      { m' with sessions := Function.update m'.sessions l last } :=
  { agrees with
    sessions := by
      intro j others
      dsimp only
      by_cases same : j = l
      · rw [same, Function.update_self, Function.update_self]
      · rw [Function.update_of_ne same, Function.update_of_ne same]
        exact agrees.sessions j others
    mine := by
      intro d holds
      dsimp only at holds
      rw [Function.update_of_ne (Ne.symm other)] at holds
      exact agrees.mine d holds }

theorem Memory.AgreesBehind.createFrontend (f : WebFrontend) (results : Results) :
    (m.createFrontend spare f results).1.AgreesBehind c k (m'.createFrontend spare f results).1 := by
  unfold Memory.createFrontend
  split
  · exact agrees
  have inserted : m'.table ++ [f.row results.rowID] = m.table ++ [f.row results.rowID] := by rw [agrees.table]
  split
  · exact { agrees with table := inserted }
  obtain ⟨slice, left, heap⟩ :=
    agrees.heap.append spare agrees.allocated agrees.left { f.byValue with id := results.rowID }
  dsimp only
  rw [agrees.slice]
  exact { agrees with
    heap := heap
    slice := slice
    left := left
    allocated := Nat.lt_of_lt_of_le agrees.allocated (Heap.length_append ..)
    table := inserted }

theorem Memory.AgreesBehind.deleteFrontend (name : Bytes) (results : Results) :
    Memory.AgreesBehind c k ((m.deleteFrontend spare name results).getD m)
      ((m'.deleteFrontend spare name results).getD m') := by
  unfold Memory.deleteFrontend
  rw [agrees.backend, agrees.frontends, agrees.table]
  cases m.backend.findFrontendByName name with
  | none => exact agrees
  | some i =>
    cases results.exec with
    | some failure => exact agrees
    | none =>
      obtain ⟨slice, heap⟩ := agrees.heap.build spare agrees.allocated (m.frontends.filter fun f => f.name ≠ name)
      have built := Heap.build_spec (h := m.heap) spare (m.frontends.filter fun f => f.name ≠ name)
      exact { agrees with
        heap := heap
        slice := slice
        left := Ne.symm (Nat.ne_of_lt (Nat.lt_of_lt_of_le agrees.allocated built.2.2.2))
        allocated := Nat.lt_of_lt_of_le agrees.allocated built.2.2.1
        table := rfl }

/-- What the connection does makes no difference. -/
theorem Memory.AgreesBehind.unnoticed {n : Memory} {e : MemoryEvent} (own : e.By k)
    (once : ∀ lookup f, e ≠ .connect k lookup f) (stepped : m.step spare e = .ok n) : n.AgreesBehind c k m' := by
  unfold Memory.step at stepped
  cases e with
  | connect l lookup f => exact absurd (own ▸ rfl) (once lookup f)
  | work l f =>
    obtain rfl := Except.ok.inj stepped
    obtain rfl : l = k := own
    cases holds : m.sessions l with
    | none => exact agrees
    | some d =>
      obtain rfl := agrees.mine d holds
      exact agrees.modify_left f
  | close l f =>
    obtain rfl := Except.ok.inj stepped
    obtain rfl : l = k := own
    cases holds : m.sessions l with
    | none => exact agrees
    | some d =>
      obtain rfl := agrees.mine d holds
      exact { agrees.modify_left f with
        sessions := fun j others => (agrees.sessions j others).trans (Function.update_of_ne others ..).symm
        mine := fun d same => nomatch (Function.update_self ..).symm.trans same }
  | edit | create | delete => exact own.elim

/-- What others do does the same to both. -/
theorem Memory.AgreesBehind.followed {n : Memory} {e : MemoryEvent} (other : ¬ e.By k)
    (stepped : m.step spare e = .ok n) : ∃ n', m'.step spare e = .ok n' ∧ n.AgreesBehind c k n' := by
  unfold Memory.step at stepped
  cases e with
  | connect l lookup f =>
    obtain rfl := Except.ok.inj stepped
    refine ⟨_, rfl, ?_⟩
    rw [agrees.backend, agrees.slice]
    cases m.backend.findFrontend lookup with
    | none => exact agrees
    | some i => exact (agrees.modify ⟨m.slice.array, i⟩ f).update other _
  | work l f =>
    obtain rfl := Except.ok.inj stepped
    refine ⟨_, rfl, ?_⟩
    rw [agrees.sessions l other]
    cases m.sessions l with
    | none => exact agrees
    | some d => exact agrees.modify d f
  | close l f =>
    obtain rfl := Except.ok.inj stepped
    refine ⟨_, rfl, ?_⟩
    rw [agrees.sessions l other]
    cases m.sessions l with
    | none => exact agrees
    | some d => exact (agrees.modify d f).update other none
  | edit i f =>
    obtain rfl := Except.ok.inj stepped
    refine ⟨_, rfl, ?_⟩
    rw [agrees.slice]
    split
    · exact agrees.modify _ f
    · exact agrees
  | create f results => exact ⟨_, rfl, Except.ok.inj stepped ▸ agrees.createFrontend f results⟩
  | delete name results => exact ⟨_, rfl, Except.ok.inj stepped ▸ agrees.deleteFrontend name results⟩

end

end Q2Admin
