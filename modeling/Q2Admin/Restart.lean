import Mathlib.Data.List.Sort
import Q2Admin.InStep

/-! What a restart brings back. `Startup` reads the table and nothing else, so whatever the
process knew of its frontends comes back exactly as far as the requests have written it there. -/

namespace Q2Admin
open Go Lib

/-- The frontends of `Startup`: those of the table, sorted by their names. -/
def Backend.startup (b : Backend) : Backend :=
  let loaded := Backend.load b.clientDirectory b.table b.files
  { loaded with frontends := loaded.frontends.insertionSort fun f g => f.name ≤ g.name }

inductive LifeEvent where
  | request (r : WebRequest)
  | restart

def WebLib.live (lib : WebLib) (b : Backend) : LifeEvent → Except Empty Backend
  | .request r => lib.step b r
  | .restart => .ok b.startup

/-- What a frontend and its row have in common. -/
def WebFrontend.kept (f : WebFrontend) : Columns × Bytes := (f.columns, f.owner)

def FrontendRow.kept (row : FrontendRow) : Columns × Bytes := (row.columns, row.owner)

/-- Memory mirrors the table: each frontend is in step with its row, and each row has its
frontend. -/
structure Backend.Mirrored (b : Backend) : Prop extends b.InStep where
  consistent : b.Consistent
  ids : (b.table.map fun row => row.id).Nodup
  complete : ∀ id, ¬ b.Stray id

variable {b b' : Backend} {user : Bytes} {results : Results} {lib : WebLib}

/-! ## Memory and table hold the same -/

theorem Backend.Mirrored.nodup (mirrored : b.Mirrored) : (b.frontends.map WebFrontend.kept).Nodup := by
  apply List.Nodup.map_on _ mirrored.uuids.of_map
  intro f member g member' same
  exact mirrored.eq_of_id member member' (congrArg (fun kept => kept.1.id) same)

theorem Backend.Mirrored.perm (mirrored : b.Mirrored) :
    (b.table.map FrontendRow.kept).Perm (b.frontends.map WebFrontend.kept) := by
  have rows : (b.table.map FrontendRow.kept).Nodup := by
    apply List.Nodup.map_on _ mirrored.ids.of_map
    intro row member row' member' same
    exact List.inj_on_of_nodup_map mirrored.ids member member' (congrArg (fun kept => kept.1.id) same)
  rw [List.perm_ext_iff_of_nodup rows mirrored.nodup]
  intro kept
  rw [List.mem_map, List.mem_map]
  have alike {f : WebFrontend} {row : FrontendRow} (member : f ∈ b.frontends) (stored : row ∈ b.table)
      (columns : row.columns = f.columns) : row.kept = f.kept := by
    have owner := mirrored.consistent.owned f member row stored (congrArg Columns.id columns)
    exact Prod.ext columns owner
  constructor
  · intro stored
    obtain ⟨row, member, rfl⟩ := stored
    have there : ∃ f ∈ b.frontends, f.id = row.id := by
      by_contra nobody
      exact mirrored.complete row.id ⟨⟨row, member, rfl⟩, fun f known same => nobody ⟨f, known, same⟩⟩
    obtain ⟨f, known, same⟩ := there
    exact ⟨f, known, (alike known member (mirrored.paired f known row member (.inl same.symm))).symm⟩
  · intro known
    obtain ⟨f, member, rfl⟩ := known
    obtain ⟨row, stored, columns⟩ := mirrored.stored f member
    exact ⟨row, stored, alike member stored columns⟩

/-! ## Starting -/

theorem load_mirrored (clientDirectory : Bytes) {table : List FrontendRow} (files : Bytes → Option Bytes)
    (ids : (table.map fun row => row.id).Nodup) (uuids : (table.map fun row => row.uuid).Nodup) :
    (Backend.load clientDirectory table files).Mirrored where
  toInStep := load_inStep clientDirectory files ids uuids
  consistent := load_consistent clientDirectory files ids uuids
  ids := ids
  complete := by
    intro id stray
    obtain ⟨⟨row, stored, rfl⟩, nobody⟩ := stray
    exact nobody row.frontend (List.mem_map_of_mem stored) rfl

/-- The order of the frontends makes no difference. -/
theorem Backend.Mirrored.reorder (mirrored : b.Mirrored) {frontends : List WebFrontend}
    (order : frontends.Perm b.frontends) : Backend.Mirrored { b with frontends := frontends } where
  uuids := ((order.map _).nodup_iff).mpr mirrored.uuids
  stored := fun f member => mirrored.stored f (order.mem_iff.mp member)
  paired := fun f member => mirrored.paired f (order.mem_iff.mp member)
  consistent := ⟨((order.map _).nodup_iff).mpr mirrored.uuids,
    fun f member => mirrored.consistent.paired f (order.mem_iff.mp member),
    fun f member => mirrored.consistent.owned f (order.mem_iff.mp member)⟩
  ids := mirrored.ids
  complete := by
    intro id stray
    exact mirrored.complete id ⟨stray.1, fun f member => stray.2 f (order.mem_iff.mpr member)⟩

theorem startup_perm (b : Backend) : b.startup.frontends.Perm (b.table.map FrontendRow.frontend) :=
  List.perm_insertionSort ..

theorem startup_kept (b : Backend) :
    (b.startup.frontends.map WebFrontend.kept).Perm (b.table.map FrontendRow.kept) := by
  apply ((startup_perm b).map WebFrontend.kept).trans
  rw [List.map_map]
  exact .refl _

theorem Backend.Mirrored.startup (mirrored : b.Mirrored) : b.startup.Mirrored := by
  have uuids : (b.table.map fun row => row.uuid).Nodup := by
    have rows := (mirrored.perm.map fun kept => kept.1.uuid).nodup_iff
    rw [List.map_map, List.map_map] at rows
    exact rows.mpr mirrored.uuids
  exact (load_mirrored b.clientDirectory b.files mirrored.ids uuids).reorder (startup_perm b)

theorem startup_sorted (b : Backend) : b.startup.frontends.Pairwise fun f g => f.name ≤ g.name := by
  have total : Std.Total fun f g : WebFrontend => f.name ≤ g.name := ⟨fun f g => List.le_total f.name g.name⟩
  have transitive : IsTrans WebFrontend fun f g => f.name ≤ g.name := ⟨fun _ _ _ => List.le_trans⟩
  exact List.pairwise_insertionSort _ _

/-! ## Requests -/

theorem Backend.Effect.ids {form : WebForm} (effect : b.Effect user results form b') (fresh : b.Fresh results)
    (ids : (b.table.map fun row => row.id).Nodup) : (b'.table.map fun row => row.id).Nodup := by
  have inserted (f : WebFrontend) : ((b.table ++ [f.row results.rowID]).map fun row => row.id).Nodup := by
    rw [List.map_append, List.map_singleton, List.nodup_append]
    refine ⟨ids, List.nodup_singleton _, ?_⟩
    intro old member added same
    obtain ⟨row, before, rfl⟩ := List.mem_map.mp member
    rw [List.mem_singleton.mp same]
    exact (fresh.2 row before).2
  have rewritten (b : Backend) (ids : (b.table.map fun row => row.id).Nodup) (chosen : FrontendRow → Prop)
      [DecidablePred chosen] (f : FrontendRow → FrontendRow) (kept : ∀ row, (f row).id = row.id) :
      ((b.updateRows chosen f).table.map fun row => row.id).Nodup := by
    rw [b.ids_updateRows chosen f kept]
    exact ids
  cases effect with
  | nothing => exact ids
  | insert own named => exact inserted _
  | create own named => exact inserted _
  | delete own deleted =>
    obtain ⟨j, -, -, rfl⟩ := Backend.deleteFrontend_some deleted
    exact ids.sublist (List.filter_sublist.map _)
  | reidentify own => exact rewritten b ids _ _ fun _ => rfl
  | materialize own f data => exact rewritten b ids _ _ fun _ => rfl
  | edit own edit => exact ids
  | editRow own edit => exact rewritten (b.update _ edit.apply) ids _ _ fun _ => rfl
  | saveKey own named given => exact ids

theorem Backend.InStep.congr (inStep : b.InStep)
    (memory : b'.frontends.map WebFrontend.columns = b.frontends.map WebFrontend.columns)
    (rows : b'.table = b.table) : b'.InStep := by
  have known {f' : WebFrontend} (member : f' ∈ b'.frontends) : ∃ f ∈ b.frontends, f.columns = f'.columns :=
    List.mem_map.mp (memory ▸ List.mem_map_of_mem member)
  refine ⟨?_, ?_, ?_⟩
  · have uuids := congrArg (List.map Columns.uuid) memory
    rw [List.map_map, List.map_map] at uuids
    exact (congrArg List.Nodup uuids).mpr inStep.uuids
  · intro f' member
    obtain ⟨f, before, same⟩ := known member
    rw [rows, ← same]
    exact inStep.stored f before
  · intro f' member row stored meets
    obtain ⟨f, before, same⟩ := known member
    rw [rows] at stored
    have id : f.id = f'.id := congrArg Columns.id same
    have uuid : f.uuid = f'.uuid := congrArg Columns.uuid same
    rw [← same]
    exact inStep.paired f before row stored (by rwa [id, uuid])

/-- A saved key is neither a column nor a row. -/
theorem Backend.Mirrored.saveKey (mirrored : b.Mirrored) {action uuid name keydata : Bytes}
    (effect : b.Effect user results (.serverKeys action uuid name keydata) b') :
    b'.InStep ∧ ∀ id, ¬ b'.Stray id := by
  cases effect with
  | nothing => exact ⟨mirrored.toInStep, mirrored.complete⟩
  | saveKey own named given =>
    have kept {α : Type} (g : WebFrontend → α)
        (same : ∀ f : WebFrontend, g { f with publicKeyData := trim keydata (ascii " \r\n\t") } = g f) :=
      mirrored.consistent.map_update own g same
    refine ⟨mirrored.toInStep.congr (kept _ fun _ => rfl) rfl, fun id stray => mirrored.complete id ?_⟩
    exact (Backend.stray_congr (kept (fun f => f.id) fun _ => rfl) rfl id).mp stray

/-- A steady request leaves a mirror behind. -/
theorem serve_mirrored (lib : WebLib) {request : WebRequest} (mirrored : b.Mirrored) (fresh : b.Fresh request.results)
    (answers : request.results.lastInsertId = none) (steady : b.Steady request) :
    (lib.serve b request).1.Mirrored := by
  have served : (lib.serve b request).1.InStep ∧ ∀ id, ¬ (lib.serve b request).1.Stray id := by
    by_cases statement : request.form.HasStatement
    · have keeps := (serve_keepsStep_iff lib mirrored.toInStep fresh answers statement).mpr steady
      exact ⟨keeps.inStep, fun id stray => mirrored.complete id (keeps.stray id stray)⟩
    · unfold WebLib.serve
      cases request.session with
      | none => exact ⟨mirrored.toInStep, mirrored.complete⟩
      | some user =>
        have effect := handle_effect lib b user request.results request.form
        cases form : request.form with
        | serverKeys action uuid name keydata =>
          rw [form] at effect
          exact mirrored.saveKey effect
        | addServer | delServer | changeUUID | editServer =>
          rw [form] at statement
          exact absurd trivial statement
  have ids : ((lib.serve b request).1.table.map fun row => row.id).Nodup := by
    unfold WebLib.serve
    cases request.session with
    | none => exact mirrored.ids
    | some user => exact (handle_effect lib b user request.results request.form).ids fresh mirrored.ids
  exact ⟨served.1, serve_consistent lib mirrored.consistent fresh, ids, served.2⟩

/-! ## Runs -/

def WebForm.ChangesUUID : WebForm → Bool
  | changeUUID _ => true
  | _ => false

/-- A change of a UUID for which the statement fails, and which leaves both as they are. -/
def WebRequest.KeepsUUID (r : WebRequest) : Prop := r.form.ChangesUUID = true ∧ r.results.exec ≠ none

instance (r : WebRequest) : Decidable r.KeepsUUID := inferInstanceAs (Decidable (_ ∧ _))

/-- Requests that leave memory and table in step, and restarts at any time. -/
def LifeEvent.Fair (b : Backend) : LifeEvent → Prop
  | request r => b.Fresh r.results ∧ r.results.lastInsertId = none ∧ (b.Steady r ∨ r.KeepsUUID)
  | restart => True

instance (b : Backend) : (e : LifeEvent) → Decidable (e.Fair b)
  | .request _ => inferInstanceAs (Decidable (_ ∧ _))
  | .restart => inferInstanceAs (Decidable True)

theorem serve_keepsUUID {r : WebRequest} (kept : r.KeepsUUID) : (lib.serve b r).1 = b := by
  unfold WebLib.serve
  cases r.session with
  | none => rfl
  | some user =>
    cases form : r.form with
    | changeUUID uuid =>
      cases failed : r.results.exec with
      | none => exact absurd failed kept.2
      | some failure =>
        show (lib.changeUUIDHandler b user uuid r.results).1 = b
        unfold WebLib.changeUUIDHandler
        rw [failed]
        apply Backend.forOwner_keeps (fun after => after = b) rfl
        exact fun _ _ => rfl
    | addServer | delServer | editServer | serverKeys =>
      have changes := kept.1
      rw [form] at changes
      cases changes

theorem live_mirrored {e : LifeEvent} (mirrored : b.Mirrored) (fair : e.Fair b) (stepped : lib.live b e = .ok b') :
    b'.Mirrored := by
  cases e with
  | request r =>
    obtain ⟨fresh, answers, steady | kept⟩ := fair
    · exact Except.ok.inj stepped ▸ serve_mirrored lib mirrored fresh answers steady
    · rw [← Except.ok.inj stepped, serve_keepsUUID kept]
      exact mirrored
  | restart => exact Except.ok.inj stepped ▸ mirrored.startup

/-- However requests and restarts follow one another, as long as no frontend is deleted whose
name another has and no edit that changes something fails: a restart brings back the frontends
that were in memory, each with its identity, address, switches and owner, none twice and no
other, in the order of their names. -/
theorem restart_restores {clientDirectory : Bytes} {table : List FrontendRow} {files : Bytes → Option Bytes}
    {events : List LifeEvent} (ids : (table.map fun row => row.id).Nodup)
    (uuids : (table.map fun row => row.uuid).Nodup)
    (fair : Allowed lib.live (fun b e => e.Fair b) (Backend.load clientDirectory table files) events)
    (ran : run lib.live (Backend.load clientDirectory table files) events = .ok b') :
    (b'.startup.frontends.map WebFrontend.kept).Perm (b'.frontends.map WebFrontend.kept) ∧
      b'.startup.frontends.Pairwise fun f g => f.name ≤ g.name := by
  have mirrored := run_invariant Backend.Mirrored (fun _ _ _ held fair stepped => live_mirrored held fair stepped)
    (load_mirrored clientDirectory files ids uuids) fair ran
  exact ⟨(startup_kept b').trans mirrored.perm, startup_sorted b'⟩

/-- A server is added and gets a key, the process is restarted, and the server a new UUID. -/
def duelLife : List LifeEvent := [
  .request (secondAdds "Duel Two"),
  .request (secondAsks (.serverKeys (ascii "SaveKey") (ascii "b2") (ascii "duel-two") (ascii "second key\n")) "b3" 3),
  .restart,
  .request (secondAsks (.changeUUID (ascii "b2")) "b4" 4)]

theorem duelLife_ran : Yields (run WebLib.plain.live ffaBackend duelLife)
    (fun b => (b.frontends.map fun f => (f.name, f.uuid)) =
      [(ascii "duel-two", ascii "b4"), (ascii "ffa", ascii "a1")]) fun _ => False := by decide +kernel

theorem restart_restores_duel : ∃ b', run WebLib.plain.live ffaBackend duelLife = .ok b' ∧
    (b'.startup.frontends.map WebFrontend.kept).Perm (b'.frontends.map WebFrontend.kept) := by
  obtain ⟨b', ran, -⟩ := duelLife_ran.returns
  exact ⟨b', ran, (restart_restores (by decide) (by decide) (by decide +kernel) ran).1⟩

/-! ## Keys -/

/-- The keys in the table are those these rows had, or none. -/
def Backend.KeysFrom (rows : List FrontendRow) (b : Backend) : Prop :=
  ∀ row' ∈ b.table, row'.publicKeyData = [] ∨
    ∃ row ∈ rows, row.id = row'.id ∧ row.publicKeyData = row'.publicKeyData

section
variable {rows : List FrontendRow} (keys : b.KeysFrom rows)
include keys

theorem Backend.KeysFrom.insert {f : WebFrontend} (new : f.publicKeyData = []) (id : Int)
    (table : b'.table = b.table ++ [f.row id]) : b'.KeysFrom rows := by
  intro row' member
  rw [table] at member
  rcases List.mem_append.mp member with before | added
  · exact keys row' before
  · rw [List.mem_singleton.mp added]
    exact .inl new

theorem Backend.KeysFrom.updateRows (chosen : FrontendRow → Prop) [DecidablePred chosen]
    {f : FrontendRow → FrontendRow} (kept : ∀ row, (f row).id = row.id ∧ (f row).publicKeyData = row.publicKeyData) :
    (b.updateRows chosen f).KeysFrom rows := by
  intro row' member
  obtain ⟨row, before, rfl⟩ := List.mem_map.mp member
  split
  · rw [(kept row).1, (kept row).2]
    exact keys row before
  · exact keys row before

/-- A frontend is created without a key. -/
theorem Backend.KeysFrom.webAddServer (lib : WebLib) (user addButton name address port : Bytes) (results : Results) :
    (lib.webAddServer b user addButton name address port results).1.KeysFrom rows := by
  have created (f : WebFrontend) (new : f.publicKeyData = []) : (b.createFrontend f results).1.KeysFrom rows := by
    unfold Backend.createFrontend
    split
    · exact keys
    dsimp only
    split
    · exact keys.insert new _ rfl
    · exact keys.insert new _ rfl
  unfold WebLib.webAddServer
  split
  · exact keys
  split
  · exact keys
  dsimp only
  split
  · exact keys
  split
  · next result =>
    rw [← show _ = _ from congrArg Prod.fst result]
    exact created _ rfl
  · next result =>
    rw [← show _ = _ from congrArg Prod.fst result]
    exact created _ rfl

theorem Backend.KeysFrom.effect {form : WebForm} (effect : b.Effect user results form b')
    (other : ∀ addButton name address port, form ≠ .addServer addButton name address port) : b'.KeysFrom rows := by
  cases effect with
  | nothing => exact keys
  | insert own named => exact absurd rfl (other _ _ _ _)
  | create own named => exact absurd rfl (other _ _ _ _)
  | delete own deleted =>
    obtain ⟨j, -, -, rfl⟩ := Backend.deleteFrontend_some deleted
    exact fun row' member => keys row' (List.mem_filter.mp member).1
  | reidentify own => exact keys.updateRows _ fun _ => ⟨rfl, rfl⟩
  | materialize own f data => exact keys.updateRows _ fun _ => ⟨rfl, rfl⟩
  | edit own edit => exact keys
  | @editRow _ _ _ _ _ _ _ i own edit =>
    have edited : (b.update i edit.apply).KeysFrom rows := keys
    exact edited.updateRows _ fun _ => ⟨rfl, rfl⟩
  | saveKey own named given => exact keys

theorem Backend.KeysFrom.serve (lib : WebLib) (request : WebRequest) : (lib.serve b request).1.KeysFrom rows := by
  unfold WebLib.serve
  cases request.session with
  | none => exact keys
  | some user =>
    have effect := handle_effect lib b user request.results request.form
    cases form : request.form with
    | addServer addButton name address port =>
      exact keys.webAddServer lib user addButton name address port request.results
    | delServer | changeUUID | editServer | serverKeys =>
      rw [form] at effect
      exact keys.effect effect (by simp)

end

/-- However requests and restarts follow one another and whatever fails in them, a restart
brings back the key each frontend had in the table when the process was first started, or
none: a key that has been saved since is not among what is loaded. -/
theorem keys_forgotten {clientDirectory : Bytes} {table : List FrontendRow} {files : Bytes → Option Bytes}
    {events : List LifeEvent}
    (ran : run lib.live (Backend.load clientDirectory table files) events = .ok b') :
    ∀ f ∈ b'.startup.frontends, f.publicKeyData = [] ∨
      ∃ row ∈ table, row.id = f.id ∧ row.publicKeyData = f.publicKeyData := by
  have start : (Backend.load clientDirectory table files).KeysFrom table :=
    fun row member => .inr ⟨row, member, rfl, rfl⟩
  have step (b : Backend) (e : LifeEvent) (b' : Backend) (held : b.KeysFrom table) (_ : True)
      (stepped : lib.live b e = .ok b') : b'.KeysFrom table := by
    cases e with
    | request r => exact Except.ok.inj stepped ▸ held.serve lib r
    | restart => exact Except.ok.inj stepped ▸ held
  have keys := run_invariant (Backend.KeysFrom table) step start (allowed_all _ events) ran
  intro f member
  obtain ⟨row, stored, rfl⟩ := List.mem_map.mp ((startup_perm b').mem_iff.mp member)
  exact keys row stored

/-- The key of the server that is added is in memory until the restart. -/
theorem duelLife_key : Yields (run WebLib.plain.live ffaBackend (duelLife.take 2))
    (fun b => b.frontends.map (fun f => f.publicKeyData) = [[], ascii "second key"]) fun _ => False := by
  decide +kernel

theorem keys_forgotten_duel : ∃ b', run WebLib.plain.live ffaBackend (duelLife.take 2) = .ok b' ∧
    ∀ f ∈ b'.startup.frontends, f.publicKeyData = [] := by
  obtain ⟨b', ran, -⟩ := duelLife_key.returns
  refine ⟨b', ran, fun f member => ?_⟩
  rcases keys_forgotten ran f member with none | ⟨row, stored, -, same⟩
  · exact none
  · rw [List.mem_singleton.mp stored] at same
    exact same.symm

end Q2Admin
