import Q2Admin.Ownership

/-! Whether memory and table stay in step: what a request makes of the frontends in memory and
of their rows, when the database works and when it fails. -/

namespace Q2Admin
open Go Lib

/-- What a frontend in memory and its row are to agree on. -/
structure Columns where
  id : Int
  uuid : Bytes
  name : Bytes
  ipAddress : Bytes
  port : Int
  enabled : Bool
  allowTeleport : Bool
  allowInvite : Bool
  deleteProtect : Bool
  deriving DecidableEq

def WebFrontend.columns (f : WebFrontend) : Columns :=
  ⟨f.id, f.uuid, f.name, f.ipAddress, f.port, f.enabled, f.allowTeleport, f.allowInvite, f.deleteProtect⟩

def FrontendRow.columns (row : FrontendRow) : Columns :=
  ⟨row.id, row.uuid, row.name, row.ipAddress, row.port, row.enabled, row.allowTeleport, row.allowInvite,
    row.deleteProtection⟩

/-- Every frontend in memory has its row, and agrees with it. -/
structure Backend.InStep (b : Backend) : Prop where
  uuids : (b.frontends.map fun f => f.uuid).Nodup
  stored : ∀ f ∈ b.frontends, ∃ row ∈ b.table, row.columns = f.columns
  paired : ∀ f ∈ b.frontends, ∀ row ∈ b.table, row.id = f.id ∨ row.uuid = f.uuid → row.columns = f.columns

/-- There is a row of this id, and no frontend for it in memory. -/
def Backend.Stray (b : Backend) (id : Int) : Prop :=
  (∃ row ∈ b.table, row.id = id) ∧ ∀ f ∈ b.frontends, f.id ≠ id

/-- A form for which a statement is executed. -/
def WebForm.HasStatement : WebForm → Prop
  | .serverKeys .. => False
  | _ => True

/-- Behind a request memory and table are in step, and as before if the statement failed, no
row is left without its frontend, and there is a reply. -/
structure Backend.KeepsStep (b : Backend) (results : Results) (after : Backend × Reply) : Prop where
  inStep : after.1.InStep
  stray : ∀ id, after.1.Stray id → b.Stray id
  failed : results.exec ≠ none → after.1.frontends = b.frontends ∧ after.1.table = b.table
  answered : after.2 ≠ .aborted

def WebLib.StaysInStep (lib : WebLib) (b : Backend) (request : WebRequest) : Prop :=
  b.KeepsStep request.results (lib.serve b request)

/-- The edit of a form. -/
def editOf (name address enabled teleport invite protect : Bytes) : Edit where
  name := trim (replaceAll name ' ' '-') (ascii " \n\r\t")
  address := address
  enabled := enabled = ascii "on"
  teleport := teleport = ascii "on"
  invite := invite = ascii "on"
  protect := protect = ascii "on"

def Backend.SteadyForm (b : Backend) (user : Bytes) (results : Results) : WebForm → Prop
  | .delServer uuid => results.exec = none → b.Owned user uuid → ∀ f ∈ b.frontends, f.uuid = uuid → f.name ≠ [] →
      ∀ g ∈ b.frontends, g.name = f.name → g.uuid = uuid
  | .changeUUID uuid => b.Owned user uuid → results.exec = none
  | .editServer uuid name address enabled teleport invite protect =>
    name ≠ [] → address ≠ [] → b.Owned user uuid → results.exec ≠ none → ∀ f ∈ b.frontends, f.uuid = uuid →
      (editOf name address enabled teleport invite protect).apply f = f
  | _ => True

instance Backend.decidableSteadyForm (b : Backend) (user : Bytes) (results : Results) :
    (form : WebForm) → Decidable (b.SteadyForm user results form)
  | .delServer _ => inferInstanceAs (Decidable (_ → _))
  | .changeUUID _ => inferInstanceAs (Decidable (_ → _))
  | .editServer .. => inferInstanceAs (Decidable (_ → _))
  | .addServer .. => inferInstanceAs (Decidable True)
  | .serverKeys .. => inferInstanceAs (Decidable True)

/-- A frontend to be deleted shares its name with no other, and where the statement fails, there
is no UUID to change, and an edit changes nothing. -/
def Backend.Steady (b : Backend) (request : WebRequest) : Prop :=
  ∀ user ∈ request.session, b.SteadyForm user request.results request.form

instance (b : Backend) (request : WebRequest) : Decidable (b.Steady request) :=
  inferInstanceAs (Decidable (∀ user ∈ request.session, _))

variable {b b' : Backend} {user uuid : Bytes} {i : Nat} {results : Results} {lib : WebLib}

namespace Backend.InStep

theorem eq_of_id (inStep : b.InStep) {f g : WebFrontend} (member : f ∈ b.frontends) (member' : g ∈ b.frontends)
    (same : f.id = g.id) : f = g := by
  obtain ⟨row, stored, columns⟩ := inStep.stored f member
  have row_id : row.id = f.id := congrArg Columns.id columns
  have alike := inStep.paired g member' row stored (.inl (row_id.trans same))
  have uuid : f.uuid = g.uuid := congrArg Columns.uuid (columns.symm.trans alike)
  exact List.inj_on_of_nodup_map inStep.uuids member member' uuid

/-- The frontend that is asked for is the one with its UUID. -/
theorem owned_eq (inStep : b.InStep) (own : b.Owns user uuid i) {f : WebFrontend} (member : f ∈ b.frontends)
    (same : f.uuid = uuid) : f = b.fe i :=
  List.inj_on_of_nodup_map inStep.uuids member own.mem (same.trans own.uuid_eq.symm)

/-- Memory and table are changed side by side. -/
theorem map (inStep : b.InStep) {F : WebFrontend → WebFrontend} {R : FrontendRow → FrontendRow}
    (memory : b'.frontends = b.frontends.map F) (rows : b'.table = b.table.map R)
    (uuids : (b'.frontends.map fun f => f.uuid).Nodup)
    (agree : ∀ f ∈ b.frontends, ∀ row ∈ b.table, row.columns = f.columns → (R row).columns = (F f).columns)
    (only : ∀ f ∈ b.frontends, ∀ row ∈ b.table, (R row).id = (F f).id ∨ (R row).uuid = (F f).uuid →
      row.id = f.id ∨ row.uuid = f.uuid) : b'.InStep := by
  refine ⟨uuids, ?_, ?_⟩
  · intro f' member
    rw [memory] at member
    obtain ⟨f, before, rfl⟩ := List.mem_map.mp member
    obtain ⟨row, stored, columns⟩ := inStep.stored f before
    exact ⟨R row, rows ▸ List.mem_map_of_mem stored, agree f before row stored columns⟩
  · intro f' member row' member' same
    rw [memory] at member
    rw [rows] at member'
    obtain ⟨f, before, rfl⟩ := List.mem_map.mp member
    obtain ⟨row, before', rfl⟩ := List.mem_map.mp member'
    exact agree f before row before' (inStep.paired f before row before' (only f before row before' same))

theorem create (inStep : b.InStep) (fresh : b.Fresh results) {f : WebFrontend} (named : f.uuid = results.uuid)
    (unprotected : f.deleteProtect = false) : Backend.InStep { b with
      table := b.table ++ [f.row results.rowID]
      frontends := b.frontends ++ [{ f with id := results.rowID }] } := by
  obtain ⟨freshMemory, freshRows⟩ := fresh
  have alike : (f.row results.rowID).columns = { f with id := results.rowID }.columns := by
    simp [FrontendRow.columns, WebFrontend.columns, WebFrontend.row, unprotected]
  refine ⟨Backend.uuids_create inStep.uuids fun g before => named ▸ (freshMemory g before).1, ?_, ?_⟩
  · intro g member
    rcases List.mem_append.mp member with before | added
    · obtain ⟨row, stored, columns⟩ := inStep.stored g before
      exact ⟨row, List.mem_append_left _ stored, columns⟩
    · rw [List.mem_singleton.mp added]
      exact ⟨_, List.mem_append_right _ List.mem_cons_self, alike⟩
  · intro g member row member' same
    rcases List.mem_append.mp member with before | added <;> rcases List.mem_append.mp member' with before' | added'
    · exact inStep.paired g before row before' same
    · rw [List.mem_singleton.mp added'] at same
      have apart := freshMemory g before
      exact (same.elim (fun id => apart.2 id.symm) fun uuid => apart.1 (uuid.symm.trans named)).elim
    · rw [List.mem_singleton.mp added] at same
      have apart := freshRows row before'
      exact (same.elim apart.2 fun uuid => apart.1 (uuid.trans named)).elim
    · rw [List.mem_singleton.mp added, List.mem_singleton.mp added']
      exact alike

theorem reidentify (inStep : b.InStep) (fresh : b.Fresh results) (own : b.Owns user uuid i) :
    (b.reidentify uuid results.uuid i).InStep := by
  obtain ⟨freshMemory, freshRows⟩ := fresh
  refine inStep.map (Backend.reidentify_frontends inStep.uuids own results.uuid) rfl
    (Backend.uuids_reidentify inStep.uuids own fun f before => (freshMemory f before).1) ?_ ?_
  · intro f before row stored columns
    have same : row.uuid = f.uuid := congrArg Columns.uuid columns
    by_cases chosen : f.uuid = uuid
    · rw [if_pos chosen, if_pos (same.trans chosen)]
      exact congrArg (fun c => { c with uuid := results.uuid }) columns
    · rw [if_neg chosen, if_neg fun here => chosen (same.symm.trans here)]
      exact columns
  · intro f before row stored same
    have unused := (freshMemory f before).1
    have unused' := (freshRows row stored).1
    grind

theorem edit (inStep : b.InStep) (own : b.Owns user uuid i) (edit : Edit) :
    ((b.update i edit.apply).writeRow i).InStep := by
  have memory : ((b.update i edit.apply).writeRow i).frontends =
      b.frontends.map fun f => if f.uuid = uuid then edit.apply f else f :=
    Backend.update_eq_map inStep.uuids own edit.apply
  have kept (f : WebFrontend) : (if f.uuid = uuid then edit.apply f else f).key = f.key := by
    rw [apply_ite WebFrontend.key, edit.apply_key, ite_self]
  have rows : ((b.update i edit.apply).writeRow i).table =
      b.table.map fun row => if row.id = (b.fe i).id then row.edited (edit.apply (b.fe i)) else row := by
    rw [Backend.writeRow, own.fe_update, edit.apply_id]
    rfl
  refine inStep.map memory rows ?_ ?_ ?_
  · rw [memory, List.map_map]
    have same : ((fun f : WebFrontend => f.uuid) ∘ fun f => if f.uuid = uuid then edit.apply f else f) =
        fun f => f.uuid := by
      funext f
      exact congrArg (fun key => key.2.1) (kept f)
    rw [same]
    exact inStep.uuids
  · intro f before row stored columns
    have same_id : row.id = f.id := congrArg Columns.id columns
    by_cases chosen : f.uuid = uuid
    · have here := inStep.owned_eq own before chosen
      rw [if_pos chosen, if_pos (here ▸ same_id), ← here]
      have key := edit.apply_key f
      simp only [WebFrontend.key, Prod.mk.injEq] at key
      have same_uuid : row.uuid = f.uuid := congrArg Columns.uuid columns
      simp [FrontendRow.columns, WebFrontend.columns, FrontendRow.edited, key, same_id, same_uuid]
    · have apart : row.id ≠ (b.fe i).id := by
        intro same
        have here : f = b.fe i := inStep.eq_of_id before own.mem (same_id.symm.trans same)
        exact chosen (here ▸ own.uuid_eq)
      rw [if_neg chosen, if_neg apart]
      exact columns
  · intro f before row stored same
    have key := kept f
    simp only [WebFrontend.key, Prod.mk.injEq] at key
    have row_key : (if row.id = (b.fe i).id then row.edited (edit.apply (b.fe i)) else row).key = row.key := by
      rw [apply_ite FrontendRow.key, FrontendRow.edited_key, ite_self]
    simp only [FrontendRow.key, Prod.mk.injEq] at row_key
    rwa [key.1, key.2.1, row_key.1, row_key.2.1] at same

/-- What is deleted is deleted on both sides, if not more on one of them. -/
theorem delete (inStep : b.InStep) {f : WebFrontend} (member : f ∈ b.frontends) : Backend.InStep { b with
    table := b.table.filter fun row => row.id ≠ f.id
    frontends := b.frontends.filter fun g => g.name ≠ f.name } := by
  refine ⟨inStep.uuids.sublist (List.filter_sublist.map _), ?_, ?_⟩
  · intro g kept
    obtain ⟨before, named⟩ := List.mem_filter.mp kept
    obtain ⟨row, stored, columns⟩ := inStep.stored g before
    have same_id : row.id = g.id := congrArg Columns.id columns
    have apart : row.id ≠ f.id := by
      intro same
      rw [inStep.eq_of_id before member (same_id.symm.trans same)] at named
      simp at named
    exact ⟨row, List.mem_filter.mpr ⟨stored, by simpa using apart⟩, columns⟩
  · intro g kept row kept' same
    exact inStep.paired g (List.mem_of_mem_filter kept) row (List.mem_of_mem_filter kept') same

end Backend.InStep

/-! ## Rows without a frontend -/

theorem Backend.stray_iff (id : Int) : b.Stray id ↔
    id ∈ b.table.map (fun row => row.id) ∧ id ∉ b.frontends.map (fun f => f.id) := by
  simp [Backend.Stray]

theorem Backend.stray_congr (memory : b'.frontends.map (fun f => f.id) = b.frontends.map fun f => f.id)
    (rows : b'.table.map (fun row => row.id) = b.table.map fun row => row.id) (id : Int) :
    b'.Stray id ↔ b.Stray id := by
  rw [Backend.stray_iff, Backend.stray_iff, memory, rows]

theorem Backend.ids_updateRows (b : Backend) (chosen : FrontendRow → Prop) [DecidablePred chosen]
    (f : FrontendRow → FrontendRow) (kept : ∀ row, (f row).id = row.id) :
    (b.updateRows chosen f).table.map (fun row => row.id) = b.table.map fun row => row.id :=
  map_map_ite (fun row : FrontendRow => row.id) kept b.table

theorem Backend.stray_reidentify (uuids : (b.frontends.map fun f => f.uuid).Nodup) (own : b.Owns user uuid i)
    (new : Bytes) (id : Int) : (b.reidentify uuid new i).Stray id ↔ b.Stray id := by
  have rows := b.ids_updateRows (fun row => row.uuid = uuid) (fun row => { row with uuid := new }) fun _ => rfl
  refine Backend.stray_congr ?_ ?_ id
  · rw [Backend.reidentify_frontends uuids own]
    exact map_map_ite (f := fun f : WebFrontend => { f with uuid := new }) _ (fun _ => rfl) b.frontends
  · exact rows

theorem Backend.stray_edit (uuids : (b.frontends.map fun f => f.uuid).Nodup) (own : b.Owns user uuid i)
    (edit : Edit) (id : Int) : ((b.update i edit.apply).writeRow i).Stray id ↔ b.Stray id := by
  have rows := (b.update i edit.apply).ids_updateRows (fun row => row.id = ((b.update i edit.apply).fe i).id)
    (FrontendRow.edited ((b.update i edit.apply).fe i)) fun _ => rfl
  refine Backend.stray_congr ?_ ?_ id
  · show (b.update i edit.apply).frontends.map (fun f => f.id) = _
    rw [Backend.update_eq_map uuids own]
    exact map_map_ite _ edit.apply_id b.frontends
  · exact rows

theorem Backend.stray_create {f : WebFrontend} {id : Int} (stray : Backend.Stray { b with
    table := b.table ++ [f.row results.rowID]
    frontends := b.frontends ++ [{ f with id := results.rowID }] } id) : b.Stray id := by
  rw [Backend.stray_iff] at stray ⊢
  simp only [List.map_append, List.map_singleton, List.mem_append, List.mem_singleton, not_or] at stray
  exact ⟨stray.1.resolve_right stray.2.2, stray.2.1⟩

/-- Deleting by name leaves no row behind exactly if only this frontend has the name. -/
theorem Backend.stray_delete_iff (inStep : b.InStep) {f : WebFrontend} (member : f ∈ b.frontends) :
    (∀ id, Backend.Stray { b with
        table := b.table.filter fun row => row.id ≠ f.id
        frontends := b.frontends.filter fun g => g.name ≠ f.name } id → b.Stray id) ↔
      ∀ g ∈ b.frontends, g.name = f.name → g = f := by
  constructor
  · intro never g before same
    by_contra apart
    obtain ⟨row, stored, columns⟩ := inStep.stored g before
    have row_id : row.id = g.id := congrArg Columns.id columns
    have kept : row.id ≠ f.id := fun id => apart (inStep.eq_of_id before member (row_id.symm.trans id))
    have left := never g.id ⟨⟨row, List.mem_filter.mpr ⟨stored, by simpa using kept⟩, row_id⟩, ?_⟩
    · exact left.2 g before rfl
    · intro h remains id
      obtain ⟨there, named⟩ := List.mem_filter.mp remains
      rw [inStep.eq_of_id there before id] at named
      simp [same] at named
  · rintro only id ⟨⟨row, kept, row_id⟩, nobody⟩
    obtain ⟨stored, apart⟩ := List.mem_filter.mp kept
    refine ⟨⟨row, stored, row_id⟩, fun h there same => ?_⟩
    by_cases named : h.name = f.name
    · rw [only h there named] at same
      simp [row_id, same] at apart
    · exact nobody h (List.mem_filter.mpr ⟨there, by simpa using named⟩) same

/-! ## The requests -/

theorem Backend.forOwner_denied_pair {unknown denied : Reply} {proceed : Nat → Backend × Reply}
    (denies : ¬ b.Owned user uuid) : b.forOwner user uuid unknown denied proceed = (b, unknown) ∨
      b.forOwner user uuid unknown denied proceed = (b, denied) := by
  unfold Backend.forOwner
  split
  · exact .inl rfl
  · rename_i i found
    obtain ⟨asked, inside, same⟩ := Backend.findFrontend_inside found
    split
    · exact .inr rfl
    · rename_i owner
      exact absurd (Backend.owned_iff.mpr ⟨i, asked, inside, same, not_not.mp owner⟩) denies

namespace Backend.KeepsStep

theorem unchanged (inStep : b.InStep) {reply : Reply} (answered : reply ≠ .aborted) : b.KeepsStep results (b, reply) :=
  ⟨inStep, fun _ => id, fun _ => ⟨rfl, rfl⟩, answered⟩

/-- A statement that worked, with what was to follow it. -/
theorem worked (works : results.exec = none) {after : Backend × Reply} (inStep : after.1.InStep)
    (stray : ∀ id, after.1.Stray id → b.Stray id) (answered : after.2 ≠ .aborted) : b.KeepsStep results after :=
  ⟨inStep, stray, fun fails => absurd works fails, answered⟩

/-- Only memory and table count. -/
theorem of_same {after after' : Backend × Reply} (keeps : b.KeepsStep results after)
    (memory : after'.1.frontends = after.1.frontends) (rows : after'.1.table = after.1.table)
    (answered : after'.2 ≠ .aborted) : b.KeepsStep results after' where
  inStep := ⟨memory ▸ keeps.inStep.uuids, memory ▸ rows ▸ keeps.inStep.stored, memory ▸ rows ▸ keeps.inStep.paired⟩
  stray := by
    intro id stray
    unfold Backend.Stray at stray
    rw [memory, rows] at stray
    exact keeps.stray id stray
  failed := fun fails => memory ▸ rows ▸ keeps.failed fails
  answered := answered

theorem denied (inStep : b.InStep) {unknown denied : Reply} {proceed : Nat → Backend × Reply}
    (denies : ¬ b.Owned user uuid) (unknown_text : unknown ≠ .aborted) (denied_text : denied ≠ .aborted) :
    b.KeepsStep results (b.forOwner user uuid unknown denied proceed) := by
  rcases Backend.forOwner_denied_pair denies with pair | pair
  · exact pair ▸ unchanged inStep unknown_text
  · exact pair ▸ unchanged inStep denied_text

end Backend.KeepsStep

theorem createFrontend_keepsStep (inStep : b.InStep) (fresh : b.Fresh results)
    (answers : results.lastInsertId = none) {f : WebFrontend} (named : f.uuid = results.uuid)
    (unprotected : f.deleteProtect = false) (text : Bytes → Bytes) (target : Bytes) :
    b.KeepsStep results (match b.createFrontend f results with
      | (b', some failure) => (b', .text (text failure))
      | (b', none) => (b', .redirect 302 target)) := by
  unfold Backend.createFrontend
  cases works : results.exec with
  | some failure => exact .unchanged inStep (by simp)
  | none =>
    simp only [answers]
    exact .worked works (inStep.create fresh named unprotected) (fun _ => Backend.stray_create) (by simp)

theorem webAddServer_keepsStep (lib : WebLib) (inStep : b.InStep) (fresh : b.Fresh results)
    (answers : results.lastInsertId = none) (user addButton name address port : Bytes) :
    b.KeepsStep results (lib.webAddServer b user addButton name address port results) := by
  unfold WebLib.webAddServer
  split
  · exact .unchanged inStep (by simp)
  split
  · exact .unchanged inStep (by simp)
  dsimp only
  split
  · exact .unchanged inStep (by simp)
  · exact createFrontend_keepsStep inStep fresh answers rfl rfl (fun failure => ascii "error creating frontend: " ++ failure) _

theorem webDelServer_keepsStep_iff (lib : WebLib) (inStep : b.InStep) (user uuid : Bytes) (results : Results) :
    b.KeepsStep results (lib.webDelServer b user uuid results) ↔ b.SteadyForm user results (.delServer uuid) := by
  by_cases owned : b.Owned user uuid
  · obtain ⟨i, own⟩ := Backend.owned_iff.mp owned
    rw [WebLib.webDelServer, Backend.forOwner_owns inStep.uuids own]
    by_cases deletes : results.exec = none ∧ (b.fe i).name ≠ []
    · obtain ⟨works, named⟩ := deletes
      obtain ⟨j, found, there, same_name⟩ := Backend.findFrontendByName_mem own.mem named
      rw [Backend.deleteFrontend_found found works, ← same_name]
      have strays := Backend.stray_delete_iff inStep there
      constructor
      · intro keeps _ _ f member same _ g before alike
        have only := strays.mp keeps.stray
        have first := only (b.fe i) own.mem same_name.symm
        rw [inStep.owned_eq own member same] at alike
        rw [only g before (alike.trans same_name.symm), ← first, own.uuid_eq]
      · intro steady
        have only := steady works owned (b.fe i) own.mem own.uuid_eq named
        refine .worked works (inStep.delete there) (strays.mpr fun g before alike => ?_) (by simp)
        rw [inStep.owned_eq own before (only g before (alike.trans same_name)),
          inStep.owned_eq own there (only _ there same_name)]
    · have refused : b.deleteFrontend (b.fe i).name results = none := by
        rw [Backend.deleteFrontend, Backend.findFrontendByName]
        by_cases named : (b.fe i).name = []
        · simp [named]
        · have fails : results.exec ≠ none := fun works => deletes ⟨works, named⟩
          exact Backend.deleteFrontend_refused _ fails
      rw [refused]
      refine iff_of_true (.unchanged inStep (by simp)) fun works _ f member same named => ?_
      exact absurd ⟨works, inStep.owned_eq own member same ▸ named⟩ deletes
  · exact iff_of_true (.denied inStep owned (by simp) (by simp)) fun _ own => absurd own owned

theorem changeUUIDHandler_keepsStep_iff (lib : WebLib) (inStep : b.InStep) (fresh : b.Fresh results)
    (user uuid : Bytes) : b.KeepsStep results (lib.changeUUIDHandler b user uuid results) ↔
      b.SteadyForm user results (.changeUUID uuid) := by
  by_cases owned : b.Owned user uuid
  · obtain ⟨i, own⟩ := Backend.owned_iff.mp owned
    rw [WebLib.changeUUIDHandler, Backend.forOwner_owns inStep.uuids own]
    cases works : results.exec with
    | some failure =>
      refine iff_of_false (fun keeps => keeps.answered rfl) fun steady => ?_
      rw [steady owned] at works
      cases works
    | none =>
      refine iff_of_true ?_ fun _ => works
      have renamed : b.KeepsStep results (b.reidentify uuid results.uuid i, .page) :=
        .worked works (inStep.reidentify fresh own)
          (fun id => (Backend.stray_reidentify inStep.uuids own results.uuid id).mp) (by simp)
      -- the file that is written behind it is neither memory nor table
      have saved (f : WebFrontend) :
          (lib.materialize (b.reidentify uuid results.uuid i) f results.write).1.frontends =
              (b.reidentify uuid results.uuid i).frontends ∧
            (lib.materialize (b.reidentify uuid results.uuid i) f results.write).1.table =
              (b.reidentify uuid results.uuid i).table := by
        unfold WebLib.materialize
        split
        · exact ⟨rfl, rfl⟩
        · exact ⟨rfl, rfl⟩
      obtain ⟨memory, rows⟩ := saved ((b.reidentify uuid results.uuid i).fe i)
      simp only [Option.isSome_none, Bool.false_eq_true, ↓reduceIte]
      split
      · rename_i b' result
        exact renamed.of_same (congrArg (fun pair => pair.1.frontends) result ▸ memory)
          (congrArg (fun pair => pair.1.table) result ▸ rows) (by simp)
      · rename_i b' result
        exact renamed.of_same (congrArg (fun pair => pair.1.frontends) result ▸ memory)
          (congrArg (fun pair => pair.1.table) result ▸ rows) (by simp)
  · exact iff_of_true (.denied inStep owned (by simp) (by simp)) fun own => absurd own owned

theorem Backend.update_eq_self {f : WebFrontend → WebFrontend} (own : b.Owns user uuid i)
    (same : f (b.fe i) = b.fe i) : b.update i f = b := by
  have inside := own.inside
  rw [Backend.fe_getElem inside] at same
  have frontends : b.frontends.modify i f = b.frontends := by
    apply List.ext_getElem?
    intro n
    rw [List.getElem?_modify]
    by_cases here : i = n
    · subst here
      simp [inside, same]
    · simp [here]
  rw [Backend.update, frontends]

/-- Where the statement fails, what has been edited in memory stays edited. -/
theorem webEditServer_keepsStep_iff (inStep : b.InStep)
    (user uuid name address enabled teleport invite protect : Bytes) (results : Results) :
    b.KeepsStep results (b.webEditServer user uuid name address enabled teleport invite protect results) ↔
      b.SteadyForm user results (.editServer uuid name address enabled teleport invite protect) := by
  let edit := editOf name address enabled teleport invite protect
  have form : b.webEditServer user uuid name address enabled teleport invite protect results =
      if uuid = [] ∨ name = [] then (b, .text (ascii "error 500 - bad form submission\n"))
      else if address = [] then (b, .text (ascii "500 - empty frontend address\n"))
      else b.forOwner user uuid (.text (ascii "error 500 - bad frontend lookup\n"))
        (.text (ascii "403 - permission denied\n")) fun i =>
          if results.exec.isSome then (b.update i edit.apply, .text (ascii "500 - error updating frontend in database"))
          else ((b.update i edit.apply).writeRow i,
            .redirect 303 (pathJoin [ascii "/sv", uuid, trim (replaceAll name ' ' '-') (ascii " \n\r\t")])) := rfl
  rw [form]
  by_cases unnamed : uuid = [] ∨ name = []
  · rw [if_pos unnamed]
    exact iff_of_true (.unchanged inStep (by simp)) fun named _ owned => absurd unnamed (not_or.mpr ⟨owned.1, named⟩)
  rw [if_neg unnamed]
  by_cases unaddressed : address = []
  · rw [if_pos unaddressed]
    exact iff_of_true (.unchanged inStep (by simp)) fun _ addressed => absurd unaddressed addressed
  rw [if_neg unaddressed]
  by_cases owned : b.Owned user uuid
  · obtain ⟨i, own⟩ := Backend.owned_iff.mp owned
    rw [Backend.forOwner_owns inStep.uuids own]
    cases works : results.exec with
    | some failure =>
      rw [if_pos Option.isSome_some]
      constructor
      · intro keeps _ _ _ _ f member same
        have kept := (keeps.failed (by simp [works])).1
        have here := inStep.owned_eq own member same
        calc edit.apply f
          _ = (b.update i edit.apply).fe i := by rw [own.fe_update, here]
          _ = f := by rw [Backend.fe, kept, here]; rfl
      · intro steady
        have same := steady (not_or.mp unnamed).2 unaddressed owned (by simp [works]) (b.fe i) own.mem own.uuid_eq
        rw [Backend.update_eq_self own same]
        exact .unchanged inStep (by simp)
    | none =>
      rw [if_neg (by simp)]
      exact iff_of_true (.worked works (inStep.edit own edit)
        (fun id => (Backend.stray_edit inStep.uuids own edit id).mp) (by simp)) fun _ _ _ fails => absurd works fails
  · exact iff_of_true (.denied inStep owned (by simp) (by simp)) fun _ _ own => absurd own owned

/-! ## Staying in step -/

theorem serve_keepsStep_iff (lib : WebLib) {request : WebRequest} (inStep : b.InStep) (fresh : b.Fresh request.results)
    (answers : request.results.lastInsertId = none) (statement : request.form.HasStatement) :
    b.KeepsStep request.results (lib.serve b request) ↔ b.Steady request := by
  unfold WebLib.serve Backend.Steady
  cases request.session with
  | none => exact iff_of_true (.unchanged inStep (by simp)) (by simp)
  | some user =>
    simp only [Option.mem_def, Option.some.injEq, forall_eq']
    cases form : request.form with
    | addServer addButton name address port =>
      exact iff_of_true (webAddServer_keepsStep lib inStep fresh answers user addButton name address port) trivial
    | delServer uuid => exact webDelServer_keepsStep_iff lib inStep user uuid request.results
    | changeUUID uuid => exact changeUUIDHandler_keepsStep_iff lib inStep fresh user uuid
    | editServer uuid name address enabled teleport invite protect =>
      exact webEditServer_keepsStep_iff inStep user uuid name address enabled teleport invite protect request.results
    | serverKeys action uuid name keydata => exact absurd statement (by simp [form, WebForm.HasStatement])

/-- Memory and table stay in step through a request exactly if the request is steady. -/
theorem stays_in_step_iff (lib : WebLib) {request : WebRequest} (inStep : b.InStep) (fresh : b.Fresh request.results)
    (answers : request.results.lastInsertId = none) (statement : request.form.HasStatement) :
    lib.StaysInStep b request ↔ b.Steady request := by
  unfold WebLib.StaysInStep
  exact serve_keepsStep_iff lib inStep fresh answers statement

theorem load_inStep (clientDirectory : Bytes) {table : List FrontendRow} (files : Bytes → Option Bytes)
    (ids : (table.map fun row => row.id).Nodup) (uuids : (table.map fun row => row.uuid).Nodup) :
    (Backend.load clientDirectory table files).InStep := by
  refine ⟨?_, ?_, ?_⟩
  · rw [Backend.load, List.map_map]
    exact uuids
  · intro f loaded
    obtain ⟨row, stored, rfl⟩ := List.mem_map.mp loaded
    exact ⟨row, stored, rfl⟩
  · intro f loaded row' stored' same
    obtain ⟨row, stored, rfl⟩ := List.mem_map.mp loaded
    have same_row : row' = row := same.elim (fun id => List.inj_on_of_nodup_map ids stored' stored id)
      fun uuid => List.inj_on_of_nodup_map uuids stored' stored uuid
    rw [same_row]
    rfl

/-- In a run of steady requests memory and table are in step all the way. -/
theorem run_inStep (lib : WebLib) {requests : List WebRequest} (inStep : b.InStep)
    (steady : Allowed lib.step (fun b request => b.Fresh request.results ∧ request.results.lastInsertId = none ∧
      request.form.HasStatement ∧ b.Steady request) b requests)
    (ran : run lib.step b requests = .ok b') : b'.InStep := by
  refine run_invariant Backend.InStep ?_ inStep steady ran
  rintro b request b' start ⟨fresh, answers, statement, steady⟩ stepped
  exact Except.ok.inj stepped ▸ ((serve_keepsStep_iff lib start fresh answers statement).mpr steady).inStep

theorem ffaBackend_inStep : ffaBackend.InStep := load_inStep _ _ (by decide) (by decide)

/-- What the owner of the first frontend asks for. -/
def firstAsks (form : WebForm) (exec : Option Bytes) : WebRequest where
  session := some (ascii "first@q2")
  form := form
  results := { uuid := ascii "c3", rowID := 3, exec := exec }

/-- He deletes it. -/
theorem stays_in_step_deleted : WebLib.plain.StaysInStep ffaBackend (firstAsks (.delServer (ascii "a1")) none) := by
  have statement : (firstAsks (.delServer (ascii "a1")) none).form.HasStatement := trivial
  exact (stays_in_step_iff WebLib.plain ffaBackend_inStep (by decide +kernel) rfl statement).mpr (by decide +kernel)

/-- A request for which the database fails. -/
def lockedRequest (form : WebForm) : WebRequest := firstAsks form (some (ascii "database is locked"))

/-- An edit that fails stays in memory, and a UUID whose change fails is no reply. -/
theorem not_stays_in_step :
    ¬ WebLib.plain.StaysInStep ffaBackend
      (lockedRequest (.editServer (ascii "a1") (ascii "dm") (ascii "192.0.2.4:27910") [] [] [] [])) ∧
    ¬ WebLib.plain.StaysInStep ffaBackend (lockedRequest (.changeUUID (ascii "a1"))) := by
  constructor
  · intro stays
    have names := congrArg (List.map fun f : WebFrontend => f.name) (stays.failed (by decide)).1
    exact absurd names (by decide +kernel)
  · intro stays
    exact stays.answered (by decide +kernel)

end Q2Admin
