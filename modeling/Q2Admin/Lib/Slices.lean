import Mathlib.Data.List.Basic

/-! Arrays that are allocated one after another, pointers into them, and slices of them that
grow: in place as long as the array has room, and into a new array when it is full. A pointer
that is taken before its slice moves goes on pointing into the array the slice has left. -/

namespace Q2Admin.Lib

variable {α : Type}

/-- The arrays, in the order they are allocated in. -/
structure Heap (α : Type) where
  arrays : List (List α) := []

/-- Where an element is. -/
structure Cell where
  array : Nat
  index : Nat
  deriving DecidableEq

/-- The first elements of an array. -/
structure Slice where
  array : Nat
  length : Nat
  deriving DecidableEq

namespace Heap

def cells (h : Heap α) (array : Nat) : List α := h.arrays.getD array []

def modify (h : Heap α) (c : Cell) (f : α → α) : Heap α :=
  ⟨h.arrays.modify c.array fun cells => cells.modify c.index f⟩

def contents (h : Heap α) (s : Slice) : List α := (h.cells s.array).take s.length

/-- A slice of no array yet. -/
def empty (h : Heap α) : Slice := ⟨h.arrays.length, 0⟩

/-- The array of the slice has no room for another element. -/
def Full (h : Heap α) (s : Slice) : Prop := (h.cells s.array).length ≤ s.length

instance (h : Heap α) (s : Slice) : Decidable (h.Full s) := inferInstanceAs (Decidable (_ ≤ _))

variable [Inhabited α] (spare : Nat → Nat)

/-- One more element; a new array gets some spare cells behind it. -/
def append (h : Heap α) (s : Slice) (x : α) : Heap α × Slice :=
  if h.Full s then
    (⟨h.arrays ++ [h.contents s ++ x :: List.replicate (spare s.length) default]⟩,
      ⟨h.arrays.length, s.length + 1⟩)
  else (h.modify ⟨s.array, s.length⟩ fun _ => x, ⟨s.array, s.length + 1⟩)

/-- A slice of these elements, appended one by one. -/
def build (h : Heap α) (xs : List α) : Heap α × Slice :=
  xs.foldl (fun built x => built.1.append spare built.2 x) (h, h.empty)

end Heap

/-- The pointer points into the array that the slice is of. -/
def Cell.Follows (c : Cell) (s : Slice) : Prop := c.array = s.array

instance (c : Cell) (s : Slice) : Decidable (c.Follows s) := inferInstanceAs (Decidable (_ = _))

/-- The slice is no longer than its array. -/
def Slice.Sound (s : Slice) (h : Heap α) : Prop := s.length ≤ (h.cells s.array).length

/-- The pointer has been taken, and if it was from this slice, within it. -/
structure Cell.Issued (c : Cell) (h : Heap α) (s : Slice) : Prop where
  allocated : c.array < h.arrays.length
  inside : c.Follows s → c.index < s.length

variable {h : Heap α} {s : Slice} {c : Cell} {f : α → α} {x : α}

/-! ## Writing -/

theorem Heap.length_modify : (h.modify c f).arrays.length = h.arrays.length := List.length_modify ..

theorem Heap.cells_modify (array : Nat) :
    (h.modify c f).cells array = if c.array = array then (h.cells array).modify c.index f else h.cells array := by
  unfold Heap.cells Heap.modify
  rw [List.getD_eq_getElem?_getD, List.getD_eq_getElem?_getD, List.getElem?_modify]
  by_cases same : c.array = array
  · simp only [if_pos same]
    cases h.arrays[array]? with
    | none => exact (List.modify_nil ..).symm
    | some cells => rfl
  · simp only [if_neg same]
    cases h.arrays[array]? <;> rfl

theorem Heap.length_cells_modify (array : Nat) : ((h.modify c f).cells array).length = (h.cells array).length := by
  rw [Heap.cells_modify]
  split
  · exact List.length_modify ..
  · rfl

/-- A write shows in the slices of the array it goes to. -/
theorem Heap.contents_modify (follows : c.Follows s) :
    (h.modify c f).contents s = (h.contents s).modify c.index f := by
  have same : c.array = s.array := follows
  unfold Heap.contents
  rw [Heap.cells_modify, if_pos same, List.take_modify]

/-- And in no others. -/
theorem Heap.contents_modify_left (left : ¬ c.Follows s) : (h.modify c f).contents s = h.contents s := by
  have other : ¬ c.array = s.array := left
  unfold Heap.contents
  rw [Heap.cells_modify, if_neg other]

theorem Slice.Sound.modify (sound : s.Sound h) : s.Sound (h.modify c f) := by
  unfold Slice.Sound
  rwa [Heap.length_cells_modify]

theorem Cell.Issued.modify {d : Cell} (issued : c.Issued h s) : c.Issued (h.modify d f) s where
  allocated := by
    rw [Heap.length_modify]
    exact issued.allocated
  inside := issued.inside

theorem Slice.Sound.length_contents (sound : s.Sound h) : (h.contents s).length = s.length :=
  List.length_take_of_le sound

/-! ## Growing -/

theorem Heap.cells_allocate (cells : List α) {array : Nat} (before : array < h.arrays.length) :
    Heap.cells ⟨h.arrays ++ [cells]⟩ array = h.cells array := by
  unfold Heap.cells
  rw [List.getD_eq_getElem?_getD, List.getD_eq_getElem?_getD, List.getElem?_append_left before]

theorem Heap.cells_allocated (cells : List α) : Heap.cells ⟨h.arrays ++ [cells]⟩ h.arrays.length = cells := by
  unfold Heap.cells
  rw [List.getD_eq_getElem?_getD, List.getElem?_concat_length]
  rfl

section
variable [Inhabited α] (spare : Nat → Nat) (x : α)

theorem Heap.append_full (full : h.Full s) : h.append spare s x =
    (⟨h.arrays ++ [h.contents s ++ x :: List.replicate (spare s.length) default]⟩,
      ⟨h.arrays.length, s.length + 1⟩) := if_pos full

theorem Heap.append_room (room : ¬ h.Full s) :
    h.append spare s x = (h.modify ⟨s.array, s.length⟩ fun _ => x, ⟨s.array, s.length + 1⟩) := if_neg room

theorem Heap.length_append : h.arrays.length ≤ (h.append spare s x).1.arrays.length := by
  by_cases full : h.Full s
  · rw [Heap.append_full spare x full, List.length_append]
    exact Nat.le_add_right ..
  · rw [Heap.append_room spare x full]
    exact Nat.le_of_eq Heap.length_modify.symm

theorem Heap.contents_append (sound : s.Sound h) :
    (h.append spare s x).1.contents (h.append spare s x).2 = h.contents s ++ [x] := by
  have length := sound.length_contents
  by_cases full : h.Full s
  · rw [Heap.append_full spare x full]
    unfold Heap.contents at length ⊢
    dsimp only
    rw [Heap.cells_allocated, List.take_append, length, List.take_of_length_le (by omega), Nat.add_sub_cancel_left]
    rfl
  · rw [Heap.append_room spare x full]
    unfold Heap.contents at length ⊢
    dsimp only
    have room : s.length < (h.cells s.array).length := Nat.lt_of_not_le full
    rw [Heap.cells_modify, if_pos rfl, List.take_modify, List.take_add_one, List.getElem?_eq_getElem room,
      List.modify_eq_set, List.set_append_right _ _ (Nat.le_of_eq length), length, Nat.sub_self]
    rfl

theorem Slice.Sound.append (sound : s.Sound h) : (h.append spare s x).2.Sound (h.append spare s x).1 := by
  by_cases full : h.Full s
  · rw [Heap.append_full spare x full]
    unfold Slice.Sound
    dsimp only
    rw [Heap.cells_allocated, List.length_append, sound.length_contents, List.length_cons]
    omega
  · rw [Heap.append_room spare x full]
    unfold Slice.Sound
    rw [Heap.length_cells_modify]
    exact Nat.lt_of_not_le full

/-- An element that is appended leaves the pointers where they are; they go on following the
slice as long as its array has room. -/
theorem Cell.Issued.append (issued : c.Issued h s) :
    c.Issued (h.append spare s x).1 (h.append spare s x).2 ∧
      (c.Follows (h.append spare s x).2 ↔ c.Follows s ∧ ¬ h.Full s) := by
  have allocated : c.array < (h.append spare s x).1.arrays.length :=
    Nat.lt_of_lt_of_le issued.allocated (Heap.length_append spare x)
  by_cases full : h.Full s
  · have left : ¬ c.Follows (h.append spare s x).2 := by
      rw [Heap.append_full spare x full]
      exact Nat.ne_of_lt issued.allocated
    exact ⟨⟨allocated, fun follows => absurd follows left⟩, iff_of_false left fun both => both.2 full⟩
  · have same : (h.append spare s x).2 = ⟨s.array, s.length + 1⟩ := by rw [Heap.append_room spare x full]
    refine ⟨⟨allocated, ?_⟩, ?_⟩
    · rw [same]
      exact fun follows => Nat.lt_succ_of_lt (issued.inside follows)
    · rw [same]
      exact (and_iff_left full).symm

/-! ## Building -/

/-- What has been built is a slice of these elements, of an array of its own. -/
theorem Heap.build_spec (xs : List α) :
    (h.build spare xs).1.contents (h.build spare xs).2 = xs ∧ (h.build spare xs).2.Sound (h.build spare xs).1 ∧
      h.arrays.length ≤ (h.build spare xs).1.arrays.length ∧ h.arrays.length ≤ (h.build spare xs).2.array := by
  have grows (built : Heap α × Slice) (done : List α) (sound : built.2.Sound built.1)
      (contents : built.1.contents built.2 = done) (more : h.arrays.length ≤ built.1.arrays.length)
      (own : h.arrays.length ≤ built.2.array) :
      let last := xs.foldl (fun built x => built.1.append spare built.2 x) built
      last.1.contents last.2 = done ++ xs ∧ last.2.Sound last.1 ∧ h.arrays.length ≤ last.1.arrays.length ∧
        h.arrays.length ≤ last.2.array := by
    induction xs generalizing built done with
    | nil => exact ⟨contents.trans (List.append_nil _).symm, sound, more, own⟩
    | cons x xs ih =>
      have array : h.arrays.length ≤ (built.1.append spare built.2 x).2.array := by
        by_cases full : built.1.Full built.2
        · rw [Heap.append_full spare x full]
          exact more
        · rw [Heap.append_room spare x full]
          exact own
      have step := ih (built.1.append spare built.2 x) (done ++ [x]) (sound.append spare x)
        ((Heap.contents_append spare x sound).trans (congrArg (· ++ [x]) contents))
        (Nat.le_trans more (Heap.length_append spare x)) array
      rwa [List.append_assoc] at step
  have start : h.contents h.empty = [] := List.take_zero
  exact grows (h, h.empty) [] (Nat.zero_le _) start (Nat.le_refl _) (Nat.le_refl _)

/-- The pointers that were taken before point elsewhere. -/
theorem Cell.Issued.build (issued : c.Issued h s) (xs : List α) :
    c.Issued (h.build spare xs).1 (h.build spare xs).2 ∧ ¬ c.Follows (h.build spare xs).2 := by
  obtain ⟨-, -, more, own⟩ := Heap.build_spec (h := h) spare xs
  have left : ¬ c.Follows (h.build spare xs).2 := Nat.ne_of_lt (Nat.lt_of_lt_of_le issued.allocated own)
  exact ⟨⟨Nat.lt_of_lt_of_le issued.allocated more, fun follows => absurd follows left⟩, left⟩

end

/-! ## An array that no slice is of -/

/-- The heaps are alike but for what one of their arrays holds. -/
structure Heap.AgreesBut (h h' : Heap α) (array : Nat) : Prop where
  length : h'.arrays.length = h.arrays.length
  cells : ∀ a, a ≠ array → h'.cells a = h.cells a

section
variable {h' : Heap α} {array : Nat} (agrees : h.AgreesBut h' array)
include agrees

theorem Heap.AgreesBut.contents (other : s.array ≠ array) : h'.contents s = h.contents s := by
  unfold Heap.contents
  rw [agrees.cells s.array other]

theorem Heap.AgreesBut.full (other : s.array ≠ array) : h'.Full s ↔ h.Full s := by
  unfold Heap.Full
  rw [agrees.cells s.array other]

theorem Heap.AgreesBut.modify (c : Cell) (f : α → α) : (h.modify c f).AgreesBut (h'.modify c f) array where
  length := by
    rw [Heap.length_modify, Heap.length_modify]
    exact agrees.length
  cells := by
    intro a other
    rw [Heap.cells_modify, Heap.cells_modify, agrees.cells a other]

/-- Writing to that array makes no other difference. -/
theorem Heap.AgreesBut.modify_left (same : c.array = array) : (h.modify c f).AgreesBut h' array where
  length := by
    rw [Heap.length_modify]
    exact agrees.length
  cells := by
    intro a other
    rw [Heap.cells_modify, if_neg (same ▸ Ne.symm other)]
    exact agrees.cells a other

variable [Inhabited α] (spare : Nat → Nat) (before : array < h.arrays.length)
include before

theorem Heap.AgreesBut.append (other : s.array ≠ array) (x : α) :
    (h'.append spare s x).2 = (h.append spare s x).2 ∧ (h.append spare s x).2.array ≠ array ∧
      (h.append spare s x).1.AgreesBut (h'.append spare s x).1 array := by
  by_cases full : h.Full s
  · rw [Heap.append_full spare x full, Heap.append_full spare x ((agrees.full other).mpr full), agrees.length,
      agrees.contents other]
    refine ⟨rfl, Ne.symm (Nat.ne_of_lt before), ?_, ?_⟩
    · rw [List.length_append, List.length_append, agrees.length]
    · intro a elsewhere
      rcases Nat.lt_trichotomy a h.arrays.length with within | last | beyond
      · rw [Heap.cells_allocate _ (agrees.length ▸ within), Heap.cells_allocate _ within]
        exact agrees.cells a elsewhere
      · rw [last, Heap.cells_allocated, ← agrees.length, Heap.cells_allocated]
      · unfold Heap.cells
        rw [List.getD_eq_getElem?_getD, List.getD_eq_getElem?_getD, List.getElem?_eq_none, List.getElem?_eq_none]
        · rw [List.length_append, List.length_singleton]
          omega
        · rw [List.length_append, List.length_singleton, agrees.length]
          omega
  · rw [Heap.append_room spare x full, Heap.append_room spare x (mt (agrees.full other).mp full)]
    exact ⟨rfl, other, agrees.modify _ _⟩

theorem Heap.AgreesBut.build (xs : List α) :
    (h'.build spare xs).2 = (h.build spare xs).2 ∧ (h.build spare xs).1.AgreesBut (h'.build spare xs).1 array := by
  have goes (built built' : Heap α × Slice) (same : built'.2 = built.2) (other : built.2.array ≠ array)
      (alike : built.1.AgreesBut built'.1 array) (within : array < built.1.arrays.length) :
      let last := xs.foldl (fun built x => built.1.append spare built.2 x) built
      let last' := xs.foldl (fun built x => built.1.append spare built.2 x) built'
      last'.2 = last.2 ∧ last.1.AgreesBut last'.1 array := by
    induction xs generalizing built built' with
    | nil => exact ⟨same, alike⟩
    | cons x xs ih =>
      obtain ⟨heap', slice'⟩ := built'
      obtain rfl : slice' = built.2 := same
      obtain ⟨same', other', alike'⟩ := alike.append spare within other x
      exact ih _ _ same' other' alike' (Nat.lt_of_lt_of_le within (Heap.length_append spare x))
  exact goes _ _ (congrArg (Slice.mk · 0) agrees.length) (Ne.symm (Nat.ne_of_lt before)) agrees before

end

end Q2Admin.Lib
