import Q2Admin.Go

/-! `path.Clean` and `path.Join`, by the elements between the slashes. A plain last element
is still the last one of the joined path, whatever stands before it, and joining to a path
that is joined already is joining all of it. -/

namespace Q2Admin.Go

/-- What is kept of a path behind one more element; the last element kept comes first. -/
def pathElement (rooted : Bool) (kept : List Bytes) (element : Bytes) : List Bytes :=
  if element = [] ∨ element = ascii "." then kept
  else if element = ascii ".." then
    match kept with
    | [] => if rooted then [] else [element]
    | last :: before => if last = element then element :: kept else before
  else element :: kept

/-- `path.Clean`. -/
def pathClean (p : Bytes) : Bytes :=
  let rooted : Bool := p.head? = some (charByte '/')
  let body := join ((split p '/').foldl (pathElement rooted) []).reverse (ascii "/")
  if rooted then charByte '/' :: body
  else if body = [] then ascii "." else body

/-- `path.Join`. -/
def pathJoin (elements : List Bytes) : Bytes :=
  let present := elements.filter fun element => element ≠ []
  if present = [] then [] else pathClean (join present (ascii "/"))

/-- An element that cleaning keeps as it is. -/
structure PlainElement (element : Bytes) : Prop where
  nonempty : element ≠ []
  no_dot : element ≠ ascii "."
  no_dots : element ≠ ascii ".."
  no_slash : charByte '/' ∉ element

theorem PlainElement.kept {element : Bytes} (plain : PlainElement element) (rooted : Bool) (kept : List Bytes) :
    pathElement rooted kept element = element :: kept := by
  rw [pathElement.eq_def, if_neg (by simp [plain.nonempty, plain.no_dot]), if_neg plain.no_dots]

theorem join_concat (parts : List Bytes) (last separator : Bytes) :
    ∃ front, join (parts ++ [last]) separator = front ++ last := by
  induction parts with
  | nil => exact ⟨[], List.intercalate_singleton⟩
  | cons part parts ih =>
    obtain ⟨front, joined⟩ := ih
    refine ⟨part ++ separator ++ front, ?_⟩
    calc join (part :: parts ++ [last]) separator
      _ = part ++ separator ++ join (parts ++ [last]) separator :=
        List.intercalate_cons_of_ne_nil (by simp)
      _ = part ++ separator ++ front ++ last := by rw [joined, ← List.append_assoc]

theorem split_join_concat (parts : List Bytes) {last : Bytes} (plain : charByte '/' ∉ last) :
    ∃ front, split (join (parts ++ [last]) (ascii "/")) '/' = front ++ [last] := by
  induction parts with
  | nil =>
    rw [List.nil_append, join, List.intercalate_singleton]
    exact ⟨[], List.splitOn_eq_singleton plain⟩
  | cons part parts ih =>
    obtain ⟨front, pieces⟩ := ih
    refine ⟨split part '/' ++ front, ?_⟩
    have joined : join (part :: parts ++ [last]) (ascii "/") =
        part ++ charByte '/' :: join (parts ++ [last]) (ascii "/") := by
      refine (List.intercalate_cons_of_ne_nil (by simp)).trans ?_
      exact List.append_assoc ..
    calc split (join (part :: parts ++ [last]) (ascii "/")) '/'
      _ = split part '/' ++ split (join (parts ++ [last]) (ascii "/")) '/' := by
        rw [joined]
        exact List.splitOn_append_cons_self _ _
      _ = split part '/' ++ front ++ [last] := by rw [pieces, List.append_assoc]

theorem suffix_pathJoin (elements : List Bytes) {last : Bytes} (plain : PlainElement last) :
    last <:+ pathJoin (elements ++ [last]) := by
  have present : (elements ++ [last]).filter (fun element => element ≠ []) =
      elements.filter (fun element => element ≠ []) ++ [last] := by
    simp [plain.nonempty]
  obtain ⟨pieces, splits⟩ := split_join_concat (elements.filter fun element => element ≠ []) plain.no_slash
  rw [pathJoin, present, if_neg (by simp), pathClean, splits, List.foldl_append, List.foldl_cons, plain.kept,
    List.foldl_nil, List.reverse_cons]
  obtain ⟨front, joined⟩ := join_concat (pieces.foldl (pathElement _) []).reverse last (ascii "/")
  rw [joined]
  have nonempty : front ++ last ≠ [] := by simp [plain.nonempty]
  rw [if_neg nonempty]
  split
  · exact (List.suffix_append front last).trans (List.suffix_cons _ _)
  · exact List.suffix_append front last

example : pathJoin [ascii "clients/", ascii "../x/./", [], ascii "key"] = ascii "x/key" := by decide +kernel

/-! ## Cleaning twice -/

theorem not_mem_of_mem_split {s piece : Bytes} {separator : Char} (member : piece ∈ split s separator) :
    charByte separator ∉ piece := by
  induction hn : s.length using Nat.strong_induction_on generalizing s with
  | _ n ih =>
    by_cases present : charByte separator ∈ s
    · obtain ⟨front, rest, rfl, plain⟩ := List.eq_append_cons_of_mem present
      rw [split, List.splitOn_append_cons_self_of_not_mem plain, List.mem_cons] at member
      cases member with
      | inl first => exact first ▸ plain
      | inr later => exact ih rest.length (by simp at hn; omega) later rfl
    · rw [split, List.splitOn_eq_singleton present, List.mem_singleton] at member
      exact member ▸ present

/-- What cleaning keeps: plain elements, above some `..` if the path is not rooted. -/
inductive Cleaned (rooted : Bool) : List Bytes → Prop where
  | nil : Cleaned rooted []
  | plain {element : Bytes} {kept : List Bytes} (plain : PlainElement element) (below : Cleaned rooted kept) :
      Cleaned rooted (element :: kept)
  | up {kept : List Bytes} (relative : rooted = false) (ups : ∀ element ∈ kept, element = ascii "..") :
      Cleaned rooted (ascii ".." :: kept)

namespace Cleaned
variable {rooted : Bool} {kept : List Bytes}

theorem pathElement {element : Bytes} (clean : Cleaned rooted kept) (no_slash : charByte '/' ∉ element) :
    Cleaned rooted (pathElement rooted kept element) := by
  rw [Go.pathElement.eq_def]
  split
  · exact clean
  rename_i named
  rw [not_or] at named
  split
  · rename_i dots
    subst dots
    cases clean with
    | nil =>
      cases rooted with
      | true => exact .nil
      | false => exact .up rfl (by simp)
    | plain below_plain below =>
      dsimp only
      rw [if_neg below_plain.no_dots]
      exact below
    | up relative ups =>
      dsimp only
      rw [if_pos rfl]
      exact .up relative (by simpa using ups)
  · rename_i no_dots
    exact .plain ⟨named.1, named.2, no_dots, no_slash⟩ clean

theorem foldl {pieces : List Bytes} (clean : Cleaned rooted kept) (no_slash : ∀ piece ∈ pieces, charByte '/' ∉ piece) :
    Cleaned rooted (pieces.foldl (Go.pathElement rooted) kept) := by
  induction pieces generalizing kept with
  | nil => exact clean
  | cons piece pieces ih =>
    refine ih (clean.pathElement (no_slash piece List.mem_cons_self)) fun later member => ?_
    exact no_slash later (List.mem_cons_of_mem piece member)

theorem split (rooted : Bool) (p : Bytes) : Cleaned rooted ((Go.split p '/').foldl (Go.pathElement rooted) []) :=
  Cleaned.nil.foldl fun _ => not_mem_of_mem_split

theorem names (clean : Cleaned rooted kept) : ∀ element ∈ kept, element ≠ [] ∧ charByte '/' ∉ element := by
  induction clean with
  | nil => simp
  | plain plain below ih => exact List.forall_mem_cons.mpr ⟨⟨plain.nonempty, plain.no_slash⟩, ih⟩
  | up relative ups =>
    refine List.forall_mem_cons.mpr ⟨by decide, fun element member => ?_⟩
    rw [ups element member]
    decide

/-- What has been kept is kept again. -/
theorem again (clean : Cleaned rooted kept) : kept.reverse.foldl (Go.pathElement rooted) [] = kept := by
  induction kept with
  | nil => rfl
  | cons element kept ih =>
    rw [List.reverse_cons, List.foldl_append, List.foldl_cons, List.foldl_nil]
    cases clean with
    | plain plain below => rw [ih below, plain.kept]
    | up relative ups =>
      cases kept with
      | nil =>
        subst relative
        rfl
      | cons last below =>
        have same : last = ascii ".." := ups last List.mem_cons_self
        subst same
        have clean_below : Cleaned rooted (ascii ".." :: below) :=
          .up relative fun element member => ups element (List.mem_cons_of_mem _ member)
        rw [ih clean_below]
        rfl

/-- The elements of the body of a clean path are what has been kept. -/
theorem split_body (clean : Cleaned rooted kept) :
    (Go.split (join kept.reverse (ascii "/")) '/').foldl (Go.pathElement rooted) [] = kept := by
  by_cases empty : kept = []
  · subst empty
    rfl
  · have pieces : Go.split (join kept.reverse (ascii "/")) '/' = kept.reverse :=
      List.splitOn_intercalate _ (fun element member => (clean.names element (List.mem_reverse.mp member)).2)
        (by simpa using empty)
    rw [pieces, clean.again]

/-- A body does not begin with a slash. -/
theorem head_body (clean : Cleaned rooted kept) :
    (join kept.reverse (ascii "/")).head? ≠ some (charByte '/') := by
  cases elements : kept.reverse with
  | nil => simp [join]
  | cons first rest =>
    have member : first ∈ kept := List.mem_reverse.mp (elements ▸ List.mem_cons_self)
    obtain ⟨nonempty, no_slash⟩ := clean.names first member
    obtain ⟨b, tail, rfl⟩ := List.exists_cons_of_ne_nil nonempty
    have apart : b ≠ charByte '/' := fun same => no_slash (same ▸ List.mem_cons_self)
    cases rest with
    | nil => simpa [join] using apart
    | cons second rest =>
      rw [join, List.intercalate_cons_of_ne_nil (by simp)]
      simpa using apart

end Cleaned

/-- What is kept of a path, the last element first. -/
def pathKept (p : Bytes) : List Bytes :=
  (split p '/').foldl (pathElement (p.head? = some (charByte '/'))) []

theorem pathKept_clean (p : Bytes) : Cleaned (p.head? = some (charByte '/')) (pathKept p) := Cleaned.split _ p

theorem pathClean_eq (p : Bytes) : pathClean p =
    if p.head? = some (charByte '/') then charByte '/' :: join (pathKept p).reverse (ascii "/")
    else if join (pathKept p).reverse (ascii "/") = [] then ascii "." else join (pathKept p).reverse (ascii "/") := by
  rw [pathClean]
  simp only [decide_eq_true_eq]
  rfl

theorem head_pathClean (p : Bytes) :
    (pathClean p).head? = some (charByte '/') ↔ p.head? = some (charByte '/') := by
  rw [pathClean_eq]
  split
  · rename_i rooted
    simp [rooted]
  · rename_i relative
    refine iff_of_false ?_ relative
    split
    · decide
    · exact (pathKept_clean p).head_body

theorem pathClean_ne_nil (p : Bytes) : pathClean p ≠ [] := by
  rw [pathClean_eq]
  split
  · simp
  split
  · decide
  · assumption

theorem pathKept_pathClean (p : Bytes) : pathKept (pathClean p) = pathKept p := by
  have body := (pathKept_clean p).split_body
  have same_root := propext (head_pathClean p)
  rw [pathKept]
  simp only [same_root]
  rw [pathClean_eq]
  split
  · have behind : split (charByte '/' :: join (pathKept p).reverse (ascii "/")) '/' =
        [] :: split (join (pathKept p).reverse (ascii "/")) '/' := List.splitOn_append_cons_self [] _
    rw [behind]
    exact body
  split
  · rename_i empty
    rw [empty] at body
    exact body
  · exact body

theorem pathKept_append {p : Bytes} (nonempty : p ≠ []) (rest : Bytes) :
    pathKept (p ++ charByte '/' :: rest) =
      (split rest '/').foldl (pathElement (p.head? = some (charByte '/'))) (pathKept p) := by
  have pieces : split (p ++ charByte '/' :: rest) '/' = split p '/' ++ split rest '/' :=
    List.splitOn_append_cons_self ..
  rw [pathKept, List.head?_append_of_ne_nil _ nonempty, pieces, List.foldl_append]
  rfl

/-- A path may be cleaned before more is put behind it. -/
theorem pathClean_append {p : Bytes} (nonempty : p ≠ []) (rest : Bytes) :
    pathClean (pathClean p ++ charByte '/' :: rest) = pathClean (p ++ charByte '/' :: rest) := by
  have kept : pathKept (pathClean p ++ charByte '/' :: rest) = pathKept (p ++ charByte '/' :: rest) := by
    rw [pathKept_append (pathClean_ne_nil p), pathKept_append nonempty, pathKept_pathClean]
    simp only [head_pathClean]
  have root : (pathClean p ++ charByte '/' :: rest).head? = some (charByte '/') ↔
      (p ++ charByte '/' :: rest).head? = some (charByte '/') := by
    rw [List.head?_append_of_ne_nil _ (pathClean_ne_nil p), List.head?_append_of_ne_nil _ nonempty, head_pathClean]
  rw [pathClean_eq (_ ++ _), pathClean_eq (p ++ _), kept]
  simp only [root]

theorem pathJoin_pair {a b : Bytes} (first : a ≠ []) (second : b ≠ []) :
    pathJoin [a, b] = pathClean (a ++ charByte '/' :: b) := by
  simp [pathJoin, first, second, join, ascii]

/-- `path.Join(path.Join(a, b), c)` is `path.Join(a, b, c)`. -/
theorem pathJoin_pathJoin {a b c : Bytes} (first : a ≠ []) (second : b ≠ []) (third : c ≠ []) :
    pathJoin [pathJoin [a, b], c] = pathJoin [a, b, c] := by
  have inner : pathJoin [a, b] ≠ [] := pathJoin_pair first second ▸ pathClean_ne_nil _
  have three : pathJoin [a, b, c] = pathClean ((a ++ charByte '/' :: b) ++ charByte '/' :: c) := by
    simp [pathJoin, first, second, third, join, ascii]
  rw [pathJoin_pair inner third, pathJoin_pair first second, pathClean_append (by simp), three]

end Q2Admin.Go
