import Mathlib.Data.List.Induction
import Q2Admin.Wire

/-! `UserinfoMap` against the string it is given: what a player's game wrote, key behind
key, is what the map holds. A key listed twice keeps its last value, and the two entries
for the address are split out of `ip`, over whatever the player put under `port`. -/

namespace Q2Admin
open Go Lib

def colon : Byte := charByte ':'

/-- The fields in the order of the string. -/
def pairFields (pairs : List (Bytes × Bytes)) : List Bytes :=
  pairs.flatMap fun pair => [pair.1, pair.2]

/-- The value of the last pair with this key. -/
def lastListed (pairs : List (Bytes × Bytes)) (key : Bytes) : Option Bytes :=
  (pairs.reverse.find? fun pair => pair.1 = key).map Prod.snd

theorem lastListed_append (pairs : List (Bytes × Bytes)) (pair : Bytes × Bytes) (key : Bytes) :
    lastListed (pairs ++ [pair]) key = if pair.1 = key then some pair.2 else lastListed pairs key := by
  unfold lastListed
  rw [List.reverse_append, List.reverse_singleton, List.singleton_append, List.find?_cons]
  by_cases same : pair.1 = key
  · simp only [same, decide_true, ↓reduceIte, Option.map_some]
  · simp only [same, decide_false, ↓reduceIte]

theorem isSome_lastListed (pairs : List (Bytes × Bytes)) (key : Bytes) :
    (lastListed pairs key).isSome ↔ ∃ value, (key, value) ∈ pairs := by
  unfold lastListed
  rw [Option.isSome_map, List.find?_isSome]
  constructor
  · intro found
    obtain ⟨pair, member, same⟩ := found
    exact ⟨pair.2, by simpa [← of_decide_eq_true same] using member⟩
  · intro listed
    obtain ⟨value, member⟩ := listed
    exact ⟨(key, value), List.mem_reverse.mpr member, decide_eq_true rfl⟩

/-- Without backslashes in them the fields come back as they were written. -/
theorem split_formatUserinfo {pairs : List (Bytes × Bytes)} (listed : pairs ≠ [])
    (plain : ∀ pair ∈ pairs, backslash ∉ pair.1 ∧ backslash ∉ pair.2) :
    split (formatUserinfo pairs).tail '\\' = pairFields pairs := by
  induction pairs with
  | nil => exact absurd rfl listed
  | cons pair rest ih =>
    have front := plain pair (List.mem_cons_self ..)
    have shape : (formatUserinfo (pair :: rest)).tail = pair.1 ++ backslash :: (pair.2 ++ formatUserinfo rest) := by
      simp [formatUserinfo]
    have key : split (formatUserinfo (pair :: rest)).tail '\\' =
        pair.1 :: split (pair.2 ++ formatUserinfo rest) '\\' := by
      rw [shape]
      exact List.splitOn_append_cons_self_of_not_mem front.1 _
    rw [key, pairFields, List.flatMap_cons, List.cons_append, List.singleton_append]
    congr 1
    cases rest with
    | nil =>
      have last : pair.2 ++ formatUserinfo [] = pair.2 := List.append_nil _
      rw [last]
      exact List.splitOn_eq_singleton front.2
    | cons next others =>
      have behind : formatUserinfo (next :: others) = backslash :: (formatUserinfo (next :: others)).tail := rfl
      have tail := ih (by simp) fun other member => plain other (List.mem_cons_of_mem _ member)
      rw [behind]
      exact (List.splitOn_append_cons_self_of_not_mem front.2 _).trans (congrArg _ tail)

/-- The loop of `UserinfoMap` on whole pairs. -/
theorem fillPairs_pairFields (pairs : List (Bytes × Bytes)) (info : StringMap) :
    fillPairs (pairFields pairs) info =
      .ok (pairs.foldl (fun filled pair => filled.insert pair.1 pair.2) info) := by
  induction pairs generalizing info with
  | nil => rfl
  | cons pair rest ih => exact ih (info.insert pair.1 pair.2)

theorem lookup_foldl_insert (pairs : List (Bytes × Bytes)) (key : Bytes) :
    (pairs.foldl (fun (filled : StringMap) pair => filled.insert pair.1 pair.2) ∅).lookup key =
      lastListed pairs key := by
  induction pairs using List.reverseRecOn with
  | nil => rfl
  | append_singleton front pair ih =>
    rw [List.foldl_append, List.foldl_cons, List.foldl_nil, lastListed_append]
    by_cases same : pair.1 = key
    · rw [if_pos same, ← same, AList.lookup_insert]
    · rw [if_neg same, AList.lookup_insert_ne (Ne.symm same), ih]

/-- Only an `ip` value with a colon is taken apart. -/
theorem splitAddress_plain {info : StringMap} (plain : colon ∉ info.at (ascii "ip")) :
    splitAddress info = info := by
  have whole : split (info.at (ascii "ip")) ':' = [info.at (ascii "ip")] := List.splitOn_eq_singleton plain
  simp only [splitAddress, whole]

/-- An address and its port, with nothing behind them. -/
theorem splitAddress_pair {info : StringMap} {h p : Bytes} (address : colon ∉ h) (port : colon ∉ p)
    (shape : info.at (ascii "ip") = h ++ colon :: p) :
    splitAddress info = (info.insert (ascii "port") p).insert (ascii "ip") h := by
  have fields : split (info.at (ascii "ip")) ':' = [h, p] := by
    rw [shape]
    exact (List.splitOn_append_cons_self_of_not_mem address p).trans
      (congrArg (h :: ·) (List.splitOn_eq_singleton port))
  simp only [splitAddress, fields]

/-- However many colons there are, two entries are written. -/
theorem splitAddress_colon {info : StringMap} (inside : colon ∈ info.at (ascii "ip")) :
    ∃ address port, splitAddress info = (info.insert (ascii "port") port).insert (ascii "ip") address := by
  obtain ⟨address, behind, shape, front⟩ := List.eq_append_cons_of_mem inside
  have fields : split (info.at (ascii "ip")) ':' = address :: split behind ':' := by
    rw [shape]
    exact List.splitOn_append_cons_self_of_not_mem front behind
  cases pieces : split behind ':' with
  | nil => exact absurd pieces (List.splitOn_ne_nil _ _)
  | cons port rest =>
    rw [pieces] at fields
    exact ⟨address, port, by simp only [splitAddress, fields]⟩

theorem lookup_splitAddress {info : StringMap} {key : Bytes} (other : key ≠ ascii "ip") (rest : key ≠ ascii "port") :
    (splitAddress info).lookup key = info.lookup key := by
  by_cases inside : colon ∈ info.at (ascii "ip")
  · obtain ⟨address, port, written⟩ := splitAddress_colon inside
    rw [written, AList.lookup_insert_ne other, AList.lookup_insert_ne rest]
  · rw [splitAddress_plain inside]

/-- A key that is not there reads as the empty string, which has no colon. -/
theorem mem_of_colon {info : StringMap} {key : Bytes} (inside : colon ∈ info.at key) : key ∈ info := by
  rw [← AList.lookup_isSome]
  unfold StringMap.at at inside
  cases found : info.lookup key with
  | none => simp [found] at inside
  | some value => rfl

theorem mem_splitAddress (info : StringMap) (key : Bytes) :
    key ∈ splitAddress info ↔ key ∈ info ∨ key = ascii "port" ∧ colon ∈ info.at (ascii "ip") := by
  by_cases inside : colon ∈ info.at (ascii "ip")
  · obtain ⟨address, port, written⟩ := splitAddress_colon inside
    have listed : ascii "ip" ∈ info := mem_of_colon inside
    rw [written, AList.mem_insert, AList.mem_insert]
    by_cases same : key = ascii "ip"
    · simp only [same, true_or, listed]
    · simp only [same, false_or, inside, and_true, or_comm]
  · rw [splitAddress_plain inside]
    simp only [inside, and_false, or_false]

/-- `UserinfoMap` reads back what was formatted, and splits the last address it was given. -/
theorem userinfoMap_formatUserinfo (pairs : List (Bytes × Bytes)) (listed : pairs ≠ [])
    (plain : ∀ pair ∈ pairs, backslash ∉ pair.1 ∧ backslash ∉ pair.2) :
    ∃ info, userinfoMap (formatUserinfo pairs) = .ok info ∧
      (∀ key, key ∈ info ↔ (∃ value, (key, value) ∈ pairs) ∨
        key = ascii "port" ∧ colon ∈ (lastListed pairs (ascii "ip")).getD []) ∧
      (∀ key, key ≠ ascii "ip" → key ≠ ascii "port" → info.lookup key = lastListed pairs key) ∧
      (colon ∉ (lastListed pairs (ascii "ip")).getD [] →
        info.lookup (ascii "ip") = lastListed pairs (ascii "ip") ∧
        info.lookup (ascii "port") = lastListed pairs (ascii "port")) ∧
      ∀ h p, colon ∉ h → colon ∉ p → lastListed pairs (ascii "ip") = some (h ++ colon :: p) →
        info.lookup (ascii "ip") = some h ∧ info.lookup (ascii "port") = some p := by
  let filled : StringMap := pairs.foldl (fun filled pair => filled.insert pair.1 pair.2) ∅
  have looked : ∀ key, filled.lookup key = lastListed pairs key := lookup_foldl_insert pairs
  have address : filled.at (ascii "ip") = (lastListed pairs (ascii "ip")).getD [] :=
    congrArg (Option.getD · []) (looked _)
  have distinct : ascii "port" ≠ ascii "ip" := by decide
  have mapped : userinfoMap (formatUserinfo pairs) = .ok (splitAddress filled) := by
    cases pairs with
    | nil => exact absurd rfl listed
    | cons pair rest =>
      have first : formatUserinfo (pair :: rest) = backslash :: (formatUserinfo (pair :: rest)).tail := rfl
      rw [first, userinfoMap_cons, split_formatUserinfo listed plain, fillPairs_pairFields]
      rfl
  refine ⟨splitAddress filled, mapped, ?_, ?_, ?_, ?_⟩
  · intro key
    rw [mem_splitAddress, address, ← AList.lookup_isSome, looked, isSome_lastListed]
  · intro key other rest
    rw [lookup_splitAddress other rest, looked]
  · intro whole
    rw [splitAddress_plain (address ▸ whole)]
    exact ⟨looked _, looked _⟩
  · intro h p front back last
    have shape : filled.at (ascii "ip") = h ++ colon :: p := by rw [address, last, Option.getD_some]
    rw [splitAddress_pair front back shape, AList.lookup_insert, AList.lookup_insert_ne distinct, AList.lookup_insert]
    exact ⟨rfl, rfl⟩

/-- An empty key, a name given twice, and a port of the player's own in front of the address. -/
theorem userinfoMap_of_repeated :
    let pairs := [([], ascii "x"), (ascii "name", ascii "noname"), (ascii "port", ascii "9"),
      (ascii "name", ascii "claire"), (ascii "ip", ascii "10.0.0.2:27901")]
    (pairs ≠ [] ∧ ∀ pair ∈ pairs, backslash ∉ pair.1 ∧ backslash ∉ pair.2) ∧
      ∃ info, userinfoMap (formatUserinfo pairs) = .ok info ∧ info.lookup (ascii "name") = some (ascii "claire") ∧
        info.lookup (ascii "ip") = some (ascii "10.0.0.2") ∧ info.lookup (ascii "port") = some (ascii "27901") := by
  intro pairs
  have given : pairs ≠ [] ∧ ∀ pair ∈ pairs, backslash ∉ pair.1 ∧ backslash ∉ pair.2 := by decide
  obtain ⟨info, returned, -, others, -, address⟩ := userinfoMap_formatUserinfo pairs given.1 given.2
  have split := address (ascii "10.0.0.2") (ascii "27901") (by decide) (by decide) (by decide)
  exact ⟨given, info, returned, others _ (by decide) (by decide), split⟩

end Q2Admin
