import Q2Admin.Go
import Q2Admin.Lib.Separated

/-! `UserinfoMap` of `frontend/player.go`: a backslash-delimited userinfo string
becomes a map. The loop takes the fields two at a time and reads the second one
without asking whether it is there. -/

namespace Q2Admin
open Go Lib

/-- `for i := 0; i < len(data); i += 2 { info[data[i]] = data[i+1] }`. -/
def fillPairs : List Bytes → StringMap → Except Fault StringMap
  | [], info => .ok info
  | [_], _ => .error .userinfoField
  | key :: value :: rest, info => fillPairs rest (info.insert key value)

/-- The special case at the end: an `ip` value with a colon is address and port. -/
def splitAddress (info : StringMap) : StringMap :=
  match split (info.at (ascii "ip")) ':' with
  | address :: port :: _ => (info.insert (ascii "port") port).insert (ascii "ip") address
  | _ => info

def userinfoMap (ui : Bytes) : Except Fault StringMap :=
  if ui = [] then .ok ∅
  else do
    let info ← fillPairs (split ui.tail '\\') ∅
    .ok (splitAddress info)

def backslash : Byte := charByte '\\'

theorem fillPairs_ok_iff (data : List Bytes) (info : StringMap) :
    (∃ result, fillPairs data info = .ok result) ↔ data.length % 2 = 0 := by
  induction data, info using fillPairs.induct with
  | case1 info => simp [fillPairs]
  | case2 field info => simp [fillPairs]
  | case3 key value rest info ih =>
    rw [fillPairs, ih]
    simp only [List.length_cons]
    omega

/-- The only fault of `UserinfoMap` is the missing second half of a pair. -/
theorem fillPairs_fault {data : List Bytes} {info : StringMap} {fault : Fault}
    (stopped : fillPairs data info = .error fault) : fault = .userinfoField := by
  induction data, info using fillPairs.induct with
  | case1 info => simp [fillPairs] at stopped
  | case2 field info => simpa [fillPairs] using stopped.symm
  | case3 key value rest info ih => exact ih (by simpa only [fillPairs] using stopped)

theorem userinfoMap_cons (first : Byte) (rest : Bytes) :
    userinfoMap (first :: rest) = (fillPairs (split rest '\\') ∅).map splitAddress := by
  simp only [userinfoMap, List.cons_ne_nil, ↓reduceIte, List.tail_cons]
  cases fillPairs (split rest '\\') ∅ <;> rfl

theorem userinfoMap_fault {ui : Bytes} {fault : Fault}
    (stopped : userinfoMap ui = .error fault) : fault = .userinfoField := by
  cases ui with
  | nil => simp [userinfoMap] at stopped
  | cons first rest =>
    rw [userinfoMap_cons] at stopped
    cases filled : fillPairs (split rest '\\') ∅ with
    | error other =>
      rw [filled] at stopped
      have same : other = fault := by simpa [Except.map] using stopped
      exact same ▸ fillPairs_fault filled
    | ok info => simp [filled, Except.map] at stopped

/-- What `UserinfoMap` needs of its argument: nothing at all, or pairs behind the
first byte, which is an odd number of backslashes there. -/
def WholePairs (ui : Bytes) : Prop := ui = [] ∨ ui.tail.count backslash % 2 = 1

instance (ui : Bytes) : Decidable (WholePairs ui) :=
  inferInstanceAs (Decidable (_ ∨ _))

theorem userinfoMap_ok_iff (ui : Bytes) :
    (∃ info, userinfoMap ui = .ok info) ↔ WholePairs ui := by
  cases ui with
  | nil => simp [userinfoMap, WholePairs]
  | cons first rest =>
    have parity := Separated.length_splitOn_even backslash rest
    have filled := fillPairs_ok_iff (split rest '\\') ∅
    rw [userinfoMap_cons]
    simp only [WholePairs, List.cons_ne_nil, List.tail_cons, false_or, ← parity]
    change _ ↔ (split rest '\\').length % 2 = 0
    rw [← filled]
    cases fillPairs (split rest '\\') ∅ <;> simp [Except.map]

/-- `UserinfoMap` stays in range on exactly the strings that are empty or hold whole
pairs behind their first byte. -/
theorem userinfoMap_never_faults_iff (ui : Bytes) :
    ((∀ fault, userinfoMap ui ≠ .error fault) ∧ ∃ info, userinfoMap ui = .ok info) ↔
      WholePairs ui := by
  rw [← userinfoMap_ok_iff]
  constructor
  · exact And.right
  · rintro ⟨info, returned⟩
    exact ⟨fun fault stopped => by simp [returned] at stopped, info, returned⟩

/-- A lone backslash leaves one empty field and no value for it. -/
theorem userinfoMap_lone_backslash :
    ¬ ∀ ui : Bytes, (∀ fault, userinfoMap ui ≠ .error fault) ∧ ∃ info, userinfoMap ui = .ok info := by
  intro total
  exact (total [backslash]).1 .userinfoField (by decide)

example : (userinfoMap (ascii "\\name\\claire\\ip\\10.0.0.2:27901")).map
    (fun info => (info.at (ascii "name"), info.at (ascii "ip"), info.at (ascii "port"))) =
      .ok (ascii "claire", ascii "10.0.0.2", ascii "27901") := by decide

end Q2Admin
