import Mathlib.Data.Int.GCD
import Q2Admin.Go
import Q2Admin.Lib.Cycle
import Q2Admin.Lib.Runs

/-! `maprotator/rotator.go`: a list of maps, and an index that goes round it either way.
Index and size are 32-bit integers. -/

namespace Q2Admin
open Go Lib

/-- `message Map`, as far as a rotation fills it in. -/
structure Map where
  name : Bytes := []
  minimumPlayers : Int := 0
  maximumPlayers : Int := 0
  flags : Int := 0
  deriving DecidableEq, Repr

/-- `enum MapRotationDirection`. A number without a name can be stored too. -/
inductive MapRotationDirection where
  | forward
  | reverse
  | unrecognized (number : Int)
  deriving DecidableEq, Repr

/-- `message MapRotation`. -/
structure MapRotation where
  name : Bytes
  uuid : Bytes
  maps : List Map := []
  index : Int := 0
  direction : MapRotationDirection := .forward
  size : Int := 0
  deriving DecidableEq, Repr

/-- One entry of a list: a name, the two limits, and flags if nothing is behind them. What is
no number is left at 0. -/
def readMap (m : Bytes) : Map :=
  let data := fields m
  let number (k : Nat) : Int := (data[k]?.bind atoi).getD 0
  { name := data.headD []
    minimumPlayers := int32 (number 1)
    maximumPlayers := int32 (number 2)
    flags := if data.length = 4 then number 3 else 0 }

/-- `NewMapRotation`, with the result of `uuid.NewString()`. -/
def newMapRotation (uuid name : Bytes) (maps : List Bytes) : Option MapRotation :=
  if maps = [] then none
  else some {
    name := if name = [] then ascii "default rotation" else name
    uuid := uuid
    maps := maps.map readMap
    size := int32 maps.length }

namespace MapRotation

/-- The switch of `Next`. A direction without a case goes to the first map. -/
def nextIndex (m : MapRotation) : Int :=
  match m.direction with
  | .forward =>
    let nextIndex := int32 (m.index + 1)
    if nextIndex = m.size then 0 else nextIndex
  | .reverse =>
    let nextIndex := int32 (m.index - 1)
    if nextIndex = -1 then int32 (m.size - 1) else nextIndex
  | .unrecognized _ => 0

def next (m : MapRotation) : Except Fault (Option Map × MapRotation) :=
  if m.size = 0 then .ok (none, m)
  else if 0 ≤ m.nextIndex ∧ m.nextIndex < m.maps.length then
    .ok (m.maps[m.nextIndex.toNat]?, { m with index := m.nextIndex })
  else .error .sliceIndex

/-- The exchanges `rand.Shuffle` asks for, each of two positions of the list. -/
def exchange : List (Nat × Nat) → List Map → Except Fault (List Map)
  | [], maps => .ok maps
  | (i, j) :: rest, maps =>
    if i < maps.length ∧ j < maps.length then exchange rest (maps.swap i j) else .error .sliceIndex

def shuffle (swaps : List (Nat × Nat)) (m : MapRotation) : Except Fault MapRotation := do
  let maps ← exchange swaps m.maps
  .ok { m with maps := maps }

/-- `Next` so many times, with the positions it comes to. -/
def visits : Nat → MapRotation → Except Fault (List Int × MapRotation)
  | 0, m => .ok ([], m)
  | count + 1, m => do
    let (_, m) ← m.next
    let (positions, last) ← visits count m
    .ok (m.index :: positions, last)

end MapRotation

/-- What is done with a rotation. -/
inductive RotationEvent where
  | next
  | shuffle (swaps : List (Nat × Nat))
  | turn (direction : MapRotationDirection)

def rotationStep (m : MapRotation) : RotationEvent → Except Fault MapRotation
  | .next => m.next.map Prod.snd
  | .shuffle swaps => m.shuffle swaps
  | .turn direction => .ok { m with direction := direction }

/-- How a direction goes round, if it does. -/
def MapRotationDirection.stride : MapRotationDirection → Option Int
  | forward => some 1
  | reverse => some (-1)
  | unrecognized _ => none

/-- The index is one of the list, whose length fits the size. -/
structure MapRotation.InRange (m : MapRotation) : Prop where
  sized : m.size = m.maps.length
  few : m.maps.length ≤ 2147483647
  low : 0 ≤ m.index
  high : m.index < m.size

theorem int32_of_fits {n : Int} (low : -2147483648 ≤ n) (high : n ≤ 2147483647) : int32 n = n :=
  Int.bmod_eq_of_le (by omega) (by omega)

theorem newMapRotation_inRange {uuid name : Bytes} {maps : List Bytes} {m : MapRotation}
    (few : maps.length ≤ 2147483647) (made : newMapRotation uuid name maps = some m) :
    m.InRange ∧ m.maps = maps.map readMap := by
  unfold newMapRotation at made
  split at made
  case isTrue => cases made
  case isFalse some =>
    have length : 0 < maps.length := List.length_pos_iff.mpr some
    obtain rfl := Option.some.inj made
    have fits : int32 maps.length = maps.length := int32_of_fits (by omega) (by omega)
    refine ⟨⟨?_, ?_, le_rfl, ?_⟩, rfl⟩
    · rw [fits, List.length_map]
    · rwa [List.length_map]
    · rw [fits]
      exact Int.natCast_pos.mpr length

namespace MapRotation
variable {m m' : MapRotation}

/-- Round the circle by the stride of the direction. -/
theorem nextIndex_of_stride (range : m.InRange) {stride : Int} (strides : m.direction.stride = some stride) :
    m.nextIndex = (m.index + stride) % m.size := by
  obtain ⟨sized, few, low, high⟩ := range
  unfold nextIndex
  cases direction : m.direction with
  | forward =>
    rw [direction] at strides
    obtain rfl : 1 = stride := Option.some.inj strides
    have fits : int32 (m.index + 1) = m.index + 1 := int32_of_fits (by omega) (by omega)
    simp only [fits]
    by_cases last : m.index + 1 = m.size
    · rw [if_pos last, last, Int.emod_self]
    · rw [if_neg last, Int.emod_eq_of_lt (by omega) (by omega)]
  | reverse =>
    rw [direction] at strides
    obtain rfl : -1 = stride := Option.some.inj strides
    have fits : int32 (m.index - 1) = m.index - 1 := int32_of_fits (by omega) (by omega)
    have top : int32 (m.size - 1) = m.size - 1 := int32_of_fits (by omega) (by omega)
    simp only [fits, top]
    by_cases first : m.index - 1 = -1
    · rw [if_pos first, ← Int.add_emod_right, Int.emod_eq_of_lt (by omega) (by omega)]
      omega
    · rw [if_neg first, ← Int.sub_eq_add_neg, Int.emod_eq_of_lt (by omega) (by omega)]
  | unrecognized number =>
    rw [direction] at strides
    cases strides

theorem nextIndex_inside (range : m.InRange) : 0 ≤ m.nextIndex ∧ m.nextIndex < m.size := by
  have positive : 0 < m.size := lt_of_le_of_lt range.low range.high
  cases strides : m.direction.stride with
  | some stride =>
    rw [nextIndex_of_stride range strides]
    exact ⟨Int.emod_nonneg _ (ne_of_gt positive), Int.emod_lt_of_pos _ positive⟩
  | none =>
    cases direction : m.direction with
    | unrecognized number =>
      simp only [nextIndex, direction]
      exact ⟨le_rfl, positive⟩
    | forward => simp [direction, MapRotationDirection.stride] at strides
    | reverse => simp [direction, MapRotationDirection.stride] at strides

/-- There is a next map, and it is that of the new index. -/
theorem next_ok (range : m.InRange) : ∃ map, m.maps[m.nextIndex.toNat]? = some map ∧
    m.next = .ok (some map, { m with index := m.nextIndex }) := by
  obtain ⟨sized, few, low, high⟩ := range
  obtain ⟨inside, below⟩ := nextIndex_inside ⟨sized, few, low, high⟩
  have there : m.maps[m.nextIndex.toNat]? = some m.maps[m.nextIndex.toNat] := List.getElem?_eq_getElem (by omega)
  refine ⟨_, there, ?_⟩
  rw [next, if_neg (by omega), if_pos ⟨inside, sized ▸ below⟩, there]

theorem exchange_perm {swaps : List (Nat × Nat)} {maps maps' : List Map}
    (exchanged : exchange swaps maps = .ok maps') : maps'.Perm maps := by
  induction swaps generalizing maps with
  | nil => exact Except.ok.inj exchanged ▸ List.Perm.refl _
  | cons pair rest ih =>
    obtain ⟨i, j⟩ := pair
    rw [exchange] at exchanged
    split at exchanged
    · exact (ih exchanged).trans (List.swap_perm maps i j)
    · cases exchanged

theorem shuffle_ok {swaps : List (Nat × Nat)} (shuffled : m.shuffle swaps = .ok m') :
    ∃ maps, m' = { m with maps := maps } ∧ maps.Perm m.maps := by
  unfold shuffle at shuffled
  cases exchanged : exchange swaps m.maps with
  | error fault => simp [exchanged, Bind.bind, Except.bind] at shuffled
  | ok maps =>
    simp only [exchanged, Bind.bind, Except.bind, Except.ok.injEq] at shuffled
    exact ⟨maps, shuffled.symm, exchange_perm exchanged⟩

theorem InRange.of_index (range : m.InRange) {index : Int} (low : 0 ≤ index) (high : index < m.size) :
    ({ m with index := index } : MapRotation).InRange := ⟨range.sized, range.few, low, high⟩

/-- Turns of `Next` in one direction. -/
theorem visits_eq (range : m.InRange) {stride : Int} (strides : m.direction.stride = some stride) (count : Nat) :
    m.visits count = .ok (Cycle.turn m.maps.length m.index stride count,
      { m with index := Cycle.position m.maps.length m.index stride count }) := by
  have sized := range.sized
  have low := range.low
  have high := range.high
  induction count generalizing m with
  | zero =>
    rw [visits, Cycle.position_zero low (sized ▸ high)]
    rfl
  | succ count ih =>
    have one : (m.index + stride) % m.size = Cycle.position m.maps.length m.index stride 1 := by
      rw [Cycle.position, sized, Nat.cast_one, one_mul]
    have inside := Cycle.position_inside m.index stride (by omega : 0 < m.maps.length) 1
    have further := ih (range.of_index inside.1 (sized ▸ inside.2)) strides sized inside.1 (sized ▸ inside.2)
    obtain ⟨map, -, came⟩ := next_ok range
    rw [nextIndex_of_stride range strides, one] at came
    simp only [visits, came, Bind.bind, Except.bind, further, Cycle.turn_succ, Cycle.position_position,
      Nat.add_comm 1 count]

end MapRotation

/-- One event leaves the index in range, and the same maps. -/
theorem rotationStep_keeps {m m' : MapRotation} {e : RotationEvent} (range : m.InRange)
    (stepped : rotationStep m e = .ok m') : m'.InRange ∧ m'.maps.Perm m.maps := by
  cases e with
  | next =>
    obtain ⟨map, -, came⟩ := MapRotation.next_ok range
    obtain ⟨low, high⟩ := MapRotation.nextIndex_inside range
    simp only [rotationStep, came, Except.map, Except.ok.injEq] at stepped
    subst stepped
    exact ⟨range.of_index low high, List.Perm.refl _⟩
  | shuffle swaps =>
    obtain ⟨maps, rfl, permuted⟩ := MapRotation.shuffle_ok stepped
    have length := permuted.length_eq
    exact ⟨⟨by rw [range.sized, length], length ▸ range.few, range.low, range.high⟩, permuted⟩
  | turn direction =>
    cases stepped
    exact ⟨⟨range.sized, range.few, range.low, range.high⟩, List.Perm.refl _⟩

/-- `Next` either way, and back the other way. -/
theorem MapRotation.InRange.next_back {m : MapRotation} (range : m.InRange) {d d' : MapRotationDirection} {stride : Int}
    (there : d.stride = some stride) (back : d'.stride = some (-stride)) :
    ∃ map m₁ map' m₂, ({ m with direction := d } : MapRotation).next = .ok (some map, m₁) ∧
      ({ m₁ with direction := d' } : MapRotation).next = .ok (some map', m₂) ∧ m₂.index = m.index := by
  have out : ({ m with direction := d } : MapRotation).InRange := ⟨range.sized, range.few, range.low, range.high⟩
  obtain ⟨map, -, came⟩ := MapRotation.next_ok out
  obtain ⟨low, high⟩ := MapRotation.nextIndex_inside out
  rw [MapRotation.nextIndex_of_stride out there] at came low high
  have home : ({ m with index := (m.index + stride) % m.size, direction := d' } : MapRotation).InRange :=
    ⟨range.sized, range.few, low, high⟩
  obtain ⟨map', -, returned⟩ := MapRotation.next_ok home
  refine ⟨map, _, map', _, came, returned, ?_⟩
  rw [MapRotation.nextIndex_of_stride home back]
  have round : ((m.index + stride) % m.size + -stride) % m.size = m.index := by
    rw [Int.emod_add_emod, Int.add_neg_cancel_right, Int.emod_eq_of_lt range.low range.high]
  exact round

/-- From every state that a rotation comes to: the index is one of the list, `Next` comes to the
map of its new index, shuffling permutes the list, a whole turn passes each position once and
ends where it began, and a step is taken back by one the other way. -/
theorem rotation_fair (uuid name : Bytes) (maps : List Bytes) (m₀ m : MapRotation) (events : List RotationEvent)
    (few : maps.length ≤ 2147483647) (made : newMapRotation uuid name maps = some m₀)
    (ran : run rotationStep m₀ events = .ok m) :
    (m.size = m.maps.length ∧ 0 ≤ m.index ∧ m.index < m.size ∧ m.maps.Perm (maps.map readMap)) ∧
      (∃ map m', m.next = .ok (some map, m') ∧ m'.maps[m'.index.toNat]? = some map) ∧
      (∀ swaps m', m.shuffle swaps = .ok m' → m'.maps.Perm m.maps) ∧
      (∀ d stride, d.stride = some stride → ∃ positions,
        ({ m with direction := d } : MapRotation).visits m.maps.length = .ok (positions, { m with direction := d }) ∧
        positions.Perm ((List.range m.maps.length).map (Nat.cast : Nat → Int))) ∧
      ∀ d d' stride, d.stride = some stride → d'.stride = some (-stride) → ∃ map m₁ map' m₂,
        ({ m with direction := d } : MapRotation).next = .ok (some map, m₁) ∧
        ({ m₁ with direction := d' } : MapRotation).next = .ok (some map', m₂) ∧ m₂.index = m.index := by
  obtain ⟨start, same⟩ := newMapRotation_inRange few made
  obtain ⟨range, permuted⟩ : m.InRange ∧ m.maps.Perm m₀.maps := run_invariant
    (fun m => m.InRange ∧ m.maps.Perm m₀.maps) (fun _ _ _ held _ stepped => by
      obtain ⟨range, permuted⟩ := rotationStep_keeps held.1 stepped
      exact ⟨range, permuted.trans held.2⟩) ⟨start, List.Perm.refl _⟩ (allowed_all _ _) ran
  have low := range.low
  have high : m.index < m.maps.length := range.sized ▸ range.high
  refine ⟨⟨range.sized, low, range.high, same ▸ permuted⟩, ?_, ?_, ?_, fun d d' stride => range.next_back⟩
  · obtain ⟨map, there, came⟩ := MapRotation.next_ok range
    exact ⟨map, _, came, there⟩
  · intro swaps m' shuffled
    obtain ⟨maps', rfl, permuted⟩ := MapRotation.shuffle_ok shuffled
    exact permuted
  · intro d stride strides
    have coprime : IsCoprime stride m.maps.length := by
      cases d with
      | forward => exact Option.some.inj strides ▸ isCoprime_one_left
      | reverse => exact Option.some.inj strides ▸ isCoprime_one_left.neg_left
      | unrecognized number => cases strides
    have turned : ({ m with direction := d } : MapRotation).InRange := ⟨range.sized, range.few, low, range.high⟩
    have whole := MapRotation.visits_eq turned strides m.maps.length
    rw [Cycle.position_full low high] at whole
    have positive : 0 < m.maps.length := by omega
    exact ⟨_, whole, Cycle.turn_perm coprime positive⟩

/-- Three maps, one of them with its limits. -/
def threeMaps : List Bytes := [ascii "q2dm1", ascii "q2dm2 2 16", ascii "q2dm8"]

def rotationEvents : List RotationEvent :=
  [.next, .turn .reverse, .shuffle [(0, 2)], .next, .next]

/-- What the events leave, from a rotation of the three maps. -/
def threeMapsAfter : Except Fault MapRotation :=
  match newMapRotation [] [] threeMaps with
  | none => .error .sliceIndex
  | some m₀ => run rotationStep m₀ rotationEvents

theorem rotation_fair_three : ∃ m₀ m, newMapRotation [] [] threeMaps = some m₀ ∧
    run rotationStep m₀ rotationEvents = .ok m ∧ m.size = m.maps.length ∧ 0 ≤ m.index ∧ m.index < m.size := by
  have returns : Yields threeMapsAfter (fun _ => True) fun _ => False := by decide +kernel
  obtain ⟨m, ran, -⟩ := returns.returns
  obtain ⟨m₀, made⟩ : ∃ m₀, newMapRotation [] [] threeMaps = some m₀ := ⟨_, rfl⟩
  rw [threeMapsAfter, made] at ran
  obtain ⟨⟨sized, low, high, -⟩, -⟩ := rotation_fair [] [] threeMaps m₀ m rotationEvents (by decide) made ran
  exact ⟨m₀, m, made, ran, sized, low, high⟩

end Q2Admin
