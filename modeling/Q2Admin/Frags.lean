import Q2Admin.Framing

/-! The frag message, which the switch of `ParseMessage` has no case for. Its opcode is passed over,
and the loop goes on with the numbers of the victim and of the attacker as if they were opcodes. -/

namespace Q2Admin
open Go Lib

/-- The codes that the switch has a case for. -/
def handledCodes : List Byte :=
  [cmdPing, cmdPrint, cmdMap, cmdPlayerList, cmdPlayerUpdate, cmdConnect, cmdDisconnect, cmdCommand]

/-- The frag message as it is documented. -/
def encodeFrag (v a : Byte) : Bytes := [cmdFrag, v, a]

section
variable (pf : Platform) (i : Nat)

/-- The message is passed over or parsed as a frag, and nothing is run for what it carries. -/
structure FragFramed (w : World) : Prop where
  effect : parseMessage pf i w = parseMessage pf i (w.advance i 3) ∨
    parseMessage pf i w = parseFrag pf i (w.advance i 1) >>= parseMessage pf i
  unrun : ∀ turn ∈ turns pf i ((w.fe i).message.data.length + 1) w,
    turn.1 = (w.fe i).message.index + 1 ∨ turn.1 = (w.fe i).message.index + 2 → turn.2 ∉ handledCodes

variable {pf i}

theorem frag_unhandled : cmdFrag ∉ handledCodes := by decide

theorem dispatch_passes {cmd : Byte} (unhandled : cmd ∉ handledCodes) (w : World) :
    dispatch pf i cmd w = .ok w := by
  simp only [handledCodes, List.mem_cons, List.not_mem_nil, or_false, not_or] at unhandled
  simp only [dispatch, unhandled, ↓reduceIte]

section
variable {w : World} {b : Byte} {rest : Bytes} (left : w.unread i = b :: rest)
include left

theorem live_of_unread : i < w.frontends.length := by
  by_contra outside
  rw [World.unread, World.fe_outside w outside] at left
  cases left

theorem index_advance (count : Nat) :
    ((w.advance i count).fe i).message.index = (w.fe i).message.index + count := by
  rw [World.advance, World.fe_update_self w (live_of_unread left)]
  rfl

theorem not_behind_cons : ¬ (w.fe i).message.data.length ≤ (w.fe i).message.index := by
  rw [behind_iff, left]
  exact List.cons_ne_nil b rest

theorem parseOne_passes (unhandled : b ∉ handledCodes) : parseOne pf i w = .ok (w.advance i 1) := by
  simp only [parseOne, World.readByte_eq i pf.q2 left, Bind.bind, Except.bind]
  exact dispatch_passes unhandled _

/-- A code without a case costs the loop a turn. -/
theorem parseLoop_passes (unhandled : b ∉ handledCodes) (fuel : Nat) :
    parseLoop pf i (fuel + 1) w = parseLoop pf i fuel (w.advance i 1) := by
  rw [parseLoop, if_neg (not_behind_cons left), parseOne_passes left unhandled]
  rfl

theorem turns_passes (unhandled : b ∉ handledCodes) (fuel : Nat) :
    turns pf i (fuel + 1) w = ((w.fe i).message.index, b) :: turns pf i fuel (w.advance i 1) := by
  simp only [turns, not_behind_cons left, parseOne_passes left unhandled, opcode_at left, ↓reduceIte]

theorem turns_first (fuel : Nat) : ((w.fe i).message.index, b) ∈ turns pf i (fuel + 1) w := by
  simp only [turns, not_behind_cons left, opcode_at left, ↓reduceIte]
  exact List.mem_cons_self

end

/-- A later turn starts further on. -/
theorem le_of_mem_turns (messages : List ClientMessage) {fuel : Nat} {w : World}
    (left : w.unread i = encodeAll messages) {turn : Nat × Byte} (member : turn ∈ turns pf i fuel w) :
    (w.fe i).message.index ≤ turn.1 := by
  induction messages generalizing fuel w with
  | nil =>
    cases fuel with
    | zero => cases member
    | succ fuel =>
      simp only [turns, (behind_iff i w).mpr left, ↓reduceIte] at member
      cases member
  | cons m rest ih =>
    cases fuel with
    | zero => cases member
    | succ fuel =>
      have ahead : w.unread i = m.encode ++ encodeAll rest := left
      simp only [turns, not_behind i ahead, parseOne_eq pf i m ahead, ↓reduceIte] at member
      rcases List.mem_cons.mp member with rfl | later
      · exact Nat.le_refl _
      cases delivered : deliver pf i w m with
      | error fault =>
        rw [delivered] at later
        cases later
      | ok w' =>
        rw [delivered] at later
        have bound := ih (deliver_unread pf i ahead delivered) later
        rw [deliver_message pf i (live_of_unread ahead) delivered] at bound
        exact Nat.le_trans (Nat.le_add_right _ _) bound

variable {w : World} {v a : Byte} {messages : List ClientMessage}
  (left : w.unread i = encodeFrag v a ++ encodeAll messages)
include left

theorem frag_unread : (w.advance i 1).unread i = v :: a :: encodeAll messages ∧
    (w.advance i 2).unread i = a :: encodeAll messages ∧ (w.advance i 3).unread i = encodeAll messages := by
  refine ⟨?_, ?_, ?_⟩ <;> rw [World.unread_advance, left] <;> rfl

/-- There are turns enough for the frag and for every message behind it. -/
theorem frag_fuel : ∃ fuel, (w.fe i).message.data.length + 1 = fuel + 3 ∧ messages.length < fuel := by
  have sizes := congrArg List.length left
  have bytes := length_le_encodeAll messages
  simp only [World.unread, Buffer.unread, List.length_drop, encodeFrag, List.length_append, List.length_cons,
    List.length_nil] at sizes
  exact ⟨(w.fe i).message.data.length - 2, by omega, by omega⟩

theorem parseMessage_passes (victim : v ∉ handledCodes) (attacker : a ∉ handledCodes) :
    parseMessage pf i w = parseMessage pf i (w.advance i 3) := by
  obtain ⟨first, second, third⟩ := frag_unread left
  obtain ⟨fuel, turns, enough⟩ := frag_fuel left
  have data : ((w.advance i 3).fe i).message.data = (w.fe i).message.data :=
    World.fe_update_field w i i (fun fe => fe.message.data) fun _ => rfl
  have twice : (w.advance i 1).advance i 1 = w.advance i 2 := World.advance_advance i w 1 1
  have thrice : (w.advance i 2).advance i 1 = w.advance i 3 := World.advance_advance i w 2 1
  calc parseMessage pf i w
    _ = parseLoop pf i (fuel + 2) (w.advance i 1) := by
      rw [parseMessage, turns, parseLoop_passes left frag_unhandled]
    _ = parseLoop pf i (fuel + 1) (w.advance i 2) := by rw [parseLoop_passes first victim, twice]
    _ = parseLoop pf i fuel (w.advance i 3) := by rw [parseLoop_passes second attacker, thrice]
    _ = run (deliver pf i) (w.advance i 3) messages := parseLoop_run pf i messages enough third
    _ = parseMessage pf i (w.advance i 3) := by
      rw [parseMessage, data, parseLoop_run pf i messages (by omega) third]

/-- A frag message is parsed as one or passed over exactly if neither number is a code with a case. -/
theorem fragFramed_iff : FragFramed pf i w ↔ v ∉ handledCodes ∧ a ∉ handledCodes := by
  obtain ⟨first, second, third⟩ := frag_unread left
  obtain ⟨fuel, turned, enough⟩ := frag_fuel left
  have twice : (w.advance i 1).advance i 1 = w.advance i 2 := World.advance_advance i w 1 1
  have thrice : (w.advance i 2).advance i 1 = w.advance i 3 := World.advance_advance i w 2 1
  have opening : turns pf i (fuel + 3) w =
      ((w.fe i).message.index, cmdFrag) :: turns pf i (fuel + 2) (w.advance i 1) :=
    turns_passes left frag_unhandled _
  constructor
  · rintro ⟨-, unrun⟩
    rw [turned, opening] at unrun
    have victim : v ∉ handledCodes := by
      have turn : ((w.fe i).message.index + 1, v) ∈ turns pf i (fuel + 2) (w.advance i 1) := by
        rw [← index_advance left]
        exact turns_first first _
      exact unrun _ (List.mem_cons_of_mem _ turn) (.inl rfl)
    have attacker : a ∉ handledCodes := by
      have turn : ((w.fe i).message.index + 2, a) ∈ turns pf i (fuel + 2) (w.advance i 1) := by
        rw [turns_passes first victim, twice, ← index_advance left]
        exact List.mem_cons_of_mem _ (turns_first second _)
      exact unrun _ (List.mem_cons_of_mem _ turn) (.inr rfl)
    exact ⟨victim, attacker⟩
  · rintro ⟨victim, attacker⟩
    refine ⟨.inl (parseMessage_passes left victim attacker), fun turn member inside => ?_⟩
    rw [turned, opening, turns_passes first victim, twice, turns_passes second attacker, thrice] at member
    rcases List.mem_cons.mp member with rfl | member
    · exact frag_unhandled
    rcases List.mem_cons.mp member with rfl | member
    · exact victim
    rcases List.mem_cons.mp member with rfl | member
    · exact attacker
    -- the messages behind start behind
    have bound := le_of_mem_turns messages third member
    rw [index_advance left] at bound
    omega

end

/-- A server of sixteen that has sent a frag and some messages. -/
def fragWorld (v a : Byte) (messages : List ClientMessage) : World where
  frontends := [{
    connected := true
    connection := some 0
    maxPlayers := 16
    message := ⟨encodeFrag v a ++ encodeAll messages, 0, (encodeFrag v a ++ encodeAll messages).length⟩
    players := List.replicate 16 {}
    trusted := true }]
  host := Host.counting

theorem fragFramed_first : FragFramed Platform.plain 0 (fragWorld 1 0 claireMessages) := by
  have left : (fragWorld 1 0 claireMessages).unread 0 = encodeFrag 1 0 ++ encodeAll claireMessages := rfl
  exact (fragFramed_iff left).mpr ⟨by decide, by decide⟩

/-- The frag of player 12 is answered as a ping. -/
theorem fragFramed_pong : ¬ ∀ (pf : Platform) (i : Nat) (w : World) (v a : Byte) (messages : List ClientMessage),
    w.unread i = encodeFrag v a ++ encodeAll messages → FragFramed pf i w := by
  intro promised
  have framed := promised Platform.plain 0 (fragWorld 12 0 []) 12 0 [] rfl
  have pinged : (parseMessage Platform.plain 0 (fragWorld 12 0 [])).toOption.map (fun w => (w.fe 0).pingCount) =
      some 1 := by decide +kernel
  have passed : (parseMessage Platform.plain 0 ((fragWorld 12 0 []).advance 0 3)).toOption.map
      (fun w => (w.fe 0).pingCount) = some 0 := by decide +kernel
  have fragged : (parseFrag Platform.plain 0 ((fragWorld 12 0 []).advance 0 1) >>=
      parseMessage Platform.plain 0).toOption.map (fun w => (w.fe 0).pingCount) = some 0 := by decide +kernel
  rcases framed.effect with same | same
  · rw [same, passed] at pinged
    exact absurd pinged (by decide)
  · rw [same, fragged] at pinged
    exact absurd pinged (by decide)

end Q2Admin
