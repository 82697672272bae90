import Q2Admin.Lib.Loops
import Q2Admin.Dispatch

/-! The loop of `ParseMessage` comes to an end, whatever the bytes. No handler gives back
what has been read, so every turn leaves at least one byte less of the packet. -/

namespace Q2Admin
open Go Lib

section
variable (pf : Platform) (i : Nat)

/-- The condition of the loop no longer holds: the index has reached the end of the data. -/
def World.Over (w : World) : Prop := (w.fe i).message.data.length ≤ (w.fe i).message.index

instance (w : World) : Decidable (w.Over i) := inferInstanceAs (Decidable (_ ≤ _))

theorem parseLoop_eq_boundedLoop (fuel : Nat) (w : World) :
    parseLoop pf i fuel w = boundedLoop (World.Over i) (parseOne pf i) .outOfFuel fuel w := by
  induction fuel generalizing w with
  | zero => rfl
  | succ fuel ih =>
    unfold parseLoop boundedLoop
    rw [funext ih]
    rfl

/-! ## What has been read stays read -/

/-- How far frontend `i` has come with its packet. -/
def World.ReadsOn (w w' : World) : Prop := (w.fe i).message.Advances (w'.fe i).message

namespace World.ReadsOn
variable {i} {w w' w'' : World}

theorem trans (first : w.ReadsOn i w') (second : w'.ReadsOn i w'') : w.ReadsOn i w'' where
  data := second.data.trans first.data
  length := second.length.trans first.length
  index := Nat.le_trans first.index second.index

theorem of_frames (same : w'.frames = w.frames) : w.ReadsOn i w' := by
  have message := World.field_of_frames same i (fun fe => fe.message) fun _ => rfl
  exact ⟨congrArg Buffer.data message, congrArg Buffer.length message, (congrArg Buffer.index message).ge⟩

end World.ReadsOn

variable {i} in
theorem Kept.readsOn {needs : Prop} {w : World} {x : Except Fault World} (kept : Kept i needs w x) :
    Yields x (w.ReadsOn i) fun _ => True :=
  kept.mono (fun _ keeps => .of_frames keeps.frames) fun _ _ => trivial

theorem setMessage_readsOn {w : World} {msg : Buffer} (advances : (w.fe i).message.Advances msg) :
    w.ReadsOn i (w.setMessage i msg) := by
  by_cases live : i < w.frontends.length
  · rw [World.ReadsOn, World.setMessage, World.fe_update_self w live]
    exact advances
  · rw [World.setMessage, World.update_outside w live]
    exact .of_frames rfl

theorem readByte_reads (w : World) :
    Yields (w.readByte pf.q2 i) (fun result => w.ReadsOn i result.2) fun _ => True := by
  unfold World.readByte
  split
  · trivial
  · next read => exact setMessage_readsOn i (pf.q2.readByte_advances _ _ _ read).1

theorem readString_reads (w : World) :
    Yields (w.readString pf.q2 i) (fun result => w.ReadsOn i result.2) fun _ => True := by
  unfold World.readString
  split
  · trivial
  · next read => exact setMessage_readsOn i (pf.q2.readString_advances _ _ _ read)

/-- The byte of the command is one byte less. -/
theorem readByte_shortens {w : World} (live : i < w.frontends.length) : Yields (w.readByte pf.q2 i)
    (fun result => w.ReadsOn i result.2 ∧ (w.fe i).message.index < (result.2.fe i).message.index)
    fun _ => True := by
  unfold World.readByte
  split
  · trivial
  next read =>
    obtain ⟨advances, further⟩ := pf.q2.readByte_advances _ _ _ read
    refine ⟨setMessage_readsOn i advances, ?_⟩
    rw [World.setMessage, World.fe_update_self w live]
    exact further

/-- No handler gives anything back. -/
theorem reads_handled : HandlersKeep pf i (World.ReadsOn i) where
  refl := fun _ => .of_frames rfl
  trans := World.ReadsOn.trans
  readByte := readByte_reads pf i
  readString := readString_reads pf i
  pong := fun w => (pong_kept pf i w).readsOn
  print := fun level text w => (onPrint_kept pf i level text w).readsOn
  map := fun mapname w => .of_frames (onMap_keeps i mapname w).frames
  player := fun client userinfo version w => (onPlayer_kept pf i client userinfo version w).mono
    (fun _ keeps => .of_frames keeps.frames) fun _ _ => trivial
  connect := fun slot w => .of_frames (startConnect_keeps i slot w).frames
  playerUpdate := fun client userinfo w => (onPlayerUpdate_kept pf i client userinfo w).readsOn
  disconnect := fun client w => .of_frames (onDisconnect_keeps i client w).frames
  teleport := fun client target w => .of_frames (onTeleport_keeps pf i client target w).frames
  invite := fun client w => (onInvite_kept pf i client w).readsOn

/-! ## The loop ends -/

theorem live_of_not_over {w : World} (going : ¬ w.Over i) : i < w.frontends.length := by
  by_contra outside
  rw [World.Over, World.fe_outside w outside] at going
  exact going (Nat.le_refl 0)

/-- Every turn leaves less to read. -/
theorem parseOne_shortens {w w' : World} (going : ¬ w.Over i) (turned : parseOne pf i w = .ok w') :
    (w'.unread i).length < (w.unread i).length := by
  have read : Yields (parseOne pf i w)
      (fun w' => w.ReadsOn i w' ∧ (w.fe i).message.index < (w'.fe i).message.index) fun _ => True := by
    apply Yields.bind (readByte_shortens pf i (live_of_not_over i going))
    intro cmd _ shorter
    apply ((reads_handled pf i).dispatch cmd.1 cmd.2).mono _ fun _ => id
    exact fun w' later => ⟨shorter.1.trans later, Nat.lt_of_lt_of_le shorter.2 later.index⟩
  obtain ⟨advances, further⟩ := read.of_ok turned
  unfold World.Over at going
  unfold World.unread Buffer.unread
  rw [List.length_drop, List.length_drop, advances.data]
  omega

/-- Whatever the bytes of a packet, its loop comes to an end: there is one outcome, that of
`parseMessage`, and it is reached in at most as many turns as there are bytes to read. -/
theorem packet_ends (w : World) : ∃ turns, turns ≤ (w.unread i).length ∧
    ∀ n x, Loops (World.Over i) (parseOne pf i) n w x ↔ n = turns ∧ x = parseMessage pf i w := by
  have positive : ∀ v : World, ¬ v.Over i → 0 < (v.unread i).length := by
    intro v going
    unfold World.Over at going
    unfold World.unread Buffer.unread
    rw [List.length_drop]
    omega
  have enough : (w.unread i).length < (w.fe i).message.data.length + 1 := by
    unfold World.unread Buffer.unread
    rw [List.length_drop]
    omega
  have shortens (v v' : World) (going : ¬ v.Over i) (turned : parseOne pf i v = .ok v') :
      (v'.unread i).length < (v.unread i).length := parseOne_shortens pf i going turned
  have returns : ∃ n, n ≤ (w.unread i).length ∧
      Loops (World.Over i) (parseOne pf i) n w (parseMessage pf i w) := by
    rw [parseMessage, parseLoop_eq_boundedLoop]
    exact loops_bounded shortens positive enough
  obtain ⟨turns, few, ends⟩ := returns
  refine ⟨turns, few, fun n x => ⟨fun other => other.unique ends, ?_⟩⟩
  rintro ⟨rfl, rfl⟩
  exact ends

end
end Q2Admin
