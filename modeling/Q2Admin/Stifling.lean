import Q2Admin.Outgoing
import Q2Admin.Parse

/-! Who is muted again after a chat line. The line is cut at its first `": "`, which finds
the speaker as long as that is the one behind the name. -/

namespace Q2Admin
open Go

def nameEnd : Bytes := ascii ": "

/-- How the server prints what a player says, to everyone or to a team. -/
inductive ChatForm where
  | everyone
  | team
  deriving DecidableEq, Repr

def ChatForm.line : ChatForm → Bytes → Bytes → Bytes
  | everyone, name, text => name ++ (nameEnd ++ text)
  | team, name, text => ascii "(" ++ name ++ ascii ")" ++ (nameEnd ++ text)

/-! ## The cut -/

theorem nameEnd_bytes : nameEnd = [58, 32] := rfl

/-- A separator inside the first part is found before that part ends. -/
theorem textBefore_inside {separator name : Bytes} (nonempty : separator ≠ []) (rest : Bytes) (inside : contains name separator = true) :
    ∃ cut, textBefore separator (name ++ rest) = some cut ∧ cut.length < name.length := by
  induction name with
  | nil =>
    cases separator with
    | nil => exact absurd rfl nonempty
    | cons b separator => simp [contains] at inside
  | cons b name ih =>
    rw [List.cons_append, textBefore]
    by_cases here : separator.isPrefixOf (b :: (name ++ rest)) = true
    · exact ⟨[], if_pos here, by simp⟩
    · rw [if_neg here]
      rw [contains_cons, Bool.or_eq_true] at inside
      rcases inside with start | later
      · have reaches := List.isPrefixOf_iff_prefix.mp start
        exact absurd (List.isPrefixOf_iff_prefix.mpr (reaches.trans (List.prefix_append _ rest))) here
      · obtain ⟨cut, found, shorter⟩ := ih later
        exact ⟨b :: cut, by rw [found]; rfl, by simpa using shorter⟩

/-- Without one, the cut is behind the name. -/
theorem textBefore_nameEnd {name : Bytes} (clean : contains name nameEnd = false) (text : Bytes) :
    textBefore nameEnd (name ++ (nameEnd ++ text)) = some name := by
  induction name with
  | nil => rfl
  | cons b name ih =>
    rw [contains_cons, Bool.or_eq_false_iff] at clean
    obtain ⟨start, later⟩ := clean
    rw [List.cons_append, textBefore, ih later]
    have apart : ¬ nameEnd.isPrefixOf (b :: (name ++ (nameEnd ++ text))) = true := by
      -- the two bytes of the separator differ, so it cannot begin one byte early
      cases name with
      | nil => simp [nameEnd_bytes]
      | cons c name => simpa [nameEnd_bytes, List.isPrefixOf_cons_cons] using start
    rw [if_neg apart]
    rfl

/-- What is cut off is followed by the separator. -/
theorem textBefore_prefix {separator s cut : Bytes} (found : textBefore separator s = some cut) :
    cut ++ separator <+: s := by
  induction s generalizing cut with
  | nil =>
    rw [textBefore] at found
    split at found <;> simp_all
  | cons b s ih =>
    rw [textBefore] at found
    split at found
    next here =>
      cases found
      exact List.isPrefixOf_iff_prefix.mp here
    next =>
      obtain ⟨rest, later, rfl⟩ := Option.map_eq_some_iff.mp found
      exact (List.prefix_cons_inj b).mpr (ih later)

/-- In the team form what is cut off is never the name: the byte behind the name is a
parenthesis. -/
theorem textBefore_team (name text : Bytes) :
    textBefore nameEnd (ChatForm.team.line name text) ≠ some name := by
  intro found
  obtain ⟨rest, line⟩ := textBefore_prefix found
  have closing := congrArg (·[name.length + 1]?) line
  simp [ChatForm.line, nameEnd_bytes, ascii, charByte] at closing

theorem textBefore_everyone_iff (name text : Bytes) :
    textBefore nameEnd (ChatForm.everyone.line name text) = some name ↔
      contains name nameEnd = false := by
  constructor
  · intro found
    by_contra inside
    obtain ⟨cut, early, shorter⟩ :=
      textBefore_inside (by decide) (nameEnd ++ text) (Bool.not_eq_false _ ▸ inside)
    have same : cut = name := Option.some.inj (early.symm.trans found)
    rw [same] at shorter
    exact Nat.lt_irrefl _ shorter
  · exact fun clean => textBefore_nameEnd clean text

/-! ## The speaker -/

section
variable (pf : Platform) (i slot : Nat)

/-- The command of `MutePlayer` for the player's own number of seconds. -/
def muteAgain (p : Player) : ServerMessage :=
  .command (ascii "sv !mute CL " ++ decimal p.clientID ++ ascii " " ++
    (if 0 < p.stifleLength then decimal p.stifleLength else ascii "PERM") ++ ascii "\n")

/-- The stifled players of some slots. -/
def Frontend.stifledAt (fe : Frontend) (slots : List Nat) : List Player :=
  (slots.map fe.player).filter fun p => p.stifled

def muteAll (players : List Player) (fe : Frontend) : Frontend :=
  players.foldl (fun fe p => mutePlayer pf.q2 p p.stifleLength fe) fe

theorem says_muteAll (players : List Player) : Says (muteAll pf players) (players.map muteAgain) := by
  induction players with
  | nil => exact Says.nothing
  | cons p players ih => exact (Says.mutePlayer pf.q2 p p.stifleLength).comp ih

theorem stifledAt_update {f : Frontend → Frontend} (queues : Queues f) (slots : List Nat) (w : World) :
    ((w.update i f).fe i).stifledAt slots = (w.fe i).stifledAt slots := by
  refine w.fe_update_field i i (fun fe => fe.stifledAt slots) fun fe => ?_
  have same : (f fe).player = fe.player := by
    funext slot
    rw [Frontend.player, Frontend.player, queues.players fe]
  simp only [Frontend.stifledAt, same]

theorem restifle_all (slots : List Nat) (w : World) :
    slots.foldl (fun w slot => restifle pf i slot w) w =
      w.update i (muteAll pf ((w.fe i).stifledAt slots)) := by
  induction slots generalizing w with
  | nil => exact (congrArg (fun frontends => { w with frontends }) (List.modify_id ..)).symm
  | cons slot slots ih =>
    rw [List.foldl_cons, ih]
    by_cases stifled : ((w.fe i).player slot).stifled = true
    · have muted := Queues.mutePlayer pf.q2 ((w.fe i).player slot) ((w.fe i).player slot).stifleLength
      rw [restifle, if_pos stifled, stifledAt_update i muted, World.update_update]
      have first : (w.fe i).stifledAt (slot :: slots) =
          (w.fe i).player slot :: (w.fe i).stifledAt slots := List.filter_cons_of_pos stifled
      rw [first]
      rfl
    · rw [restifle, if_neg stifled]
      simp [Frontend.stifledAt, stifled]

/-- What a chat line is to do: every player of the speaker's name is found, and the
speaker is muted again if stifled. -/
structure SpeakerFound (line : Bytes) (w : World) : Prop where
  found : ∀ other < (w.fe i).players.length, ((w.fe i).player other).inUse = true →
    ((w.fe i).player other).name = ((w.fe i).player slot).name →
    other ∈ (w.fe i).getPlayerFromPrint line
  muted : ((w.fe i).player slot).stifled = true → ∃ f messages,
    onPrint pf i (byteOf printChat) (line ++ ascii "\n") w = .ok (w.update i f) ∧
    Says f messages ∧ muteAgain ((w.fe i).player slot) ∈ messages

variable {pf i slot} {w : World}

theorem onPrint_chat (line : Bytes) : onPrint pf i (byteOf printChat) (line ++ ascii "\n") w =
    .ok (w.update i (muteAll pf ((w.fe i).stifledAt ((w.fe i).getPlayerFromPrint line)))) := by
  have cut : (line ++ ascii "\n").dropLast = line := List.dropLast_concat
  have nonempty : line ++ ascii "\n" ≠ [] := List.concat_ne_nil _ _
  rw [onPrint, if_neg nonempty, cut, if_neg (by decide), if_neg (by decide), if_pos (by decide),
    restifle_all]

theorem mem_getPlayerFromPrint {line : Bytes} {other : Nat} (present : other < (w.fe i).players.length) :
    other ∈ (w.fe i).getPlayerFromPrint line ↔
      textBefore nameEnd line = some ((w.fe i).player other).name := by
  rw [Frontend.getPlayerFromPrint, show ascii ": " = nameEnd from rfl]
  cases textBefore nameEnd line with
  | none => simp
  | some name => simp [present, eq_comm]

/-- A line finds its speaker exactly when it is said to everyone by a player whose name
does not contain the separator. -/
theorem speakerFound_iff (present : slot < (w.fe i).players.length)
    (used : ((w.fe i).player slot).inUse = true) (form : ChatForm) (text : Bytes) :
    SpeakerFound pf i slot (form.line ((w.fe i).player slot).name text) w ↔
      form = .everyone ∧ contains ((w.fe i).player slot).name nameEnd = false := by
  constructor
  · intro promised
    have found := (mem_getPlayerFromPrint present).mp (promised.found slot present used rfl)
    cases form with
    | everyone => exact ⟨rfl, (textBefore_everyone_iff _ text).mp found⟩
    | team => exact absurd found (textBefore_team _ text)
  · rintro ⟨rfl, clean⟩
    have cut := textBefore_nameEnd clean text
    constructor
    · intro other inside _ same
      rw [mem_getPlayerFromPrint inside, same]
      exact cut
    · intro stifled
      refine ⟨_, _, onPrint_chat _, says_muteAll pf _, List.mem_map_of_mem ?_⟩
      rw [Frontend.stifledAt, List.mem_filter]
      exact ⟨List.mem_map_of_mem ((mem_getPlayerFromPrint present).mpr cut), stifled⟩

end

/-- A server with one stifled player of that name. -/
def stifledWorld (name : Bytes) : World where
  frontends := [{ maxPlayers := 2, players := [{ name := name, connectTime := 1, stifled := true }, {}] }]
  host := Host.counting

theorem speakerFound_iff_claire :
    SpeakerFound Platform.plain 0 0 (ChatForm.everyone.line (ascii "claire") (ascii "nice shot!"))
        (stifledWorld (ascii "claire")) ↔
      ChatForm.everyone = .everyone ∧ contains (ascii "claire") nameEnd = false :=
  have present : 0 < ((stifledWorld (ascii "claire")).fe 0).players.length := by decide
  speakerFound_iff present (by decide) .everyone (ascii "nice shot!")

/-- The second example of the source's own comment. -/
theorem speakerFound_best : ¬ ∀ (pf : Platform) (i slot : Nat) (w : World),
    slot < (w.fe i).players.length → ((w.fe i).player slot).inUse = true →
    ((w.fe i).player slot).name ≠ [] → ∀ (form : ChatForm) (text : Bytes),
    SpeakerFound pf i slot (form.line ((w.fe i).player slot).name text) w := by
  intro promised
  have found := (promised Platform.plain 0 0 (stifledWorld (ascii "best: me")) (by decide) (by decide)
    (by decide) .everyone (ascii "Nice Shot!!")).found 0 (by decide) (by decide) rfl
  revert found
  decide

end Q2Admin
