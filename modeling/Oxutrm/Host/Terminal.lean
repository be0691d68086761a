import Oxutrm.Host.Session
import Oxutrm.Host.Snapshot

/-!
The host's terminal: the pty and the emulator behind it, which are parameters, and the
counts a `HostTerm` keeps beside them. What a state needs of the terminal to be accepted
(a size within bounds, a lawful link table, a copy within its cap) is carried along.
-/
namespace Oxutrm.Host
open Proto Sync

variable {E κ : Type}

/-- What one drain of the pty brought. -/
structure Signals where
  /-- The lines that scrolled off, time after time. -/
  scrolled : List UInt64 := []
  title : Option Text := none
  bells : UInt32 := 0
  clipboard : List (ClipboardType × Text) := []
  /-- Something was read, or the emulator reports damage. -/
  damaged : Bool := false

/-- The pty and the emulator. -/
structure Pty (E κ : Type) where
  writeInput : E → Bytes → Except String E
  resize : E → TermSize → Except String E
  poll : E → Except String (E × Signals)
  emulator : E → Emulator κ
  childExited : E → E × Option Int
  toProtoColor : κ → Color

/-- The counts of a terminal. The source does not keep how many copies were taken, nor which
were dropped. -/
structure Tally where
  bell : UInt32 := 0
  scrollbackLen : UInt64 := 0
  clipboard : Clipboard := {}
  copies : Nat := 0
  dropped : List Clipboard := []

structure HostTerm (E : Type) extends Tally where
  pty : E
  size : TermSize
  title : Text := []
  links : LinkTable := .empty
  bounds : size.checkBounds = .ok ()
  capped : checkClipboard clipboard = .ok ()
  lawful : links.Sound

def saturatingAdd32 (n m : UInt32) : UInt32 :=
  if n.toNat + m.toNat < 2 ^ 32 then n + m else UInt32.ofNat (2 ^ 32 - 1)

def saturatingAdd64 (n m : UInt64) : UInt64 :=
  if n.toNat + m.toNat < 2 ^ 64 then n + m else UInt64.ofNat (2 ^ 64 - 1)

/-- How many of the copies are within the cap. -/
def taken (copies : List (ClipboardType × Text)) : Nat :=
  copies.countP fun copy => copy.2.len ≤ maxClipboard

namespace HostTerm

/-- The bound is checked before the pty is made. -/
def spawn (pty : E) (size : TermSize) : Option (HostTerm E) :=
  if bounds : size.checkBounds = .ok () then
    some { pty := pty, size := size, bounds := bounds, capped := rfl, lawful := LinkTable.sound_empty }
  else none

theorem capped_withoutText (c : Clipboard) : checkClipboard c.withoutText = .ok () := rfl

def countOnFrom (t : HostTerm E) (prior : ScreenState) : HostTerm E :=
  let t := { t with
    bell := max t.bell prior.bell
    scrollbackLen := max t.scrollbackLen prior.scrollbackLen }
  if prior.clipboard.serial > t.clipboard.serial then
    { t with
      clipboard := prior.clipboard.withoutText
      capped := capped_withoutText prior.clipboard }
  else t

/-- Drain whatever the pty has ready. -/
def poll (p : Pty E κ) (t : HostTerm E) : Except String (HostTerm E × Bool) :=
  match p.poll t.pty with
  | .error why => .error why
  | .ok (pty, signals) =>
      .ok
        ({ t with
            pty := pty
            scrollbackLen := signals.scrolled.foldl saturatingAdd64 t.scrollbackLen
            title := signals.title.getD t.title
            bell := saturatingAdd32 t.bell signals.bells
            clipboard := recordCopies t.clipboard signals.clipboard
            copies := t.copies + taken signals.clipboard
            capped := recordCopies_ok t.capped signals.clipboard },
          signals.damaged)

def metaOf (t : HostTerm E) (seq : UInt64) : StateMeta where
  seq := seq
  title := t.title
  bell := t.bell
  scrollbackLen := t.scrollbackLen
  clipboard := t.clipboard

/-- The client has acknowledged a state carrying that copy: drop its text, keep the
count. -/
def clipboardDelivered (t : HostTerm E) (serial : UInt32) : HostTerm E × Bool :=
  if t.clipboard.serial ≠ serial ∨ t.clipboard.copy = none then (t, false)
  else
    ({ t with
        clipboard := t.clipboard.withoutText
        dropped := t.dropped ++ [t.clipboard]
        capped := capped_withoutText t.clipboard }, true)

theorem screenStateOf_built (p : Pty E κ) (t : HostTerm E) (seq : UInt64) :
    ∃ cells links, links.Sound ∧
      screenStateOf p.toProtoColor (p.emulator t.pty) t.size (t.metaOf seq) (some t.links) =
        some (stateOf (p.emulator t.pty) t.size (t.metaOf seq) cells links.table, some links) := by
  obtain ⟨idOf, after, call, assigned⟩ :=
    LinkTable.assign_assigned t.lawful (foundLinks (p.emulator t.pty) (points t.size))
  refine ⟨layLinks ((points t.size).map (cellOf p.toProtoColor (p.emulator t.pty)))
    ((foundLinks (p.emulator t.pty) (points t.size)).map (LinkTable.answer idOf)), after,
    assigned.sound, ?_⟩
  simp only [screenStateOf, call, Option.bind_eq_bind, Option.bind_some]

/-- A state of the screen. The links on it are interned, so that the terminal moves. -/
def snapshot (p : Pty E κ) (t : HostTerm E) (seq : UInt64) : HostTerm E × ScreenState :=
  match built : screenStateOf p.toProtoColor (p.emulator t.pty) t.size (t.metaOf seq) (some t.links) with
  | some (s, some links) =>
      ({ t with
          links := links
          lawful := by
            obtain ⟨cells, after, lawful, same⟩ := screenStateOf_built p t seq
            rw [same] at built
            cases built
            exact lawful }, s)
  | some (s, none) => (t, s)
  | none => False.elim (by
      obtain ⟨cells, after, lawful, same⟩ := screenStateOf_built p t seq
      rw [same] at built
      cases built)

/-- What a session does with its terminal. A size is checked before the pty is told. -/
def ops (p : Pty E κ) : TermOps (HostTerm E) where
  writeInput t bytes := (p.writeInput t.pty bytes).map fun pty => { t with pty := pty }
  ptyResize t size :=
    if bounds : size.checkBounds = .ok () then
      (p.resize t.pty size).map fun pty => { t with pty := pty, size := size, bounds := bounds }
    else .error "out of bounds"
  poll := poll p
  snapshot := snapshot p
  clipboardDelivered := clipboardDelivered
  childExited t := ({ t with pty := (p.childExited t.pty).1 }, (p.childExited t.pty).2)

section Frames
variable {p : Pty E κ} {t t' : HostTerm E}

theorem writeInput_tally {bytes : Bytes} (wrote : (ops p).writeInput t bytes = .ok t') :
    t'.toTally = t.toTally := by
  simp only [ops] at wrote
  cases made : p.writeInput t.pty bytes with
  | error why =>
      rw [made] at wrote
      cases wrote
  | ok pty =>
      rw [made] at wrote
      cases wrote
      rfl

theorem ptyResize_tally {size : TermSize} (resized : (ops p).ptyResize t size = .ok t') :
    t'.toTally = t.toTally := by
  simp only [ops] at resized
  split at resized
  · cases made : p.resize t.pty size with
    | error why =>
        rw [made] at resized
        cases resized
    | ok pty =>
        rw [made] at resized
        cases resized
        rfl
  · cases resized

theorem snapshot_tally (p : Pty E κ) (t : HostTerm E) (seq : UInt64) :
    (t.snapshot p seq).1.toTally = t.toTally := by
  unfold snapshot
  split
  · rfl
  · rfl
  · rename_i here
    obtain ⟨cells, after, lawful, same⟩ := screenStateOf_built p t seq
    rw [same] at here
    cases here

end Frames

/-- A state of this terminal: one that is accepted, with the terminal's counts. -/
structure Pictures (t : Tally) (s : ScreenState) : Prop where
  valid : s.validate = .ok ()
  bell : s.bell = t.bell
  scrollbackLen : s.scrollbackLen = t.scrollbackLen
  clipboard : s.clipboard = t.clipboard

theorem snapshot_pictures (p : Pty E κ) (t : HostTerm E) {seq : UInt64} (numbered : seq ≠ 0) :
    Pictures t.toTally (t.snapshot p seq).2 := by
  obtain ⟨cells, links, lawful, same⟩ := screenStateOf_built p t seq
  obtain ⟨s, after, built, valid⟩ := @snapshot_valid _ p.toProtoColor (p.emulator t.pty) t.size
    (t.metaOf seq) t.links t.lawful t.bounds numbered t.capped
  unfold snapshot
  split
  · rename_i s' links' here
    rw [built] at here
    cases here
    rw [built] at same
    cases same
    exact ⟨valid, rfl, rfl, rfl⟩
  · rename_i s' here
    rw [built] at here
    cases here
  · rename_i here
    rw [built] at here
    cases here

end HostTerm

theorem le_saturatingAdd32 (n m : UInt32) : n ≤ saturatingAdd32 n m := by
  have below := n.toNat_lt
  rw [UInt32.le_iff_toNat_le, saturatingAdd32]
  split
  · rename_i room
    rw [UInt32.toNat_add]
    omega
  · rw [UInt32.toNat_ofNat_of_lt' (by decide)]
    omega

theorem le_saturatingAdd64 (n m : UInt64) : n ≤ saturatingAdd64 n m := by
  have below := n.toNat_lt
  rw [UInt64.le_iff_toNat_le, saturatingAdd64]
  split
  · rename_i room
    rw [UInt64.toNat_add]
    omega
  · rw [UInt64.toNat_ofNat_of_lt' (by decide)]
    omega

theorem le_scrolled (lines : List UInt64) (n : UInt64) : n ≤ lines.foldl saturatingAdd64 n := by
  induction lines generalizing n with
  | nil => exact UInt64.le_refl n
  | cons m lines ih => exact UInt64.le_trans (le_saturatingAdd64 n m) (ih _)

end Oxutrm.Host
