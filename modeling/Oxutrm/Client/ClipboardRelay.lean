import Oxutrm.Proto.Types
import Oxutrm.Ui.Entries

/-!
Writing a remote program's copy to the local terminal: a copy is written when the number
of the session's clipboard rises past the last one this client saw of that session.
-/
namespace Oxutrm.Client
open Proto
open Oxutrm.Ui (SessionId)

/-- Nothing stands for a session without an id. -/
structure ClipboardRelay where
  osc52 : Bool
  seen : Option SessionId → Option UInt32

/-- OSC 52, the target, the text in base 64 and a BEL. -/
def oscCopy (base64 : Bytes → Bytes) (copy : ClipboardCopy) : Bytes :=
  let target : UInt8 := match copy.target with
    | .clipboard => 0x63
    | .selection => 0x70
  [0x1b, 0x5d, 0x35, 0x32, 0x3b, target, 0x3b] ++ base64 copy.text.bytes ++ [0x07]

/-- What was written, for which copy of which session. -/
structure Written where
  session : Option SessionId
  serial : UInt32
  bytes : Bytes
  deriving DecidableEq

namespace ClipboardRelay

def new (osc52 : Bool) : ClipboardRelay := { osc52 := osc52, seen := fun _ => none }

/-- `seen.insert`. -/
def note (r : ClipboardRelay) (session : Option SessionId) (serial : UInt32) : ClipboardRelay :=
  { r with seen := Function.update r.seen session (some serial) }

/-- A lower number never moves the baseline down. -/
def onState (base64 : Bytes → Bytes) (r : ClipboardRelay) (session : Option SessionId)
    (c : Clipboard) (enabled : Bool) : ClipboardRelay × Option Bytes :=
  match r.seen session with
  | none => (r.note session c.serial, none)
  | some last =>
      if c.serial ≤ last then ((r.note session c.serial).note session last, none)
      else
        match c.copy with
        | none => (r.note session c.serial, none)
        | some copy =>
            if enabled && r.osc52 then (r.note session c.serial, some (oscCopy base64 copy))
            else (r.note session c.serial, none)

variable {base64 : Bytes → Bytes} {r : ClipboardRelay} {session : Option SessionId}
  {c : Clipboard} {enabled : Bool}

theorem note_seen (r : ClipboardRelay) (session : Option SessionId) (serial : UInt32) :
    (r.note session serial).seen session = some serial := Function.update_self ..

theorem note_other {other : Option SessionId} (differ : other ≠ session) (r : ClipboardRelay)
    (serial : UInt32) : (r.note session serial).seen other = r.seen other :=
  Function.update_of_ne differ ..

theorem onState_osc52 (r : ClipboardRelay) (session : Option SessionId) (c : Clipboard)
    (enabled : Bool) : (r.onState base64 session c enabled).1.osc52 = r.osc52 := by
  unfold onState
  split
  · rfl
  · split
    · rfl
    · split
      · rfl
      · split
        · rfl
        · rfl

theorem onState_other {other : Option SessionId} (differ : other ≠ session) (r : ClipboardRelay)
    (c : Clipboard) (enabled : Bool) :
    (r.onState base64 session c enabled).1.seen other = r.seen other := by
  unfold onState
  split
  · exact note_other differ r c.serial
  · split
    · rw [note_other differ, note_other differ]
    · split
      · exact note_other differ r c.serial
      · split
        · exact note_other differ r c.serial
        · exact note_other differ r c.serial

theorem onState_first (unseen : r.seen session = none) (c : Clipboard) (enabled : Bool) :
    r.onState base64 session c enabled = (r.note session c.serial, none) := by
  rw [onState, unseen]

theorem onState_low {last : UInt32} (seen : r.seen session = some last) (low : c.serial ≤ last)
    (enabled : Bool) :
    (r.onState base64 session c enabled).1.seen session = some last ∧
      (r.onState base64 session c enabled).2 = none := by
  simp only [onState, seen]
  rw [if_pos low]
  exact ⟨note_seen _ _ _, rfl⟩

theorem onState_high {last : UInt32} (seen : r.seen session = some last)
    (high : ¬ c.serial ≤ last) :
    (r.onState base64 session c enabled).1.seen session = some c.serial ∧
      (r.onState base64 session c enabled).2 =
        if enabled && r.osc52 then c.copy.map (oscCopy base64) else none := by
  simp only [onState, seen]
  rw [if_neg high]
  cases c.copy with
  | none =>
      dsimp only
      refine ⟨note_seen _ _ _, ?_⟩
      split
      · rfl
      · rfl
  | some copy =>
      dsimp only
      split
      · exact ⟨note_seen _ _ _, rfl⟩
      · exact ⟨note_seen _ _ _, rfl⟩

theorem onState_bytes {bytes : Bytes}
    (out : (r.onState base64 session c enabled).2 = some bytes) :
    c.copy.map (oscCopy base64) = some bytes := by
  cases seen : r.seen session with
  | none =>
      rw [onState_first seen] at out
      cases out
  | some last =>
      by_cases low : c.serial ≤ last
      · rw [(onState_low seen low enabled).2] at out
        cases out
      · rw [(onState_high seen low).2] at out
        split at out
        · exact out
        · cases out

end ClipboardRelay

/-- For every session the numbers of what was written rise, and none is past the
baseline. -/
structure Rising (r : ClipboardRelay) (written : List Written) : Prop where
  rising : written.Pairwise fun a b => a.session = b.session → a.serial < b.serial
  below : ∀ w ∈ written, ∃ last, r.seen w.session = some last ∧ w.serial ≤ last

namespace Rising
variable {r : ClipboardRelay} {written : List Written}

theorem start (osc52 : Bool) : Rising (ClipboardRelay.new osc52) [] where
  rising := List.Pairwise.nil
  below := fun _ member => absurd member List.not_mem_nil

/-- What a call writes, under the number it was called with. -/
def record (session : Option SessionId) (c : Clipboard) (out : Option Bytes) : List Written :=
  out.toList.map fun bytes => { session := session, serial := c.serial, bytes := bytes }

theorem onState (rising : Rising r written) (base64 : Bytes → Bytes)
    (session : Option SessionId) (c : Clipboard) (enabled : Bool) :
    Rising (r.onState base64 session c enabled).1
      (written ++ record session c (r.onState base64 session c enabled).2) := by
  -- the baseline of the session only rises
  have kept : ∀ w ∈ written, ∃ last,
      (r.onState base64 session c enabled).1.seen w.session = some last ∧ w.serial ≤ last := by
    intro w member
    obtain ⟨last, seen, le⟩ := rising.below w member
    by_cases same : w.session = session
    · rw [same] at seen ⊢
      by_cases low : c.serial ≤ last
      · exact ⟨last, (ClipboardRelay.onState_low seen low enabled).1, le⟩
      · refine ⟨c.serial, (ClipboardRelay.onState_high seen low).1, ?_⟩
        exact UInt32.le_trans le (UInt32.le_of_lt (UInt32.not_le.mp low))
    · exact ⟨last, (ClipboardRelay.onState_other same r c enabled).trans seen, le⟩
  cases out : (r.onState base64 session c enabled).2 with
  | none =>
      rw [record, Option.toList_none, List.map_nil, List.append_nil]
      exact ⟨rising.rising, kept⟩
  | some bytes =>
      have risen : ∃ last, r.seen session = some last ∧ ¬ c.serial ≤ last := by
        cases seen : r.seen session with
        | none =>
            rw [ClipboardRelay.onState_first seen] at out
            cases out
        | some last =>
            refine ⟨last, rfl, fun low => ?_⟩
            rw [(ClipboardRelay.onState_low seen low enabled).2] at out
            cases out
      obtain ⟨last, seen, high⟩ := risen
      refine ⟨List.pairwise_append.mpr ⟨rising.rising, List.pairwise_singleton _ _, ?_⟩, ?_⟩
      · intro w early v late same
        rw [List.mem_singleton.mp late] at same ⊢
        obtain ⟨first, known, le⟩ := rising.below w early
        change w.session = session at same
        rw [same, seen] at known
        rw [← Option.some.inj known] at le
        exact UInt32.lt_of_le_of_lt le (UInt32.not_le.mp high)
      · intro w member
        cases List.mem_append.mp member with
        | inl early => exact kept w early
        | inr late =>
            rw [List.mem_singleton.mp late]
            exact ⟨c.serial, (ClipboardRelay.onState_high seen high).1, UInt32.le_refl _⟩

theorem only (rising : Rising r written) {v : Written} (member : v ∈ written) :
    written.filter (fun u => u.session = v.session ∧ u.serial = v.serial) = [v] := by
  have among : v ∈ written.filter (fun u => u.session = v.session ∧ u.serial = v.serial) :=
    List.mem_filter.mpr ⟨member, by simp⟩
  have alike : ∀ u ∈ written.filter (fun u => u.session = v.session ∧ u.serial = v.serial),
      u.session = v.session ∧ u.serial = v.serial := fun u inside => by
    simpa using (List.mem_filter.mp inside).2
  have apart := rising.rising.sublist
    (List.filter_sublist (p := fun u => u.session = v.session ∧ u.serial = v.serial))
  generalize written.filter (fun u => u.session = v.session ∧ u.serial = v.serial) = same at among alike apart
  rcases same with _ | ⟨a, _ | ⟨b, rest⟩⟩
  · cases among
  · rw [List.mem_singleton.mp among]
  · have first := alike a List.mem_cons_self
    have second := alike b (List.mem_cons_of_mem a List.mem_cons_self)
    have below := (List.pairwise_cons.mp apart).1 b List.mem_cons_self
      (first.1.trans second.1.symm)
    rw [first.2, second.2] at below
    exact absurd below (UInt32.lt_irrefl _)

end Rising
end Oxutrm.Client
