import Oxutrm.Lib.History
import Oxutrm.Ui.Popup

/-!
One read on the status view, byte by byte. Beside the loop stands a recorder: for each
byte it writes down whether the popup was shown when the byte came, and where it went.
-/
namespace Oxutrm.Ui
open Client

inductive Dest where
  | host
  | hold
  deriving DecidableEq, Repr

/-- A byte typed with the status view up or the popup closed. -/
structure Stroke where
  byte : UInt8
  now : Instant
  phase : Phase
  /-- The popup key at that time. -/
  key : Option UInt8
  shown : Bool
  went : Option Dest
  deriving DecidableEq, Repr

/-- The popup key, while the popup is not shown. -/
def Stroke.opens (s : Stroke) : Bool := !s.shown && some s.byte == s.key

/-- The bytes that went there, in order. -/
def sentTo (dest : Dest) (strokes : List Stroke) : List UInt8 :=
  (strokes.filter fun s => s.went == some dest).map Stroke.byte

/-- When the popup key last opened the popup. -/
def lastOpening (strokes : List Stroke) : Option Instant :=
  (strokes.filter Stroke.opens).getLast?.map Stroke.now

/-- Where a byte goes that is not the popup's: held in an outage, else to the host. -/
def Dest.of (phase : Phase) : Dest := if phase.isOutage then .hold else .host

namespace Popup

/-- One byte of a read on the status view, and whether the read is over. -/
def statusKey (phase : Phase) (now : Instant) (loneEsc : Bool) (u : Popup) (r : Routed)
    (b : UInt8) : (Popup × Routed) × Bool :=
  if u.visible phase then
    if b = esc ∧ loneEsc = false then ((u.touch, r), true)
    else
      (((u.shownKey b phase now r).1, (u.shownKey b phase now r).2.1),
        (u.shownKey b phase now r).2.2)
  else if some b = u.key then (({ u with mode := .opened (some now) }, r), false)
  else ((u, deliver b phase r), false)

/-- What of the read's routing is new. -/
def gained (r r' : Routed) : Option Dest :=
  if r.toHost.length < r'.toHost.length then some .host
  else if r.toHold.length < r'.toHold.length then some .hold
  else none

def stroke (phase : Phase) (now : Instant) (u : Popup) (b : UInt8) (went : Option Dest) : Stroke where
  byte := b
  now := now
  phase := phase
  key := u.key
  shown := u.visible phase
  went := went

/-- The recorder beside `statusKeys`. What follows the end of the read goes nowhere. -/
def strokes (phase : Phase) (now : Instant) (loneEsc : Bool) :
    Popup → Routed → List UInt8 → List Stroke
  | _, _, [] => []
  | u, r, b :: rest =>
      let next := u.statusKey phase now loneEsc r b
      u.stroke phase now b (gained r next.1.2) ::
        if next.2 then rest.map fun b => next.1.1.stroke phase now b none
        else strokes phase now loneEsc next.1.1 next.1.2 rest

/-- When the popup key opened the popup, if it is as that key left it. -/
def pressed (u : Popup) : Option Instant :=
  match u.mode with
  | .opened at_ => at_
  | .closed | .auto | .lingering _ _ | .config _ _ | .sessions => none

end Popup

/-- What a byte may do, given the bytes before it. -/
structure Stroke.Rightful (before : List Stroke) (s : Stroke) : Prop where
  /-- With the popup not shown every byte but the popup key is delivered. -/
  closed : s.shown = false → s.went = if some s.byte = s.key then none else some (Dest.of s.phase)
  /-- With the popup shown nothing is but the second press of the popup key. -/
  shown : s.shown = true → s.went ≠ none →
    s.went = some (Dest.of s.phase) ∧ some s.byte = s.key ∧
      ∃ first, lastOpening before = some first ∧ s.now < first + doublePress
  /-- The question about held input keeps every byte. -/
  confirming : s.phase = .confirming → s.went = none

theorem Stroke.Rightful.dest {before : List Stroke} {s : Stroke} (right : s.Rightful before)
    {dest : Dest} (went : s.went = some dest) : dest = Dest.of s.phase := by
  cases shown : s.shown with
  | true =>
      have there := (right.shown shown (by simp [went])).1
      rw [went] at there
      exact Option.some.inj there
  | false =>
      have there := right.closed shown
      rw [went] at there
      split at there
      · cases there
      · exact Option.some.inj there

theorem lastOpening_snoc (before : List Stroke) (s : Stroke) :
    lastOpening (before ++ [s]) = if s.opens then some s.now else lastOpening before := by
  rw [lastOpening, List.filter_append]
  cases opens : s.opens with
  | true => simp [opens]
  | false => simp [opens, lastOpening]

theorem lastOpening_append (before : List Stroke) {more : List Stroke}
    (none : ∀ s ∈ more, s.opens = false) : lastOpening (before ++ more) = lastOpening before := by
  have nothing : more.filter Stroke.opens = [] :=
    List.filter_eq_nil_iff.mpr fun s member => by simp [none s member]
  rw [lastOpening, List.filter_append, nothing, List.append_nil, lastOpening]

namespace Popup
variable {phase : Phase} {now : Instant} {loneEsc : Bool}

theorem statusKeys_cons (u : Popup) (r : Routed) (b : UInt8) (rest : List UInt8) :
    statusKeys phase now loneEsc u r (b :: rest) =
      if (u.statusKey phase now loneEsc r b).2 then (u.statusKey phase now loneEsc r b).1
      else
        statusKeys phase now loneEsc (u.statusKey phase now loneEsc r b).1.1
          (u.statusKey phase now loneEsc r b).1.2 rest := by
  rw [statusKeys, statusKey]
  by_cases visible : u.visible phase = true
  · rw [if_pos visible, if_pos visible]
    by_cases sequence : b = esc ∧ loneEsc = false
    · rw [if_pos sequence, if_pos sequence, if_pos rfl]
    · rw [if_neg sequence, if_neg sequence]
  · rw [if_neg visible, if_neg visible]
    by_cases key : some b = u.key
    · rw [if_pos key, if_pos key, if_neg Bool.false_ne_true]
    · rw [if_neg key, if_neg key, if_neg Bool.false_ne_true]

/-- When a key of the status view may stand for the command. -/
def MayAsk (u : Popup) (phase : Phase) (now : Instant) : Command → Prop
  | .quit => phase = .confirming → u.answerable now = true
  | .sendHeld | .dropHeld => phase = .confirming ∧ u.answerable now = true
  | .ask _ => True
  | .config _ => False

theorem statusCommand_mayAsk {u : Popup} {b : UInt8} {command : Command}
    (stands : u.statusCommand b phase now = some command) : u.MayAsk phase now command := by
  unfold statusCommand at stands
  split at stands
  · cases stands
  · rename_i guarded
    have late : phase = .confirming → u.answerable now = true := fun asked =>
      Bool.of_not_eq_false fun early => guarded ⟨asked, early⟩
    split at stands
    · cases stands
      exact late
    · split at stands
      · rename_i send
        cases stands
        exact ⟨send.2, late send.2⟩
      · split at stands
        · rename_i drop
          cases stands
          exact ⟨drop.2, late drop.2⟩
        · cases stands

/-- What a key of the status view leaves as it is, when it delivers nothing. -/
structure Stays (phase : Phase) (now : Instant) (u : Popup) (r : Routed)
    (next : (Popup × Routed) × Bool) : Prop where
  key : next.1.1.key = u.key
  asked : next.1.1.askedAt = u.askedAt
  pressed : next.1.1.pressed = none ∨ next.1.1.pressed = u.pressed
  toHost : next.1.2.toHost = r.toHost
  toHold : next.1.2.toHold = r.toHold
  /-- The rest of the read is the popup's. -/
  over_ : next.2 = true → next.1.1.visible phase = true
  command : next.1.2.command = r.command ∨
    ∃ command, next.1.2.command = some command ∧ u.MayAsk phase now command

theorem pressed_touch (u : Popup) : u.touch.pressed = none ∨ u.touch.pressed = u.pressed := by
  unfold touch
  split
  · exact Or.inl rfl
  · exact Or.inl rfl
  all_goals exact Or.inr rfl

theorem stays_touch (u : Popup) (r : Routed) (over_ : Bool) (visible : u.visible phase = true) :
    Stays phase now u r ((u.touch, r), over_) where
  key := by unfold touch; split <;> rfl
  asked := by unfold touch; split <;> rfl
  pressed := u.pressed_touch
  toHost := rfl
  toHold := rfl
  over_ _ := by
    unfold touch
    split
    · rfl
    · rfl
    all_goals exact visible
  command := Or.inl rfl

theorem pressed_of_isLiteral {u : Popup} {b : UInt8} (literal : u.isLiteral b now = true) :
    some b = u.key ∧ ∃ first, u.pressed = some first ∧ now < first + doublePress := by
  unfold isLiteral at literal
  split at literal
  · rename_i first mode
    simp only [Bool.and_eq_true, beq_iff_eq, decide_eq_true_eq] at literal
    refine ⟨literal.1, first, by rw [pressed, mode], ?_⟩
    exact Nat.lt_of_not_le fun late =>
      absurd literal.2 (Nat.not_lt.mpr (Nat.le_sub_of_add_le' late))
  all_goals cases literal

theorem statusKey_cases (u : Popup) (r : Routed) (b : UInt8) :
    (u.visible phase = false ∧ some b ≠ u.key ∧
        u.statusKey phase now loneEsc r b = ((u, deliver b phase r), false)) ∨
      (u.visible phase = false ∧ some b = u.key ∧
        u.statusKey phase now loneEsc r b = (({ u with mode := .opened (some now) }, r), false)) ∨
      (u.visible phase = true ∧ phase ≠ .confirming ∧ u.isLiteral b now = true ∧
        u.statusKey phase now loneEsc r b =
          (({ u with mode := .closed }.dismiss phase, deliver b phase r), false)) ∨
      (u.visible phase = true ∧ Stays phase now u r (u.statusKey phase now loneEsc r b)) := by
  rw [statusKey]
  by_cases visible : u.visible phase = true
  · rw [if_pos visible]
    refine Or.inr (Or.inr ?_)
    by_cases sequence : b = esc ∧ loneEsc = false
    · rw [if_pos sequence]
      exact Or.inr ⟨visible, stays_touch u r true visible⟩
    · rw [if_neg sequence, shownKey]
      cases stands : u.statusCommand b phase now with
      | some command =>
          exact Or.inr ⟨visible, rfl, rfl, Or.inr rfl, rfl, rfl, fun _ => visible,
            Or.inr ⟨command, rfl, statusCommand_mayAsk stands⟩⟩
      | none =>
          simp only
          split
          · split
            · exact Or.inr ⟨visible, by unfold openSessions leaveConfig; split <;> rfl,
                by unfold openSessions leaveConfig; split <;> rfl, Or.inl rfl, rfl, rfl,
                fun _ => rfl, Or.inr ⟨_, rfl, trivial⟩⟩
            · exact Or.inr ⟨visible, stays_touch u r false visible⟩
          · split
            · exact Or.inr ⟨visible, rfl, rfl, Or.inl rfl, rfl, rfl, fun _ => rfl, Or.inl rfl⟩
            · split
              · rename_i closes
                simp only [close]
                cases literal : u.isLiteral b now with
                | true => exact Or.inl ⟨visible, closes.2, rfl, by simp only [if_true]⟩
                | false =>
                    refine Or.inr ⟨visible, ?_, ?_, Or.inl ?_, rfl, rfl, nofun, Or.inl rfl⟩
                    all_goals unfold dismiss; split <;> rfl
              · exact Or.inr ⟨visible, stays_touch u r false visible⟩
  · rw [if_neg visible]
    rw [Bool.not_eq_true] at visible
    by_cases key : some b = u.key
    · exact Or.inr (Or.inl ⟨visible, key, by rw [if_pos key]⟩)
    · exact Or.inl ⟨visible, key, by rw [if_neg key]⟩

/-- What every key of the status view leaves as it is. -/
structure Kept (phase : Phase) (now : Instant) (u : Popup) (r : Routed) (next : Popup × Routed) :
    Prop where
  key : next.1.key = u.key
  asked : next.1.askedAt = u.askedAt
  command : next.2.command = r.command ∨
    ∃ command, next.2.command = some command ∧ u.MayAsk phase now command

theorem MayAsk.congr {u v : Popup} {command : Command} (may : v.MayAsk phase now command)
    (asked : v.askedAt = u.askedAt) : u.MayAsk phase now command := by
  have same : v.answerable now = u.answerable now := by rw [answerable, asked, answerable]
  cases command with
  | quit => exact fun confirming => same ▸ may confirming
  | sendHeld | dropHeld => exact ⟨may.1, same ▸ may.2⟩
  | ask _ => trivial
  | config _ => exact may

theorem Kept.trans {u : Popup} {r : Routed} {next last : Popup × Routed}
    (first : Kept phase now u r next) (second : Kept phase now next.1 next.2 last) :
    Kept phase now u r last where
  key := second.key.trans first.key
  asked := second.asked.trans first.asked
  command := by
    cases second.command with
    | inl same => rw [same]; exact first.command
    | inr new =>
        obtain ⟨command, asks, may⟩ := new
        exact Or.inr ⟨command, asks, may.congr first.asked⟩

theorem command_deliver (b : UInt8) (phase : Phase) (r : Routed) :
    (deliver b phase r).command = r.command := by
  unfold deliver
  split <;> rfl

theorem dismiss_frame (u : Popup) (phase : Phase) :
    (u.dismiss phase).key = u.key ∧ (u.dismiss phase).askedAt = u.askedAt ∧
      (u.dismiss phase).mode = u.mode := by
  unfold dismiss
  split <;> exact ⟨rfl, rfl, rfl⟩

theorem kept_statusKey (u : Popup) (r : Routed) (b : UInt8) :
    Kept phase now u r (u.statusKey phase now loneEsc r b).1 := by
  cases @statusKey_cases phase now loneEsc u r b with
  | inl typed =>
      rw [typed.2.2]
      exact ⟨rfl, rfl, Or.inl (command_deliver b phase r)⟩
  | inr rest =>
      cases rest with
      | inl opens =>
          rw [opens.2.2]
          exact ⟨rfl, rfl, Or.inl rfl⟩
      | inr rest =>
          cases rest with
          | inl literal =>
              rw [literal.2.2.2]
              exact ⟨(dismiss_frame _ phase).1, (dismiss_frame _ phase).2.1,
                Or.inl (command_deliver b phase r)⟩
          | inr stays => exact ⟨stays.2.key, stays.2.asked, stays.2.command⟩

theorem kept_statusKeys (u : Popup) (r : Routed) (bytes : List UInt8) :
    Kept phase now u r (statusKeys phase now loneEsc u r bytes) := by
  induction bytes generalizing u r with
  | nil => exact ⟨rfl, rfl, Or.inl rfl⟩
  | cons b rest ih =>
      have one := @kept_statusKey phase now loneEsc u r b
      rw [statusKeys_cons]
      split
      · exact one
      · exact one.trans (ih _ _)

/-- The bytes of the read that went there so far. -/
def routedTo (dest : Dest) (r : Routed) : List UInt8 :=
  match dest with
  | .host => r.toHost
  | .hold => r.toHold

theorem routedTo_deliver (dest : Dest) (b : UInt8) (phase : Phase) (r : Routed) :
    routedTo dest (deliver b phase r) = routedTo dest r ++ if dest = Dest.of phase then [b] else [] := by
  cases outage : phase.isOutage with
  | true => cases dest <;> simp [deliver, Dest.of, outage, routedTo]
  | false => cases dest <;> simp [deliver, Dest.of, outage, routedTo]

theorem gained_deliver (b : UInt8) (phase : Phase) (r : Routed) :
    gained r (deliver b phase r) = some (Dest.of phase) := by
  cases outage : phase.isOutage with
  | true => simp [deliver, Dest.of, outage, gained]
  | false => simp [deliver, Dest.of, outage, gained]

theorem gained_same {r r' : Routed} (toHost : r'.toHost = r.toHost) (toHold : r'.toHold = r.toHold) :
    gained r r' = none := by
  rw [gained, toHost, toHold, if_neg (Nat.lt_irrefl _), if_neg (Nat.lt_irrefl _)]

theorem routedTo_statusKey (dest : Dest) (u : Popup) (r : Routed) (b : UInt8) :
    routedTo dest (u.statusKey phase now loneEsc r b).1.2 =
      routedTo dest r ++
        if gained r (u.statusKey phase now loneEsc r b).1.2 = some dest then [b] else [] := by
  have delivered : routedTo dest (deliver b phase r) = routedTo dest r ++
      if gained r (deliver b phase r) = some dest then [b] else [] := by
    rw [routedTo_deliver, gained_deliver]
    simp only [Option.some.injEq, eq_comm]
  have same {r' : Routed} (toHost : r'.toHost = r.toHost) (toHold : r'.toHold = r.toHold) :
      routedTo dest r' = routedTo dest r ++ if gained r r' = some dest then [b] else [] := by
    rw [gained_same toHost toHold]
    cases dest with
    | host => simp [routedTo, toHost]
    | hold => simp [routedTo, toHold]
  cases @statusKey_cases phase now loneEsc u r b with
  | inl typed => rw [typed.2.2]; exact delivered
  | inr rest =>
      cases rest with
      | inl opens => rw [opens.2.2]; exact same rfl rfl
      | inr rest =>
          cases rest with
          | inl literal => rw [literal.2.2.2]; exact delivered
          | inr stays => exact same stays.2.toHost stays.2.toHold

theorem strokes_bytes (u : Popup) (r : Routed) (bytes : List UInt8) :
    (strokes phase now loneEsc u r bytes).map Stroke.byte = bytes := by
  induction bytes generalizing u r with
  | nil => rfl
  | cons b rest ih =>
      simp only [strokes, List.map_cons]
      split
      · rw [List.map_map]
        exact congrArg (b :: ·) (List.map_id' rest)
      · exact congrArg (b :: ·) (ih _ _)

theorem sentTo_stroke (dest : Dest) (u : Popup) (b : UInt8) (went : Option Dest)
    (rest : List Stroke) :
    sentTo dest (u.stroke phase now b went :: rest) =
      (if went = some dest then [b] else []) ++ sentTo dest rest := by
  by_cases there : went = some dest
  · simp [sentTo, stroke, there]
  · simp [sentTo, stroke, there]

theorem sentTo_strokes (dest : Dest) (u : Popup) (r : Routed) (bytes : List UInt8) :
    routedTo dest (statusKeys phase now loneEsc u r bytes).2 =
      routedTo dest r ++ sentTo dest (strokes phase now loneEsc u r bytes) := by
  induction bytes generalizing u r with
  | nil => simp [statusKeys, strokes, sentTo]
  | cons b rest ih =>
      have one := @routedTo_statusKey phase now loneEsc dest u r b
      rw [statusKeys_cons, strokes, sentTo_stroke, ← List.append_assoc, ← one]
      split
      · simp [sentTo, stroke]
      · exact ih _ _

/-- The popup remembers the press that opened it. -/
def Remembers (u : Popup) (before : List Stroke) : Prop :=
  ∀ first, u.pressed = some first → lastOpening before = some first

theorem Remembers.of_pressed {u v : Popup} {before : List Stroke} (opened : u.Remembers before)
    (same : v.pressed = none ∨ v.pressed = u.pressed) : v.Remembers before := by
  intro first pressed
  cases same with
  | inl none => rw [none] at pressed; cases pressed
  | inr same => exact opened first (same.symm.trans pressed)

theorem ne_confirming_of_not_visible {u : Popup} (hidden : u.visible phase = false) :
    phase ≠ .confirming := by
  intro confirming
  simp [visible, confirming] at hidden

section Record
variable {before : List Stroke} {u : Popup} (opened : u.Remembers before)

theorem rightful_nowhere (b : UInt8) (visible : u.visible phase = true) :
    (u.stroke phase now b none).Rightful before where
  closed hidden := absurd hidden (by simp [stroke, visible])
  shown _ went := absurd rfl went
  confirming _ := rfl

include opened

theorem rightful_statusKey (r : Routed) (b : UInt8) :
    (u.stroke phase now b (gained r (u.statusKey phase now loneEsc r b).1.2)).Rightful before := by
  cases @statusKey_cases phase now loneEsc u r b with
  | inl typed =>
      obtain ⟨hidden, other, next⟩ := typed
      rw [next, gained_deliver]
      refine ⟨fun _ => (if_neg other).symm, fun shown => ?_, fun confirming => ?_⟩
      · exact absurd shown (by simp [stroke, hidden])
      · exact absurd confirming (ne_confirming_of_not_visible hidden)
  | inr rest =>
      cases rest with
      | inl opens =>
          obtain ⟨hidden, key, next⟩ := opens
          rw [next, gained_same rfl rfl]
          exact ⟨fun _ => (if_pos key).symm, fun _ went => absurd rfl went, fun _ => rfl⟩
      | inr rest =>
          cases rest with
          | inl literal =>
              obtain ⟨visible, calm, literal, next⟩ := literal
              obtain ⟨key, first, pressed, soon⟩ := pressed_of_isLiteral literal
              rw [next, gained_deliver]
              exact ⟨fun hidden => absurd hidden (by simp [stroke, visible]),
                fun _ _ => ⟨rfl, key, first, opened first pressed, soon⟩,
                fun confirming => absurd confirming calm⟩
          | inr stays =>
              rw [gained_same stays.2.toHost stays.2.toHold]
              exact rightful_nowhere b stays.1

theorem remembers_statusKey (r : Routed) (b : UInt8) (went : Option Dest) :
    (u.statusKey phase now loneEsc r b).1.1.Remembers (before ++ [u.stroke phase now b went]) := by
  have later (closed : (u.stroke phase now b went).opens = false) :
      u.Remembers (before ++ [u.stroke phase now b went]) := by
    intro first pressed
    rw [lastOpening_snoc, if_neg (by simp [closed])]
    exact opened first pressed
  cases @statusKey_cases phase now loneEsc u r b with
  | inl typed =>
      obtain ⟨hidden, other, next⟩ := typed
      rw [next]
      exact later (by simp [Stroke.opens, stroke, other])
  | inr rest =>
      cases rest with
      | inl opens =>
          obtain ⟨hidden, key, next⟩ := opens
          rw [next]
          intro first pressed
          cases pressed
          rw [lastOpening_snoc, if_pos (by simp [Stroke.opens, stroke, hidden, key])]
          rfl
      | inr rest =>
          cases rest with
          | inl literal =>
              obtain ⟨visible, -, -, next⟩ := literal
              rw [next]
              refine (later (by simp [Stroke.opens, stroke, visible])).of_pressed (Or.inl ?_)
              rw [pressed, (dismiss_frame _ phase).2.2]
          | inr stays =>
              exact (later (by simp [Stroke.opens, stroke, stays.1])).of_pressed stays.2.pressed

end Record

theorem over_statusKey {u : Popup} {r : Routed} {b : UInt8}
    (ended : (u.statusKey phase now loneEsc r b).2 = true) :
    (u.statusKey phase now loneEsc r b).1.1.visible phase = true := by
  cases @statusKey_cases phase now loneEsc u r b with
  | inl typed => rw [typed.2.2] at ended; cases ended
  | inr rest =>
      cases rest with
      | inl opens => rw [opens.2.2] at ended; cases ended
      | inr rest =>
          cases rest with
          | inl literal => rw [literal.2.2.2] at ended; cases ended
          | inr stays => exact stays.2.over_ ended

/-- Every byte of a read on the status view goes where it belongs. -/
theorem rightful_strokes {before : List Stroke} {u : Popup} (opened : u.Remembers before)
    (r : Routed) (bytes : List UInt8) :
    History.Each (fun past s => s.Rightful (before ++ past)) (strokes phase now loneEsc u r bytes) ∧
      (statusKeys phase now loneEsc u r bytes).1.Remembers
        (before ++ strokes phase now loneEsc u r bytes) := by
  induction bytes generalizing u r before with
  | nil =>
      refine ⟨History.each_nil _, ?_⟩
      rw [strokes, List.append_nil]
      exact opened
  | cons b rest ih =>
      have first := @rightful_statusKey phase now loneEsc before u opened r b
      have next := @remembers_statusKey phase now loneEsc before u opened r b
        (gained r (u.statusKey phase now loneEsc r b).1.2)
      rw [statusKeys_cons, strokes, List.append_cons]
      by_cases ended : (u.statusKey phase now loneEsc r b).2 = true
      · -- the rest of the read is dropped, with the popup still shown
        have visible := over_statusKey ended
        rw [if_pos ended, if_pos ended]
        constructor
        · refine History.each_cons (by rw [List.append_nil]; exact first) ?_
          refine History.each_of_forall fun s dropped past => ?_
          obtain ⟨b', -, rfl⟩ := List.mem_map.mp dropped
          exact rightful_nowhere b' visible
        · intro at_ pressed
          rw [lastOpening_append]
          · exact next at_ pressed
          · intro s dropped
            obtain ⟨b', -, rfl⟩ := List.mem_map.mp dropped
            simp [Stroke.opens, stroke, visible]
      · rw [if_neg ended, if_neg ended]
        have later := ih next (u.statusKey phase now loneEsc r b).1.2
        constructor
        · refine History.each_cons (by rw [List.append_nil]; exact first) ?_
          refine later.1.mono fun past s right => ?_
          rw [List.append_cons]
          exact right
        · exact later.2

end Popup
end Oxutrm.Ui
