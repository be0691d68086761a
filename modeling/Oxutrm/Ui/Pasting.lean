import Oxutrm.Ui.Popup
import Oxutrm.Ui.Reading

/-!
A bracketed paste on the config screen and on the selector, however it is cut into
reads. What comes of it is said once, without the reads: the keys before it, its text
typed into the field that is open if there is one, and the keys after it.
-/
namespace Oxutrm.Ui
open Client

structure Read where
  bytes : List UInt8
  phase : Phase
  now : Instant
  deriving DecidableEq, Repr

/-- The pieces of a paste, each in a read of its own, with what comes before the first
of them and after the last. -/
def cut (before : List UInt8) : List Read → List UInt8 → List Read
  | [], _ => []
  | [p], after => [{ p with bytes := before ++ p.bytes ++ after }]
  | p :: q :: ps, after => { p with bytes := before ++ p.bytes } :: cut [] (q :: ps) after

namespace Popup

def readAll (u : Popup) : List Read → Popup × List Routed
  | [] => (u, [])
  | r :: rs =>
      (((u.keys r.bytes r.phase r.now).1.readAll rs).1,
        (u.keys r.bytes r.phase r.now).2 :: ((u.keys r.bytes r.phase r.now).1.readAll rs).2)

/-- The popup after the keys at the beginning of a read, unless they end it. -/
def keysBefore (u : Popup) (bytes : List UInt8) (phase : Phase) (now : Instant) : Option Popup :=
  match u.mode with
  | .config _ _ =>
      match (configReader phase).read false ({ u with askedAt := none, note := none }, {}) bytes with
      | ((v, _), false) => if v.mode.isConfig then some v else none
      | (_, true) => none
  | .sessions =>
      if u.closesSelector bytes then none
      else
        match (Selector.reader (u.ctx phase) now).read false ({ u.selector with note := none }, none)
            bytes with
        | ((selector, _), false) =>
            some { u with askedAt := none, pasting := none, selector := selector }
        | (_, true) => none
  | .closed | .opened _ | .auto | .lingering _ _ => none

/-- The text typed into the field that is open, or nowhere. -/
def pasted (u : Popup) (text : List UInt8) : Popup :=
  match u.mode with
  | .config _ _ => if u.fieldOpen then { u with field := u.field.typeBytes text } else u
  | .sessions =>
      { u with
        selector :=
          { u.selector with
            rename := u.selector.rename.map fun (id, field) => (id, field.typeBytes text) } }
  | .closed | .opened _ | .auto | .lingering _ _ => u

def keysAfter (u : Popup) (bytes : List UInt8) (phase : Phase) (now : Instant) : Popup × Routed :=
  match u.mode with
  | .config _ _ => ((configReader phase).read false (u, {}) bytes).1
  | .sessions =>
      let s := ((Selector.reader (u.ctx phase) now).read false (u.selector, none) bytes).1
      { u with selector := s.1 }.went s.2
  | .closed | .opened _ | .auto | .lingering _ _ => (u, {})

def NoPaste (u : Popup) : Prop :=
  match u.mode with
  | .config _ _ => u.pasting = none
  | .sessions => u.selector.pasting = none
  | .closed | .opened _ | .auto | .lingering _ _ => True

/-- Nothing that the end of a read changes: on the config screen a lone ESC after the
paste is the Esc key, and on the selector a note lasts until the next read. -/
def Calm (u : Popup) (after : List UInt8) : Prop :=
  match u.mode with
  | .config _ _ => after ≠ [esc]
  | .sessions => u.selector.note = none
  | .closed | .opened _ | .auto | .lingering _ _ => True

theorem lawful_config (phase : Phase) : (configReader phase).Lawful where
  pasting_set _ _ := rfl
  set_set _ _ _ := rfl
  set_pasting _ := rfl
  pasted_set s p b := by
    have same : fieldOpen { s.1 with pasting := p } = s.1.fieldOpen := rfl
    simp only [configReader, pasteByte, same]
    split <;> rfl
  pasting_pasted s b := by
    simp only [configReader, pasteByte]
    split <;> rfl

theorem lawful_selector (ctx : Ctx) (now : Instant) : (Selector.reader ctx now).Lawful where
  pasting_set _ _ := rfl
  set_set _ _ _ := rfl
  set_pasting _ := rfl
  pasted_set _ _ _ := rfl
  pasting_pasted _ _ := rfl

/-- A screen that a paste goes on through, read by read. -/
structure Drives {σ : Type} (r : Reader σ) (good : σ → Prop) (shown : σ → Popup)
    (finish : σ → List UInt8 → Phase → Instant → Popup × Routed) (calm : List UInt8 → Prop) :
    Prop where
  lawful : r.Lawful
  pasted : ∀ s b, good s → good (r.pasted s b)
  part : ∀ {s t m n bytes phase} (now : Instant), good s → phase ≠ .confirming →
    r.paste (r.setPasting s (some m)) bytes = (r.setPasting t (some n), []) → good t →
      (shown (r.setPasting s (some m))).keys bytes phase now = (shown (r.setPasting t (some n)), {})
  last : ∀ {s t m bytes after phase} (now : Instant), good s → phase ≠ .confirming →
    r.paste (r.setPasting s (some m)) bytes = (r.setPasting t none, after) → good t → calm after →
      (shown (r.setPasting s (some m))).keys bytes phase now =
        finish (r.setPasting t none) after phase now

theorem cut_cons (p q : Read) (ps : List Read) (before after : List UInt8) :
    cut before (p :: q :: ps) after =
      { p with bytes := before ++ p.bytes } :: cut [] (q :: ps) after := rfl

theorem Drives.run {σ : Type} {r : Reader σ} {good : σ → Prop} {shown : σ → Popup}
    {finish : σ → List UInt8 → Phase → Instant → Popup × Routed} {calm : List UInt8 → Prop}
    (drives : Drives r good shown finish calm) {m : Matched} {s final : σ} (start : good s)
    (ended : good final) {p : Read} {ps : List Read}
    (owes : Owes r.pasted m s ((p :: ps).flatMap (·.bytes)) final)
    (whole : ∀ q ∈ ps, q.bytes ≠ []) (quiet : ∀ q ∈ p :: ps, q.phase ≠ .confirming)
    (after : List UInt8) (settled : calm after) :
    (shown (r.setPasting s (some m))).readAll (cut [] (p :: ps) after) =
      ((finish (r.setPasting final none) after (ps.getLastD p).phase (ps.getLastD p).now).1,
        List.replicate ps.length ({} : Routed) ++
          [(finish (r.setPasting final none) after (ps.getLastD p).phase
            (ps.getLastD p).now).2]) := by
  induction ps generalizing m s p with
  | nil =>
      have pasted := drives.lawful.paste_end owes after
      simp only [List.flatMap_cons, List.flatMap_nil, List.append_nil] at pasted
      have read := drives.last p.now start (quiet p List.mem_cons_self) pasted ended settled
      simp only [cut, readAll, List.nil_append, read, List.getLastD_nil, List.length_nil,
        List.replicate_zero]
  | cons q qs ih =>
      rw [List.flatMap_cons] at owes
      have more : (q :: qs).flatMap (·.bytes) ≠ [] := by
        rw [List.flatMap_cons]
        exact List.append_ne_nil_of_left_ne_nil (whole q List.mem_cons_self) _
      obtain ⟨n, t, pasted, kept, owes⟩ :=
        drives.lawful.paste_part drives.pasted start owes more
      have read := drives.part p.now start (quiet p List.mem_cons_self) pasted kept
      have rest := ih kept owes (fun x member => whole x (List.mem_cons_of_mem _ member))
        (fun x member => quiet x (List.mem_cons_of_mem _ member))
      rw [cut_cons, readAll]
      simp only [List.nil_append, read, rest, List.getLastD_cons, List.length_cons,
        List.replicate_succ, List.cons_append]

theorem noteQuestion_of_ne {u : Popup} {phase : Phase} (quiet : phase ≠ .confirming)
    (now : Instant) : u.noteQuestion phase now = { u with askedAt := none } := by
  rw [noteQuestion, if_neg quiet]

theorem giveWay_of_ne {phase : Phase} (quiet : phase ≠ .confirming) (u : Popup) :
    u.giveWay phase = u := if_neg quiet

theorem keys_config {u : Popup} (up : u.mode.isConfig = true) {phase : Phase}
    (quiet : phase ≠ .confirming) (bytes : List UInt8) (now : Instant) :
    u.keys bytes phase now =
      ((configReader phase).resume ({ u with askedAt := none }, {}) bytes).1.1.configKeys
        ((configReader phase).resume ({ u with askedAt := none }, {}) bytes).2 phase := by
  rw [keys, noteQuestion_of_ne quiet, giveWay_of_ne quiet]
  cases mode : u.mode with
  | config cursor editing => rfl
  | closed | opened _ | auto | lingering _ _ | sessions =>
      rw [mode] at up
      cases up

theorem keys_sessions {u : Popup} (up : u.mode = .sessions) {phase : Phase}
    (quiet : phase ≠ .confirming) (bytes : List UInt8) (now : Instant) :
    u.keys bytes phase now =
      { u with askedAt := none, pasting := none }.sessionsKeys bytes phase now := by
  simp only [keys, noteQuestion_of_ne quiet, giveWay_of_ne quiet, up]

/-- The config screen between two reads. -/
structure OnConfig (s : Popup × Routed) : Prop where
  up : s.1.mode.isConfig = true
  routed : s.2 = {}
  note : s.1.note = none
  asked : s.1.askedAt = none

theorem OnConfig.pasted {s : Popup × Routed} (on : OnConfig s) (b : UInt8) :
    OnConfig (s.1.pasteByte b, s.2) := by
  unfold pasteByte
  split
  · exact ⟨on.up, on.routed, on.note, on.asked⟩
  · exact on

def finishConfig (s : Popup × Routed) (after : List UInt8) (phase : Phase) (_ : Instant) :
    Popup × Routed := ((configReader phase).read false s after).1

theorem OnConfig.keys {s : Popup × Routed} (on : OnConfig s) (m : Matched) {phase : Phase}
    (quiet : phase ≠ .confirming) (bytes : List UInt8) (now : Instant) :
    Popup.keys { s.1 with pasting := some m } bytes phase now =
      ((configReader phase).paste ({ s.1 with pasting := some m }, s.2) bytes).1.1.configKeys
        ((configReader phase).paste ({ s.1 with pasting := some m }, s.2) bytes).2 phase := by
  have same : ({ s.1 with pasting := some m, askedAt := none } : Popup) =
      { s.1 with pasting := some m } := by rw [← on.asked]
  rw [keys_config (u := { s.1 with pasting := some m }) on.up quiet, same, on.routed]
  rfl

theorem OnConfig.configKeys {s : Popup × Routed} (on : OnConfig s) {after : List UInt8}
    (settled : after ≠ [esc]) (phase : Phase) :
    s.1.configKeys after phase = ((configReader phase).read false s after).1 := by
  have several : (after == [esc]) = false := beq_false_of_ne settled
  have same : (({ s.1 with note := none }, {}) : Popup × Routed) = s := by
    rw [← on.note, ← on.routed]
  rw [Popup.configKeys, several, same]

theorem drives_config (phase : Phase) :
    Drives (configReader phase) OnConfig (·.1) finishConfig (· ≠ [esc]) where
  lawful := lawful_config phase
  pasted _ b on := on.pasted b
  part {s t m n bytes phase} now on quiet goes kept := by
    have pasted : (configReader phase).paste ({ s.1 with pasting := some m }, s.2) bytes =
        (({ t.1 with pasting := some n }, t.2), []) := goes
    have still : OnConfig ({ t.1 with pasting := some n }, t.2) :=
      ⟨kept.up, kept.routed, kept.note, kept.asked⟩
    have read := on.keys m quiet bytes now
    rw [pasted] at read
    refine read.trans ?_
    rw [still.configKeys (by simp) phase, still.routed]
    rfl
  last {s t m bytes after phase} now on quiet goes kept settled := by
    have pasted : (configReader phase).paste ({ s.1 with pasting := some m }, s.2) bytes =
        (({ t.1 with pasting := none }, t.2), after) := goes
    have still : OnConfig ({ t.1 with pasting := none }, t.2) :=
      ⟨kept.up, kept.routed, kept.note, kept.asked⟩
    have read := on.keys m quiet bytes now
    rw [pasted] at read
    exact read.trans (still.configKeys settled phase)

section Selector
variable {u : Popup}

def finishSessions (u : Popup) (s : Selector × Option Out) (after : List UInt8) (phase : Phase)
    (now : Instant) : Popup × Routed :=
  { u with
    selector := ((Selector.reader (u.ctx phase) now).read false s after).1.1 }.went
      ((Selector.reader (u.ctx phase) now).read false s after).1.2

/-- The selector between two reads. -/
def OnSelector (s : Selector × Option Out) : Prop := s.2 = none ∧ s.1.note = none

theorem keys_pasting (up : u.mode = .sessions) (asked : u.askedAt = none) (free : u.pasting = none)
    {s : Selector × Option Out} (on : OnSelector s) (m : Matched) {phase : Phase}
    (quiet : phase ≠ .confirming) (bytes : List UInt8) (now : Instant) :
    Popup.keys { u with selector := { s.1 with pasting := some m } } bytes phase now =
      let reader := Selector.reader (u.ctx phase) now
      let pasted := reader.paste ({ s.1 with pasting := some m }, s.2) bytes
      let read := (reader.read (bytes == [esc]) pasted.1 pasted.2).1
      { u with selector := read.1 }.went read.2 := by
  have same : ({ s.1 with pasting := some m, note := none }, (none : Option Out)) =
      (({ s.1 with pasting := some m }, s.2) : Selector × Option Out) := by rw [← on.2, ← on.1]
  have stays (v : Popup) (open_ : v.selector.pasting = some m) : ¬ v.closesSelector bytes :=
    fun closes => absurd (open_.symm.trans closes.2.2.2) (by simp)
  rw [keys_sessions (u := { u with selector := { s.1 with pasting := some m } }) up quiet,
    sessionsKeys, if_neg (stays _ rfl)]
  simp only [Selector.keys, same]
  rw [← asked, ← free]
  rfl

theorem pasteThrough_esc {φ : Type} (sink : φ → UInt8 → φ) (m : Matched) (s : φ) :
    (pasteThrough sink (some m) s [esc]).1 ≠ none :=
  match m with
  | 0 | 1 | 2 | 3 | 4 | 5 => by simp [pasteThrough, pasteEnd, esc]

theorem drives_selector (up : u.mode = .sessions) (asked : u.askedAt = none)
    (free : u.pasting = none) (ctx : Ctx) (first : Instant) :
    Drives (Selector.reader ctx first) OnSelector (fun s => { u with selector := s.1 })
      (finishSessions u) fun _ => True where
  lawful := lawful_selector ctx first
  pasted _ _ on := on
  part {s t m n bytes phase} now on quiet goes kept := by
    have read := keys_pasting up asked free on m quiet bytes now
    have pasted : (Selector.reader (u.ctx phase) now).paste ({ s.1 with pasting := some m }, s.2)
        bytes = (({ t.1 with pasting := some n }, t.2), []) := goes
    simp only [pasted, Reader.read_nil, kept.1] at read
    exact read
  last {s t m bytes after phase} now on quiet goes kept _ := by
    have read := keys_pasting up asked free on m quiet bytes now
    have pasted : (Selector.reader (u.ctx phase) now).paste ({ s.1 with pasting := some m }, s.2)
        bytes = (({ t.1 with pasting := none }, t.2), after) := goes
    have several : (bytes == [esc]) = false := by
      apply beq_false_of_ne
      intro lone
      subst lone
      exact pasteThrough_esc _ m _ (congrArg (·.1.1.pasting) pasted)
    simp only [pasted, several] at read
    exact read

end Selector

/-- What no key on the config screen changes that leaves the read going. -/
structure Quiet (s : Popup × Routed) : Prop where
  routed : s.2 = {}
  note : s.1.note = none
  asked : s.1.askedAt = none
  free : s.1.pasting = none

theorem ConfigStep.quiet {u : Popup} {r : Routed} {phase : Phase} {next : (Popup × Routed) × Bool}
    (step : ConfigStep u phase r next) (quiet : Quiet (u, r)) (going : next.2 = false) :
    Quiet next.1 := by
  cases step with
  | stays mode field up => exact ⟨quiet.routed, quiet.note, quiet.asked, quiet.free⟩
  | leaves =>
      unfold leaveConfig
      split
      · exact ⟨quiet.routed, rfl, quiet.asked, rfl⟩
      · exact quiet
  | asks | accepts | closes | elsewhere => cases going

section Config
variable {u v : Popup} {keys text after : List UInt8} {first : Read} {later : List Read}

theorem keysBefore_eq (up : u.mode.isConfig = true) (phase : Phase) (now : Instant) :
    u.keysBefore keys phase now =
      match (configReader phase).read false ({ u with askedAt := none, note := none }, {}) keys with
      | ((v, _), false) => if v.mode.isConfig then some v else none
      | (_, true) => none := by
  unfold keysBefore
  cases mode : u.mode with
  | config cursor editing => rfl
  | closed | opened _ | auto | lingering _ _ | sessions =>
      rw [mode] at up
      cases up

/-- The keys before a paste leave the config screen as a read finds it. -/
theorem keysBefore_config (up : u.mode.isConfig = true) (free : u.pasting = none)
    (whole : Keys keys) {phase : Phase} {now : Instant}
    (arrived : u.keysBefore keys phase now = some v) :
    (configReader phase).read false ({ u with askedAt := none, note := none }, {}) keys =
      ((v, {}), false) ∧ OnConfig (v, {}) ∧ v.pasting = none := by
  have kept (going : ((configReader phase).read false
        ({ u with askedAt := none, note := none }, {}) keys).2 = false) :
      Quiet ((configReader phase).read false ({ u with askedAt := none, note := none }, {}) keys).1 :=
    Reader.read_keeps (fun s k quiet going => (configStep_configKey k s.1 s.2).quiet quiet going) whole
      ⟨rfl, rfl, rfl, free⟩ going
  rw [keysBefore_eq up] at arrived
  rcases read : (configReader phase).read false ({ u with askedAt := none, note := none }, {}) keys
    with ⟨⟨w, r⟩, ended⟩
  rw [read] at arrived kept
  cases ended with
  | true => cases arrived
  | false =>
      have quiet : Quiet (w, r) := kept rfl
      cases still : w.mode.isConfig with
      | false => simp [still] at arrived
      | true =>
          simp only [still, if_true] at arrived
          cases arrived
          cases quiet.routed
          exact ⟨rfl, ⟨still, rfl, quiet.note, quiet.asked⟩, quiet.free⟩

theorem pasted_eq (up : u.mode.isConfig = true) (text : List UInt8) :
    u.pasted text = if u.fieldOpen then { u with field := u.field.typeBytes text } else u := by
  unfold pasted
  cases mode : u.mode with
  | config cursor editing => rfl
  | closed | opened _ | auto | lingering _ _ | sessions =>
      rw [mode] at up
      cases up

theorem typed_config (up : u.mode.isConfig = true) (phase : Phase) (text : List UInt8) :
    (configReader phase).typed (u, {}) text = (u.pasted text, {}) := by
  have all : ∀ v : Popup, (configReader phase).typed (v, {}) text =
      (if v.fieldOpen then { v with field := v.field.typeBytes text } else v, {}) := by
    induction text with
    | nil =>
        intro v
        cases v.fieldOpen <;> rfl
    | cons b text ih =>
        intro v
        have rest := ih (v.pasteByte b)
        cases open_ : v.fieldOpen with
        | false =>
            have same : v.pasteByte b = v := by rw [pasteByte, open_]; rfl
            rw [same, open_] at rest
            exact (congrArg (fun w => (configReader phase).typed (w, {}) text) same).trans rest
        | true =>
            have typed : v.pasteByte b = { v with field := v.field.typeByte b } := by
              rw [pasteByte, open_]; rfl
            have still : (v.pasteByte b).fieldOpen = true := by rw [typed]; exact open_
            rw [still, typed] at rest
            exact (congrArg (fun w => (configReader phase).typed (w, {}) text) typed).trans rest
  rw [all u, pasted_eq up]

theorem keysAfter_config (up : u.mode.isConfig = true) (after : List UInt8) (phase : Phase)
    (now : Instant) :
    u.keysAfter after phase now = ((configReader phase).read false (u, {}) after).1 := by
  unfold keysAfter
  cases mode : u.mode with
  | config cursor editing => rfl
  | closed | opened _ | auto | lingering _ _ | sessions =>
      rw [mode] at up
      cases up

theorem start_ne_esc (keys more : List UInt8) : keys ++ (pasteStart ++ more) ≠ [esc] := by
  intro same
  have long := congrArg List.length same
  simp only [pasteStart, pasteStartTail, List.length_append, List.length_cons] at long
  omega

/-- The first read of a paste, whatever of it that holds. -/
theorem keys_opening_config (up : u.mode.isConfig = true) (free : u.pasting = none) {phase : Phase}
    (calm : phase ≠ .confirming) (keys bytes : List UInt8) (now : Instant) :
    u.keys (keys ++ (pasteStart ++ bytes)) phase now =
      ((configReader phase).read false ({ u with askedAt := none, note := none }, {})
        (keys ++ (pasteStart ++ bytes))).1 := by
  rw [keys_config up calm]
  have resumed : (configReader phase).resume ({ u with askedAt := none }, {})
      (keys ++ (pasteStart ++ bytes)) =
      (({ u with askedAt := none }, {}), keys ++ (pasteStart ++ bytes)) := by
    rw [Reader.resume, if_neg]
    simp [configReader, free]
  rw [resumed, configKeys, beq_false_of_ne (start_ne_esc keys bytes)]

theorem paste_config (up : u.mode.isConfig = true) (free : u.pasting = none) (whole : Keys keys)
    (inner : ¬ pasteEnd <:+: text) (arrived : u.keysBefore keys first.phase first.now = some v)
    (pieces : (first :: later).flatMap (·.bytes) = text ++ pasteEnd)
    (more : ∀ q ∈ later, q.bytes ≠ []) (quiet : ∀ q ∈ first :: later, q.phase ≠ .confirming)
    (settled : later ≠ [] → after ≠ [esc]) :
    u.readAll (cut (keys ++ pasteStart) (first :: later) after) =
      (((v.pasted text).keysAfter after (later.getLastD first).phase (later.getLastD first).now).1,
        List.replicate later.length ({} : Routed) ++
          [((v.pasted text).keysAfter after (later.getLastD first).phase
            (later.getLastD first).now).2]) := by
  obtain ⟨read, on, closed⟩ := keysBefore_config up free whole arrived
  have lawful := lawful_config first.phase
  have opens := fun bytes =>
    keys_opening_config up free (quiet first List.mem_cons_self) keys bytes first.now
  cases later with
  | nil =>
      have bytes : first.bytes = text ++ pasteEnd := by simpa using pieces
      have ended := lawful.read_whole whole read on.up closed inner after
      rw [typed_config on.up] at ended
      have stays : (v.pasted text).mode.isConfig = true := by
        rw [pasted_eq on.up]
        split
        · exact on.up
        · exact on.up
      simp only [cut, readAll, bytes, List.append_assoc] at ended opens ⊢
      rw [opens, ended, List.getLastD_nil, keysAfter_config stays]
      rfl
  | cons q qs =>
      rw [List.flatMap_cons] at pieces
      have rest : (q :: qs).flatMap (·.bytes) ≠ [] := by
        rw [List.flatMap_cons]
        exact List.append_ne_nil_of_left_ne_nil (more q List.mem_cons_self) _
      obtain ⟨m, t, pasted, kept, owes⟩ := lawful.read_open (fun _ b on => on.pasted b) on whole read
        on.up inner pieces rest
      have typed := typed_config on.up first.phase text
      rw [typed] at owes
      have ended : OnConfig (v.pasted text, {}) := by
        rw [pasted_eq on.up]
        split
        · exact ⟨on.up, rfl, on.note, on.asked⟩
        · exact on
      have free' : (v.pasted text).pasting = none := by
        rw [pasted_eq on.up]
        split
        · exact closed
        · exact closed
      have run := (drives_config first.phase).run kept ended owes
        (fun x member => more x (List.mem_cons_of_mem _ member))
        (fun x member => quiet x (List.mem_cons_of_mem _ member)) after (settled (by simp))
      have same : (configReader first.phase).setPasting (v.pasted text, {}) none =
          (v.pasted text, {}) := by
        rw [← free']
        rfl
      rw [same] at run
      rw [cut_cons, readAll]
      simp only [List.append_assoc, opens, pasted, run, finishConfig, List.getLastD_cons,
        List.length_cons, List.replicate_succ, List.cons_append, keysAfter_config ended.up]
      rw [show ((configReader first.phase).setPasting t (some m)).2 = {} from kept.routed]

end Config

section Sessions
variable {u v : Popup} {keys text after : List UInt8} {first : Read} {later : List Read}

theorem act_pasting (s : Selector) (ctx : Ctx) (ask : Ask) :
    (s.act ctx ask).1.pasting = s.pasting := by
  unfold Selector.act
  split
  · rfl
  · split <;> rfl

theorem answer_pasting (s : Selector) (q : Question) (at_ : Instant) (k : Key) (ctx : Ctx)
    (now : Instant) : (s.answer q at_ k ctx now).1.pasting = s.pasting := by
  unfold Selector.answer
  split
  · rfl
  · split
    · exact act_pasting _ _ _
    · split <;> rfl

theorem renameKey_pasting (s : Selector) (i : SessionId) (f : Field) (k : Key) (ctx : Ctx) :
    (s.renameKey i f k ctx).1.pasting = s.pasting := by
  unfold Selector.renameKey
  split
  · rfl
  · split
    · split
      · rfl
      · rename_i name _
        rw [← act_pasting s ctx (.rename i name)]
        simp only
        split <;> rfl
    · split
      · rfl
      · split
        · split <;> rfl
        all_goals rfl

theorem enter_pasting (s : Selector) (ctx : Ctx) (now : Instant) :
    (s.enter ctx now).1.pasting = s.pasting := by
  unfold Selector.enter
  split
  · exact act_pasting _ _ _
  · split
    · rfl
    · split
      · rfl
      · split
        · rfl
        · rfl
        · rfl
        all_goals exact act_pasting _ _ _

theorem startRename_pasting (s : Selector) : s.startRename.pasting = s.pasting := by
  unfold Selector.startRename
  split
  · rfl
  · split <;> rfl

theorem askKill_pasting (s : Selector) (now : Instant) : (s.askKill now).pasting = s.pasting := by
  unfold Selector.askKill
  split
  · rfl
  · split <;> rfl

theorem listKey_pasting (s : Selector) (k : Key) (ctx : Ctx) (now : Instant) :
    (s.listKey k ctx now).1.pasting = s.pasting := by
  unfold Selector.listKey
  split
  · rfl
  · split
    · rfl
    · split
      · exact enter_pasting s ctx now
      · split
        · exact act_pasting _ _ _
        · split
          · exact startRename_pasting s
          · split
            · exact askKill_pasting s now
            · split <;> rfl

theorem key_pasting (s : Selector) (k : Key) (ctx : Ctx) (now : Instant) :
    (s.key k ctx now).1.pasting = s.pasting := by
  unfold Selector.key
  split
  · exact answer_pasting s _ _ k ctx now
  · split
    · exact renameKey_pasting s _ _ k ctx
    · exact listKey_pasting s k ctx now

/-- The keys before a paste leave the selector as a read finds it. -/
theorem keysBefore_sessions (up : u.mode = .sessions) (free : u.selector.pasting = none)
    (whole : Keys keys) {phase : Phase} {now : Instant}
    (arrived : u.keysBefore keys phase now = some v) :
    ¬ u.closesSelector keys ∧ ∃ s,
      (Selector.reader (u.ctx phase) now).read false ({ u.selector with note := none }, none) keys =
        ((s, none), false) ∧ s.pasting = none ∧
      v = { u with askedAt := none, pasting := none, selector := s } := by
  have kept (going : ((Selector.reader (u.ctx phase) now).read false
        ({ u.selector with note := none }, none) keys).2 = false) :
      ((Selector.reader (u.ctx phase) now).read false
        ({ u.selector with note := none }, none) keys).1.2 = none ∧
      ((Selector.reader (u.ctx phase) now).read false
        ({ u.selector with note := none }, none) keys).1.1.pasting = none := by
    refine Reader.read_keeps (r := Selector.reader (u.ctx phase) now)
      (s := ({ u.selector with note := none }, none))
      (fun s k quiet goes => ?_) whole (P := fun s => s.2 = none ∧ s.1.pasting = none)
      ⟨rfl, free⟩ going
    refine ⟨?_, (key_pasting s.1 k _ now).trans quiet.2⟩
    simpa [Selector.reader] using goes
  simp only [keysBefore, up] at arrived
  split at arrived
  · cases arrived
  · rename_i stays
    refine ⟨stays, ?_⟩
    rcases read : (Selector.reader (u.ctx phase) now).read false
      ({ u.selector with note := none }, none) keys with ⟨⟨s, out⟩, ended⟩
    rw [read] at arrived kept
    cases ended with
    | true => cases arrived
    | false =>
        cases arrived
        obtain ⟨none_, closed⟩ := kept rfl
        cases none_
        exact ⟨s, rfl, closed, by rw [up]⟩

theorem typed_sessions (ctx : Ctx) (now : Instant) (s : Selector) (text : List UInt8) :
    (Selector.reader ctx now).typed (s, none) text =
      ({ s with rename := s.rename.map fun (id, field) => (id, field.typeBytes text) }, none) := by
  induction text generalizing s with
  | nil =>
      have same : (s.rename.map fun (id, field) => (id, field.typeBytes [])) = s.rename := by
        cases s.rename <;> rfl
      rw [same]
      rfl
  | cons b text ih =>
      have rest := ih (s.pasteByte b)
      refine rest.trans ?_
      simp only [Selector.pasteByte, Option.map_map]
      rfl

theorem not_closes (safe : u.key ≠ some esc) (stays : ¬ u.closesSelector keys)
    (bytes : List UInt8) : ¬ u.closesSelector (keys ++ (pasteStart ++ bytes)) := by
  intro closes
  cases keys with
  | nil => exact safe closes.2.1.symm
  | cons b keys => exact stays closes

/-- The first read of a paste, whatever of it that holds. -/
theorem keys_opening_sessions (up : u.mode = .sessions) (free : u.selector.pasting = none)
    (safe : u.key ≠ some esc) {phase : Phase} (calm : phase ≠ .confirming)
    (stays : ¬ u.closesSelector keys) (bytes : List UInt8) (now : Instant) :
    u.keys (keys ++ (pasteStart ++ bytes)) phase now =
      finishSessions { u with askedAt := none, pasting := none }
        ({ u.selector with note := none }, none) (keys ++ (pasteStart ++ bytes)) phase now := by
  have resumed : (Selector.reader (u.ctx phase) now).resume
      ({ u.selector with note := none }, none) (keys ++ (pasteStart ++ bytes)) =
      (({ u.selector with note := none }, none), keys ++ (pasteStart ++ bytes)) := by
    rw [Reader.resume, if_neg]
    simp [Selector.reader, free]
  rw [keys_sessions up calm, sessionsKeys,
    if_neg (not_closes (u := { u with askedAt := none, pasting := none }) safe stays bytes)]
  simp only [Selector.keys]
  rw [show ctx { u with askedAt := none, pasting := none } phase = u.ctx phase from rfl,
    resumed, beq_false_of_ne (start_ne_esc keys bytes)]
  rfl

theorem paste_sessions (up : u.mode = .sessions) (free : u.selector.pasting = none)
    (safe : u.key ≠ some esc) (whole : Keys keys) (inner : ¬ pasteEnd <:+: text)
    (arrived : u.keysBefore keys first.phase first.now = some v)
    (pieces : (first :: later).flatMap (·.bytes) = text ++ pasteEnd)
    (more : ∀ q ∈ later, q.bytes ≠ []) (quiet : ∀ q ∈ first :: later, q.phase ≠ .confirming)
    (settled : later ≠ [] → v.selector.note = none) :
    u.readAll (cut (keys ++ pasteStart) (first :: later) after) =
      (((v.pasted text).keysAfter after (later.getLastD first).phase (later.getLastD first).now).1,
        List.replicate later.length ({} : Routed) ++
          [((v.pasted text).keysAfter after (later.getLastD first).phase
            (later.getLastD first).now).2]) := by
  obtain ⟨stays, s, read, closed, rfl⟩ := keysBefore_sessions up free whole arrived
  have lawful := lawful_selector (u.ctx first.phase) first.now
  have typed := typed_sessions (u.ctx first.phase) first.now s text
  have opens := fun bytes =>
    keys_opening_sessions up free safe (quiet first List.mem_cons_self) stays bytes first.now
  have after_ (phase : Phase) (now : Instant) :
      (pasted { u with askedAt := none, pasting := none, selector := s } text).keysAfter after phase
        now =
      finishSessions { u with askedAt := none, pasting := none }
        ((Selector.reader (u.ctx first.phase) first.now).typed (s, none) text) after phase now := by
    simp only [pasted, keysAfter, up, typed]
    rfl
  cases later with
  | nil =>
      have bytes : first.bytes = text ++ pasteEnd := by simpa using pieces
      have ended := lawful.read_whole whole read rfl closed inner after
      have finished : finishSessions { u with askedAt := none, pasting := none }
          ({ u.selector with note := none }, none)
          (keys ++ (pasteStart ++ (text ++ pasteEnd ++ after))) first.phase first.now =
          finishSessions { u with askedAt := none, pasting := none }
            ((Selector.reader (u.ctx first.phase) first.now).typed (s, none) text) after first.phase
            first.now :=
        congrArg
          (fun s : (Selector × Option Out) × Bool =>
            { u with askedAt := none, pasting := none, selector := s.1.1 }.went s.1.2) ended
      rw [← after_] at finished
      simp only [cut, readAll, bytes, List.append_assoc] at finished opens ⊢
      rw [opens, finished]
      rfl
  | cons q qs =>
      rw [List.flatMap_cons] at pieces
      have rest : (q :: qs).flatMap (·.bytes) ≠ [] := by
        rw [List.flatMap_cons]
        exact List.append_ne_nil_of_left_ne_nil (more q List.mem_cons_self) _
      have calm : OnSelector (s, none) := ⟨rfl, settled (by simp)⟩
      obtain ⟨m, t, pasted, kept, owes⟩ := lawful.read_open (fun _ _ on => on) calm whole read rfl
        inner pieces rest
      have ended : OnSelector
          ((Selector.reader (u.ctx first.phase) first.now).typed (s, none) text) := by
        rw [typed]
        exact calm
      have same : (Selector.reader (u.ctx first.phase) first.now).setPasting
          ((Selector.reader (u.ctx first.phase) first.now).typed (s, none) text) none =
          (Selector.reader (u.ctx first.phase) first.now).typed (s, none) text := by
        rw [typed, ← closed]
        rfl
      have drives := drives_selector (u := { u with askedAt := none, pasting := none }) up rfl rfl
        (u.ctx first.phase) first.now
      have run : readAll
          { u with
            askedAt := none
            pasting := none
            selector := { t.1 with pasting := some m } } (cut [] (q :: qs) after) = _ :=
        drives.run kept ended owes (fun x member => more x (List.mem_cons_of_mem _ member))
          (fun x member => quiet x (List.mem_cons_of_mem _ member)) after trivial
      rw [same, ← after_] at run
      have opened : finishSessions { u with askedAt := none, pasting := none }
          ({ u.selector with note := none }, none) (keys ++ (pasteStart ++ first.bytes)) first.phase
          first.now =
          ({ u with
              askedAt := none
              pasting := none
              selector := { t.1 with pasting := some m } }, {}) := by
        have moved := congrArg
          (fun s : (Selector × Option Out) × Bool =>
            { u with askedAt := none, pasting := none, selector := s.1.1 }.went s.1.2) pasted
        refine Eq.trans moved ?_
        simp only [Selector.reader, kept.1]
        rfl
      rw [cut_cons, readAll]
      simp only [List.append_assoc, opens, opened, run, List.getLastD_cons, List.length_cons,
        List.replicate_succ, List.cons_append]

end Sessions

/-- Nothing but a text that is typed differs, and no control character was typed. -/
structure OnlyTyped (v w : Popup) : Prop where
  same : w = { v with field := w.field, selector := { v.selector with rename := w.selector.rename } }
  field : Field.Adds v.field.text w.field.text
  rename : w.selector.rename.map (·.1) = v.selector.rename.map (·.1)
  name : ∀ f ∈ v.selector.rename, ∀ g ∈ w.selector.rename, Field.Adds f.2.text g.2.text

theorem onlyTyped_pasted (v : Popup) (text : List UInt8) : OnlyTyped v (v.pasted text) := by
  have same (w : Popup) : OnlyTyped w w := by
    refine ⟨rfl, Field.Adds.refl _, rfl, ?_⟩
    intro f some_ g also
    cases Option.mem_unique some_ also
    exact Field.Adds.refl _
  unfold pasted
  split
  · split
    · refine ⟨rfl, Field.adds_typeBytes _ _, rfl, (same v).name⟩
    · exact same v
  · refine ⟨rfl, Field.Adds.refl _, ?_, ?_⟩
    · simp only [Option.map_map]
      rfl
    · intro f some_ g also
      simp only [Option.mem_def, Option.map_eq_some_iff] at also some_
      obtain ⟨h, also, rfl⟩ := also
      rw [some_] at also
      cases also
      exact Field.adds_typeBytes _ _
  all_goals exact same v

theorem readAll_append (u : Popup) (xs ys : List Read) :
    u.readAll (xs ++ ys) =
      (((u.readAll xs).1.readAll ys).1, (u.readAll xs).2 ++ ((u.readAll xs).1.readAll ys).2) := by
  induction xs generalizing u with
  | nil => rfl
  | cons x xs ih => simp only [List.cons_append, readAll, ih]

/-- The popup key is never the one that pastes and arrows begin with. -/
theorem checkKey_ne_esc {fmt : Config.Formats} {b : UInt8} {key : Option UInt8}
    (accepted : Config.checkKey fmt b = .ok key) : key ≠ some esc := by
  intro same
  subst same
  unfold Config.checkKey at accepted
  split at accepted
  · cases accepted
  · split at accepted
    · cases accepted
    · split at accepted
      · cases accepted
      · split at accepted
        · cases accepted
        · split at accepted
          · cases accepted
          · rename_i other
            split at accepted
            · cases accepted
              exact other rfl
            · cases accepted

/-- A paste whose start arrives whole, where a key would begin, is its text and nothing
else, wherever it is cut: what comes of the reads does not depend on the pieces. -/
theorem paste_is_only_text {u : Popup} (before rest : List Read) {v : Popup}
    {keys text after : List UInt8} {first : Read} {later : List Read}
    (free : (u.readAll before).1.NoPaste) (safe : (u.readAll before).1.key ≠ some esc)
    (whole : Keys keys) (inner : ¬ pasteEnd <:+: text)
    (arrived : (u.readAll before).1.keysBefore keys first.phase first.now = some v)
    (pieces : (first :: later).flatMap (·.bytes) = text ++ pasteEnd)
    (more : ∀ q ∈ later, q.bytes ≠ []) (quiet : ∀ q ∈ first :: later, q.phase ≠ .confirming)
    (settled : later ≠ [] → v.Calm after) :
    OnlyTyped v (v.pasted text) ∧
    u.readAll (before ++ (cut (keys ++ pasteStart) (first :: later) after ++ rest)) =
      let last := later.getLastD first
      let w := (v.pasted text).keysAfter after last.phase last.now
      ((w.1.readAll rest).1,
        (u.readAll before).2 ++
          (List.replicate later.length ({} : Routed) ++ [w.2] ++ (w.1.readAll rest).2)) := by
  refine ⟨onlyTyped_pasted v text, ?_⟩
  have middle : (u.readAll before).1.readAll (cut (keys ++ pasteStart) (first :: later) after) =
      (((v.pasted text).keysAfter after (later.getLastD first).phase (later.getLastD first).now).1,
        List.replicate later.length ({} : Routed) ++
          [((v.pasted text).keysAfter after (later.getLastD first).phase
            (later.getLastD first).now).2]) := by
    cases mode : (u.readAll before).1.mode with
    | config cursor editing =>
        have up : (u.readAll before).1.mode.isConfig = true := by rw [mode]; rfl
        have closed : (u.readAll before).1.pasting = none := by
          simpa only [NoPaste, mode] using free
        obtain ⟨-, on, -⟩ := keysBefore_config up closed whole arrived
        refine paste_config up closed whole inner arrived pieces more quiet ?_
        intro several
        have calm := settled several
        unfold Calm at calm
        have stays : v.mode.isConfig = true := on.up
        split at calm
        · exact calm
        all_goals
          rename_i other
          rw [other] at stays
          cases stays
    | sessions =>
        have closed : (u.readAll before).1.selector.pasting = none := by
          simpa only [NoPaste, mode] using free
        obtain ⟨-, s, -, -, same⟩ := keysBefore_sessions mode closed whole arrived
        refine paste_sessions mode closed safe whole inner arrived pieces more quiet ?_
        intro several
        have calm := settled several
        have stays : v.mode = .sessions := by
          rw [same]
          exact mode
        simpa only [Calm, stays] using calm
    | closed | opened _ | auto | lingering _ _ =>
        simp only [keysBefore, mode] at arrived
        cases arrived
  rw [readAll_append, readAll_append, middle]

section Examples

/-- The config screen, with the list of settings on it. -/
def browsing : Popup := { mode := .config 0 .none }

def naming : Popup := { mode := .config 3 .text }

/-- A text with a newline in it, cut in its end marker. -/
theorem paste_is_only_text_cut :
    OnlyTyped naming (naming.pasted [0x71, 0x0a]) ∧
    naming.readAll (cut pasteStart
        [⟨[0x71, 0x0a, 0x1b, 0x5b], .live, 1⟩, ⟨[0x32, 0x30, 0x31, 0x7e], .live, 2⟩] [0x78]) =
      ({ naming with field := Field.set ['q', 'x'] }, [{}, {}]) := by
  have paste := @paste_is_only_text naming [] [] naming [] [0x71, 0x0a] [0x78]
    ⟨[0x71, 0x0a, 0x1b, 0x5b], .live, 1⟩ [⟨[0x32, 0x30, 0x31, 0x7e], .live, 2⟩] rfl (by decide)
    Keys.nil (by decide) (by decide) (by decide) (by decide) (by decide)
    (fun _ => by simp [Calm, naming, esc])
  exact ⟨paste.1, paste.2.trans (by decide)⟩

/-- A start marker cut in two is not seen, and the `x` of the text resets a setting. -/
theorem cut_start_runs_the_text :
    (browsing.readAll [⟨[0x1b, 0x5b, 0x32, 0x30], .live, 1⟩,
      ⟨[0x30, 0x7e, 0x78] ++ pasteEnd, .live, 2⟩]).2 =
        [{}, { command := some (.config (.reset 0)) }] ∧
    browsing.readAll [⟨pasteStart ++ [0x78] ++ pasteEnd, .live, 1⟩] = (browsing, [{}]) := by
  decide

end Examples

end Popup

end Oxutrm.Ui
