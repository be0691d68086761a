import Oxutrm.Ui.Selector

/-!
The selector acts only on a session that was chosen. Beside the selector stands a log
of what it was given: the keys in the order they were taken, each with the row the
cursor was on.
-/
namespace Oxutrm.Ui
open Client

inductive SelectorEvent where
  | opened
  | read (bytes : List UInt8) (ctx : Ctx) (now : Instant)
  | listed (rows : List SessionEntry)
  | listFailed (why : Text)
  | failed (why : Text)
  deriving DecidableEq, Repr

def Selector.step (s : Selector) : SelectorEvent → Selector × Option Out
  | .opened => (Selector.openAfresh, none)
  | .read bytes ctx now => s.keys bytes ctx now
  | .listed rows => (s.setRows rows, none)
  | .listFailed why => (s.failList why, none)
  | .failed why => (s.fail why, none)

inductive Mark where
  | opened
  | failed
  | listed (rows : List SessionEntry)
  | key (key : Key) (now : Instant) (row : Option SessionEntry)
  | pasted (b : UInt8)
  deriving DecidableEq, Repr

structure Watched where
  sel : Selector := {}
  log : List Mark := []

namespace Watched

def mark (w : Watched) (sel : Selector) (m : Mark) : Watched where
  sel := sel
  log := w.log ++ [m]

def reader (ctx : Ctx) (now : Instant) : Reader (Watched × Option Out) where
  up _ := true
  key w k :=
    ((w.1.mark (w.1.sel.key k ctx now).1 (.key k now w.1.sel.row), (w.1.sel.key k ctx now).2),
      (w.1.sel.key k ctx now).2.isSome)
  pasted w b := (w.1.mark (w.1.sel.pasteByte b) (.pasted b), w.2)
  pasting w := w.1.sel.pasting
  setPasting w p := ({ w.1 with sel := { w.1.sel with pasting := p } }, w.2)

def keys (w : Watched) (bytes : List UInt8) (ctx : Ctx) (now : Instant) : Watched × Option Out :=
  let w := { w with sel := { w.sel with note := none } }
  let (w, rest) := (reader ctx now).resume (w, none) bytes
  ((reader ctx now).read (bytes == [esc]) w rest).1

def step (w : Watched) : SelectorEvent → Watched × Option Out
  | .opened => (w.mark Selector.openAfresh .opened, none)
  | .read bytes ctx now => w.keys bytes ctx now
  | .listed rows => (w.mark (w.sel.setRows rows) (.listed rows), none)
  | .listFailed why => (w.mark (w.sel.failList why) .failed, none)
  | .failed why => (w.mark (w.sel.fail why) .failed, none)

def run (es : List SelectorEvent) : Watched := es.foldl (fun w e => (w.step e).1) {}

theorem hom (ctx : Ctx) (now : Instant) :
    Reader.Hom (reader ctx now) (Selector.reader ctx now) fun w => (w.1.sel, w.2) where
  up _ := rfl
  key _ _ := rfl
  pasted _ _ := rfl
  pasting _ := rfl
  setPasting _ _ := rfl

theorem keys_sel (w : Watched) (bytes : List UInt8) (ctx : Ctx) (now : Instant) :
    w.sel.keys bytes ctx now = ((w.keys bytes ctx now).1.sel, (w.keys bytes ctx now).2) := by
  have resumed := (hom ctx now).resume ({ w with sel := { w.sel with note := none } }, none) bytes
  simp only [Selector.keys, keys, resumed, (hom ctx now).read]

theorem step_sel (w : Watched) (e : SelectorEvent) :
    w.sel.step e = ((w.step e).1.sel, (w.step e).2) := by
  cases e with
  | read bytes ctx now => exact keys_sel w bytes ctx now
  | opened | listed rows | listFailed why | failed why => rfl

/-- What leaves a question that was asked then where it is. -/
def Leaves (asked : Instant) : Mark → Prop
  | .opened | .failed => False
  | .listed _ | .pasted _ => True
  | .key k now _ =>
      asked + answerGuard ≤ now → k ≠ .byte 0x79 ∧ k ≠ .byte 0x6e ∧ k ≠ .byte esc

def LeavesRename (id : SessionId) : Mark → Prop
  | .opened => False
  | .failed | .pasted _ => True
  | .listed rows => ∃ e ∈ rows, e.id = id
  | .key k _ _ => k ≠ .byte esc

/-- What a mark does to the name being typed. -/
def edit (f : Field) : Mark → Field
  | .opened | .failed | .listed _ => f
  | .pasted b => f.typeByte b
  | .key k _ _ =>
      if Selector.isErase k then f.erase
      else
        match k with
        | .up | .down => f
        | .byte b => if 0x20 ≤ b then f.typeByte b else f

/-- The name of a row, edited since. -/
def edited (row : SessionEntry) (since : List Mark) : Field :=
  since.foldl edit (Field.set ((row.name.map Name.text).getD []))

/-- `x` was pressed on the session's row. -/
def PressedKill (id : SessionId) (k : Key) (row : SessionEntry) : Prop :=
  k = .byte 0x78 ∧ row.id = id

/-- `⏎` was pressed on the session's row, which said that another client may be there. -/
def PressedTakeOver (id : SessionId) (k : Key) (row : SessionEntry) : Prop :=
  Selector.isEnter k = true ∧ row.id = id ∧ (row.attached = .elsewhere ∨ row.attached = .unknown)

/-- A key was pressed on a row, and the question it put is still up. -/
def Put (log : List Mark) (asked : Instant) (pressed : Key → SessionEntry → Prop) : Prop :=
  ∃ before k row between, log = before ++ .key k asked (some row) :: between ∧ pressed k row ∧
    ∀ m ∈ between, Leaves asked m

/-- The log ends in the `y` that answers a question, late enough to be its answer. -/
def AnsweredYes (log : List Mark) (pressed : Key → SessionEntry → Prop) : Prop :=
  ∃ before asked now last, log = before ++ [.key (.byte 0x79) now last] ∧
    asked + answerGuard ≤ now ∧ Put before asked pressed

/-- `r` was pressed on the session's row, and its name is open since, as `f`. -/
def Naming (log : List Mark) (id : SessionId) (f : Field) : Prop :=
  ∃ before asked row between, log = before ++ .key (.byte 0x72) asked (some row) :: between ∧
    row.id = id ∧ f = edited row between ∧ ∀ m ∈ between, LeavesRename id m

/-- What must have been pressed for a request. -/
def Chosen (log : List Mark) : Ask → Prop
  | .sessions => False
  | .new name => name = none ∧ ∃ before k now row, log = before ++ [.key k now row] ∧
      (k = .byte 0x6e ∨ Selector.isEnter k = true ∧ row = none)
  | .kill id => AnsweredYes log (PressedKill id)
  | .switch id => AnsweredYes log (PressedTakeOver id) ∨
      ∃ before k now row, log = before ++ [.key k now (some row)] ∧ Selector.isEnter k = true ∧
        row.id = id ∧ (row.attached = .no ∨ row.attached = .here)
  | .rename id name => ∃ before k now last f, log = before ++ [.key k now last] ∧
      Selector.isEnter k = true ∧ Naming before id f ∧ Selector.typedName f.text = .ok name

def Pressed : Question → Key → SessionEntry → Prop
  | .takeOver id _ _ => PressedTakeOver id
  | .kill id _ _ => PressedKill id

/-- What one mark may do to the selector: a question or a rename that is up afterwards
was there before or was put by this very key. -/
structure Step (s : Selector) (m : Mark) (t : Selector) : Prop where
  fits : s.cursor ≤ s.rows.length → t.cursor ≤ t.rows.length
  fresh : (s.loading = true → s.rows = []) → t.loading = true → t.rows = []
  apart : (s.question ≠ none → s.rename = none) → t.question ≠ none → t.rename = none
  asked : ∀ q at_, t.question = some (q, at_) →
    s.question = some (q, at_) ∧ Leaves at_ m ∨
      ∃ k row, m = .key k at_ (some row) ∧ Pressed q k row
  naming : ∀ id f, t.rename = some (id, f) →
    (∃ g, s.rename = some (id, g) ∧ f = edit g m ∧ LeavesRename id m) ∨
      ∃ at_ row, m = .key (.byte 0x72) at_ (some row) ∧ row.id = id ∧ f = edited row []

theorem Step.note {s t : Selector} {m : Mark} (step : Step s m t) (note : Option Text) :
    Step s m { t with note := note } :=
  ⟨step.fits, step.fresh, step.apart, step.asked, step.naming⟩

/-- Asking changes no more than the line under the list, and asks nothing on a link
that is down or busy. -/
theorem act_cases (s : Selector) (ctx : Ctx) (ask : Ask) :
    (∃ note, s.act ctx ask = ({ s with note := note }, none)) ∨
      ctx.live = true ∧ ctx.busy = false ∧ s.act ctx ask = (s, some (.ask ask)) := by
  unfold Selector.act
  cases ctx.live with
  | false => exact .inl ⟨_, rfl⟩
  | true =>
      cases ctx.busy with
      | true => exact .inl ⟨_, rfl⟩
      | false => exact .inr ⟨rfl, rfl, rfl⟩

theorem step_act {s t : Selector} {m : Mark} (step : Step s m t) (ctx : Ctx) (ask : Ask) :
    Step s m (t.act ctx ask).1 := by
  cases act_cases t ctx ask with
  | inl refused =>
      obtain ⟨note, refused⟩ := refused
      rw [refused]
      exact step.note note
  | inr asked =>
      rw [asked.2.2]
      exact step

section Keys
variable {s : Selector} (k : Key) (ctx : Ctx) (now : Instant)

theorem step_answer {q : Question} {at_ : Instant} (up : s.question = some (q, at_))
    (alone : s.rename = none) : Step s (.key k now s.row) (s.answer q at_ k ctx now).1 := by
  have unnamed : ∀ id f, s.rename ≠ some (id, f) := by simp [alone]
  have dropped : Step s (.key k now s.row) { s with question := none } :=
    ⟨id, id, fun _ open_ => absurd rfl open_, fun _ _ open_ => (nomatch open_),
      fun i f open_ => absurd open_ (unnamed i f)⟩
  have left (stays : at_ + answerGuard ≤ now →
      k ≠ .byte 0x79 ∧ k ≠ .byte 0x6e ∧ k ≠ .byte esc) : Step s (.key k now s.row) s := by
    refine ⟨id, id, id, ?_, fun i f open_ => absurd open_ (unnamed i f)⟩
    intro p asked open_
    rw [up] at open_
    cases open_
    exact .inl ⟨up, stays⟩
  unfold Selector.answer
  split
  · rename_i early
    exact left fun late => absurd early (Nat.not_lt.mpr (Nat.le_sub_of_add_le' late))
  · split
    · exact step_act dropped ctx _
    · split
      · exact dropped
      · exact left fun _ => by grind

theorem step_renameKey {i : SessionId} {g : Field} (up : s.rename = some (i, g))
    (quiet : s.question = none) : Step s (.key k now s.row) (s.renameKey i g k ctx).1 := by
  have unasked : ∀ q at_, s.question ≠ some (q, at_) := by simp [quiet]
  -- the rename goes on with `f` in place of what was typed so far
  have goes (f : Field) (typed : f = edit g (.key k now s.row)) (stays : k ≠ .byte esc) :
      Step s (.key k now s.row) { s with rename := some (i, f) } := by
    refine ⟨id, id, fun _ open_ => absurd quiet open_,
      fun q at_ open_ => absurd open_ (unasked q at_), ?_⟩
    intro j h open_
    cases open_
    exact .inl ⟨g, up, typed, stays⟩
  have ended : Step s (.key k now s.row) { s with rename := none } :=
    ⟨id, id, fun _ open_ => absurd quiet open_, fun q at_ open_ => absurd open_ (unasked q at_),
      fun _ _ open_ => (nomatch open_)⟩
  have same (typed : g = edit g (.key k now s.row)) (stays : k ≠ .byte esc) :
      Step s (.key k now s.row) s := by
    have still := goes g typed stays
    rwa [← up] at still
  unfold Selector.renameKey
  split
  · exact ended
  · rename_i stays
    split
    · rename_i entered
      have typed : g = edit g (.key k now s.row) := by
        simp only [Selector.isEnter, Bool.or_eq_true, decide_eq_true_eq] at entered
        cases entered with
        | inl is => subst is; rfl
        | inr is => subst is; rfl
      split
      · exact (same typed stays).note _
      · rename_i name _
        cases act_cases s ctx (.rename i name) with
        | inl refused =>
            obtain ⟨note, refused⟩ := refused
            rw [refused]
            exact (same typed stays).note note
        | inr asked =>
            rw [asked.2.2]
            exact ended
    · split
      · rename_i erased
        exact goes _ (by simp only [edit, erased, if_true]) stays
      · rename_i unerased
        split
        · split
          · rename_i printable
            exact goes _ (by simp only [edit, unerased, printable, if_true, if_false, Bool.false_eq_true]) stays
          · rename_i control
            exact same (by simp only [edit, unerased, control, if_false, Bool.false_eq_true]) stays
        · exact same (by simp only [edit, unerased, if_false, Bool.false_eq_true]) stays
        · exact same (by simp only [edit, unerased, if_false, Bool.false_eq_true]) stays

theorem step_moved {t : Selector} (quiet : s.question = none) (alone : s.rename = none)
    (rows : t.rows = s.rows) (loading : t.loading = s.loading) (asked : t.question = s.question)
    (named : t.rename = s.rename) (cursor : s.cursor ≤ s.rows.length → t.cursor ≤ s.rows.length)
    (m : Mark) : Step s m t := by
  refine ⟨?_, ?_, ?_, ?_, ?_⟩
  · rw [rows]
    exact cursor
  · rw [rows, loading]
    exact id
  · rw [asked, named]
    exact id
  · rw [asked, quiet]
    exact fun _ _ open_ => (nomatch open_)
  · rw [named, alone]
    exact fun _ _ open_ => (nomatch open_)

theorem step_enter (quiet : s.question = none) (alone : s.rename = none)
    (entered : Selector.isEnter k = true) :
    Step s (.key k now s.row) (s.enter ctx now).1 := by
  have same := step_moved quiet alone rfl rfl rfl rfl id (.key k now s.row)
  have put (row : SessionEntry) (unknown : Bool) (on : s.row = some row)
      (taken : row.attached = .elsewhere ∨ row.attached = .unknown) :
      Step s (.key k now s.row)
        { s with question := some (.takeOver row.id (label row) unknown, now) } := by
    refine ⟨id, id, fun _ _ => alone, ?_, fun _ _ open_ => absurd open_ (by simp [alone])⟩
    intro q at_ open_
    cases open_
    exact .inr ⟨k, row, by rw [on], entered, rfl, taken⟩
  unfold Selector.enter
  split
  · exact step_act same ctx _
  · rename_i row on
    split
    · exact same
    · split
      · exact same.note _
      · split
        · exact same.note _
        · exact put row false on (.inl ‹_›)
        · exact put row true on (.inr ‹_›)
        · exact step_act same ctx _
        · exact step_act same ctx _

theorem step_startRename (quiet : s.question = none) (alone : s.rename = none) :
    Step s (.key (.byte 0x72) now s.row) s.startRename := by
  have same := step_moved quiet alone rfl rfl rfl rfl id (.key (.byte 0x72) now s.row)
  unfold Selector.startRename
  split
  · exact same
  · rename_i row on
    split
    · exact same.note _
    · refine ⟨id, id, fun _ open_ => absurd quiet open_,
        fun _ _ open_ => absurd open_ (by simp [quiet]), ?_⟩
      intro i f open_
      cases open_
      exact .inr ⟨now, row, by rw [on], rfl, rfl⟩

theorem step_askKill (quiet : s.question = none) (alone : s.rename = none) :
    Step s (.key (.byte 0x78) now s.row) (s.askKill now) := by
  have same := step_moved quiet alone rfl rfl rfl rfl id (.key (.byte 0x78) now s.row)
  unfold Selector.askKill
  split
  · exact same
  · rename_i row on
    split
    · exact same.note _
    · refine ⟨id, id, fun _ _ => alone, ?_, fun _ _ open_ => absurd open_ (by simp [alone])⟩
      intro q at_ open_
      cases open_
      exact .inr ⟨_, row, by rw [on], rfl, rfl⟩

theorem step_listKey (quiet : s.question = none) (alone : s.rename = none) :
    Step s (.key k now s.row) (s.listKey k ctx now).1 := by
  have same := step_moved quiet alone rfl rfl rfl rfl id (.key k now s.row)
  unfold Selector.listKey
  split
  · exact step_moved (t := { s with cursor := s.cursor - 1 }) quiet alone rfl rfl rfl rfl
      (fun fits => Nat.le_trans (Nat.sub_le _ _) fits) _
  · split
    · exact step_moved (t := { s with cursor := min (s.cursor + 1) s.rows.length }) quiet alone
        rfl rfl rfl rfl (fun _ => Nat.min_le_right _ _) _
    · split
      · exact step_enter k ctx now quiet alone ‹_›
      · split
        · exact step_act same ctx _
        · split
          · subst k
            exact step_startRename now quiet alone
          · split
            · subst k
              exact step_askKill now quiet alone
            · split
              · exact same
              · exact same

theorem step_key (apart : s.question ≠ none → s.rename = none) :
    Step s (.key k now s.row) (s.key k ctx now).1 := by
  unfold Selector.key
  split
  · rename_i q at_ up
    exact step_answer k ctx now up (apart (by simp [up]))
  · rename_i quiet
    split
    · rename_i i f up
      exact step_renameKey k ctx now up quiet
    · rename_i alone
      exact step_listKey k ctx now quiet alone

end Keys

theorem step_pasteByte {s : Selector} (b : UInt8) : Step s (.pasted b) (s.pasteByte b) := by
  refine ⟨id, id, ?_, fun q at_ open_ => .inl ⟨open_, trivial⟩, ?_⟩
  · intro apart open_
    rw [Selector.pasteByte, apart open_]
    rfl
  · intro i f open_
    cases up : s.rename with
    | none =>
        rw [Selector.pasteByte, up] at open_
        cases open_
    | some named =>
        rw [Selector.pasteByte, up] at open_
        cases open_
        exact .inl ⟨named.2, rfl, rfl, trivial⟩

theorem step_dropped {s t : Selector} (rows : t.rows = s.rows) (cursor : t.cursor = s.cursor)
    (loading : t.loading = true → s.loading = true) (dropped : t.question = none)
    (named : t.rename = s.rename) : Step s .failed t := by
  refine ⟨?_, ?_, fun _ open_ => absurd dropped open_, ?_, ?_⟩
  · rw [rows, cursor]
    exact id
  · rw [rows]
    exact fun fresh open_ => fresh (loading open_)
  · rw [dropped]
    exact fun _ _ open_ => (nomatch open_)
  · rw [named]
    exact fun i f open_ => .inl ⟨f, open_, rfl, trivial⟩

theorem step_openAfresh (s : Selector) : Step s .opened Selector.openAfresh :=
  ⟨fun _ => Nat.le_refl 0, fun _ _ => rfl, fun _ open_ => absurd rfl open_,
    fun _ _ open_ => (nomatch open_), fun _ _ open_ => (nomatch open_)⟩

theorem mem_byStart {e : SessionEntry} {rows : List SessionEntry} :
    e ∈ Selector.byStart rows ↔ e ∈ rows := List.mem_insertionSort _

theorem place_le (s : Selector) (rows : List SessionEntry) : s.place rows ≤ rows.length := by
  have found (p : SessionEntry → Bool) (other : Nat) (small : other ≤ rows.length) :
      (rows.findIdx? p).getD other ≤ rows.length := by
    cases at_ : rows.findIdx? p with
    | none => exact small
    | some i =>
        exact Nat.le_of_lt (List.findIdx?_eq_some_iff_findIdx_eq.mp at_).1
  unfold Selector.place
  split
  · exact found _ 0 (Nat.zero_le _)
  · split
    · exact found _ _ (Nat.min_le_right _ _)
    · exact Nat.le_refl _

theorem dropRename_cases (s : Selector) (rows : List SessionEntry) :
    (s.dropRename rows = s ∧ ∀ i f, s.rename = some (i, f) → ∃ e ∈ rows, e.id = i) ∨
      ∃ note, s.dropRename rows = { s with note := note, rename := none } := by
  unfold Selector.dropRename
  split
  · exact .inl ⟨rfl, fun _ _ open_ => by simp_all⟩
  · rename_i i f up
    split
    · rename_i listed
      refine .inl ⟨rfl, ?_⟩
      intro j g open_
      rw [up] at open_
      cases open_
      simpa using listed
    · exact .inr ⟨_, rfl⟩

theorem step_setRows (s : Selector) (rows : List SessionEntry) :
    Step s (.listed rows) (s.setRows rows) := by
  simp only [Selector.setRows]
  cases dropRename_cases s (Selector.byStart rows) with
  | inl kept =>
      rw [kept.1]
      refine ⟨fun _ => place_le _ _, fun _ open_ => (nomatch open_), id,
        fun _ _ open_ => .inl ⟨open_, trivial⟩, ?_⟩
      intro i f open_
      obtain ⟨e, listed, same⟩ := kept.2 i f open_
      exact .inl ⟨f, open_, rfl, e, mem_byStart.mp listed, same⟩
  | inr gone =>
      obtain ⟨note, gone⟩ := gone
      rw [gone]
      exact ⟨fun _ => place_le _ _, fun _ open_ => (nomatch open_), fun _ _ => rfl,
        fun _ _ open_ => .inl ⟨open_, trivial⟩, fun _ _ open_ => (nomatch open_)⟩

/-- Where the selector stands against its log. -/
structure Sound (w : Watched) : Prop where
  fits : w.sel.cursor ≤ w.sel.rows.length
  fresh : w.sel.loading = true → w.sel.rows = []
  apart : w.sel.question ≠ none → w.sel.rename = none
  asked : ∀ q at_, w.sel.question = some (q, at_) → Put w.log at_ (Pressed q)
  naming : ∀ id f, w.sel.rename = some (id, f) → Naming w.log id f

theorem Put.snoc {log : List Mark} {at_ : Instant} {pressed : Key → SessionEntry → Prop} {m : Mark}
    (put : Put log at_ pressed) (leaves : Leaves at_ m) : Put (log ++ [m]) at_ pressed := by
  obtain ⟨before, k, row, between, rfl, press, left⟩ := put
  refine ⟨before, k, row, between ++ [m], by simp, press, ?_⟩
  intro n member
  cases List.mem_append.mp member with
  | inl old => exact left n old
  | inr new =>
      rw [List.mem_singleton.mp new]
      exact leaves

theorem Naming.snoc {log : List Mark} {i : SessionId} {f : Field} {m : Mark}
    (naming : Naming log i f) (leaves : LeavesRename i m) : Naming (log ++ [m]) i (edit f m) := by
  obtain ⟨before, at_, row, between, rfl, same, rfl, left⟩ := naming
  refine ⟨before, at_, row, between ++ [m], by simp, same, by simp [edited], ?_⟩
  intro n member
  cases List.mem_append.mp member with
  | inl old => exact left n old
  | inr new =>
      rw [List.mem_singleton.mp new]
      exact leaves

theorem Sound.mark {w : Watched} (sound : w.Sound) {t : Selector} {m : Mark}
    (step : Step w.sel m t) : (w.mark t m).Sound where
  fits := step.fits sound.fits
  fresh := step.fresh sound.fresh
  apart := step.apart sound.apart
  asked := by
    intro q at_ open_
    cases step.asked q at_ open_ with
    | inl kept => exact (sound.asked q at_ kept.1).snoc kept.2
    | inr put =>
        obtain ⟨k, row, rfl, press⟩ := put
        exact ⟨w.log, k, row, [], rfl, press, fun _ member => (nomatch member)⟩
  naming := by
    intro i f open_
    cases step.naming i f open_ with
    | inl kept =>
        obtain ⟨g, up, rfl, left⟩ := kept
        exact (sound.naming i g up).snoc left
    | inr put =>
        obtain ⟨at_, row, rfl, same, rfl⟩ := put
        exact ⟨w.log, at_, row, [], rfl, same, rfl, fun _ member => (nomatch member)⟩

theorem act_chosen {s : Selector} {ctx : Ctx} {wanted ask : Ask} {log : List Mark}
    (asked : (s.act ctx wanted).2 = some (.ask ask)) (chosen : Chosen log wanted) :
    ctx.live = true ∧ ctx.busy = false ∧ Chosen log ask := by
  cases act_cases s ctx wanted with
  | inl refused =>
      obtain ⟨note, refused⟩ := refused
      rw [refused] at asked
      cases asked
  | inr acted =>
      rw [acted.2.2] at asked
      cases asked
      exact ⟨acted.1, acted.2.1, chosen⟩

section Asks
variable {w : Watched} (sound : w.Sound) {k : Key} {ctx : Ctx} {now : Instant} {ask : Ask}

include sound in
theorem answer_chosen {q : Question} {at_ : Instant} (up : w.sel.question = some (q, at_))
    (asked : (w.sel.answer q at_ k ctx now).2 = some (.ask ask)) :
    ctx.live = true ∧ ctx.busy = false ∧ Chosen (w.log ++ [.key k now w.sel.row]) ask := by
  have put := sound.asked q at_ up
  unfold Selector.answer at asked
  split at asked
  · cases asked
  · rename_i late
    split at asked
    · subst k
      refine act_chosen asked ?_
      have yes : AnsweredYes (w.log ++ [.key (.byte 0x79) now w.sel.row]) (Pressed q) :=
        ⟨w.log, at_, now, w.sel.row, rfl, late_of_not_early late, put⟩
      cases q with
      | takeOver id text unknown => exact .inl yes
      | kill id text inUse => exact yes
    · split at asked <;> cases asked

include sound in
theorem renameKey_chosen {i : SessionId} {f : Field} (up : w.sel.rename = some (i, f))
    (asked : (w.sel.renameKey i f k ctx).2 = some (.ask ask)) :
    ctx.live = true ∧ ctx.busy = false ∧ Chosen (w.log ++ [.key k now w.sel.row]) ask := by
  have naming := sound.naming i f up
  unfold Selector.renameKey at asked
  split at asked
  · cases asked
  · split at asked
    · rename_i entered
      split at asked
      · cases asked
      · rename_i name typed
        exact act_chosen asked ⟨w.log, k, now, w.sel.row, f, rfl, entered, naming, typed⟩
    · split at asked
      · cases asked
      · split at asked
        · split at asked <;> cases asked
        · cases asked
        · cases asked

theorem enter_chosen (entered : Selector.isEnter k = true)
    (asked : (w.sel.enter ctx now).2 = some (.ask ask)) :
    ctx.live = true ∧ ctx.busy = false ∧ Chosen (w.log ++ [.key k now w.sel.row]) ask := by
  unfold Selector.enter at asked
  split at asked
  · rename_i off
    exact act_chosen asked ⟨rfl, w.log, k, now, w.sel.row, rfl, .inr ⟨entered, off⟩⟩
  · rename_i row on
    split at asked
    · cases asked
    · split at asked
      · cases asked
      · split at asked
        · cases asked
        · cases asked
        · cases asked
        · rename_i free
          exact act_chosen asked (.inr ⟨w.log, k, now, row, by rw [on], entered, rfl, .inl free⟩)
        · rename_i here
          exact act_chosen asked (.inr ⟨w.log, k, now, row, by rw [on], entered, rfl, .inr here⟩)

theorem listKey_chosen (asked : (w.sel.listKey k ctx now).2 = some (.ask ask)) :
    ctx.live = true ∧ ctx.busy = false ∧ Chosen (w.log ++ [.key k now w.sel.row]) ask := by
  unfold Selector.listKey at asked
  split at asked
  · cases asked
  · split at asked
    · cases asked
    · split at asked
      · exact enter_chosen ‹_› asked
      · split at asked
        · rename_i pressed
          exact act_chosen asked ⟨rfl, w.log, k, now, w.sel.row, rfl, .inl pressed⟩
        · split at asked
          · cases asked
          · split at asked
            · cases asked
            · split at asked
              · cases lobby : ctx.lobby <;> simp [lobby] at asked
              · cases asked

include sound in
theorem key_chosen (asked : (w.sel.key k ctx now).2 = some (.ask ask)) :
    ctx.live = true ∧ ctx.busy = false ∧ Chosen (w.log ++ [.key k now w.sel.row]) ask := by
  unfold Selector.key at asked
  split at asked
  · exact answer_chosen sound ‹_› asked
  · split at asked
    · exact renameKey_chosen sound ‹_› asked
    · exact listKey_chosen asked

end Asks

/-- What a read leaves behind: a sound log, and a request only if it was chosen. -/
structure Read (ctx : Ctx) (w : Watched × Option Out) : Prop where
  sound : w.1.Sound
  asks : ∀ ask, w.2 = some (.ask ask) →
    ctx.live = true ∧ ctx.busy = false ∧ Chosen w.1.log ask

theorem keeps (ctx : Ctx) (now : Instant) :
    (reader ctx now).Keeps (fun w => w.1.Sound ∧ w.2 = none) (Read ctx) where
  key w k going next := by
    refine ⟨going.1.mark (step_key k ctx now going.1.apart), ?_⟩
    simpa [reader] using next
  last w k going _ :=
    ⟨going.1.mark (step_key k ctx now going.1.apart), fun _ asked => key_chosen going.1 asked⟩
  pasted w b going := ⟨going.1.mark (step_pasteByte b), going.2⟩
  setPasting w p going :=
    ⟨⟨going.1.fits, going.1.fresh, going.1.apart, going.1.asked, going.1.naming⟩, going.2⟩

theorem keys_read {w : Watched} (sound : w.Sound) (bytes : List UInt8) (ctx : Ctx) (now : Instant) :
    Read ctx (w.keys bytes ctx now) := by
  have start : ({ w with sel := { w.sel with note := none } } : Watched).Sound :=
    ⟨sound.fits, sound.fresh, sound.apart, sound.asked, sound.naming⟩
  have resumed := (keeps ctx now).resume
    (s := ({ w with sel := { w.sel with note := none } }, none)) ⟨start, rfl⟩ bytes
  cases (keeps ctx now).read (bytes == [esc]) resumed _ with
  | inl going => exact ⟨going.1, fun ask asked => absurd (going.2.symm.trans asked) (by simp)⟩
  | inr stopped => exact stopped

theorem Sound.step {w : Watched} (sound : w.Sound) (e : SelectorEvent) : (w.step e).1.Sound := by
  cases e with
  | opened => exact sound.mark (step_openAfresh _)
  | read bytes ctx now => exact (keys_read sound bytes ctx now).sound
  | listed rows => exact sound.mark (step_setRows _ rows)
  | listFailed why =>
      exact sound.mark (step_dropped rfl rfl (fun open_ => (nomatch open_)) rfl rfl)
  | failed why => exact sound.mark (step_dropped rfl rfl id rfl rfl)

theorem sound_run (es : List SelectorEvent) : (run es).Sound := by
  have all : ∀ (w : Watched), w.Sound → (es.foldl (fun w e => (w.step e).1) w).Sound := by
    induction es with
    | nil => exact fun w sound => sound
    | cons e es ih => exact fun w sound => ih _ (sound.step e)
  exact all {} ⟨Nat.le_refl 0, fun open_ => (nomatch open_), fun open_ => absurd rfl open_,
    fun _ _ open_ => (nomatch open_), fun _ _ open_ => (nomatch open_)⟩

theorem dropRename_place (s : Selector) (rows : List SessionEntry) :
    (s.dropRename rows).place rows = s.place rows := by
  cases dropRename_cases s rows with
  | inl kept => rw [kept.1]
  | inr gone =>
      obtain ⟨note, gone⟩ := gone
      rw [gone]
      rfl

theorem place_selected {s : Selector} {rows : List SessionEntry} {i : SessionId}
    (loaded : s.loading = false) (on : s.selected = some i) (listed : ∃ e ∈ rows, e.id = i) :
    (rows[s.place rows]?).map (·.id) = some i := by
  obtain ⟨e, member, same⟩ := listed
  have found : (rows.findIdx? (·.id = i)).isSome = true := by
    rw [List.findIdx?_isSome]
    exact List.any_eq_true.mpr ⟨e, member, decide_eq_true same⟩
  obtain ⟨at_, index⟩ := Option.isSome_iff_exists.mp found
  obtain ⟨inside, hit, -⟩ := List.findIdx?_eq_some_iff_getElem.mp index
  have placed : s.place rows = at_ := by
    simp only [Selector.place, loaded, on, index, Bool.false_eq_true, if_false, Option.getD_some]
  rw [placed, List.getElem?_eq_getElem inside, Option.map_some]
  exact congrArg some (of_decide_eq_true hit)

/-- A refetch leaves the cursor on its session for as long as it is listed. -/
theorem Sound.setRows_selected {w : Watched} (sound : w.Sound) {rows : List SessionEntry}
    {i : SessionId} (on : w.sel.selected = some i) (listed : ∃ e ∈ rows, e.id = i) :
    (w.sel.setRows rows).selected = some i := by
  have loaded : w.sel.loading = false := by
    cases loading : w.sel.loading with
    | false => rfl
    | true => simp [Selector.selected, Selector.row, sound.fresh loading] at on
  have placed := @place_selected w.sel (Selector.byStart rows) i loaded on
    (by simpa only [mem_byStart] using listed)
  rw [← dropRename_place] at placed
  exact placed

theorem run_sel (es : List SelectorEvent) :
    (run es).sel = es.foldl (fun s e => (s.step e).1) {} := by
  have all : ∀ (w : Watched), (es.foldl (fun w e => (w.step e).1) w).sel =
      es.foldl (fun s e => (s.step e).1) w.sel := by
    induction es with
    | nil => exact fun w => rfl
    | cons e es ih =>
        intro w
        rw [List.foldl_cons, List.foldl_cons, ih, step_sel w e]
  exact all {}

/-- In every run the selector asks the host for what was chosen on it and nothing else,
and its cursor stays with the session it is on. -/
theorem selector_asks_only_what_was_chosen (es : List SelectorEvent) :
    (run es).sel = es.foldl (fun s e => (s.step e).1) {} ∧
    (run es).sel.cursor ≤ (run es).sel.rows.length ∧
    (∀ bytes ctx now ask, ((run es).sel.keys bytes ctx now).2 = some (.ask ask) →
      ctx.live = true ∧ ctx.busy = false ∧ Chosen ((run es).keys bytes ctx now).1.log ask) ∧
    ∀ rows i, (run es).sel.selected = some i → (∃ e ∈ rows, e.id = i) →
      ((run es).sel.setRows rows).selected = some i := by
  have sound := sound_run es
  refine ⟨run_sel es, sound.fits, ?_, fun rows i on listed => sound.setRows_selected on listed⟩
  intro bytes ctx now ask asked
  rw [keys_sel] at asked
  exact (keys_read sound bytes ctx now).asks ask asked

section Examples

def anId : SessionId := ⟨List.replicate 16 7, rfl⟩

def aRow : SessionEntry where
  id := anId
  name := none
  createdUnix := 1
  detachable := true
  attached := .elsewhere
  this := false

def live : Ctx := { live := true, lobby := false, busy := false }

/-- A list with one row, and `x` on it. -/
def killAsked : List SelectorEvent := [.opened, .listed [aRow], .read [0x78] live 0]

theorem selector_asks_only_what_was_chosen_kill :
    ((run killAsked).sel.keys [0x79] live 600000000).2 = some (.ask (.kill anId)) ∧
    Chosen ((run killAsked).keys [0x79] live 600000000).1.log (.kill anId) := by
  have asked : ((run killAsked).sel.keys [0x79] live 600000000).2 = some (.ask (.kill anId)) := by
    decide
  exact ⟨asked, ((selector_asks_only_what_was_chosen killAsked).2.2.1 _ _ _ _ asked).2.2⟩

/-- An `n` while the question is fresh is typing still in flight, and the `y` after it
is an answer. -/
theorem early_no_is_no_answer :
    ((run (killAsked ++ [.read [0x6e] live 100000000])).sel.keys [0x79] live 600000000).2 =
      some (.ask (.kill anId)) ∧
    ((run (killAsked ++ [.read [0x6e] live 100000000])).keys [0x79] live 600000000).1.log =
      [.opened, .listed [aRow], .key (.byte 0x78) 0 (some aRow),
        .key (.byte 0x6e) 100000000 (some aRow), .key (.byte 0x79) 600000000 (some aRow)] := by
  decide

end Examples

end Watched

end Oxutrm.Ui
