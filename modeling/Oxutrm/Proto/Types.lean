import Mathlib

/-!
The wire types of a screen and the checks on their contents: the size bound I7,
the text bounds I8 and the link bounds I10. A Rust `str` is its list of Unicode
scalars; every length limit counts the bytes of its UTF-8 form.
-/
namespace Oxutrm.Proto

abbrev Bytes := List UInt8

abbrev Text := List Char

def Text.bytes (t : Text) : Bytes := t.flatMap String.utf8EncodeChar

def Text.len (t : Text) : Nat := t.bytes.length

def maxScreenCells : Nat := 262144
def maxScreenDim : UInt16 := 2048
def maxCellText : Nat := 32
def maxTitle : Nat := 512
def maxClipboard : Nat := 256 * 1024
def maxLinkUri : Nat := 2083
def maxLinks : Nat := 512

inductive TextField where
  | cellText
  | title
  | clipboard
  | linkUri
  deriving DecidableEq, Repr

def TextField.maxBytes : TextField → Nat
  | .cellText => maxCellText
  | .title => maxTitle
  | .clipboard => maxClipboard
  | .linkUri => maxLinkUri

/-- Why a state or a diff was refused. -/
inductive ApplyError where
  | baseMismatch (base current : UInt64)
  | outOfBounds (row rows : UInt16)
  | decode (why : String)
  | lengthMismatch (len : Nat) (rows cols : UInt16)
  | cursorOutOfBounds (row col rows cols : UInt16)
  | runOverflowsRow (row : UInt16) (endCol : Nat) (cols : UInt16)
  | seqZero
  | bellWentBackwards (was now : UInt32)
  | clipboardWentBackwards (was now : UInt32)
  | scrollbackShrank (was now : UInt64)
  | screenTooLarge (rows cols : UInt16)
  | controlInText (field : TextField) (scalar : UInt32)
  | textTooLong (field : TextField) (len max : Nat)
  | tooManyLinks (len max : Nat)
  | linkIdZero
  | badLinkUri (id : UInt16) (byte : Option UInt8)
  | unknownLink (id : UInt16)
  deriving DecidableEq, Repr

abbrev Checked := Except ApplyError Unit

/-- `if bad { return Err(e) }`. -/
def refuse (bad : Prop) [Decidable bad] (e : ApplyError) : Checked :=
  if bad then .error e else .ok ()

/-- A `for` loop of checks, each leaving at its first error. -/
def checkEach {α : Type} (check : α → Checked) : List α → Checked
  | [] => .ok ()
  | a :: as => do
      check a
      checkEach check as

@[simp] theorem refuse_ok (bad : Prop) [Decidable bad] (e : ApplyError) :
    refuse bad e = .ok () ↔ ¬ bad := by
  by_cases h : bad <;> simp [refuse, h]

@[simp] theorem checked_seq_ok (x y : Checked) :
    (x >>= fun _ => y) = .ok () ↔ x = .ok () ∧ y = .ok () := by
  cases x <;> simp [bind, Except.bind]

@[simp] theorem checkEach_ok {α : Type} (check : α → Checked) (as : List α) :
    checkEach check as = .ok () ↔ ∀ a ∈ as, check a = .ok () := by
  induction as with
  | nil => simp [checkEach]
  | cons a as ih => simp [checkEach, ih]

def checkSome {α : Type} (check : α → Checked) : Option α → Checked
  | some a => check a
  | none => .ok ()

@[simp] theorem checkSome_ok {α : Type} (check : α → Checked) (o : Option α) :
    checkSome check o = .ok () ↔ ∀ a, o = some a → check a = .ok () := by
  cases o <;> simp [checkSome]

/-- A mutation with its result, and what runs after it only if it succeeded. -/
def andThen {ε α : Type} (r : α × Except ε Unit) (k : α → α × Except ε Unit) :
    α × Except ε Unit :=
  match r with
  | (a, .error e) => (a, .error e)
  | (a, .ok _) => k a

@[simp] theorem andThen_ok {ε α : Type} (r : α × Except ε Unit) (k : α → α × Except ε Unit)
    (t : α) :
    andThen r k = (t, .ok ()) ↔ ∃ a, r = (a, .ok ()) ∧ k a = (t, .ok ()) := by
  obtain ⟨a, result⟩ := r
  cases result <;> simp [andThen]

structure TermSize where
  cols : UInt16
  rows : UInt16
  deriving DecidableEq, Repr

/-- I7. -/
def TermSize.checkBounds (size : TermSize) : Checked :=
  refuse (size.rows > maxScreenDim ∨ size.cols > maxScreenDim ∨
    size.rows.toNat * size.cols.toNat > maxScreenCells)
    (.screenTooLarge size.rows size.cols)

theorem TermSize.cols_le {size : TermSize} (h : size.checkBounds = .ok ()) :
    size.cols.toNat ≤ 2048 := by
  simp only [checkBounds, refuse_ok, not_or] at h
  exact UInt16.le_iff_toNat_le.mp (UInt16.not_lt.mp h.2.1)

theorem TermSize.rows_le {size : TermSize} (h : size.checkBounds = .ok ()) :
    size.rows.toNat ≤ 2048 := by
  simp only [checkBounds, refuse_ok, not_or] at h
  exact UInt16.le_iff_toNat_le.mp (UInt16.not_lt.mp h.1)

theorem TermSize.cells_le {size : TermSize} (h : size.checkBounds = .ok ()) :
    size.rows.toNat * size.cols.toNat ≤ 262144 := by
  simp only [checkBounds, refuse_ok, not_or, gt_iff_lt, not_lt] at h
  exact h.2.2

/-- C0, DEL and C1. -/
def isControlScalar (c : Char) : Bool :=
  c.val ≤ 0x1f || c.val == 0x7f || (0x80 ≤ c.val && c.val ≤ 0x9f)

def checkText (text : Text) (field : TextField) : Checked := do
  refuse (text.len > field.maxBytes) (.textTooLong field text.len field.maxBytes)
  match text.find? isControlScalar with
  | some c => .error (.controlInText field c.val)
  | none => .ok ()

def checkCellText (text : Text) : Checked := checkText text .cellText

def checkTitle (title : Text) : Checked := checkText title .title

theorem checkText_len {text : Text} {field : TextField}
    (h : checkText text field = .ok ()) : text.len ≤ field.maxBytes := by
  simp only [checkText, checked_seq_ok, refuse_ok, gt_iff_lt, not_lt] at h
  exact h.1

def checkLinkUri (id : UInt16) (uri : Text) : Checked := do
  refuse (uri.len > maxLinkUri) (.textTooLong .linkUri uri.len maxLinkUri)
  refuse (uri.len = 0) (.badLinkUri id none)
  match uri.bytes.find? (fun b => !(0x20 ≤ b && b ≤ 0x7e)) with
  | some b => .error (.badLinkUri id (some b))
  | none => .ok ()

theorem checkLinkUri_len {id : UInt16} {uri : Text}
    (h : checkLinkUri id uri = .ok ()) : uri.len ≤ maxLinkUri := by
  simp only [checkLinkUri, checked_seq_ok, refuse_ok, gt_iff_lt, not_lt] at h
  exact h.1

/-- `BTreeMap<u16, Arc<str>>`: equal exactly when the entries are. -/
abbrev Links := Std.ExtTreeMap UInt16 Text compare

def checkLinks (links : Links) : Checked := do
  refuse (links.size > maxLinks) (.tooManyLinks links.size maxLinks)
  checkEach (fun p => do
    refuse (p.1 = 0) .linkIdZero
    checkLinkUri p.1 p.2) links.toList

inductive ClipboardTarget where
  | clipboard
  | selection
  deriving DecidableEq, Repr

structure ClipboardCopy where
  target : ClipboardTarget
  text : Text
  deriving DecidableEq, Repr

structure Clipboard where
  serial : UInt32 := 0
  copy : Option ClipboardCopy := none
  deriving DecidableEq, Repr

def Clipboard.withoutText (c : Clipboard) : Clipboard := { serial := c.serial, copy := none }

/-- I8 for the clipboard: only its length is bounded. -/
def checkClipboard (c : Clipboard) : Checked :=
  checkSome (fun copy => refuse (copy.text.len > maxClipboard)
    (.textTooLong .clipboard copy.text.len maxClipboard)) c.copy

inductive Color where
  | default
  | idx (n : UInt8)
  | rgb (r g b : UInt8)
  deriving DecidableEq, Repr

/-- `bitflags` over a `u16`; the ninth bit is `WIDE_CONT`. -/
abbrev Attrs := UInt16

structure Cell where
  text : Text
  fg : Color
  bg : Color
  attrs : Attrs
  link : UInt16
  deriving DecidableEq, Repr

def Cell.blank : Cell :=
  { text := [' '], fg := .default, bg := .default, attrs := 0, link := 0 }

inductive CursorShape where
  | block
  | underline
  | bar
  deriving DecidableEq, Repr

structure Cursor where
  row : UInt16
  col : UInt16
  visible : Bool
  shape : CursorShape
  deriving DecidableEq, Repr

inductive MouseMode where
  | off
  | press
  | pressRelease
  | buttonMotion
  | anyMotion
  deriving DecidableEq, Repr

structure Modes where
  altScreen : Bool := false
  bracketedPaste : Bool := false
  mouse : MouseMode := .off
  appCursor : Bool := false
  appKeypad : Bool := false
  deriving DecidableEq, Repr

end Oxutrm.Proto
