import Oxutrm.Vt.Terminal
import Oxutrm.Vt.Utf8

/-!
The characters of a command, and the parsers that read it back. A parser is any
machine that keeps to ECMA-48 on the sequences written here; what it does with
everything else is left open.
-/
namespace Oxutrm.Vt
open Transducer

def bel : Char := Char.ofNat 0x07

def esc : Char := Char.ofNat 0x1b

/-- C0, DEL and C1. -/
def isControl (c : Char) : Bool := decide (c.toNat < 0x20 ∨ 0x7f ≤ c.toNat ∧ c.toNat < 0xa0)

/-- The private markers of a control sequence. -/
def isMark (c : Char) : Bool := decide (0x3c ≤ c.toNat ∧ c.toNat < 0x40)

def isParam (c : Char) : Bool := c.isDigit || decide (c = ';')

def isInter (c : Char) : Bool := decide (0x20 ≤ c.toNat ∧ c.toNat < 0x30)

def isFinal (c : Char) : Bool := decide (0x40 ≤ c.toNat ∧ c.toNat < 0x7f)

/-- Decimal parameters between semicolons. -/
def joined : List Nat → Text
  | [] => []
  | [n] => Nat.toDigits 10 n
  | n :: m :: rest => Nat.toDigits 10 n ++ ';' :: joined (m :: rest)

/-- The parameters of a text, the first of which has the digits of `value` before it. -/
def fields (value : Nat) : Text → List Nat
  | [] => [value]
  | c :: rest => if c = ';' then value :: fields 0 rest
      else fields (10 * value + (c.toNat - '0'.toNat)) rest

def numbers (text : Text) : List Nat := if text = [] then [] else fields 0 text

namespace Command

def chars : Command → Text
  | .text t => t
  | .control c => [c]
  | .escape c => [esc, c]
  | .csi marks params inter final => esc :: '[' :: (marks ++ joined params ++ inter ++ [final])
  | .osc payload => esc :: ']' :: (payload ++ [bel])

/-- A text is read one character at a time. -/
def spelled : Command → List Command
  | .text t => t.map fun c => .text [c]
  | .control c => [.control c]
  | .escape c => [.escape c]
  | .csi marks params inter final => [.csi marks params inter final]
  | .osc payload => [.osc payload]

/-- What stands between the delimiters of the command cannot be taken for one. -/
def Framed : Command → Prop
  | .text t => ∀ c ∈ t, isControl c = false
  | .control c => c = bel
  | .escape _ => False
  | .csi marks _ inter final =>
      (∀ c ∈ marks, isMark c = true) ∧ (∀ c ∈ inter, isInter c = true) ∧ isFinal final = true
  | .osc payload => ∀ c ∈ payload, isControl c = false

end Command

/-- What is written for a list of commands. -/
def script (commands : List Command) : Text := commands.flatMap Command.chars

def written (commands : List Command) : List UInt8 := Utf8.encode (script commands)

def spelling (commands : List Command) : List Command := commands.flatMap Command.spelled

/-- A machine that keeps to ECMA-48 inside a control sequence and an OSC string, and
that takes BEL for the end of the latter. -/
structure Parser (σ : Type) where
  ground : σ
  escape : σ
  csi : Text → Text → Text → σ
  osc : Text → σ
  step : σ → Char → σ × List Command
  prints : ∀ c, isControl c = false → step ground c = (ground, [.text [c]])
  rings : step ground bel = (ground, [.control bel])
  escapes : step ground esc = (escape, [])
  introduces : step escape '[' = (csi [] [] [], [])
  opens : step escape ']' = (osc [], [])
  marks : ∀ m c, isMark c = true → step (csi m [] []) c = (csi (m ++ [c]) [] [], [])
  params : ∀ m p c, isParam c = true → step (csi m p []) c = (csi m (p ++ [c]) [], [])
  inters : ∀ m p i c, isInter c = true → step (csi m p i) c = (csi m p (i ++ [c]), [])
  dispatches : ∀ m p i c, isFinal c = true → step (csi m p i) c = (ground, [.csi m (numbers p) i c])
  listens : ∀ payload c, isControl c = false → step (osc payload) c = (osc (payload ++ [c]), [])
  ends : ∀ payload, step (osc payload) bel = (ground, [.osc payload])

theorem fields_digits (value : Nat) (digits rest : Text) (plain : ∀ c ∈ digits, c.isDigit = true) :
    fields value (digits ++ rest) = fields (Nat.ofDigitChars 10 digits value) rest := by
  induction digits generalizing value with
  | nil => rfl
  | cons c digits ih =>
      have digit := plain c List.mem_cons_self
      have other : c ≠ ';' := fun same => by
        rw [same] at digit
        exact absurd digit (by decide)
      rw [List.cons_append, fields, if_neg other,
        ih _ fun d member => plain d (List.mem_cons_of_mem _ member), Nat.ofDigitChars_cons]

theorem toDigits_digits (n : Nat) : ∀ c ∈ Nat.toDigits 10 n, c.isDigit = true := fun _ member =>
  Nat.isDigit_of_mem_toDigits (by decide) (by decide) member

theorem joined_params (params : List Nat) : ∀ c ∈ joined params, isParam c = true := by
  have digits : ∀ n, ∀ c ∈ Nat.toDigits 10 n, isParam c = true := fun n c member => by
    rw [isParam, toDigits_digits n c member, Bool.true_or]
  fun_induction joined params with
  | case1 => exact fun c none => absurd none List.not_mem_nil
  | case2 n => exact digits n
  | case3 n m rest ih =>
      intro c member
      rw [List.mem_append, List.mem_cons] at member
      rcases member with digit | rfl | later
      · exact digits n c digit
      · decide
      · exact ih c later

theorem fields_joined (n : Nat) (rest : List Nat) : fields 0 (joined (n :: rest)) = n :: rest := by
  induction rest generalizing n with
  | nil =>
      have read := fields_digits 0 (Nat.toDigits 10 n) [] (toDigits_digits n)
      rw [List.append_nil] at read
      rw [joined, read, Nat.ofDigitChars_ten_toDigits, fields]
  | cons m rest ih =>
      rw [joined, fields_digits 0 _ _ (toDigits_digits n), Nat.ofDigitChars_ten_toDigits, fields,
        if_pos rfl, ih]

theorem numbers_joined (params : List Nat) : numbers (joined params) = params := by
  cases params with
  | nil => rfl
  | cons n rest =>
      have some : joined (n :: rest) ≠ [] := by
        cases rest with
        | nil => exact Nat.toDigits_ne_nil
        | cons m rest => simp [joined]
      rw [numbers, if_neg some, fields_joined]

namespace Parser
variable {σ : Type} (P : Parser σ)

theorem feed_text (text : Text) (plain : ∀ c ∈ text, isControl c = false) :
    feed P.step P.ground text = (P.ground, text.map fun c => .text [c]) := by
  induction text with
  | nil => rfl
  | cons c text ih =>
      rw [feed_cons, P.prints c (plain c List.mem_cons_self),
        ih fun d member => plain d (List.mem_cons_of_mem _ member)]
      rfl

theorem feed_marks (m more : Text) (marks : ∀ c ∈ more, isMark c = true) :
    feed P.step (P.csi m [] []) more = (P.csi (m ++ more) [] [], []) := by
  induction more generalizing m with
  | nil => rw [feed_nil, List.append_nil]
  | cons c more ih =>
      rw [feed_cons, P.marks m c (marks c List.mem_cons_self),
        ih _ fun d member => marks d (List.mem_cons_of_mem _ member)]
      simp only [List.append_assoc, List.cons_append, List.nil_append]

theorem feed_params (m p more : Text) (params : ∀ c ∈ more, isParam c = true) :
    feed P.step (P.csi m p []) more = (P.csi m (p ++ more) [], []) := by
  induction more generalizing p with
  | nil => rw [feed_nil, List.append_nil]
  | cons c more ih =>
      rw [feed_cons, P.params m p c (params c List.mem_cons_self),
        ih _ fun d member => params d (List.mem_cons_of_mem _ member)]
      simp only [List.append_assoc, List.cons_append, List.nil_append]

theorem feed_inters (m p i more : Text) (inters : ∀ c ∈ more, isInter c = true) :
    feed P.step (P.csi m p i) more = (P.csi m p (i ++ more), []) := by
  induction more generalizing i with
  | nil => rw [feed_nil, List.append_nil]
  | cons c more ih =>
      rw [feed_cons, P.inters m p i c (inters c List.mem_cons_self),
        ih _ fun d member => inters d (List.mem_cons_of_mem _ member)]
      simp only [List.append_assoc, List.cons_append, List.nil_append]

theorem feed_payload (payload more : Text) (plain : ∀ c ∈ more, isControl c = false) :
    feed P.step (P.osc payload) more = (P.osc (payload ++ more), []) := by
  induction more generalizing payload with
  | nil => rw [feed_nil, List.append_nil]
  | cons c more ih =>
      rw [feed_cons, P.listens payload c (plain c List.mem_cons_self),
        ih _ fun d member => plain d (List.mem_cons_of_mem _ member)]
      simp only [List.append_assoc, List.cons_append, List.nil_append]

theorem feed_command {c : Command} (framed : c.Framed) :
    feed P.step P.ground c.chars = (P.ground, c.spelled) := by
  cases c with
  | text text => exact P.feed_text text framed
  | control c =>
      cases (framed : c = bel)
      simp only [Command.chars, Command.spelled, feed_cons, P.rings, feed_nil, List.append_nil]
  | escape c => exact False.elim framed
  | csi marks params inter final =>
      obtain ⟨marked, inters, final'⟩ := framed
      have run : feed P.step (P.csi [] [] []) (marks ++ joined params ++ inter ++ [final]) =
          (P.ground, [.csi marks params inter final]) := by
        simp only [feed_append, P.feed_marks [] marks marked, List.nil_append,
          P.feed_params marks [] _ (joined_params params), P.feed_inters marks _ [] inter inters,
          feed_cons, feed_nil, P.dispatches _ _ _ final final', numbers_joined, List.append_nil]
      simp only [Command.chars, Command.spelled, feed_cons, P.escapes, P.introduces, run,
        List.nil_append]
  | osc payload =>
      have run : feed P.step (P.osc []) (payload ++ [bel]) = (P.ground, [.osc payload]) := by
        simp only [feed_append, P.feed_payload [] payload framed, List.nil_append, feed_cons,
          feed_nil, P.ends, List.append_nil]
      simp only [Command.chars, Command.spelled, feed_cons, P.escapes, P.opens, run, List.nil_append]

theorem feed_script {commands : List Command} (framed : ∀ c ∈ commands, c.Framed) :
    feed P.step P.ground (script commands) = (P.ground, spelling commands) := by
  induction commands with
  | nil => rfl
  | cons c commands ih =>
      have rest := ih fun d member => framed d (List.mem_cons_of_mem _ member)
      simp only [script, spelling, List.flatMap_cons, feed_append,
        P.feed_command (framed c List.mem_cons_self)] at rest ⊢
      simp only [rest]

/-- Bytes are decoded, then parsed. -/
def parse (state : List UInt8 × σ) (bytes : List UInt8) : (List UInt8 × σ) × List Command :=
  feed (chain Utf8.step P.step) state bytes

theorem parse_written {commands : List Command} (framed : ∀ c ∈ commands, c.Framed) :
    P.parse ([], P.ground) (written commands) = (([], P.ground), spelling commands) := by
  rw [parse, written, feed_chain, Utf8.feed_encode, P.feed_script framed]

end Parser
end Oxutrm.Vt
