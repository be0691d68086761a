import Oxutrm.Vt.Parser

/-!
A parser that is complete. ESC aborts a control sequence and ends a string, and the
C1 forms of CSI, OSC and ST are taken for them. What it did with the part of a script
that was written before it was cut off is known from the whole.
-/
namespace Oxutrm.Vt.Ansi
open Transducer

inductive Phase where
  | ground
  | escape
  | csi (marks params inter : Text)
  | ignore
  | osc (payload : Text)
  deriving DecidableEq, Repr

def csi8 : Char := Char.ofNat 0x9b

def osc8 : Char := Char.ofNat 0x9d

def st8 : Char := Char.ofNat 0x9c

/-- A string that is cut off is taken as far as it went. -/
def Phase.flush : Phase → List Command
  | .osc payload => [.osc payload]
  | .ground | .escape | .csi _ _ _ | .ignore => []

def inside (marks params inter : Text) (c : Char) : Phase × List Command :=
  if isFinal c then (.ground, [.csi marks (numbers params) inter c])
  else if isInter c then (.csi marks params (inter ++ [c]), [])
  else if isParam c ∧ inter = [] then (.csi marks (params ++ [c]) inter, [])
  else if isMark c ∧ params = [] ∧ inter = [] then (.csi (marks ++ [c]) params inter, [])
  else if isControl c then (.csi marks params inter, [.control c])
  else (.ignore, [])

def step (phase : Phase) (c : Char) : Phase × List Command :=
  if c = esc then (.escape, phase.flush)
  else if c = csi8 then (.csi [] [] [], phase.flush)
  else if c = osc8 then (.osc [], phase.flush)
  else if c = st8 then (.ground, phase.flush)
  else
    match phase with
    | .ground => (.ground, [if isControl c then .control c else .text [c]])
    | .escape =>
        if c = '[' then (.csi [] [] [], [])
        else if c = ']' then (.osc [], [])
        else if isControl c then (.escape, [.control c])
        else (.ground, [.escape c])
    | .csi marks params inter => inside marks params inter c
    | .ignore => (if isFinal c then .ground else .ignore, [])
    | .osc payload =>
        if c = bel then (.ground, [.osc payload])
        else if isControl c then (.osc payload, [])
        else (.osc (payload ++ [c]), [])

theorem step_plain (phase : Phase) {c : Char} (plain : isControl c = false) :
    step phase c = match phase with
      | .ground => (.ground, [.text [c]])
      | .escape =>
          if c = '[' then (.csi [] [] [], [])
          else if c = ']' then (.osc [], [])
          else (.ground, [.escape c])
      | .csi marks params inter => inside marks params inter c
      | .ignore => (if isFinal c then .ground else .ignore, [])
      | .osc payload => (.osc (payload ++ [c]), []) := by
  have other : ∀ d, isControl d = true → c ≠ d := fun d control same => by
    rw [same, control] at plain
    cases plain
  have notEsc := other esc (by decide)
  have notCsi := other csi8 (by decide)
  have notOsc := other osc8 (by decide)
  have notSt := other st8 (by decide)
  have notBel := other bel (by decide)
  cases phase with
  | osc payload =>
      simp only [step, notEsc, notCsi, notOsc, notSt, notBel, plain, Bool.false_eq_true, if_false]
  | _ => simp only [step, notEsc, notCsi, notOsc, notSt, plain, Bool.false_eq_true, if_false]

theorem plain_of_range {c : Char} (low : 0x20 ≤ c.toNat) (high : c.toNat < 0x7f) :
    isControl c = false := by
  rw [isControl, decide_eq_false_iff_not]
  omega

theorem isParam_range {c : Char} (param : isParam c = true) : 0x30 ≤ c.toNat ∧ c.toNat < 0x3c := by
  cases (Bool.or_eq_true _ _).mp param with
  | inl digit =>
      simp only [Char.isDigit, Bool.and_eq_true, decide_eq_true_eq, UInt32.le_iff_toNat_le] at digit
      have low : 48 ≤ c.toNat := digit.1
      have high : c.toNat ≤ 57 := digit.2
      omega
  | inr semicolon =>
      rw [of_decide_eq_true semicolon]
      decide

/-- The machine keeps to ECMA-48. -/
def parser : Parser Phase where
  ground := .ground
  escape := .escape
  csi := .csi
  osc := .osc
  step := step
  prints := fun c plain => step_plain .ground plain
  rings := by decide
  escapes := by decide
  introduces := by decide
  opens := by decide
  marks := fun m c mark => by
    have range := of_decide_eq_true mark
    rw [step_plain _ (plain_of_range (by omega) (by omega))]
    have final : isFinal c = false := decide_eq_false (by omega)
    have inter : isInter c = false := decide_eq_false (by omega)
    have param : ¬ isParam c = true := fun param => by
      have := isParam_range param
      omega
    simp only [inside, final, inter, param, mark, Bool.false_eq_true, if_false, false_and,
      and_self, if_true]
  params := fun m p c param => by
    have range := isParam_range param
    rw [step_plain _ (plain_of_range (by omega) (by omega))]
    have final : isFinal c = false := decide_eq_false (by omega)
    have inter : isInter c = false := decide_eq_false (by omega)
    simp only [inside, final, inter, param, Bool.false_eq_true, if_false, and_self, if_true]
  inters := fun m p i c inter => by
    have range := of_decide_eq_true inter
    rw [step_plain _ (plain_of_range (by omega) (by omega))]
    have final : isFinal c = false := decide_eq_false (by omega)
    simp only [inside, final, inter, Bool.false_eq_true, if_false, if_true]
  dispatches := fun m p i c final => by
    have range := of_decide_eq_true final
    rw [step_plain _ (plain_of_range (by omega) (by omega))]
    simp only [inside, final, if_true]
  listens := fun payload c plain => step_plain (.osc payload) plain
  ends := fun payload => rfl

def isSequence : Command → Bool
  | .csi _ _ _ _ => true
  | .text _ | .control _ | .escape _ | .osc _ => false

theorem flush_stray (phase : Phase) : ∀ c ∈ phase.flush, isSequence c = false := by
  cases phase with
  | osc payload => exact List.forall_mem_singleton.mpr rfl
  | _ => exact fun c none => absurd none List.not_mem_nil

theorem step_bad_stray (phase : Phase) : ∀ c ∈ (step phase Utf8.bad).2, isSequence c = false := by
  cases phase with
  | csi marks params inter =>
      have nothing : (step (.csi marks params inter) Utf8.bad).2 = [] := by
        have param : isParam Utf8.bad = false := by decide
        have mark : isMark Utf8.bad = false := by decide
        rw [step_plain _ (by decide)]
        simp only [inside, show isFinal Utf8.bad = false by decide,
          show isInter Utf8.bad = false by decide, show isControl Utf8.bad = false by decide, param,
          mark, Bool.false_eq_true, false_and, if_false]
      rw [nothing]
      exact fun c none => absurd none List.not_mem_nil
  | ground | escape => exact List.forall_mem_singleton.mpr rfl
  | ignore | osc payload => exact fun c none => absurd none List.not_mem_nil

/-- ESC starts afresh, wherever the parser was. Nothing it ends is a control sequence. -/
theorem parse_esc (state : List UInt8 × Phase) : ∃ stray,
    parser.parse state [0x1b] = (([], .escape), stray) ∧ ∀ c ∈ stray, isSequence c = false := by
  obtain ⟨pending, phase⟩ := state
  have escaped : ∀ phase, step phase esc = (.escape, phase.flush) := fun phase => rfl
  have byte : Utf8.read [0x1b] = esc := by decide +kernel
  have decoded := Utf8.step_ascii pending (b := 0x1b) (by decide)
  rw [byte] at decoded
  rw [Parser.parse, feed_cons, feed_nil, chain, decoded]
  change ∃ stray, ((([], (feed step phase ((if pending = [] then [] else [Utf8.bad]) ++ [esc])).1),
    (feed step phase ((if pending = [] then [] else [Utf8.bad]) ++ [esc])).2 ++ []) :
      (List UInt8 × Phase) × List Command) = _ ∧ _
  split
  · refine ⟨_, rfl, ?_⟩
    simpa only [List.nil_append, feed_cons, feed_nil, escaped, List.append_nil] using
      flush_stray phase
  · refine ⟨_, rfl, ?_⟩
    simpa only [List.cons_append, List.nil_append, feed_cons, feed_nil, escaped, List.append_nil,
      List.forall_mem_append] using And.intro (step_bad_stray phase) (flush_stray _)

/-- What starts with ESC is parsed alike from everywhere, but for what it ends. -/
theorem parse_resumes (state : List UInt8 × Phase) (bytes : List UInt8) : ∃ stray,
    parser.parse state (0x1b :: bytes) =
        ((parser.parse ([], .ground) (0x1b :: bytes)).1,
          stray ++ (parser.parse ([], .ground) (0x1b :: bytes)).2) ∧
      ∀ c ∈ stray, isSequence c = false := by
  obtain ⟨stray, escaped, plain⟩ := parse_esc state
  have fresh : parser.parse ([], .ground) [0x1b] = (([], .escape), []) := by decide +kernel
  refine ⟨stray, ?_, plain⟩
  rw [show 0x1b :: bytes = [0x1b] ++ bytes from rfl]
  simp only [Parser.parse] at escaped fresh ⊢
  rw [feed_append, feed_append, escaped, fresh, List.nil_append]

theorem written_cons_esc (rest : Text) : Utf8.encode (esc :: rest) = 0x1b :: Utf8.encode rest := rfl

theorem mem_of_mem_spelling {commands : List Command} {c : Command}
    (member : c ∈ spelling commands) (sequence : isSequence c = true) : c ∈ commands := by
  obtain ⟨d, inside, spelled⟩ := List.mem_flatMap.mp member
  cases d with
  | text text =>
      obtain ⟨char, -, rfl⟩ := List.mem_map.mp spelled
      cases sequence
  | control _ | escape _ | csi _ _ _ _ | osc _ =>
      rw [List.mem_singleton.mp spelled]
      exact inside

/-- Every control sequence read from the beginning of a script is one of its commands. -/
theorem parse_cut {commands : List Command} (framed : ∀ c ∈ commands, c.Framed) {rest : Text}
    (begins : script commands = esc :: rest) {bytes : List UInt8} (cut : bytes <+: written commands)
    (state : List UInt8 × Phase) {c : Command} (read : c ∈ (parser.parse state bytes).2)
    (sequence : isSequence c = true) : c ∈ commands := by
  rw [written, begins, written_cons_esc] at cut
  cases bytes with
  | nil => exact absurd read List.not_mem_nil
  | cons b bytes =>
      obtain ⟨rfl, -⟩ := List.cons_prefix_cons.mp cut
      obtain ⟨stray, resumed, plain⟩ := parse_resumes state bytes
      rw [resumed] at read
      cases List.mem_append.mp read with
      | inl ended =>
          rw [plain c ended] at sequence
          cases sequence
      | inr own =>
          refine mem_of_mem_spelling ?_ sequence
          have whole : feed (chain Utf8.step parser.step) ([], .ground) (written commands) =
              (([], .ground), spelling commands) := parser.parse_written framed
          rw [written, begins, written_cons_esc] at whole
          have earlier := (feed_isPrefix (chain Utf8.step parser.step) ([], .ground) cut).subset own
          rw [whole] at earlier
          exact earlier

end Oxutrm.Vt.Ansi
