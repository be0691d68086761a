import Mathlib.Data.List.TakeWhile
import Mathlib.Tactic.Common
import Oxutrm.Lib.Transducer

/-!
The guard between the PTY and the parser. It holds an OSC body back until it is
terminated, and drops one that went past the cap of its number. The loop takes a read
in slices; read byte by byte it is a machine that puts off the test of the cap until a
terminator, or the end of the read.
-/
namespace Oxutrm.Host

/-- The longest OSC body passed on. -/
def maxOscLen : Nat := 512 * 1024

def maxTitleOscLen : Nat := 2 * 1024

def maxLinkOscLen : Nat := 4 * 1024

namespace Byte

def bel : UInt8 := 0x07
def can : UInt8 := 0x18
def sub : UInt8 := 0x1a
def esc : UInt8 := 0x1b

/-- `]`. -/
def bracket : UInt8 := 0x5d

/-- `;`. -/
def semicolon : UInt8 := 0x3b

end Byte

/-- The bytes of the number so far, without the controls the parser leaves out. -/
def oscNumber (held : List UInt8) : List UInt8 :=
  (held.takeWhile (· != Byte.semicolon)).filter fun b => decide (0x20 ≤ b)

/-- The cap for the OSC whose body so far is `held`. -/
def limit (held : List UInt8) : Nat :=
  match oscNumber held with
  | [b] =>
      if b = 0x30 ∨ b = 0x31 ∨ b = 0x32 then maxTitleOscLen
      else if b = 0x38 then maxLinkOscLen
      else maxOscLen
  | _ => maxOscLen

def endsOsc (b : UInt8) : Bool :=
  b == Byte.bel || b == Byte.can || b == Byte.sub || b == Byte.esc

/-- The bytes that leave the guard in its escape state, as the ranges of the source. -/
def staysInEscape (b : UInt8) : Bool :=
  decide (b ≤ 0x17) || b == 0x19 || decide (0x1b ≤ b ∧ b ≤ 0x1f) || decide (0x7f ≤ b)

inductive OscGuard.State where
  | ground
  | escape
  | osc
  | discard
  deriving DecidableEq, Repr

structure OscGuard where
  state : OscGuard.State
  held : List UInt8
  deriving DecidableEq, Repr

namespace OscGuard

def new : OscGuard := ⟨.ground, []⟩

/-- A read in the middle of its loop: `pending` are the bytes from `start` to `i`, and
`rest` those from `i` on. -/
structure Feed where
  guard : OscGuard
  out : List UInt8
  pending : List UInt8
  rest : List UInt8
  deriving DecidableEq, Repr

/-- The state a terminator leaves behind. -/
def ended (b : UInt8) : State := if b = Byte.esc then .escape else .ground

/-- Nothing is added that would not fit even under the largest cap. -/
def extend (held body : List UInt8) : List UInt8 :=
  if held.length + body.length ≤ maxOscLen then held ++ body else held

/-- The part of a body that the read holds is added to what is held, or the whole of it
is given up. -/
def hold (g : OscGuard) (body : List UInt8) : OscGuard × List UInt8 :=
  if g.state = .osc then
    let fits := g.held.length + body.length ≤ maxOscLen
    let held := extend g.held body
    if ¬ fits ∨ held.length > limit held then (⟨.discard, []⟩, [Byte.can])
    else (⟨.osc, held⟩, [])
  else (g, [])

/-- The terminator goes on with what follows, except for a BEL that ends a dropped body. -/
def terminate (g : OscGuard) (b : UInt8) : OscGuard × List UInt8 × List UInt8 :=
  if g.state = .osc then (⟨ended b, []⟩, g.held, [b])
  else (⟨ended b, g.held⟩, [], if b = Byte.bel then [] else [b])

/-- One round of the loop, with bytes left. -/
def pass (f : Feed) : Feed :=
  match f.guard.state with
  | .ground =>
      match f.rest.dropWhile (· != Byte.esc) with
      | [] => { f with pending := f.pending ++ f.rest, rest := [] }
      | b :: rest =>
          { f with
            guard := { f.guard with state := .escape }
            pending := f.pending ++ f.rest.takeWhile (· != Byte.esc) ++ [b]
            rest := rest }
  | .escape =>
      match f.rest with
      | [] => f
      | b :: rest =>
          if b = Byte.bracket then
            { guard := { f.guard with state := .osc }
              out := f.out ++ (f.pending ++ [b])
              pending := []
              rest := rest }
          else if staysInEscape b then { f with pending := f.pending ++ [b], rest := rest }
          else
            { f with
              guard := { f.guard with state := .ground }
              pending := f.pending ++ [b]
              rest := rest }
  | .osc | .discard =>
      let body := f.rest.takeWhile fun b => !endsOsc b
      let (guard, aborted) := hold f.guard body
      match f.rest.dropWhile fun b => !endsOsc b with
      | [] => { guard := guard, out := f.out ++ aborted, pending := [], rest := [] }
      | b :: rest =>
          let (after, passed, pending) := terminate guard b
          { guard := after, out := f.out ++ aborted ++ passed, pending := pending, rest := rest }

/-- Every round takes at least a byte, so that as many rounds as bytes are enough. -/
def loop : Nat → Feed → Feed
  | 0, f => f
  | n + 1, f => if f.rest = [] then f else loop n (pass f)

/-- What is left at the end is handed over too. -/
def feed (g : OscGuard) (input : List UInt8) : OscGuard × List UInt8 :=
  let f := loop input.length ⟨g, [], [], input⟩
  (f.guard, f.out ++ f.pending ++ f.rest)

/-- One read after the other, and everything the sink was handed. -/
def feeds (g : OscGuard) (reads : List (List UInt8)) : OscGuard × List UInt8 :=
  Transducer.feed feed g reads

/-- The test that the end of a read makes of a body still open. -/
def settle (g : OscGuard) : OscGuard × List UInt8 := hold g []

/-- One byte, with the test of the cap put off until a terminator. -/
def scan (g : OscGuard) (b : UInt8) : OscGuard × List UInt8 :=
  match g.state with
  | .ground => (⟨if b = Byte.esc then .escape else .ground, g.held⟩, [b])
  | .escape =>
      (⟨if b = Byte.bracket then .osc else if staysInEscape b then .escape else .ground, g.held⟩, [b])
  | .osc =>
      if endsOsc b then
        ((terminate (settle g).1 b).1,
          (settle g).2 ++ (terminate (settle g).1 b).2.1 ++ (terminate (settle g).1 b).2.2)
      else (⟨.osc, g.held ++ [b]⟩, [])
  | .discard =>
      if endsOsc b then ((terminate g b).1, (terminate g b).2.1 ++ (terminate g b).2.2) else (g, [])

/-- A body that has outgrown the cap of its own number. -/
def Outgrown (body : List UInt8) : Prop := limit body < body.length

instance (body : List UInt8) : Decidable (Outgrown body) := inferInstanceAs (Decidable (_ < _))

theorem limit_le (held : List UInt8) : limit held ≤ maxOscLen := by
  unfold limit
  split
  · split
    · decide
    · split
      · decide
      · exact Nat.le_refl _
  · exact Nat.le_refl _

theorem title_le_limit (held : List UInt8) : maxTitleOscLen ≤ limit held := by
  unfold limit
  split
  · split
    · exact Nat.le_refl _
    · split <;> decide
  · decide

theorem Outgrown.two_le {body : List UInt8} (outgrown : Outgrown body) : 2 ≤ body.length :=
  Nat.le_trans (Nat.le_trans (by decide) (title_le_limit body)) (Nat.le_of_lt outgrown)

theorem Outgrown.ne_nil {body : List UInt8} (outgrown : Outgrown body) : body ≠ [] := by
  intro empty
  have long := outgrown.two_le
  rw [empty] at long
  exact absurd long (by decide)

/-- The first of the two tests of the source never decides anything on its own. -/
theorem hold_osc (held body : List UInt8) :
    hold ⟨.osc, held⟩ body =
      if Outgrown (held ++ body) then (⟨.discard, []⟩, [Byte.can]) else (⟨.osc, held ++ body⟩, []) := by
  have cap := limit_le (held ++ body)
  by_cases fits : held.length + body.length ≤ maxOscLen
  · simp [hold, extend, Outgrown, fits]
  · have long : Outgrown (held ++ body) := by
      rw [Outgrown, List.length_append]
      exact Nat.lt_of_le_of_lt cap (Nat.lt_of_not_le fits)
    simp [hold, fits, long]

theorem settle_osc (held : List UInt8) :
    settle ⟨.osc, held⟩ =
      if Outgrown held then (⟨.discard, []⟩, [Byte.can]) else (⟨.osc, held⟩, []) := by
  rw [settle, hold_osc, List.append_nil]

theorem settle_other {g : OscGuard} (other : g.state ≠ .osc) : settle g = (g, []) := by
  rw [settle, hold, if_neg other]

theorem settle_settle (g : OscGuard) : settle (settle g).1 = ((settle g).1, []) := by
  obtain ⟨state, held⟩ := g
  cases state with
  | osc =>
      rw [settle_osc]
      split
      next => exact settle_other nofun
      next within => rw [settle_osc, if_neg within]
  | ground | escape | discard => exact settle_other nofun

theorem hold_settle (held body : List UInt8) :
    hold ⟨.osc, held⟩ body = settle ⟨.osc, held ++ body⟩ := by
  rw [hold_osc, settle_osc]

theorem scan_text (held : List UInt8) {bytes : List UInt8} (plain : ∀ b ∈ bytes, b ≠ Byte.esc) :
    Transducer.feed scan ⟨.ground, held⟩ bytes = (⟨.ground, held⟩, bytes) := by
  induction bytes with
  | nil => rfl
  | cons b bytes ih =>
      have step : scan ⟨.ground, held⟩ b = (⟨.ground, held⟩, [b]) := by
        simp [scan, plain b List.mem_cons_self]
      rw [Transducer.feed_cons, step, ih fun c member => plain c (List.mem_cons_of_mem _ member)]
      rfl

theorem scan_body (held : List UInt8) {body : List UInt8} (open_ : ∀ b ∈ body, endsOsc b = false) :
    Transducer.feed scan ⟨.osc, held⟩ body = (⟨.osc, held ++ body⟩, []) := by
  induction body generalizing held with
  | nil => simp
  | cons b body ih =>
      have step : scan ⟨.osc, held⟩ b = (⟨.osc, held ++ [b]⟩, []) := by
        simp [scan, open_ b List.mem_cons_self]
      rw [Transducer.feed_cons, step, ih _ fun c member => open_ c (List.mem_cons_of_mem _ member)]
      simp

theorem scan_dropped (held : List UInt8) {body : List UInt8}
    (open_ : ∀ b ∈ body, endsOsc b = false) :
    Transducer.feed scan ⟨.discard, held⟩ body = (⟨.discard, held⟩, []) := by
  induction body with
  | nil => rfl
  | cons b body ih =>
      have step : scan ⟨.discard, held⟩ b = (⟨.discard, held⟩, []) := by
        simp [scan, open_ b List.mem_cons_self]
      rw [Transducer.feed_cons, step, ih fun c member => open_ c (List.mem_cons_of_mem _ member)]
      rfl

/-- What a read comes to, byte by byte. -/
def scanned (g : OscGuard) (input : List UInt8) : OscGuard × List UInt8 :=
  let r := Transducer.feed scan g input
  ((settle r.1).1, r.2 ++ (settle r.1).2)

theorem scanned_nil (g : OscGuard) : scanned g [] = settle g := by
  simp [scanned]

theorem scanned_append (g : OscGuard) (front back : List UInt8) :
    scanned g (front ++ back) =
      ((scanned (Transducer.feed scan g front).1 back).1,
        (Transducer.feed scan g front).2 ++ (scanned (Transducer.feed scan g front).1 back).2) := by
  simp [scanned, Transducer.feed_append]

theorem scanned_cons (g : OscGuard) (b : UInt8) (rest : List UInt8) :
    scanned g (b :: rest) = ((scanned (scan g b).1 rest).1, (scan g b).2 ++ (scanned (scan g b).1 rest).2) := by
  simp [scanned, Transducer.feed_cons]

/-- Nothing is held outside an OSC, and nothing too long inside one. -/
structure Sound (g : OscGuard) : Prop where
  empty : g.state ≠ .osc → g.held = []
  within : ¬ Outgrown g.held

theorem sound_new : new.Sound := ⟨fun _ => rfl, by decide⟩

theorem Sound.settle {g : OscGuard} (sound : g.Sound) : g.settle = (g, []) := by
  cases g with
  | mk state held =>
      cases state with
      | osc => rw [settle_osc, if_neg sound.within]
      | ground | escape | discard => exact settle_other nofun

theorem sound_empty (state : State) : Sound ⟨state, []⟩ := ⟨fun _ => rfl, by
  intro outgrown
  exact absurd rfl outgrown.ne_nil⟩

theorem sound_settle {g : OscGuard} (empty : g.state ≠ .osc → g.held = []) : (g.settle).1.Sound := by
  cases g with
  | mk state held =>
      cases state with
      | osc =>
          rw [settle_osc]
          split
          next => exact sound_empty _
          next within => exact ⟨fun other => absurd rfl other, within⟩
      | ground | escape | discard =>
          have none : held = [] := empty nofun
          rw [none, settle_other (by simp)]
          exact sound_empty _

/-- The loop between two rounds. -/
structure Feed.Sound (f : Feed) : Prop where
  guard : f.guard.Sound
  handed : f.guard.state = .osc ∨ f.guard.state = .discard → f.pending = []

/-- What the rest of a read comes to from the middle of its loop. -/
def Feed.total (f : Feed) : OscGuard × List UInt8 :=
  ((scanned f.guard f.rest).1, f.out ++ f.pending ++ (scanned f.guard f.rest).2)

theorem takeWhile_open (bytes : List UInt8) :
    ∀ b ∈ bytes.takeWhile fun b => !endsOsc b, endsOsc b = false := fun b member => by
  simpa using List.mem_takeWhile_imp member

/-- A round that loses nothing, keeps the loop in order and takes a byte at least. -/
structure Feed.Advances (f after : Feed) : Prop where
  total : after.total = f.total
  sound : after.Sound
  shorter : after.rest.length < f.rest.length

theorem dropWhile_cons {p : UInt8 → Bool} {bytes rest : List UInt8} {b : UInt8}
    (dropped : bytes.dropWhile p = b :: rest) : p b = false ∧ bytes = bytes.takeWhile p ++ b :: rest := by
  constructor
  · have stops := List.head?_dropWhile_not p bytes
    rw [dropped] at stops
    exact stops
  · rw [← dropped, List.takeWhile_append_dropWhile]

theorem dropWhile_nil {p : UInt8 → Bool} {bytes : List UInt8} (dropped : bytes.dropWhile p = []) :
    bytes.takeWhile p = bytes := by
  have split := List.takeWhile_append_dropWhile (p := p) (l := bytes)
  rw [dropped, List.append_nil] at split
  exact split

theorem length_of_split {bytes front rest : List UInt8} {b : UInt8} (split : bytes = front ++ b :: rest) :
    rest.length < bytes.length := by
  rw [split, List.length_append, List.length_cons]
  omega

theorem takeWhile_text (bytes : List UInt8) :
    ∀ b ∈ bytes.takeWhile (· != Byte.esc), b ≠ Byte.esc := fun b member => by
  simpa using List.mem_takeWhile_imp member

theorem pass_ground {f : Feed} (sound : f.Sound) (ground : f.guard.state = .ground) (more : f.rest ≠ []) :
    f.Advances (pass f) := by
  obtain ⟨⟨state, held⟩, out, pending, rest⟩ := f
  cases ground
  have none : held = [] := sound.guard.empty nofun
  cases none
  have text := scan_text [] (takeWhile_text rest)
  unfold pass
  dsimp only
  split
  next dropped =>
      rw [dropWhile_nil dropped] at text
      refine ⟨?_, ⟨sound.guard, nofun⟩, List.length_pos_iff.mpr more⟩
      simp [Feed.total, scanned, text, settle, hold]
  next b after dropped =>
      obtain ⟨stops, split⟩ := dropWhile_cons dropped
      have escape : b = Byte.esc := by simpa using stops
      refine ⟨?_, ⟨sound_empty _, nofun⟩, length_of_split split⟩
      have whole : scanned ⟨.ground, []⟩ rest =
          ((scanned ⟨.escape, []⟩ after).1,
            rest.takeWhile (· != Byte.esc) ++ b :: (scanned ⟨.escape, []⟩ after).2) := by
        conv => lhs; rw [split]
        rw [scanned_append, text, scanned_cons]
        simp [scan, escape]
      simp [Feed.total, whole]

theorem pass_escape {f : Feed} (sound : f.Sound) (escape : f.guard.state = .escape) (more : f.rest ≠ []) :
    f.Advances (pass f) := by
  obtain ⟨⟨state, held⟩, out, pending, rest⟩ := f
  cases escape
  have none : held = [] := sound.guard.empty nofun
  cases none
  cases rest with
  | nil => exact absurd rfl more
  | cons b rest =>
      unfold pass
      dsimp only
      split
      next opens =>
          refine ⟨?_, ⟨sound_empty _, fun _ => rfl⟩, Nat.lt_succ_self _⟩
          simp [Feed.total, scanned_cons, scan, opens]
      next other =>
          split
          next stays =>
              refine ⟨?_, ⟨sound_empty _, nofun⟩, Nat.lt_succ_self _⟩
              simp [Feed.total, scanned_cons, scan, other, stays]
          next leaves =>
              refine ⟨?_, ⟨sound_empty _, nofun⟩, Nat.lt_succ_self _⟩
              simp [Feed.total, scanned_cons, scan, other, leaves]

theorem terminate_sound {g : OscGuard} (empty : g.state ≠ .osc → g.held = []) (b : UInt8) :
    (terminate g b).1 = ⟨ended b, []⟩ := by
  unfold terminate
  split
  · rfl
  next other => rw [empty other]

theorem scan_ends {g : OscGuard} {b : UInt8} (inside : g.state = .osc ∨ g.state = .discard)
    (ends : endsOsc b = true) :
    scan g b =
      ((terminate (settle g).1 b).1,
        (settle g).2 ++ (terminate (settle g).1 b).2.1 ++ (terminate (settle g).1 b).2.2) := by
  cases inside with
  | inl osc => simp [scan, osc, ends]
  | inr discard =>
      have settled := @settle_other g (by rw [discard]; nofun)
      simp [scan, discard, ends, settled]

theorem hold_scan {g : OscGuard} (sound : g.Sound) (inside : g.state = .osc ∨ g.state = .discard)
    {body : List UInt8} (open_ : ∀ b ∈ body, endsOsc b = false) :
    ∃ h : OscGuard, (h.state = .osc ∨ h.state = .discard) ∧ (h.settle).1.Sound ∧
      Transducer.feed scan g body = (h, []) ∧ hold g body = h.settle := by
  obtain ⟨state, held⟩ := g
  cases inside with
  | inl osc =>
      cases osc
      refine ⟨⟨.osc, held ++ body⟩, .inl rfl, ?_, scan_body held open_, hold_settle held body⟩
      exact sound_settle fun other => absurd rfl other
  | inr discard =>
      cases discard
      refine ⟨⟨.discard, held⟩, .inr rfl, ?_, scan_dropped held open_, rfl⟩
      rw [sound.settle]
      exact sound

theorem ended_outside (b : UInt8) : ¬ (ended b = .osc ∨ ended b = .discard) := by
  unfold ended
  split <;> nofun

/-- The slice is held or given up, and then terminated if the read has its end. -/
theorem pass_body {f : Feed} (sound : f.Sound)
    (inside : f.guard.state = .osc ∨ f.guard.state = .discard) (more : f.rest ≠ []) :
    f.Advances (pass f) := by
  obtain ⟨h, within, settled, body, held⟩ := hold_scan sound.guard inside (takeWhile_open f.rest)
  have none := sound.handed inside
  have round : pass f =
      match f.rest.dropWhile fun b => !endsOsc b with
      | [] => ⟨(h.settle).1, f.out ++ (h.settle).2, [], []⟩
      | b :: rest =>
          ⟨(terminate (h.settle).1 b).1, f.out ++ (h.settle).2 ++ (terminate (h.settle).1 b).2.1,
            (terminate (h.settle).1 b).2.2, rest⟩ := by
    cases inside with
    | inl osc => simp only [pass, osc, held]
    | inr discard => simp only [pass, discard, held]
  rw [round]
  split
  next dropped =>
      rw [dropWhile_nil dropped] at body
      refine ⟨?_, ⟨settled, fun _ => rfl⟩, List.length_pos_iff.mpr more⟩
      simp [Feed.total, settled.settle, scanned, body, none]
  next b rest dropped =>
      obtain ⟨stops, split⟩ := dropWhile_cons dropped
      have ends : endsOsc b = true := by simpa using stops
      have ended := terminate_sound settled.empty b
      refine ⟨?_, ⟨by rw [ended]; exact sound_empty _, ?_⟩, length_of_split split⟩
      · have whole : scanned f.guard f.rest = scanned f.guard _ := congrArg (scanned f.guard) split
        rw [scanned_append, body, scanned_cons, scan_ends within ends] at whole
        simp [Feed.total, whole, none]
      · rw [ended]
        exact fun here => absurd here (ended_outside b)

theorem pass_scan {f : Feed} (sound : f.Sound) (more : f.rest ≠ []) : f.Advances (pass f) := by
  cases state : f.guard.state with
  | ground => exact pass_ground sound state more
  | escape => exact pass_escape sound state more
  | osc => exact pass_body sound (.inl state) more
  | discard => exact pass_body sound (.inr state) more

theorem length_extend {held : List UInt8} (bounded : held.length ≤ maxOscLen) (body : List UInt8) :
    (extend held body).length ≤ maxOscLen := by
  unfold extend
  split
  next fits => rwa [List.length_append]
  next => exact bounded

theorem Sound.length_held {g : OscGuard} (sound : g.Sound) : g.held.length ≤ maxOscLen :=
  Nat.le_trans (Nat.le_of_not_lt sound.within) (limit_le g.held)

theorem loop_sound (n : Nat) {f : Feed} (sound : f.Sound) : (loop n f).Sound := by
  induction n generalizing f with
  | zero => exact sound
  | succ n ih =>
      rw [loop]
      split
      next => exact sound
      next more => exact ih (pass_scan sound more).sound

theorem loop_scan {n : Nat} {f : Feed} (sound : f.Sound) (enough : f.rest.length ≤ n) :
    (loop n f).rest = [] ∧ (loop n f).total = f.total := by
  induction n generalizing f with
  | zero => exact ⟨List.length_eq_zero_iff.mp (Nat.le_zero.mp enough), rfl⟩
  | succ n ih =>
      rw [loop]
      split
      next done => exact ⟨done, rfl⟩
      next more =>
          have round := pass_scan sound more
          obtain ⟨done, same⟩ := ih round.sound (by have := round.shorter; omega)
          exact ⟨done, same.trans round.total⟩

/-- The slices of a read come to what its bytes do one after the other. -/
theorem feed_eq_scanned {g : OscGuard} (sound : g.Sound) (input : List UInt8) :
    feed g input = scanned g input ∧ (feed g input).1.Sound := by
  have start : Feed.Sound ⟨g, [], [], input⟩ := ⟨sound, fun _ => rfl⟩
  obtain ⟨done, same⟩ := loop_scan start (Nat.le_refl input.length)
  have after := loop_sound input.length start
  refine ⟨?_, after.guard⟩
  simp only [Feed.total, done, scanned_nil, after.guard.settle, List.append_nil, List.nil_append] at same
  simp only [feed, done, List.append_nil]
  exact same

end OscGuard
end Oxutrm.Host
