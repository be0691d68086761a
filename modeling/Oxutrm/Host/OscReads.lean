import Mathlib.Data.List.ReduceOption
import Oxutrm.Host.OscGuard

/-!
What the guard makes of a stream, however it is cut into reads. The reference is a parser
that knows escapes and OSC bodies and nothing else. A body is tested at its end and at
each cut, under the cap of the number as it stands there.
-/
namespace Oxutrm.Host

/-- Where a parser stands in a stream. -/
inductive Phase where
  | ground
  | escape
  | osc (body : List UInt8)
  deriving DecidableEq, Repr

namespace Phase

/-- The bytes an escape survives: the C0 controls but CAN and SUB, DEL, and all from 0x80. -/
def survives (b : UInt8) : Bool :=
  (decide (b < 0x20) && b != Byte.can && b != Byte.sub) || decide (0x7f ≤ b)

section Reference
variable (stays : UInt8 → Bool)

def next : Phase → UInt8 → Phase
  | .ground, b => if b = Byte.esc then .escape else .ground
  | .escape, b => if b = Byte.bracket then .osc [] else if stays b then .escape else .ground
  | .osc body, b =>
      if endsOsc b then if b = Byte.esc then .escape else .ground else .osc (body ++ [b])

def after (phase : Phase) (stream : List UInt8) : Phase := stream.foldl (next stays) phase

/-- The body that a byte ends. -/
def ending : Phase → UInt8 → List (List UInt8)
  | .osc body, b => if endsOsc b then [body] else []
  | _, _ => []

/-- The bodies of a stream that have their terminator. -/
def closed : Phase → List UInt8 → List (List UInt8)
  | _, [] => []
  | phase, b :: stream => ending phase b ++ closed (next stays phase b) stream

/-- All the bodies of a stream, the last of them with or without a terminator. -/
def bodies : Phase → List UInt8 → List (List UInt8)
  | .osc body, [] => [body]
  | _, [] => []
  | phase, b :: stream => ending phase b ++ bodies (next stays phase b) stream

end Reference

theorem staysInEscape_eq (b : UInt8) : staysInEscape b = survives b := by
  rw [Bool.eq_iff_iff]
  simp [staysInEscape, survives, Byte.can, Byte.sub, UInt8.le_iff_toNat_le, UInt8.lt_iff_toNat_lt,
    ← UInt8.toNat_inj]
  omega

/-- The guard that has seen as much and put off every test. -/
def deferred : Phase → OscGuard
  | .ground => ⟨.ground, []⟩
  | .escape => ⟨.escape, []⟩
  | .osc body => ⟨.osc, body⟩

end Phase

namespace OscGuard
open Phase

theorem deferred_ended (b : UInt8) : (if b = Byte.esc then Phase.escape else .ground).deferred = ⟨ended b, []⟩ := by
  unfold ended
  split <;> rfl

theorem scan_end (body : List UInt8) {b : UInt8} (ends : endsOsc b = true) :
    scan ⟨.osc, body⟩ b =
      (⟨ended b, []⟩,
        if Outgrown body then Byte.can :: if b = Byte.bel then [] else [b] else body ++ [b]) := by
  rw [scan_ends (.inl rfl) ends, settle_osc]
  split <;> simp [terminate]

theorem scan_end_dropped {b : UInt8} (ends : endsOsc b = true) :
    scan ⟨.discard, []⟩ b = (⟨ended b, []⟩, if b = Byte.bel then [] else [b]) := by
  simp [scan, ends, terminate]

theorem scan_more (body : List UInt8) {b : UInt8} (open_ : endsOsc b = false) :
    scan ⟨.osc, body⟩ b = (⟨.osc, body ++ [b]⟩, []) := by
  simp [scan, open_]

theorem scan_more_dropped {b : UInt8} (open_ : endsOsc b = false) :
    scan ⟨.discard, []⟩ b = (⟨.discard, []⟩, []) := by
  simp [scan, open_]

theorem scan_deferred (phase : Phase) (b : UInt8) :
    (scan phase.deferred b).1 = (next survives phase b).deferred := by
  cases phase with
  | ground =>
      simp only [scan, deferred, next]
      split <;> rfl
  | escape =>
      simp only [scan, deferred, next, staysInEscape_eq]
      split
      · rfl
      · split <;> rfl
  | osc body =>
      rw [deferred, next]
      split
      next ends => rw [scan_end body ends, deferred_ended]
      next more => rw [scan_more body (by simpa using more), deferred]

theorem feed_deferred (phase : Phase) (stream : List UInt8) :
    (Transducer.feed scan phase.deferred stream).1 = (after survives phase stream).deferred := by
  induction stream generalizing phase with
  | nil => rfl
  | cons b stream ih =>
      rw [Transducer.feed_cons, scan_deferred, ih]
      rfl

/-- A byte, or the end of a read. -/
def act (g : OscGuard) : Option UInt8 → OscGuard × List UInt8
  | some b => scan g b
  | none => settle g

/-- The bytes of the reads, with a mark after each read. -/
def marked (reads : List (List UInt8)) : List (Option UInt8) :=
  reads.flatMap fun read => read.map some ++ [none]

/-- Bytes and cuts, and a last cut at the end of it all. -/
def passed (g : OscGuard) (events : List (Option UInt8)) : OscGuard × List UInt8 :=
  Transducer.feed act g (events ++ [none])

theorem passed_nil (g : OscGuard) : passed g [] = settle g := by
  simp [passed, Transducer.feed_cons, act]

theorem passed_cons (g : OscGuard) (e : Option UInt8) (events : List (Option UInt8)) :
    passed g (e :: events) =
      ((passed (act g e).1 events).1, (act g e).2 ++ (passed (act g e).1 events).2) := rfl

theorem feed_act_some (g : OscGuard) (stream : List UInt8) :
    Transducer.feed act g (stream.map some) = Transducer.feed scan g stream := by
  induction stream generalizing g with
  | nil => rfl
  | cons b stream ih => simp only [List.map_cons, Transducer.feed_cons, act, ih]

theorem passed_append (g : OscGuard) (stream : List UInt8) (events : List (Option UInt8)) :
    passed g (stream.map some ++ events) =
      ((passed (Transducer.feed scan g stream).1 events).1,
        (Transducer.feed scan g stream).2 ++ (passed (Transducer.feed scan g stream).1 events).2) := by
  simp only [passed, List.append_assoc, Transducer.feed_append, feed_act_some]

theorem passed_last (g : OscGuard) (stream : List UInt8) :
    passed g (stream.map some ++ [none]) = passed g (stream.map some) := by
  have whole := passed_append g stream []
  rw [List.append_nil] at whole
  rw [passed_append, whole, passed_cons, passed_nil, passed_nil, act, settle_settle, List.append_nil]

theorem scanned_eq_passed (g : OscGuard) (stream : List UInt8) :
    scanned g stream = passed g (stream.map some) := by
  have whole := passed_append g stream []
  rw [List.append_nil, passed_nil] at whole
  exact whole.symm

theorem marked_cons (read : List UInt8) (reads : List (List UInt8)) :
    marked (read :: reads) = read.map some ++ none :: marked reads := by
  simp [marked]

theorem reduceOption_map_some (stream : List UInt8) : (stream.map some).reduceOption = stream := by
  simp [List.reduceOption, List.filterMap_map]

theorem reduceOption_marked (reads : List (List UInt8)) : (marked reads).reduceOption = reads.flatten := by
  induction reads with
  | nil => rfl
  | cons read reads ih =>
      rw [marked_cons, List.reduceOption_append, reduceOption_map_some, List.reduceOption_cons_of_none,
        ih, List.flatten_cons]

theorem feeds_eq_passed {g : OscGuard} (sound : g.Sound) (reads : List (List UInt8)) :
    feeds g reads = passed g (marked reads) ∧ (feeds g reads).1.Sound := by
  induction reads generalizing g with
  | nil =>
      refine ⟨?_, sound⟩
      rw [marked, List.flatMap_nil, passed_nil, sound.settle]
      rfl
  | cons read reads ih =>
      obtain ⟨step, after⟩ := feed_eq_scanned sound read
      obtain ⟨run, last⟩ := ih after
      refine ⟨?_, last⟩
      have split : feeds g (read :: reads) =
          ((feeds (feed g read).1 reads).1, (feed g read).2 ++ (feeds (feed g read).1 reads).2) := rfl
      rw [split, run, step, marked_cons, passed_append, passed_cons]
      simp [scanned, act]

/-- A body one part of which has outgrown its cap is too long as a whole. -/
def Steady (body : List UInt8) : Prop := ∀ part, part <+: body → Outgrown part → Outgrown body

theorem bodies_next {phase : Phase} {b : UInt8} {stream : List UInt8} {body : List UInt8}
    (later : body ∈ bodies survives (next survives phase b) stream) :
    body ∈ bodies survives phase (b :: stream) := by
  cases phase <;> exact List.mem_append_right _ later

theorem bodies_ending {held : List UInt8} {b : UInt8} (ends : endsOsc b = true) (stream : List UInt8) :
    held ∈ bodies survives (.osc held) (b :: stream) := by
  refine List.mem_append_left _ ?_
  rw [ending, if_pos ends]
  exact List.mem_singleton_self held

/-- Cuts or none, it comes to the same; and where a cut has already given up a body that
the machine without cuts still holds, the latter will give it up as well. -/
theorem passed_cuts (events : List (Option UInt8)) (phase : Phase)
    (steady : ∀ body ∈ bodies survives phase events.reduceOption, Steady body) :
    passed phase.deferred events = passed phase.deferred (events.reduceOption.map some) ∧
      ∀ held part, phase = .osc held → part <+: held → Outgrown part →
        passed phase.deferred (events.reduceOption.map some) =
          ((passed ⟨.discard, []⟩ events).1, Byte.can :: (passed ⟨.discard, []⟩ events).2) := by
  induction events generalizing phase with
  | nil =>
      refine ⟨rfl, ?_⟩
      intro held part here front outgrown
      cases here
      have long := steady held List.mem_cons_self part front outgrown
      rw [List.reduceOption_nil, List.map_nil, passed_nil, passed_nil, deferred, settle_osc, if_pos long,
        settle_other (by simp)]
  | cons event events ih =>
      cases event with
      | none =>
          rw [List.reduceOption_cons_of_none] at steady ⊢
          have rest := ih phase steady
          refine ⟨?_, ?_⟩
          · -- the cut tests the body so far, if there is one
            rw [passed_cons, act]
            cases phase with
            | ground | escape => simpa [settle, hold, deferred] using rest.1
            | osc held =>
                rw [deferred, settle_osc]
                split
                next outgrown =>
                    exact (rest.2 held held rfl List.prefix_rfl outgrown).symm
                next => simpa [deferred] using rest.1
          · intro held part here front outgrown
            rw [rest.2 held part here front outgrown, passed_cons, act, settle_other (by simp)]
            rfl
      | some b =>
          rw [List.reduceOption_cons_of_some] at steady ⊢
          have rest := ih (next survives phase b) fun body later => steady body (bodies_next later)
          refine ⟨?_, ?_⟩
          · rw [List.map_cons, passed_cons, passed_cons, act, scan_deferred, rest.1]
          · intro held part here front outgrown
            cases here
            rw [List.map_cons, passed_cons, passed_cons, act, act, scan_deferred]
            cases ends : endsOsc b with
            | true =>
                have long := steady held (bodies_ending ends _) part front outgrown
                have after : (⟨ended b, []⟩ : OscGuard) = (next survives (.osc held) b).deferred := by
                  rw [next, if_pos ends, deferred_ended]
                rw [deferred, scan_end held ends, if_pos long, scan_end_dropped ends, after, rest.1]
                rfl
            | false =>
                have more := rest.2 (held ++ [b]) part (by simp [next, ends])
                  (front.trans (List.prefix_append _ _)) outgrown
                rw [more, deferred, scan_more held ends, scan_more_dropped ends]
                rfl

/-- A body of a stream stands in it between its introducer and its terminator, or the end. -/
theorem mem_bodies {phase : Phase} {stream body : List UInt8} (present : body ∈ bodies survives phase stream) :
    ∃ before held rest tail, stream = before ++ rest ++ tail ∧
      after survives phase before = .osc held ∧ body = held ++ rest ∧ (before = [] ∨ held = []) ∧
      (∀ b ∈ rest, endsOsc b = false) ∧ ∀ b ∈ tail.head?, endsOsc b = true := by
  induction stream generalizing phase with
  | nil =>
      cases phase with
      | ground | escape => exact absurd present List.not_mem_nil
      | osc held =>
          have same : body = held := List.mem_singleton.mp present
          exact ⟨[], held, [], [], rfl, rfl, by simpa using same, .inl rfl, nofun, nofun⟩
  | cons b stream ih =>
      have cases_ : body ∈ ending phase b ∨ body ∈ bodies survives (next survives phase b) stream := by
        cases phase <;> exact List.mem_append.mp present
      cases cases_ with
      | inl here =>
          cases phase with
          | ground | escape => exact absurd here List.not_mem_nil
          | osc held =>
              rw [ending] at here
              split at here
              next ends =>
                  have same : body = held := List.mem_singleton.mp here
                  refine ⟨[], held, [], b :: stream, rfl, rfl, by simpa using same, .inl rfl, nofun, ?_⟩
                  intro c head
                  cases head
                  exact ends
              next => exact absurd here List.not_mem_nil
      | inr later =>
          obtain ⟨before, held, rest, tail, whole, reached, same, start, open_, tailEnds⟩ := ih later
          by_cases opened : held = []
          · exact ⟨b :: before, held, rest, tail, by simp [whole], reached, same, .inr opened, open_, tailEnds⟩
          · -- the body had begun before this byte, which is then one of its own
            have none : before = [] := start.resolve_right opened
            cases none
            cases phase with
            | ground =>
                simp only [after, next, List.foldl_nil] at reached
                split at reached <;> cases reached
            | escape =>
                simp only [after, next, List.foldl_nil] at reached
                split at reached
                · cases reached
                  exact absurd rfl opened
                · split at reached <;> cases reached
            | osc first =>
                simp only [after, next, List.foldl_nil] at reached
                split at reached
                · split at reached <;> cases reached
                next more =>
                  cases reached
                  refine ⟨[], first, b :: rest, tail, by simp [whole], rfl, by simp [same], .inl rfl, ?_, tailEnds⟩
                  intro c member
                  cases List.mem_cons.mp member with
                  | inl first => rw [first]; simpa using more
                  | inr other => exact open_ c other

/-- A body that was given up at a cut cannot be passed on unnoticed: without the cut there
would be a longer output, or another state at the end. -/
theorem outgrown_of_passed {held rest tail : List UInt8} (long : 2 ≤ held.length)
    (open_ : ∀ b ∈ rest, endsOsc b = false) (tailEnds : ∀ b ∈ tail.head?, endsOsc b = true)
    (same : passed ⟨.osc, held⟩ ((rest ++ tail).map some) =
      ((passed ⟨.discard, []⟩ ((rest ++ tail).map some)).1,
        Byte.can :: (passed ⟨.discard, []⟩ ((rest ++ tail).map some)).2)) :
    Outgrown (held ++ rest) := by
  induction rest generalizing held with
  | nil =>
      rw [List.append_nil]
      by_contra within
      rw [List.nil_append] at same
      cases tail with
      | nil =>
          rw [List.map_nil, passed_nil, passed_nil, settle_osc, if_neg within, settle_other (by simp)] at same
          cases same
      | cons b tail =>
          have ends := tailEnds b rfl
          rw [List.map_cons, passed_cons, passed_cons, act, act, scan_end held ends, if_neg within,
            scan_end_dropped ends] at same
          have lengths := congrArg (fun result => result.2.length) same
          simp only [List.length_append, List.length_cons, List.length_nil] at lengths
          split at lengths <;> simp at lengths <;> omega
  | cons b rest ih =>
      have more := open_ b List.mem_cons_self
      rw [List.cons_append, List.map_cons, passed_cons, passed_cons, act, act, scan_more held more,
        scan_more_dropped more] at same
      have later := @ih (held ++ [b]) (by rw [List.length_append]; omega)
        (fun c member => open_ c (List.mem_cons_of_mem _ member)) same
      rwa [List.append_assoc] at later

/-- One cut, where the body so far has outgrown the cap of its number, gives it up. -/
theorem outgrown_of_cut {before part rest tail : List UInt8} (opens : after survives .ground before = .osc [])
    (open_ : ∀ b ∈ part ++ rest, endsOsc b = false) (tailEnds : ∀ b ∈ tail.head?, endsOsc b = true)
    (outgrown : Outgrown part)
    (same : feeds new [before ++ part, rest ++ tail] = feed new (before ++ part ++ (rest ++ tail))) :
    Outgrown (part ++ rest) := by
  have reached : (Transducer.feed scan new (before ++ part)).1 = ⟨.osc, part⟩ := by
    have start : (Transducer.feed scan new before).1 = ⟨.osc, []⟩ := by
      rw [show new = Phase.ground.deferred from rfl, feed_deferred, opens, deferred]
    rw [Transducer.feed_append, start,
      scan_body [] fun b member => open_ b (List.mem_append_left _ member), List.nil_append]
  rw [(feeds_eq_passed sound_new _).1, (feed_eq_scanned sound_new _).1, scanned_eq_passed, marked_cons,
    passed_append, @List.map_append _ _ _ (before ++ part), passed_append, reached, passed_cons, act,
    settle_osc, if_pos outgrown, marked_cons] at same
  have guards := congrArg Prod.fst same
  have outputs := List.append_cancel_left (congrArg Prod.snd same)
  -- the mark after the last read tests nothing that the end does not test again
  have last : passed ⟨.discard, []⟩ ((rest ++ tail).map some ++ none :: marked []) =
      passed ⟨.discard, []⟩ ((rest ++ tail).map some) := passed_last _ _
  rw [last] at guards outputs
  exact outgrown_of_passed outgrown.two_le (fun b member => open_ b (List.mem_append_right _ member))
    tailEnds (Prod.ext guards.symm outputs.symm)

theorem feed_survives_cuts_iff (stream : List UInt8) :
    (∀ reads : List (List UInt8), reads.flatten = stream → feeds new reads = feed new stream) ↔
      ∀ body ∈ bodies survives .ground stream, ∀ part, part <+: body → limit part < part.length →
        limit body < body.length := by
  constructor
  · intro unchanged body present part front outgrown
    obtain ⟨before, held, rest, tail, whole, reached, same, start, open_, tailEnds⟩ := mem_bodies present
    have empty : held = [] := by
      cases start with
      | inl none =>
          rw [none] at reached
          cases reached
      | inr empty => exact empty
    subst empty
    rw [List.nil_append] at same
    subst same
    obtain ⟨more, rfl⟩ := front
    refine outgrown_of_cut reached open_ tailEnds outgrown ?_
    have cut := unchanged [before ++ part, more ++ tail] (by simp [whole])
    rw [cut, whole]
    simp
  · intro steady reads whole
    have bytes : (marked reads).reduceOption = stream := (reduceOption_marked reads).trans whole
    have cuts := (passed_cuts (marked reads) .ground (by rw [bytes]; exact steady)).1
    rw [bytes] at cuts
    rw [(feeds_eq_passed sound_new reads).1, (feed_eq_scanned sound_new stream).1, scanned_eq_passed]
    exact cuts

/-- `ESC ] 2`, more NULs than a title may be long, and then `52;c;A` and BEL: an OSC 252
that is taken for a title at a cut before its second digit. -/
theorem number_cut_short_is_a_title :
    feeds new [[Byte.esc, Byte.bracket] ++ 0x32 :: List.replicate 2048 0,
        [0x35, 0x32, 0x3b, 0x63, 0x3b, 0x41] ++ [Byte.bel]] ≠
      feed new ([Byte.esc, Byte.bracket] ++ 0x32 :: List.replicate 2048 0 ++
        ([0x35, 0x32, 0x3b, 0x63, 0x3b, 0x41] ++ [Byte.bel])) := by
  intro same
  have opens : after survives .ground [Byte.esc, Byte.bracket] = .osc [] := by decide
  have open_ : ∀ b ∈ 0x32 :: List.replicate 2048 0 ++ [0x35, 0x32, 0x3b, 0x63, 0x3b, 0x41],
      endsOsc b = false := by
    intro b member
    cases List.mem_append.mp member with
    | inl front =>
        cases List.mem_cons.mp front with
        | inl digit => rw [digit]; rfl
        | inr nul => rw [List.eq_of_mem_replicate nul]; rfl
    | inr back =>
        have plain : [0x35, 0x32, 0x3b, 0x63, 0x3b, 0x41].all (fun b => !endsOsc b) = true := by decide
        exact Bool.not_eq_eq_eq_not.mp (List.all_eq_true.mp plain b back)
  have outgrown : Outgrown (0x32 :: List.replicate 2048 0) := by decide +kernel
  have ends : ∀ b ∈ [Byte.bel].head?, endsOsc b = true := by
    intro b first
    cases first
    rfl
  have long := outgrown_of_cut opens open_ ends outgrown same
  exact absurd long (by decide +kernel)

end OscGuard
end Oxutrm.Host
