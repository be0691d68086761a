import Oxutrm.Host.OscReads

/-!
The guard drops only bodies that were too long at some point. What it passes on is read by the
reference parser again, which is inside an OSC exactly while the guard holds one.
-/
namespace Oxutrm.Host
namespace OscGuard
open Phase

/-- Up to some byte it was longer than the cap for it then. -/
def Oversized (body : List UInt8) : Prop := ∃ part, part <+: body ∧ Outgrown part

theorem Oversized.snoc {body : List UInt8} (long : Oversized body) (b : UInt8) : Oversized (body ++ [b]) := by
  obtain ⟨part, within, outgrown⟩ := long
  exact ⟨part, within.trans (List.prefix_append body [b]), outgrown⟩

section Reference
variable (stays : UInt8 → Bool)

/-- The second stream is the first with some oversized bodies each replaced by a CAN, and the BEL
after such a body removed. -/
inductive Trimmed : Phase → List UInt8 → List UInt8 → Prop
  | nil (phase : Phase) : Trimmed phase [] []
  | keep {phase : Phase} {b : UInt8} {stream kept : List UInt8} :
      Trimmed (next stays phase b) stream kept → Trimmed phase (b :: stream) (b :: kept)
  | bel {body stream kept : List UInt8} : (∀ b ∈ body, endsOsc b = false) → Oversized body →
      Trimmed .ground stream kept →
      Trimmed (.osc []) (body ++ Byte.bel :: stream) (Byte.can :: kept)
  | drop {body stream kept : List UInt8} : (∀ b ∈ body, endsOsc b = false) → Oversized body →
      (∀ b ∈ stream.head?, endsOsc b = true ∧ b ≠ Byte.bel) →
      Trimmed (.osc body) stream kept →
      Trimmed (.osc []) (body ++ stream) (Byte.can :: kept)

/-- The guard after some reads, measured against a reference: what it replaces, what it passes on,
and what it holds. -/
structure Faithful (reads : List (List UInt8)) : Prop where
  trimmed : Trimmed stays .ground reads.flatten ((feeds new reads).2 ++ (feeds new reads).1.held)
  complete : List.Sublist
    ((closed stays .ground (feeds new reads).2).filter fun body => decide (body ≠ []))
    (closed stays .ground reads.flatten)
  capped : ∀ body ∈ closed stays .ground (feeds new reads).2, body.length ≤ limit body
  inside : ∀ body, after stays .ground (feeds new reads).2 = .osc body ↔
    (feeds new reads).1.state = .osc ∧ body = []
  bounded : ∀ read rounds body,
    (loop rounds ⟨(feeds new reads).1, [], [], read⟩).guard.held.length ≤ maxOscLen ∧
      (extend (loop rounds ⟨(feeds new reads).1, [], [], read⟩).guard.held body).length ≤ maxOscLen

theorem after_append (phase : Phase) (front back : List UInt8) :
    after stays phase (front ++ back) = after stays (after stays phase front) back :=
  List.foldl_append

theorem closed_append (phase : Phase) (front back : List UInt8) :
    closed stays phase (front ++ back) =
      closed stays phase front ++ closed stays (after stays phase front) back := by
  induction front generalizing phase with
  | nil => rfl
  | cons b front ih =>
      rw [List.cons_append, closed, ih, closed, List.append_assoc]
      rfl

theorem after_open (held : List UInt8) {body : List UInt8} (open_ : ∀ b ∈ body, endsOsc b = false) :
    after stays (.osc held) body = .osc (held ++ body) := by
  induction body generalizing held with
  | nil => rw [List.append_nil]; rfl
  | cons b body ih =>
      have step : next stays (.osc held) b = .osc (held ++ [b]) := by
        simp [next, open_ b List.mem_cons_self]
      rw [after, List.foldl_cons, step, ← after,
        ih _ fun c member => open_ c (List.mem_cons_of_mem _ member), List.append_assoc,
        List.singleton_append]

theorem closed_open (held : List UInt8) {body : List UInt8} (open_ : ∀ b ∈ body, endsOsc b = false) :
    closed stays (.osc held) body = [] := by
  induction body generalizing held with
  | nil => rfl
  | cons b body ih =>
      have here := open_ b List.mem_cons_self
      have step : next stays (.osc held) b = .osc (held ++ [b]) := by simp [next, here]
      rw [closed, step, ih _ fun c member => open_ c (List.mem_cons_of_mem _ member)]
      simp [ending, here]

theorem Trimmed.keeps {held body stream kept : List UInt8} (open_ : ∀ b ∈ body, endsOsc b = false)
    (rest : Trimmed stays (.osc (held ++ body)) stream kept) :
    Trimmed stays (.osc held) (body ++ stream) (body ++ kept) := by
  induction body generalizing held with
  | nil => rwa [List.append_nil] at rest
  | cons b body ih =>
      refine .keep ?_
      have step : next stays (.osc held) b = .osc (held ++ [b]) := by
        simp [next, open_ b List.mem_cons_self]
      rw [step]
      exact ih (fun c member => open_ c (List.mem_cons_of_mem _ member)) (by simpa using rest)

end Reference

/-- Everything a byte or a cut can do. -/
inductive Acts : OscGuard → Option UInt8 → OscGuard → List UInt8 → Prop
  | outside {phase : Phase} {b : UInt8} : (∀ body, phase ≠ .osc body) →
      Acts phase.deferred (some b) (next survives phase b).deferred [b]
  | more {held : List UInt8} {b : UInt8} : endsOsc b = false →
      Acts ⟨.osc, held⟩ (some b) ⟨.osc, held ++ [b]⟩ []
  | skip {b : UInt8} : endsOsc b = false → Acts ⟨.discard, []⟩ (some b) ⟨.discard, []⟩ []
  | deliver {held : List UInt8} {b : UInt8} : endsOsc b = true → ¬ Outgrown held →
      Acts ⟨.osc, held⟩ (some b) ⟨ended b, []⟩ (held ++ [b])
  | refuse {held : List UInt8} {b : UInt8} : endsOsc b = true → Outgrown held →
      Acts ⟨.osc, held⟩ (some b) ⟨ended b, []⟩ (Byte.can :: if b = Byte.bel then [] else [b])
  | finish {b : UInt8} : endsOsc b = true →
      Acts ⟨.discard, []⟩ (some b) ⟨ended b, []⟩ (if b = Byte.bel then [] else [b])
  | giveUp {held : List UInt8} : Outgrown held → Acts ⟨.osc, held⟩ none ⟨.discard, []⟩ [Byte.can]
  | idle (g : OscGuard) : Acts g none g []

theorem acts (g : OscGuard) (event : Option UInt8) (empty : g.state ≠ .osc → g.held = []) :
    Acts g event (act g event).1 (act g event).2 := by
  obtain ⟨state, held⟩ := g
  cases event with
  | none =>
      cases state with
      | osc =>
          rw [act, settle_osc]
          split
          next outgrown => exact .giveUp outgrown
          next => exact .idle _
      | ground | escape | discard =>
          rw [act, settle_other (by simp)]
          exact .idle _
  | some b =>
      rw [act]
      cases state with
      | ground =>
          have none : held = [] := empty (by simp)
          cases none
          have step := @Acts.outside .ground b (by simp)
          rw [← scan_deferred] at step
          exact step
      | escape =>
          have none : held = [] := empty (by simp)
          cases none
          have step := @Acts.outside .escape b (by simp)
          rw [← scan_deferred] at step
          exact step
      | osc =>
          cases ends : endsOsc b with
          | true =>
              rw [scan_end held ends]
              split
              next outgrown => exact .refuse ends outgrown
              next within => exact .deliver ends within
          | false =>
              rw [scan_more held ends]
              exact .more ends
      | discard =>
          have none : held = [] := empty (by simp)
          cases none
          cases ends : endsOsc b with
          | true =>
              rw [scan_end_dropped ends]
              exact .finish ends
          | false =>
              rw [scan_more_dropped ends]
              exact .skip ends

/-- Where a guard and the input stand to each other. A body that was given up may have
begun with anything. -/
inductive Stands : OscGuard → Phase → Prop
  | ground : Stands ⟨.ground, []⟩ .ground
  | escape : Stands ⟨.escape, []⟩ .escape
  | osc {held : List UInt8} : (∀ b ∈ held, endsOsc b = false) → Stands ⟨.osc, held⟩ (.osc held)
  | discard (body : List UInt8) : (∀ b ∈ body, endsOsc b = false) → Stands ⟨.discard, []⟩ (.osc body)

/-- Where the parser behind the guard stands: it has not seen what is held. -/
def shown : State → Phase
  | .ground | .discard => .ground
  | .escape => .escape
  | .osc => .osc []

theorem Stands.empty {g : OscGuard} {phase : Phase} (stands : Stands g phase) :
    g.state ≠ .osc → g.held = [] := by
  cases stands with
  | osc => exact fun other => absurd rfl other
  | ground | escape | discard => exact fun _ => rfl

theorem stands_ended {b : UInt8} (ends : endsOsc b = true) (held : List UInt8) :
    Stands ⟨ended b, []⟩ (next survives (.osc held) b) := by
  rw [next, if_pos ends, ended]
  split
  · exact .escape
  · exact .ground

theorem open_snoc {held : List UInt8} {b : UInt8} (open_ : ∀ c ∈ held, endsOsc c = false)
    (here : endsOsc b = false) : ∀ c ∈ held ++ [b], endsOsc c = false := by
  intro c member
  cases List.mem_append.mp member with
  | inl before => exact open_ c before
  | inr last => rw [List.mem_singleton.mp last]; exact here

theorem stands_deferred {phase : Phase} (open_ : ∀ body, phase = .osc body → body = []) :
    Stands phase.deferred phase := by
  cases phase with
  | ground => exact .ground
  | escape => exact .escape
  | osc body =>
      rw [open_ body rfl]
      exact .osc nofun

/-- The input as the event leaves it. -/
def advance (phase : Phase) : Option UInt8 → Phase
  | some b => next survives phase b
  | none => phase

theorem next_outside {phase : Phase} (outside : ∀ body, phase ≠ .osc body) (b : UInt8) :
    ∀ body, next survives phase b = .osc body → body = [] := by
  intro body opens
  cases phase with
  | ground =>
      simp only [next] at opens
      split at opens <;> cases opens
  | escape =>
      simp only [next] at opens
      split at opens
      · cases opens
        rfl
      · split at opens <;> cases opens
  | osc held => exact absurd rfl (outside held)

theorem deferred_phase {g : OscGuard} {phase start : Phase} (outside : ∀ body, phase ≠ .osc body)
    (same : phase.deferred = g) (stands : Stands g start) : start = phase := by
  cases phase with
  | ground => cases same; cases stands; rfl
  | escape => cases same; cases stands; rfl
  | osc body => exact absurd rfl (outside body)

theorem Acts.stands {g after : OscGuard} {event : Option UInt8} {out : List UInt8}
    (step : Acts g event after out) {phase : Phase} (stands : Stands g phase) :
    Stands after (advance phase event) := by
  generalize same : g = before at step
  cases step with
  | @outside other b outside =>
      have here := deferred_phase outside same.symm stands
      rw [here]
      exact stands_deferred (next_outside outside b)
  | more open_ =>
      cases same
      cases stands with
      | osc plain =>
          rw [advance, next, if_neg (by simp [open_])]
          exact .osc (open_snoc plain open_)
  | skip open_ =>
      cases same
      cases stands with
      | discard body plain =>
          rw [advance, next, if_neg (by simp [open_])]
          exact .discard _ (open_snoc plain open_)
  | deliver ends _ =>
      cases same
      cases stands with
      | osc plain => exact stands_ended ends _
  | refuse ends _ =>
      cases same
      cases stands with
      | osc plain => exact stands_ended ends _
  | finish ends =>
      cases same
      cases stands with
      | discard body plain => exact stands_ended ends _
  | giveUp _ =>
      cases same
      cases stands with
      | osc plain => exact .discard _ plain
  | idle => exact same ▸ stands

theorem next_ended {b : UInt8} (ends : endsOsc b = true) (held : List UInt8) :
    next survives (.osc held) b = shown (ended b) := by
  rw [next, if_pos ends, ended]
  split <;> rfl

/-- The terminator of a dropped body, read outside one. -/
theorem after_terminator (b : UInt8) :
    after survives .ground (if b = Byte.bel then [] else [b]) = shown (ended b) := by
  split
  next bell => rw [bell]; rfl
  next =>
      rw [after, List.foldl_cons, List.foldl_nil, next, ended]
      split <;> rfl

theorem closed_terminator (b : UInt8) :
    closed survives .ground (if b = Byte.bel then [] else [b]) = [] := by
  split <;> rfl

theorem shown_deferred {phase : Phase} (open_ : ∀ body, phase = .osc body → body = []) :
    shown phase.deferred.state = phase := by
  cases phase with
  | ground => rfl
  | escape => rfl
  | osc body => rw [open_ body rfl]; rfl

/-- What a piece of the output is to the parser behind the guard, next to the bodies the
input had there. -/
structure Reads (start : State) (out : List UInt8) (last : State) (ended : List (List UInt8)) : Prop where
  after : after survives (shown start) out = shown last
  complete : List.Sublist ((closed survives (shown start) out).filter fun body => decide (body ≠ [])) ended
  capped : ∀ body ∈ closed survives (shown start) out, body.length ≤ limit body

theorem Reads.silent (state : State) (ended : List (List UInt8)) : Reads state [] state ended :=
  ⟨rfl, List.nil_sublist ended, nofun⟩

theorem Reads.append {start mid last : State} {front back : List UInt8} {left right : List (List UInt8)}
    (first : Reads start front mid left) (second : Reads mid back last right) :
    Reads start (front ++ back) last (left ++ right) := by
  refine ⟨?_, ?_, ?_⟩
  · rw [after_append, first.after, second.after]
  · rw [closed_append, List.filter_append, first.after]
    exact first.complete.append second.complete
  · intro body member
    rw [closed_append, first.after] at member
    cases List.mem_append.mp member with
    | inl here => exact first.capped body here
    | inr later => exact second.capped body later

theorem reads_terminator (b : UInt8) : Reads .discard (if b = Byte.bel then [] else [b]) (ended b) [] := by
  refine ⟨after_terminator b, ?_, ?_⟩
  · rw [shown, closed_terminator]
    exact List.nil_sublist _
  · rw [shown, closed_terminator]
    exact nofun

/-- The parser's own body is still empty when it is told to abort. -/
theorem reads_abort : Reads .osc [Byte.can] .discard [] := by
  refine ⟨rfl, List.nil_sublist _, ?_⟩
  intro body member
  have empty : body = [] := List.mem_singleton.mp member
  rw [empty]
  exact Nat.zero_le _

/-- The bodies of the input that the event ends. -/
def finished (phase : Phase) : Option UInt8 → List (List UInt8)
  | some b => ending phase b
  | none => []

theorem Acts.reads {g next : OscGuard} {event : Option UInt8} {out : List UInt8}
    (step : Acts g event next out) {phase : Phase} (stands : Stands g phase) :
    Reads g.state out next.state (finished phase event) := by
  generalize same : g = before at step
  cases step with
  | @outside other b outside =>
      have quiet : ∀ body, other = .osc body → body = [] := fun body is => absurd is (outside body)
      have none : closed survives other [b] = [] := by
        cases other with
        | ground | escape => rfl
        | osc body => exact absurd rfl (outside body)
      refine ⟨?_, ?_, ?_⟩
      · rw [shown_deferred quiet, shown_deferred (next_outside outside b)]
        rfl
      · rw [shown_deferred quiet, none]
        exact List.nil_sublist _
      · rw [shown_deferred quiet, none]
        exact nofun
  | more _ => cases same; exact .silent _ _
  | skip _ => exact same ▸ .silent _ _
  | @deliver held b ends within =>
      cases same
      cases stands with
      | osc plain =>
          have whole : closed survives (.osc []) (held ++ [b]) = [held] := by
            rw [closed_append, closed_open _ _ plain, after_open _ _ plain]
            simp [closed, ending, ends]
          refine ⟨?_, ?_, ?_⟩
          · rw [shown, after_append, after_open _ _ plain]
            exact next_ended ends _
          · rw [shown, whole, finished, ending, if_pos ends]
            exact List.filter_sublist
          · rw [shown, whole]
            intro body member
            rw [List.mem_singleton.mp member]
            exact Nat.le_of_not_lt within
  | @refuse held b ends outgrown =>
      cases same
      have abort := reads_abort.append (reads_terminator b)
      exact ⟨abort.after, abort.complete.trans (List.nil_sublist _), abort.capped⟩
  | @finish b ends =>
      cases same
      have last := reads_terminator b
      exact ⟨last.after, last.complete.trans (List.nil_sublist _), last.capped⟩
  | giveUp _ => cases same; exact reads_abort
  | idle => cases same; exact .silent _ _

theorem feed_reads {g : OscGuard} {phase : Phase} (stands : Stands g phase) (events : List (Option UInt8)) :
    Reads g.state (Transducer.feed act g events).2 (Transducer.feed act g events).1.state
      (closed survives phase events.reduceOption) := by
  induction events generalizing g phase with
  | nil => exact .silent _ _
  | cons event events ih =>
      have step := acts g event stands.empty
      have rest := ih (step.stands stands)
      rw [Transducer.feed_cons]
      cases event with
      | none =>
          have whole := (step.reads stands).append rest
          rw [List.reduceOption_cons_of_none]
          exact whole
      | some b =>
          have whole := (step.reads stands).append rest
          rw [List.reduceOption_cons_of_some]
          exact whole

/-- What has been read since the last byte that is sure to stand in the output, and what
has been passed on for it. -/
inductive Since : OscGuard → Phase → List UInt8 → List UInt8 → Prop
  | ground : Since ⟨.ground, []⟩ .ground [] []
  | escape : Since ⟨.escape, []⟩ .escape [] []
  | osc {held : List UInt8} : (∀ b ∈ held, endsOsc b = false) → Since ⟨.osc, held⟩ (.osc []) held []
  | discard {body : List UInt8} : (∀ b ∈ body, endsOsc b = false) → Oversized body →
      Since ⟨.discard, []⟩ (.osc []) body [Byte.can]

theorem since_ended (b : UInt8) : Since ⟨ended b, []⟩ (shown (ended b)) [] [] := by
  unfold ended
  split
  · exact .escape
  · exact .ground

theorem Since.empty {g : OscGuard} {start : Phase} {read passed : List UInt8}
    (since : Since g start read passed) : g.state ≠ .osc → g.held = [] := by
  cases since with
  | osc => exact fun other => absurd rfl other
  | ground | escape | discard => exact fun _ => rfl

theorem Trimmed.ends {body stream kept : List UInt8} {b : UInt8} (open_ : ∀ c ∈ body, endsOsc c = false)
    (long : Oversized body) (ends : endsOsc b = true) (rest : Trimmed survives (shown (ended b)) stream kept) :
    Trimmed survives (.osc []) (body ++ b :: stream)
      (Byte.can :: ((if b = Byte.bel then [] else [b]) ++ kept)) := by
  split
  next bell =>
      rw [bell] at rest ⊢
      exact .bel open_ long rest
  next other =>
      refine .drop open_ long ?_ (.keep ?_)
      · intro c head
        cases head
        exact ⟨ends, other⟩
      · rw [next_ended ends]
        exact rest

theorem since_deferred {phase : Phase} (open_ : ∀ body, phase = .osc body → body = []) :
    Since phase.deferred phase [] [] := by
  cases phase with
  | ground => exact .ground
  | escape => exact .escape
  | osc body =>
      rw [open_ body rfl]
      exact .osc nofun

theorem since_outside {g : OscGuard} {phase start : Phase} {read passed : List UInt8}
    (outside : ∀ body, phase ≠ .osc body) (same : phase.deferred = g) (since : Since g start read passed) :
    start = phase ∧ read = [] ∧ passed = [] := by
  cases phase with
  | ground => cases same; cases since; exact ⟨rfl, rfl, rfl⟩
  | escape => cases same; cases since; exact ⟨rfl, rfl, rfl⟩
  | osc body => exact absurd rfl (outside body)

/-- One step of the guard, once the rest of the stream has been dealt with. -/
theorem Acts.trims {g next : OscGuard} {event : Option UInt8} {out stream kept : List UInt8}
    (step : Acts g event next out) {start : Phase} {read passed : List UInt8}
    (since : Since g start read passed)
    (rest : ∀ start read passed, Since next start read passed →
      Trimmed survives start (read ++ stream) (passed ++ kept)) :
    Trimmed survives start (read ++ (event.toList ++ stream)) (passed ++ (out ++ kept)) := by
  generalize same : g = before at step
  cases step with
  | @outside phase b outside =>
      obtain ⟨rfl, rfl, rfl⟩ := since_outside outside same.symm since
      exact .keep (rest _ _ _ (since_deferred (next_outside outside b)))
  | more open_ =>
      cases same
      cases since with
      | osc plain => simpa using rest _ _ _ (.osc (open_snoc plain open_))
  | @skip b open_ =>
      cases same
      cases since with
      | discard plain long =>
          simpa using rest _ _ _ (.discard (open_snoc plain open_) (long.snoc b))
  | @deliver held b ends _ =>
      cases same
      cases since with
      | osc plain =>
          have later := rest _ _ _ (since_ended b)
          have whole := @Trimmed.keeps survives [] _ (b :: stream) (b :: kept) plain (.keep (by
            rw [next_ended ends]
            exact later))
          simpa using whole
  | @refuse held b ends outgrown =>
      cases same
      cases since with
      | osc plain =>
          simpa using Trimmed.ends plain ⟨_, List.prefix_rfl, outgrown⟩ ends (rest _ _ _ (since_ended b))
  | @finish b ends =>
      cases same
      cases since with
      | discard plain long => simpa using Trimmed.ends plain long ends (rest _ _ _ (since_ended b))
  | giveUp outgrown =>
      cases same
      cases since with
      | osc plain => simpa using rest _ _ _ (.discard plain ⟨_, List.prefix_rfl, outgrown⟩)
  | idle =>
      cases same
      simpa using rest _ _ _ since

theorem feed_trims {g : OscGuard} {start : Phase} {read passed : List UInt8}
    (since : Since g start read passed) (events : List (Option UInt8)) :
    Trimmed survives start (read ++ events.reduceOption)
      (passed ++ ((Transducer.feed act g events).2 ++ (Transducer.feed act g events).1.held)) := by
  induction events generalizing g start read passed with
  | nil =>
      cases since with
      | ground => exact .nil _
      | escape => exact .nil _
      | osc plain =>
          have whole := @Trimmed.keeps survives [] _ [] [] plain (.nil _)
          simpa using whole
      | discard plain long =>
          have whole := @Trimmed.drop survives _ [] [] plain long nofun (.nil _)
          simpa using whole
  | cons event events ih =>
      have step := acts g event since.empty
      have whole := step.trims since fun _ _ _ later => ih later
      rw [Transducer.feed_cons]
      cases event with
      | none =>
          rw [List.reduceOption_cons_of_none]
          simpa using whole
      | some b =>
          rw [List.reduceOption_cons_of_some]
          simpa using whole

theorem guard_drops_only_long_bodies (reads : List (List UInt8)) : Faithful survives reads := by
  obtain ⟨run, sound⟩ := feeds_eq_passed sound_new reads
  have bytes : (marked reads ++ [none]).reduceOption = reads.flatten := by
    rw [List.reduceOption_append, reduceOption_marked]
    exact List.append_nil _
  have seen := feed_reads Stands.ground (marked reads ++ [none])
  have trims := feed_trims Since.ground (marked reads ++ [none])
  rw [bytes] at seen trims
  change Reads .ground (passed new (marked reads)).2 (passed new (marked reads)).1.state _ at seen
  change Trimmed survives .ground _ ((passed new (marked reads)).2 ++ (passed new (marked reads)).1.held) at trims
  rw [← run] at seen trims
  refine ⟨trims, seen.complete, seen.capped, ?_, ?_⟩
  · intro body
    rw [show (Phase.ground) = shown .ground from rfl, seen.after]
    cases (feeds new reads).1.state with
    | osc => simp [shown, eq_comm]
    | ground | escape | discard => simp [shown]
  · intro read rounds body
    have within := (loop_sound rounds (f := ⟨(feeds new reads).1, [], [], read⟩) ⟨sound, fun _ => rfl⟩).guard
    exact ⟨within.length_held, length_extend within.length_held body⟩

/-- By the letter every C0 control leaves an escape open. -/
def everyControl (b : UInt8) : Bool := decide (b < 0x20) || decide (0x7f ≤ b)

/-- `ESC CAN ]`: the guard, like the parser it stands before, has left the escape at the CAN. -/
theorem can_ends_an_escape : ¬ Faithful everyControl [[Byte.esc, Byte.can, Byte.bracket]] := by
  intro faithful
  have inside := (faithful.inside []).mp (by decide)
  exact absurd inside.1 (by decide)

end OscGuard
end Oxutrm.Host
