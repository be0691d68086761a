import Oxutrm.Lib.Transition

/-!
The channel for frames too large for a datagram: one stream at a time, a newer state
superseding an older one. Writers are tasks of their own, and every step of one may fall
between any two calls. quinn is known by what its streams do: one that is dropped open is
finished.
-/
namespace Oxutrm.Net.FrameSink
open Transition

/-- How far a writer task has come with its stream. -/
inductive Stage where
  /-- Waiting for `open_uni`. -/
  | opening
  | writing
  /-- Ended before there was a stream. -/
  | unopened
  | finished
  | failed
  | reset
  deriving DecidableEq, Repr

structure Writer where
  myState : Nat
  stage : Stage
  /-- The cancel sender was dropped. -/
  cancelled : Bool
  /-- The task is gone, and its flag set. -/
  done : Bool
  deriving DecidableEq, Repr

/-- The entry of the writer that holds its cancel sender and its flag. -/
structure InFlight where
  myState : Nat
  writer : Nat
  deriving DecidableEq, Repr

structure Sink where
  /-- Every writer ever started, the oldest first. -/
  writers : List Writer
  inFlight : Option InFlight
  deriving DecidableEq, Repr

inductive SendOutcome where
  | stream (bytes : Nat) (superseded : Bool)
  | dropped (why : String)
  deriving DecidableEq, Repr

namespace Sink

def new : Sink := ⟨[], none⟩

def isFinished (s : Sink) (f : InFlight) : Bool := (s.writers[f.writer]?).any Writer.done

/-- An entry whose writer has stopped is no entry. -/
def reap (s : Sink) : Sink :=
  if s.inFlight.any s.isFinished then { s with inFlight := none } else s

def cancel (s : Sink) (i : Nat) : Sink :=
  { s with writers := s.writers.modify i fun w => { w with cancelled := true } }

/-- A writer for `myState`, and its entry. -/
def start (s : Sink) (myState : Nat) : Sink where
  writers := s.writers ++ [⟨myState, .opening, false, false⟩]
  inFlight := some ⟨myState, s.writers.length⟩

def sendOnStream (s : Sink) (myState : Nat) (bytes : List UInt8) : SendOutcome × Sink :=
  match s.reap.inFlight with
  | some old =>
      if old.myState < myState then
        (.stream bytes.length true, ({ s.reap with inFlight := none }.cancel old.writer).start myState)
      else (.dropped "a newer state is already in flight", s.reap)
  | none => (.stream bytes.length false, s.reap.start myState)

end Sink

inductive Event where
  | call (myState : Nat) (bytes : List UInt8)
  | opened (i : Nat)
  | refused (i : Nat)
  | wrote (i : Nat)
  | failed (i : Nat)
  | cancelSeen (i : Nat)
  | dropped (i : Nat)
  deriving DecidableEq, Repr

/-- A writer's own step, where its stage allows it. `select!` has no order: a cancelled
writer may still take the other branch. -/
def Writer.step (w : Writer) : Event → Option Writer
  | .opened _ => if w.stage = .opening then some { w with stage := .writing } else none
  | .refused _ => if w.stage = .opening then some { w with stage := .unopened } else none
  | .wrote _ => if w.stage = .writing then some { w with stage := .finished } else none
  | .failed _ => if w.stage = .writing then some { w with stage := .failed } else none
  | .cancelSeen _ =>
      if w.cancelled = false then none
      else
        match w.stage with
        | .opening => some { w with stage := .unopened }
        | .writing => some { w with stage := .reset }
        | _ => none
  | .dropped _ =>
      if w.done then none
      else
        match w.stage with
        | .opening => some { w with stage := .unopened, done := true }
        -- the runtime drops the future, and with it the stream, which finishes it
        | .writing => some { w with stage := .finished, done := true }
        | _ => some { w with done := true }
  | .call _ _ => none

def Event.writer : Event → Option Nat
  | .opened i | .refused i | .wrote i | .failed i | .cancelSeen i | .dropped i => some i
  | .call _ _ => none

def step (s : Sink) (e : Event) : Option Sink :=
  match e with
  | .call myState bytes => some (s.sendOnStream myState bytes).2
  | _ => do
      let i ← e.writer
      let w ← s.writers[i]?
      let w' ← w.step e
      some { s with writers := s.writers.set i w' }

/-- Neither finished nor cancelled. -/
def Writer.Live (w : Writer) : Prop := w.done = false ∧ w.cancelled = false

/-- A call that started a writer for `myState`. -/
def Starts (s : Sink) (myState : Nat) (t : Sink) : Prop :=
  t.writers.length = s.writers.length + 1 ∧
    t.writers.getLast? = some ⟨myState, .opening, false, false⟩

/-- What a step owes the rule that nothing queues. -/
structure Obeys (s : Sink) (e : Event) (t : Sink) : Prop where
  alone : ∀ (i j : Nat) (v w : Writer), t.writers[i]? = some v → t.writers[j]? = some w → v.Live → w.Live → i = j
  starts : ∀ myState bytes, e = .call myState bytes →
    (Starts s myState t ↔ ¬ ∃ w ∈ s.writers, w.Live ∧ myState ≤ w.myState)
  ordered : ∀ myState bytes, e = .call myState bytes → Starts s myState t →
    ∀ w, s.writers.getLast? = some w → myState < w.myState → w.done = true
  cancelled : ∀ (i : Nat) (v w : Writer), s.writers[i]? = some v → t.writers[i]? = some w → v.cancelled = true →
    w.stage = .finished → v.stage = .finished
  again : ∀ myState bytes, e = .call myState bytes →
    ∀ w, s.writers.getLast? = some w → w.done = true → Starts s myState t

/-- A writer that was cancelled is past writing when its write completes or its task is
dropped. -/
def Minds (s : Sink) (e : Event) : Prop :=
  ∀ i, e = .wrote i ∨ e = .dropped i → ∀ w, s.writers[i]? = some w → w.stage = .writing →
    w.cancelled = false

/-- The newest writer is the one in flight, and the others are finished or cancelled. -/
def Inv (s : Sink) : Prop :=
  s.writers = [] ∧ s.inFlight = none ∨
    ∃ old w, s.writers = old ++ [w] ∧ s.inFlight = some ⟨w.myState, old.length⟩ ∧
      w.cancelled = false ∧ ∀ o ∈ old, o.done = true ∨ o.cancelled = true

section Calls
variable {s : Sink} {myState : Nat}

/-- A call that found the newest writer live and as new, and let it be. -/
def Kept (s : Sink) (myState : Nat) (t : Sink) : Prop :=
  t = s ∧ ∃ old w, s.writers = old ++ [w] ∧ w.Live ∧ myState ≤ w.myState

/-- A call that started a writer; the others it may have cancelled, and changed no further. -/
structure Started (s : Sink) (myState : Nat) (t : Sink) : Prop where
  shape : ∃ ws, t.writers = ws ++ [⟨myState, .opening, false, false⟩] ∧
    t.inFlight = some ⟨myState, ws.length⟩ ∧ ws.length = s.writers.length ∧
    (∀ o ∈ ws, o.done = true ∨ o.cancelled = true) ∧
    ∀ (i : Nat) (w : Writer), ws[i]? = some w →
      ∃ v : Writer, s.writers[i]? = some v ∧ w.stage = v.stage
  newest : ∀ w, s.writers.getLast? = some w → w.done = true ∨ w.myState < myState

theorem started_start {t : Sink} (same : t.writers = s.writers)
    (others : ∀ o ∈ s.writers, o.done = true ∨ o.cancelled = true)
    (newest : ∀ w, s.writers.getLast? = some w → w.done = true ∨ w.myState < myState) :
    Started s myState (t.start myState) :=
  ⟨⟨s.writers, by rw [Sink.start, same], by rw [Sink.start, same], rfl, others,
    fun _ w found => ⟨w, found, rfl⟩⟩, newest⟩

theorem modify_snoc {α : Type} (old : List α) (w : α) (f : α → α) :
    (old ++ [w]).modify old.length f = old ++ [f w] := by
  induction old with
  | nil => rfl
  | cons o old ih => exact congrArg (o :: ·) ih

/-- The entry stands for the newest writer, and goes with it. -/
theorem reap_eq {old : List Writer} {w : Writer} (shape : s.writers = old ++ [w])
    (entry : s.inFlight = some ⟨w.myState, old.length⟩) :
    s.reap = if w.done then { s with inFlight := none } else s := by
  have place : s.writers[old.length]? = some w := by rw [shape, List.getElem?_concat_length]
  rw [Sink.reap, entry, Option.any_some, Sink.isFinished, place, Option.any_some]

theorem started_superseding {old : List Writer} {w : Writer} (shape : s.writers = old ++ [w])
    (others : ∀ o ∈ old, o.done = true ∨ o.cancelled = true) (newer : w.myState < myState) :
    Started s myState (({ s with inFlight := none }.cancel old.length).start myState) := by
  have whole : ({ s with inFlight := none }.cancel old.length).writers =
      old ++ [{ w with cancelled := true }] := by
    rw [Sink.cancel, shape, modify_snoc]
  refine ⟨⟨old ++ [{ w with cancelled := true }], ?_, ?_, ?_, ?_, ?_⟩, ?_⟩
  · rw [Sink.start, whole]
  · rw [Sink.start, whole]
  · rw [shape, List.length_append, List.length_append]
    rfl
  · intro o member
    cases List.mem_append.mp member with
    | inl older => exact others o older
    | inr newest =>
        rw [List.mem_singleton.mp newest]
        exact .inr rfl
  · intro i v found
    rw [shape]
    by_cases older : i < old.length
    · rw [List.getElem?_append_left older] at found ⊢
      exact ⟨v, found, rfl⟩
    · rw [List.getElem?_append_right (Nat.not_lt.mp older)] at found ⊢
      have bound := (List.getElem?_eq_some_iff.mp found).1
      rw [List.length_singleton] at bound
      have first : i - old.length = 0 := by omega
      rw [first] at found ⊢
      cases found
      exact ⟨w, rfl, rfl⟩
  · intro v newest
    rw [shape, List.getLast?_concat] at newest
    cases newest
    exact .inr newer

theorem sendOnStream_spec (inv : Inv s) (bytes : List UInt8) :
    Kept s myState (s.sendOnStream myState bytes).2 ∨
      Started s myState (s.sendOnStream myState bytes).2 := by
  unfold Sink.sendOnStream
  obtain ⟨empty, none_⟩ | ⟨old, w, shape, entry, sound, others⟩ := inv
  · right
    have reaped : s.reap = s := by
      rw [Sink.reap, none_]
      rfl
    rw [reaped, none_]
    refine started_start rfl ?_ ?_
    · rw [empty]
      exact nofun
    · rw [empty]
      exact nofun
  · rw [reap_eq shape entry]
    cases stopped : w.done with
    | true =>
        right
        refine started_start rfl ?_ ?_
        · intro o member
          rw [shape] at member
          cases List.mem_append.mp member with
          | inl older => exact others o older
          | inr newest =>
              rw [List.mem_singleton.mp newest]
              exact .inl stopped
        · intro v newest
          rw [shape, List.getLast?_concat] at newest
          cases newest
          exact .inl stopped
    | false =>
        rw [if_neg Bool.false_ne_true, entry]
        by_cases newer : w.myState < myState
        · right
          simp only [if_pos newer]
          exact started_superseding shape others newer
        · left
          simp only [if_neg newer]
          exact ⟨rfl, old, w, shape, ⟨stopped, sound⟩, Nat.not_lt.mp newer⟩

theorem live_is_newest (inv : Inv s) {w : Writer} (member : w ∈ s.writers) (live : w.Live) :
    s.writers.getLast? = some w := by
  obtain ⟨empty, _⟩ | ⟨old, v, shape, _, _, others⟩ := inv
  · rw [empty] at member
    cases member
  · rw [shape] at member ⊢
    cases List.mem_append.mp member with
    | inl older =>
        cases others w older with
        | inl done => exact absurd (live.1.symm.trans done) Bool.false_ne_true
        | inr cancelled => exact absurd (live.2.symm.trans cancelled) Bool.false_ne_true
    | inr newest =>
        rw [List.mem_singleton.mp newest, List.getLast?_concat]

theorem live_place (inv : Inv s) {i : Nat} {w : Writer} (place : s.writers[i]? = some w)
    (live : w.Live) : i + 1 = s.writers.length := by
  obtain ⟨empty, _⟩ | ⟨old, v, shape, _, _, others⟩ := inv
  · rw [empty] at place
    cases place
  · rw [shape] at place ⊢
    by_cases older : i < old.length
    · rw [List.getElem?_append_left older] at place
      cases others w (List.mem_of_getElem? place) with
      | inl done => exact absurd (live.1.symm.trans done) Bool.false_ne_true
      | inr cancelled => exact absurd (live.2.symm.trans cancelled) Bool.false_ne_true
    · have bound := (List.getElem?_eq_some_iff.mp place).1
      rw [List.length_append, List.length_singleton] at bound ⊢
      omega

end Calls

section Steps
variable {s t : Sink}

/-- A writer's own step: its state and its cancellation stay, and a flag that is set. -/
theorem writer_step_spec {w w' : Writer} {e : Event} (taken : w.step e = some w') :
    w'.myState = w.myState ∧ w'.cancelled = w.cancelled ∧ (w.done = true → w'.done = true) ∧
      (w'.stage = .finished → w.stage = .finished ∨
        w.stage = .writing ∧ ∃ i, e = .wrote i ∨ e = .dropped i) := by
  cases e with
  | call myState bytes => cases taken
  | opened i | refused i | failed i =>
      simp only [Writer.step] at taken
      split at taken
      · cases taken
        exact ⟨rfl, rfl, id, nofun⟩
      · cases taken
  | wrote i =>
      simp only [Writer.step] at taken
      split at taken
      · rename_i stage
        cases taken
        exact ⟨rfl, rfl, id, fun _ => .inr ⟨stage, i, .inl rfl⟩⟩
      · cases taken
  | cancelSeen i =>
      simp only [Writer.step] at taken
      split at taken
      · cases taken
      · split at taken
        · cases taken
          exact ⟨rfl, rfl, id, nofun⟩
        · cases taken
          exact ⟨rfl, rfl, id, nofun⟩
        · cases taken
  | dropped i =>
      simp only [Writer.step] at taken
      split at taken
      · cases taken
      · split at taken
        · cases taken
          exact ⟨rfl, rfl, fun _ => rfl, nofun⟩
        · rename_i stage
          cases taken
          exact ⟨rfl, rfl, fun _ => rfl, fun _ => .inr ⟨stage, i, .inr rfl⟩⟩
        · cases taken
          exact ⟨rfl, rfl, fun _ => rfl, .inl⟩

theorem step_cases {e : Event} (taken : step s e = some t) :
    (∃ myState bytes, e = .call myState bytes ∧ t = (s.sendOnStream myState bytes).2) ∨
      ∃ i w w', e.writer = some i ∧ s.writers[i]? = some w ∧ w.step e = some w' ∧
        t = { s with writers := s.writers.set i w' } := by
  cases e with
  | call myState bytes => exact .inl ⟨myState, bytes, rfl, (Option.some.inj taken).symm⟩
  | opened i | refused i | wrote i | failed i | cancelSeen i | dropped i =>
      obtain ⟨w, place, taken⟩ := Option.bind_eq_some_iff.mp taken
      obtain ⟨w', moved, taken⟩ := Option.bind_eq_some_iff.mp taken
      exact .inr ⟨i, w, w', rfl, place, moved, (Option.some.inj taken).symm⟩

theorem Started.inv {myState : Nat} (started : Started s myState t) : Inv t := by
  obtain ⟨ws, shape, entry, _, others, _⟩ := started.shape
  exact .inr ⟨ws, _, shape, entry, rfl, others⟩

theorem inv_set (inv : Inv s) {i : Nat} {w w' : Writer} {e : Event} (place : s.writers[i]? = some w)
    (moved : w.step e = some w') : Inv { s with writers := s.writers.set i w' } := by
  obtain ⟨number, cancelled, flag, _⟩ := writer_step_spec moved
  obtain ⟨empty, _⟩ | ⟨old, v, shape, entry, sound, others⟩ := inv
  · rw [empty] at place
    cases place
  · right
    rw [shape] at place
    by_cases older : i < old.length
    · rw [List.getElem?_append_left older] at place
      refine ⟨old.set i w', v, ?_, ?_, sound, ?_⟩
      · rw [shape, List.set_append_left _ _ older]
      · rw [entry, List.length_set]
      · intro o member
        cases List.mem_or_eq_of_mem_set member with
        | inl rest => exact others o rest
        | inr new =>
            rw [new]
            cases others w (List.mem_of_getElem? place) with
            | inl done => exact .inl (flag done)
            | inr gone => exact .inr (cancelled.trans gone)
    · have bound := (List.getElem?_eq_some_iff.mp place).1
      rw [List.length_append, List.length_singleton] at bound
      have last : i = old.length := by omega
      subst last
      rw [List.getElem?_concat_length] at place
      cases place
      refine ⟨old, w', ?_, ?_, cancelled.trans sound, others⟩
      · rw [shape, List.set_append_right _ _ (Nat.le_refl _), Nat.sub_self]
        rfl
      · rw [entry, number]

theorem inv_step (inv : Inv s) {e : Event} (taken : step s e = some t) : Inv t := by
  obtain ⟨myState, bytes, _, rfl⟩ | ⟨i, w, w', _, place, moved, rfl⟩ := step_cases taken
  · cases @sendOnStream_spec s myState inv bytes with
    | inl kept => exact kept.1.symm ▸ inv
    | inr started => exact started.inv
  · exact inv_set inv place moved

theorem alone_of_inv (inv : Inv t) (i j : Nat) (v w : Writer) (first : t.writers[i]? = some v)
    (second : t.writers[j]? = some w) (live : v.Live) (live' : w.Live) : i = j := by
  have here := live_place inv first live
  have there := live_place inv second live'
  omega

theorem obeys_kept {myState : Nat} {bytes : List UInt8} (inv : Inv s) (kept : Kept s myState t) :
    Obeys s (.call myState bytes) t := by
  obtain ⟨rfl, old, w, shape, live, newer⟩ := kept
  have last : t.writers.getLast? = some w := by rw [shape, List.getLast?_concat]
  have idle : ∀ m, ¬ Starts t m t := fun m starts => by
    have grown := starts.1
    omega
  refine ⟨alone_of_inv inv, ?_, ?_, ?_, ?_⟩
  · rintro _ _ ⟨⟩
    have member : w ∈ t.writers := List.mem_of_getLast? last
    exact ⟨fun starts => absurd starts (idle _), fun none_ => absurd ⟨w, member, live, newer⟩ none_⟩
  · rintro _ _ ⟨⟩ starts
    exact absurd starts (idle _)
  · intro i v w' first second _ finished
    rw [first] at second
    cases second
    exact finished
  · rintro _ _ ⟨⟩ v newest done
    rw [last] at newest
    cases newest
    exact absurd (live.1.symm.trans done) Bool.false_ne_true

theorem obeys_started {myState : Nat} {bytes : List UInt8} (inv : Inv s)
    (started : Started s myState t) : Obeys s (.call myState bytes) t := by
  obtain ⟨ws, shape, _, length, _, stages⟩ := started.shape
  have starts : Starts s myState t := by
    constructor
    · rw [shape, List.length_append, length]
      rfl
    · rw [shape, List.getLast?_concat]
  refine ⟨alone_of_inv started.inv, ?_, ?_, ?_, ?_⟩
  · rintro _ _ ⟨⟩
    refine ⟨fun _ => ?_, fun _ => starts⟩
    rintro ⟨w, member, live, newer⟩
    cases started.newest w (live_is_newest inv member live) with
    | inl done => exact absurd (live.1.symm.trans done) Bool.false_ne_true
    | inr older => omega
  · rintro _ _ ⟨⟩ _ w last newer
    cases started.newest w last with
    | inl done => exact done
    | inr older => omega
  · intro i v w first second _ finished
    rw [shape] at second
    by_cases older : i < ws.length
    · rw [List.getElem?_append_left older] at second
      obtain ⟨v', place, stage⟩ := stages i w second
      rw [first] at place
      cases place
      exact stage.symm.trans finished
    · rw [List.getElem?_append_right (Nat.not_lt.mp older)] at second
      have bound := (List.getElem?_eq_some_iff.mp first).1
      omega
  · rintro _ _ ⟨⟩ _ _ _
    exact starts

theorem writer_of_end {e : Event} {i j : Nat} (writer : e.writer = some i)
    (which : e = .wrote j ∨ e = .dropped j) : j = i := by
  obtain rfl | rfl := which
  · exact Option.some.inj writer
  · exact Option.some.inj writer

theorem finished_of_end {w w' : Writer} {e : Event} {j : Nat} (which : e = .wrote j ∨ e = .dropped j)
    (writing : w.stage = .writing) (moved : w.step e = some w') : w'.stage = .finished := by
  obtain rfl | rfl := which
  · simp only [Writer.step, writing, if_true, Option.some.injEq] at moved
    rw [← moved]
  · simp only [Writer.step, writing] at moved
    split at moved
    · cases moved
    · cases moved
      rfl

section OwnStep
variable {e : Event} {i : Nat} {w w' : Writer}

theorem minds_of_obeys (writer : e.writer = some i) (place : s.writers[i]? = some w)
    (moved : w.step e = some w') (obeys : Obeys s e { s with writers := s.writers.set i w' }) :
    Minds s e := by
  intro j which v there writing
  obtain rfl := writer_of_end writer which
  rw [there] at place
  cases place
  cases cancelled : w.cancelled with
  | false => rfl
  | true =>
      have bound := (List.getElem?_eq_some_iff.mp there).1
      have before := obeys.cancelled j w w' there (List.getElem?_set_self bound) cancelled
        (finished_of_end which writing moved)
      rw [writing] at before
      cases before

theorem obeys_of_minds (inv : Inv { s with writers := s.writers.set i w' })
    (writer : e.writer = some i) (place : s.writers[i]? = some w) (moved : w.step e = some w')
    (minds : Minds s e) : Obeys s e { s with writers := s.writers.set i w' } := by
  have own : ∀ m bytes, e ≠ .call m bytes := by
    rintro m bytes rfl
    cases writer
  refine ⟨alone_of_inv inv, fun m bytes call => absurd call (own m bytes),
    fun m bytes call => absurd call (own m bytes), ?_,
    fun m bytes call => absurd call (own m bytes)⟩
  intro j v v' first second cancelled finished
  by_cases same : i = j
  · subst same
    rw [first] at place
    cases place
    rw [List.getElem?_set_self (List.getElem?_eq_some_iff.mp first).1] at second
    cases second
    cases (writer_step_spec moved).2.2.2 finished with
    | inl already => exact already
    | inr now =>
        obtain ⟨writing, k, which⟩ := now
        obtain rfl := writer_of_end writer which
        exact absurd (cancelled.symm.trans (minds k which w first writing)) Bool.noConfusion
  · rw [List.getElem?_set_ne same, first] at second
    cases second
    exact finished

end OwnStep

/-- A step obeys exactly if no cancelled writer gets to the end of its stream by it. -/
theorem obeys_iff {e : Event} (inv : Inv s) (taken : step s e = some t) : Obeys s e t ↔ Minds s e := by
  have kept := inv_step inv taken
  obtain ⟨myState, bytes, rfl, rfl⟩ | ⟨i, w, w', writer, place, moved, rfl⟩ := step_cases taken
  · refine ⟨fun _ i which => by simp at which, fun _ => ?_⟩
    cases @sendOnStream_spec s myState inv bytes with
    | inl kept => exact obeys_kept inv kept
    | inr started => exact obeys_started inv started
  · exact ⟨minds_of_obeys writer place moved, obeys_of_minds kept writer place moved⟩

end Steps

/-- Nothing queues, in every run and only in those runs in which no writer whose cancel sender
was dropped gets to the end of its stream before it sees that. -/
theorem oversized_frames_never_queue (events : List Event) :
    Along step Obeys Sink.new events ↔ Along step (fun s e _ => Minds s e) Sink.new events :=
  along_iff (fun _ _ _ inv taken => inv_step inv taken) (fun _ _ _ inv taken => obeys_iff inv taken)
    events (.inl ⟨rfl, rfl⟩)

/-- A superseded writer whose write completes first finishes its stream. -/
def overtaken : List Event := [.call 1 [0], .opened 0, .call 2 [0], .wrote 0]

theorem a_cancelled_writer_finishes :
    runFrom step Sink.new overtaken =
        some ⟨[⟨1, .finished, true, false⟩, ⟨2, .opening, false, false⟩], some ⟨2, 1⟩⟩ ∧
      ¬ Along step Obeys Sink.new overtaken := by
  refine ⟨by decide, fun along => ?_⟩
  have last := along.2.2.2.1
  have writing := last.cancelled 0 _ _ rfl rfl rfl rfl
  cases writing

end Oxutrm.Net.FrameSink
