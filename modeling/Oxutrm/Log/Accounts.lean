import Oxutrm.Log.Activity

/-!
What the activity log accounts for. The ring is what is left of the folded entries, with the
newest one always there, and the lines of the file say how often everything happened.
-/
namespace Oxutrm.Log
open Proto (Text)

/-- A call that repeats the newest entry is folded into it. -/
def foldIn (folded : List Entry) (call : Call) : List Entry :=
  match folded.getLast? with
  | some last =>
      if last.again call.entry then
        folded.dropLast ++ [{ last with repeats := last.repeats + 1, at_ := call.entry.at_ }]
      else folded ++ [call.entry]
  | none => [call.entry]

/-- Every entry there has been. -/
def folded (calls : List Call) : List Entry := calls.foldl foldIn []

def Call.said (call : Call) : Kind × Text := (call.entry.kind, call.entry.full)

/-- A line of the file. -/
inductive Line where
  | plain (at_ : SystemTime) (kind : Kind) (text : Text)
  | again (at_ : SystemTime) (kind : Kind) (text : Text) (n : Nat) (since : SystemTime)

def Line.text (tag : Text) : Line → Text
  | .plain at_ kind text => lineOf tag at_ kind text none
  | .again at_ kind text n since => lineOf tag at_ kind text (some (n, since))

/-- A plain line is one occurrence, and a repeated one is more of what was said last. -/
def Line.tell (said : List (Kind × Text)) : Line → Option (List (Kind × Text))
  | .plain _ kind text => some (said ++ [(kind, text)])
  | .again _ kind text n _ =>
      if said.getLast? = some (kind, text) then some (said ++ List.replicate n (kind, text)) else none

def expand (lines : List Line) : Option (List (Kind × Text)) := lines.foldlM Line.tell []

/-- The lines as they stand in a file. -/
def written (tag : Text) (lines : List Line) : Text := lines.flatMap fun line => line.text tag ++ ['\n']

/-- Every write succeeds, and what was written stays written. -/
structure Keeps {φ : Type*} (writeLine : φ → Text → Except Text φ) (content : φ → Text) : Prop where
  writes : ∀ f line, ∃ f', writeLine f line = .ok f' ∧ content f' = content f ++ line ++ ['\n']

/-- What becomes of the ring with one call. Nothing is evicted while there is room, and
what is not a detail only when there is no detail. -/
inductive Recorded (before : List Entry) : List Entry → Prop where
  | repeated {older : List Entry} {last : Entry} (n : Nat) (at_ : SystemTime) (split : before = older ++ [last]) :
      Recorded before (older ++ [{ last with repeats := n, at_ := at_ }])
  | added (e : Entry) (room : before.length < ringCap) : Recorded before (before ++ [e])
  | evicted {front back : List Entry} {gone : Entry} (e : Entry) (split : before = front ++ gone :: back)
      (last : gone.detail = false → ∀ x ∈ before, x.detail = false) : Recorded before (front ++ back ++ [e])

section Ring

theorem evict_room {ring : List Entry} (room : ring.length ≤ ringCap) : evict ring = ring := by
  rw [evict, dif_neg (by omega)]

/-- With a full ring one entry goes, and not the newest. -/
theorem evict_full {older : List Entry} (full : older.length = ringCap) (e : Entry) :
    ∃ front gone back, older = front ++ gone :: back ∧ evict (older ++ [e]) = front ++ back ++ [e] ∧
      (gone.detail = false → ∀ x ∈ older, x.detail = false) := by
  have long : (older ++ [e]).length > ringCap := by
    rw [List.length_append, List.length_singleton]
    omega
  have others : (older ++ [e]).take ((older ++ [e]).length - 1) = older := by
    rw [List.length_append, List.length_singleton, Nat.add_sub_cancel, List.take_left]
  rw [evict, dif_pos long]
  split
  next i found =>
      rw [others] at found
      obtain ⟨inside, detail, _⟩ := List.findIdx?_eq_some_iff_getElem.mp found
      refine ⟨older.take i, older[i], older.drop (i + 1), ?_, ?_, fun plain => ?_⟩
      · rw [List.getElem_cons_drop, List.take_append_drop]
      · rw [List.eraseIdx_append_of_lt_length inside, List.eraseIdx_eq_take_drop_succ, evict_room]
        simp only [List.length_append, List.length_take, List.length_drop, List.length_singleton]
        omega
      · rw [plain] at detail
        cases detail
  next found =>
      rw [others] at found
      have plain := List.findIdx?_eq_none_iff.mp found
      obtain ⟨gone, back, rfl⟩ : ∃ gone back, older = gone :: back :=
        List.exists_cons_of_ne_nil fun none => by
          rw [none] at full
          exact absurd full (by decide)
      refine ⟨[], gone, back, rfl, ?_, fun _ => plain⟩
      rw [List.cons_append, List.tail_cons, evict_room, List.nil_append]
      rw [List.length_append, List.length_singleton]
      rw [List.length_cons] at full
      omega

/-- A ring that is what is left of some entries, the newest of which is there. -/
inductive Mirrors : List Entry → List Entry → Prop where
  | empty : Mirrors [] []
  | newest {older others : List Entry} (last : Entry) (sublist : older.Sublist others) :
      Mirrors (older ++ [last]) (others ++ [last])

theorem Mirrors.sublist {ring entries : List Entry} (mirrors : Mirrors ring entries) : ring.Sublist entries := by
  cases mirrors with
  | empty => exact List.Sublist.refl []
  | newest last sublist => exact sublist.append (List.Sublist.refl [last])

theorem Mirrors.getLast? {ring entries : List Entry} (mirrors : Mirrors ring entries) :
    ring.getLast? = entries.getLast? := by
  cases mirrors with
  | empty => rfl
  | newest last _ => rw [List.getLast?_concat, List.getLast?_concat]

theorem Mirrors.split {older entries : List Entry} {last : Entry} (mirrors : Mirrors (older ++ [last]) entries) :
    ∃ others, entries = others ++ [last] ∧ older.Sublist others := by
  generalize front : older ++ [last] = ring at mirrors
  cases mirrors with
  | empty => simp at front
  | @newest older' others last' sublist =>
      obtain ⟨rfl, same⟩ := List.append_inj' front rfl
      exact ⟨others, same ▸ rfl, sublist⟩

theorem evict_sublist (ring : List Entry) : (evict ring).Sublist ring := by
  fun_induction evict ring with
  | case1 ring _ i _ ih => exact ih.trans (List.eraseIdx_sublist ring i)
  | case2 ring _ _ ih => exact ih.trans (List.tail_sublist ring)
  | case3 ring _ => exact List.Sublist.refl ring

/-- A new entry is in the ring, and what goes is not the newest. -/
theorem Mirrors.evict {ring entries : List Entry} (mirrors : Mirrors ring entries)
    (short : ring.length ≤ ringCap) (e : Entry) :
    ∃ left, Log.evict (ring ++ [e]) = left ++ [e] ∧ left.Sublist entries ∧
      (Log.evict (ring ++ [e])).length ≤ ringCap ∧ Recorded ring (Log.evict (ring ++ [e])) := by
  by_cases full : ring.length = ringCap
  · obtain ⟨front, gone, back, split, left, last⟩ := evict_full full e
    rw [left]
    refine ⟨front ++ back, rfl, List.Sublist.trans ?_ mirrors.sublist, ?_, .evicted e split last⟩
    · rw [split]
      exact (List.Sublist.refl front).append (List.sublist_cons_self gone back)
    · rw [split] at full
      simp only [List.length_append, List.length_cons, List.length_nil] at full ⊢
      omega
  · have room : (ring ++ [e]).length ≤ ringCap := by
      rw [List.length_append, List.length_singleton]
      omega
    rw [evict_room room]
    exact ⟨ring, rfl, mirrors.sublist, room, .added e (by omega)⟩

end Ring

section Said

theorem expand_append (lines more : List Line) :
    expand (lines ++ more) = (expand lines).bind fun said => more.foldlM Line.tell said :=
  List.foldlM_append

/-- What the newest entry still owes the file. -/
def owed (ring : List Entry) : List Line :=
  match ring.getLast? with
  | none => []
  | some last => if last.repeats = 0 then [] else [.again last.at_ last.kind last.full last.repeats last.since]

/-- The lines have said everything but the repeats of the newest entry. -/
def Tells (lines : List Line) (ring : List Entry) (calls : List Call) : Prop :=
  ∃ said, expand lines = some said ∧
    match ring.getLast? with
    | none => said = calls.map Call.said
    | some last => said.getLast? = some (last.kind, last.full) ∧
        calls.map Call.said = said ++ List.replicate last.repeats (last.kind, last.full)

theorem Tells.owed {lines : List Line} {ring : List Entry} {calls : List Call}
    (tells : Tells lines ring calls) : expand (lines ++ owed ring) = some (calls.map Call.said) := by
  obtain ⟨said, expands, rest⟩ := tells
  rw [expand_append, expands, Option.bind_some, Log.owed]
  cases newest : ring.getLast? with
  | none =>
      rw [newest] at rest
      rw [← rest]
      rfl
  | some last =>
      rw [newest] at rest
      obtain ⟨same, all⟩ := rest
      rw [all]
      by_cases once : last.repeats = 0
      · simp only [once, if_true, List.replicate_zero, List.append_nil]
        rfl
      · simp only [if_neg once]
        rw [List.foldlM_cons, Line.tell, if_pos same]
        rfl

theorem Tells.plain {lines : List Line} {ring left : List Entry} {calls : List Call}
    (tells : Tells lines ring calls) (call : Call) :
    Tells (lines ++ Log.owed ring ++ [.plain call.entry.at_ call.entry.kind call.entry.full])
      (left ++ [call.entry]) (calls ++ [call]) := by
  have once : call.entry.repeats = 0 := by cases call <;> rfl
  refine ⟨calls.map Call.said ++ [call.said], ?_, ?_⟩
  · rw [expand_append, tells.owed]
    rfl
  · rw [List.getLast?_concat]
    refine ⟨List.getLast?_concat, ?_⟩
    rw [once, List.replicate_zero, List.append_nil, List.map_append, List.map_singleton]

theorem Entry.again_iff {last e : Entry} : last.again e = true ↔
    last.kind = e.kind ∧ last.full = e.full ∧ last.shown = e.shown ∧ last.detail = e.detail := by
  simp only [Entry.again, Bool.and_eq_true, decide_eq_true_eq, and_assoc]

theorem Tells.again {lines : List Line} {older : List Entry} {last : Entry} {calls : List Call}
    (tells : Tells lines (older ++ [last]) calls) {call : Call} (again : last.again call.entry = true)
    (at_ : SystemTime) :
    Tells lines (older ++ [{ last with repeats := last.repeats + 1, at_ := at_ }]) (calls ++ [call]) := by
  obtain ⟨said, expands, rest⟩ := tells
  rw [List.getLast?_concat] at rest
  obtain ⟨same, all⟩ := rest
  obtain ⟨kind, full, _⟩ := Entry.again_iff.mp again
  refine ⟨said, expands, ?_⟩
  rw [List.getLast?_concat]
  refine ⟨same, ?_⟩
  have more : call.said = (last.kind, last.full) := by rw [Call.said, kind, full]
  rw [List.map_append, List.map_singleton, all, more, List.replicate_succ', List.append_assoc]

end Said

section Lines

theorem not_mem_append {c : Char} {s t : Text} (left : c ∉ s) (right : c ∉ t) : c ∉ s ++ t := fun member =>
  (List.mem_append.mp member).elim left right

theorem legible_table : ∀ n : Fin 0xa0, '\n' ∉ Ui.legibleChar (Char.ofNat n) := by decide +kernel

theorem newline_legible (text : Text) : '\n' ∉ Ui.legible text := by
  intro member
  obtain ⟨c, _, inside⟩ := List.mem_flatMap.mp member
  by_cases low : c.toNat < 0xa0
  · have known := legible_table ⟨c.toNat, low⟩
    rw [Char.ofNat_toNat] at known
    exact known inside
  · rw [Ui.legibleChar, if_neg (by omega), if_neg (by omega), if_neg] at inside
    · rw [List.mem_singleton] at inside
      subst inside
      exact absurd (by decide) low
    · simp only [Bool.and_eq_true, decide_eq_true_eq]
      omega

theorem newline_cutAt {text : Text} (plain : '\n' ∉ text) (cap : Nat) : '\n' ∉ cutAt cap text := by
  unfold cutAt
  split
  · exact plain
  · exact not_mem_append (fun member => plain (List.mem_of_mem_take member)) (by decide)

theorem newline_intercalate {between : Text} (plain : '\n' ∉ between) {parts : List Text}
    (each : ∀ part ∈ parts, '\n' ∉ part) : '\n' ∉ between.intercalate parts := by
  induction parts with
  | nil => exact List.not_mem_nil
  | cons part parts ih =>
      have here := each part List.mem_cons_self
      have rest := ih fun other member => each other (List.mem_cons_of_mem part member)
      cases parts with
      | nil => rwa [List.intercalate_singleton]
      | cons next parts =>
          rw [List.intercalate_cons_cons]
          exact not_mem_append (not_mem_append here plain) rest

theorem newline_fileText (text : Text) : '\n' ∉ fileText text := by
  refine newline_cutAt (newline_intercalate (by decide) fun part member => ?_) fileTextCap
  obtain ⟨_, _, rfl⟩ := List.mem_map.mp member
  exact newline_legible _

theorem newline_digits (n : Nat) : '\n' ∉ Nat.toDigits 10 n := fun member =>
  absurd (Nat.isDigit_of_mem_toDigits (by decide) (by decide) member) (by decide)

theorem newline_padded (w : Nat) (n : Int) : '\n' ∉ padded w n := by
  have left : ∀ w n, '\n' ∉ List.leftpad w '0' (Nat.toDigits 10 n) := fun w n =>
    not_mem_append (fun member => absurd (List.eq_of_mem_replicate member) (by decide)) (newline_digits n)
  unfold padded
  split
  · exact List.not_mem_cons_of_ne_of_not_mem (by decide) (left _ _)
  · exact left _ _

theorem newline_rfc3339Utc (t : SystemTime) : '\n' ∉ rfc3339Utc t := by
  unfold rfc3339Utc
  simp only [List.mem_append, newline_padded, List.mem_singleton, Char.reduceEq, or_self, not_false_eq_true]

theorem newline_hhMmUtc (t : SystemTime) : '\n' ∉ hhMmUtc t := by
  unfold hhMmUtc
  simp only [List.mem_append, newline_padded, List.mem_singleton, Char.reduceEq, or_self, not_false_eq_true]

theorem newline_name (kind : Kind) : '\n' ∉ kind.name := by cases kind <;> decide

theorem newline_lineOf {tag text : Text} (tagged : '\n' ∉ tag) (plain : '\n' ∉ text) (at_ : SystemTime)
    (kind : Kind) (run : Option (Nat × SystemTime)) : '\n' ∉ lineOf tag at_ kind text run := by
  have front : '\n' ∉ rfc3339Utc at_ ++ [' '] ++ tag ++ [' '] ++ kind.name ++ [' '] ++ text := by
    simp only [List.mem_append, newline_rfc3339Utc, tagged, newline_name, plain, List.mem_singleton,
      Char.reduceEq, or_self, not_false_eq_true]
  refine not_mem_append front ?_
  cases run with
  | none => exact List.not_mem_nil
  | some run =>
      have start : '\n' ∉ " (repeated ".toList := by decide
      have since : '\n' ∉ " since ".toList := by decide
      simp only [List.mem_append, start, newline_digits, since, newline_hhMmUtc, List.mem_singleton,
        Char.reduceEq, or_self, not_false_eq_true]

end Lines

section Writing
variable {φ : Type*} {writeLine : φ → Text → Except Text φ} {content : φ → Text}

theorem write_keeps (keeps : Keeps writeLine content) {a : Activity φ} {f : φ} (file : a.file = some f)
    (now : SystemTime) (line : Text) :
    ∃ f', a.write writeLine now line = { a with file := some f' } ∧
      content f' = content f ++ line ++ ['\n'] := by
  obtain ⟨f', wrote, holds⟩ := keeps.writes f line
  exact ⟨f', by simp only [Activity.write, file, wrote], holds⟩

theorem endRun_keeps (keeps : Keeps writeLine content) {a : Activity φ} {f : φ} (file : a.file = some f)
    (now : SystemTime) :
    ∃ f', a.endRun writeLine now = { a with file := some f' } ∧
      content f' = content f ++ written a.tag (owed a.ring) := by
  have same : a = { a with file := some f } := by rw [← file]
  unfold Activity.endRun owed
  cases a.ring.getLast? with
  | none => exact ⟨f, same, (List.append_nil _).symm⟩
  | some last =>
      by_cases once : last.repeats = 0
      · simp only [if_pos once]
        exact ⟨f, same, (List.append_nil _).symm⟩
      · simp only [if_neg once]
        obtain ⟨f', wrote, holds⟩ := write_keeps keeps file now
          (lineOf a.tag last.at_ last.kind last.full (some (last.repeats, last.since)))
        refine ⟨f', wrote, ?_⟩
        rw [holds, List.append_assoc]
        simp [written, Line.text]

/-- What a call does: the newest entry is repeated, or what is owed and the new entry are
written. -/
theorem record_keeps (keeps : Keeps writeLine content) {a : Activity φ} {f : φ} (file : a.file = some f)
    (call : Call) :
    (∃ older last, a.ring = older ++ [last] ∧ last.again call.entry = true ∧
      a.record writeLine call =
        { a with ring := older ++ [{ last with repeats := saturatingSucc last.repeats, at_ := call.entry.at_ }] }) ∨
    ((∀ last, a.ring.getLast? = some last → last.again call.entry = false) ∧
      ∃ f', a.record writeLine call = { ring := evict (a.ring ++ [call.entry]), file := some f', tag := a.tag } ∧
        content f' = content f ++
          written a.tag (owed a.ring ++ [.plain call.entry.at_ call.entry.kind call.entry.full])) := by
  have fresh : ∃ f', Activity.recordEntry.fresh writeLine a call.entry =
        { ring := evict (a.ring ++ [call.entry]), file := some f', tag := a.tag } ∧
      content f' = content f ++
        written a.tag (owed a.ring ++ [.plain call.entry.at_ call.entry.kind call.entry.full]) := by
    obtain ⟨f', ended, holds⟩ := endRun_keeps keeps file call.entry.at_
    obtain ⟨f'', wrote, holds'⟩ := @write_keeps φ writeLine content keeps
      (({ a with file := some f' } : Activity φ).push call.entry) f' rfl call.entry.at_
      (lineOf a.tag call.entry.at_ call.entry.kind call.entry.full none)
    refine ⟨f'', ?_, ?_⟩
    · simp only [Activity.recordEntry.fresh, ended]
      exact wrote
    · rw [holds', holds]
      simp [written, Line.text]
  unfold Activity.record Activity.recordEntry
  cases newest : a.ring.getLast? with
  | none => exact .inr ⟨nofun, fresh⟩
  | some last =>
      cases again : last.again call.entry with
      | false =>
          simp only [again, Bool.false_eq_true, if_false]
          exact .inr ⟨fun e same => by cases same; exact again, fresh⟩
      | true =>
          obtain ⟨older, split⟩ := List.getLast?_eq_some_iff.mp newest
          refine .inl ⟨older, last, split, again, ?_⟩
          simp only [again, if_true, split, List.dropLast_concat]

/-- A log that accounts for some calls. -/
structure Accounted (content : φ → Text) (old tag : Text) (calls : List Call) (a : Activity φ) : Prop where
  named : a.tag = tag
  ring : Mirrors a.ring (folded calls)
  short : a.ring.length ≤ ringCap
  plain : ∀ e ∈ a.ring, '\n' ∉ e.full
  file : ∃ f lines, a.file = some f ∧ content f = old ++ written tag lines ∧
    (∀ line ∈ lines, '\n' ∉ line.text tag) ∧ Tells lines a.ring calls

theorem folded_snoc (calls : List Call) (call : Call) : folded (calls ++ [call]) = foldIn (folded calls) call := by
  rw [folded, List.foldl_append]
  rfl

theorem foldIn_again {others : List Entry} {last : Entry} {call : Call} (again : last.again call.entry = true) :
    foldIn (others ++ [last]) call =
      others ++ [{ last with repeats := last.repeats + 1, at_ := call.entry.at_ }] := by
  rw [foldIn, List.getLast?_concat]
  simp only [again, if_true, List.dropLast_concat]

theorem foldIn_fresh {entries : List Entry} {call : Call}
    (fresh : ∀ last, entries.getLast? = some last → last.again call.entry = false) :
    foldIn entries call = entries ++ [call.entry] := by
  unfold foldIn
  cases newest : entries.getLast? with
  | none =>
      rw [List.getLast?_eq_none_iff.mp newest]
      rfl
  | some last => simp only [fresh last newest, Bool.false_eq_true, if_false]

theorem few_of_snoc {calls : List Call} {call : Call}
    (few : ∀ e ∈ folded (calls ++ [call]), e.repeats < 2 ^ 32) : ∀ e ∈ folded calls, e.repeats < 2 ^ 32 := by
  intro e member
  rw [folded_snoc] at few
  by_cases fresh : ∀ last, (folded calls).getLast? = some last → last.again call.entry = false
  · rw [foldIn_fresh fresh] at few
    exact few e (List.mem_append_left _ member)
  · push Not at fresh
    obtain ⟨last, newest, again⟩ := fresh
    obtain ⟨others, split⟩ := List.getLast?_eq_some_iff.mp newest
    rw [split, foldIn_again (by simpa using again)] at few
    rw [split] at member
    rcases List.mem_append.mp member with other | same
    · exact few e (List.mem_append_left _ other)
    · have more := few _ (List.mem_append_right others (List.mem_singleton_self _))
      rw [List.mem_singleton.mp same]
      dsimp only at more
      omega

theorem newline_owed {ring : List Entry} {tag : Text} (tagged : '\n' ∉ tag) (plain : ∀ e ∈ ring, '\n' ∉ e.full) :
    ∀ line ∈ owed ring, '\n' ∉ line.text tag := by
  intro line member
  unfold owed at member
  cases newest : ring.getLast? with
  | none =>
      rw [newest] at member
      exact absurd member List.not_mem_nil
  | some last =>
      simp only [newest] at member
      by_cases once : last.repeats = 0
      · rw [if_pos once] at member
        exact absurd member List.not_mem_nil
      · rw [if_neg once] at member
        rw [List.mem_singleton.mp member, Line.text]
        exact newline_lineOf tagged (plain last (List.mem_of_getLast? newest)) _ _ _

theorem Call.newline_full (call : Call) : '\n' ∉ call.entry.full := by
  cases call <;> exact newline_fileText _

theorem Accounted.record (keeps : Keeps writeLine content) {old tag : Text} (tagged : '\n' ∉ tag)
    {calls : List Call} {a : Activity φ} (accounted : Accounted content old tag calls a) {call : Call}
    (few : ∀ e ∈ folded (calls ++ [call]), e.repeats < 2 ^ 32) :
    Accounted content old tag (calls ++ [call]) (a.record writeLine call) := by
  obtain ⟨named, ring, short, plain, f, lines, file, holds, ended, tells⟩ := accounted
  rw [folded_snoc] at few
  rcases record_keeps keeps file call with ⟨older, last, split, again, same⟩ | ⟨fresh, f', same, wrote⟩
  · rw [split] at ring short plain tells
    obtain ⟨others, entries, sublist⟩ := ring.split
    -- There have been too few repeats for the count to be full.
    rw [entries, foldIn_again again] at few
    have room := few _ (List.mem_append_right others (List.mem_singleton_self _))
    have count : saturatingSucc last.repeats = last.repeats + 1 := by rw [saturatingSucc, if_pos room]
    rw [same, count]
    refine ⟨named, ?_, ?_, ?_, f, lines, file, holds, ended, tells.again again _⟩
    · rw [folded_snoc, entries, foldIn_again again]
      exact .newest _ sublist
    · simpa using short
    · intro e member
      rcases List.mem_append.mp member with old | new
      · exact plain e (List.mem_append_left _ old)
      · rw [List.mem_singleton.mp new]
        exact plain last (List.mem_append_right _ (List.mem_singleton_self last))
  · obtain ⟨left, split, sublist, fits, _⟩ := ring.evict short call.entry
    rw [same]
    refine ⟨named, ?_, fits, ?_, f', lines ++ (owed a.ring ++
      [.plain call.entry.at_ call.entry.kind call.entry.full]), rfl, ?_, ?_, ?_⟩
    · rw [folded_snoc, foldIn_fresh (ring.getLast? ▸ fresh)]
      exact split ▸ .newest _ sublist
    · intro e member
      rcases List.mem_append.mp ((evict_sublist _).subset member) with old | new
      · exact plain e old
      · rw [List.mem_singleton.mp new]
        exact call.newline_full
    · rw [wrote, holds, named, List.append_assoc]
      simp only [written, List.flatMap_append]
    · intro line member
      rcases List.mem_append.mp member with old | new
      · exact ended line old
      · rcases List.mem_append.mp new with more | last
        · exact newline_owed tagged plain line more
        · rw [List.mem_singleton.mp last, Line.text]
          exact newline_lineOf tagged call.newline_full _ _ _
    · rw [← List.append_assoc, split]
      exact tells.plain call

/-- Whatever the call, nothing that is no detail goes before one that is. -/
theorem Accounted.recorded (keeps : Keeps writeLine content) {old tag : Text} {calls : List Call}
    {a : Activity φ} (accounted : Accounted content old tag calls a) (call : Call) :
    Recorded a.ring (a.record writeLine call).ring := by
  obtain ⟨f, _, file, _⟩ := accounted.file
  rcases record_keeps keeps file call with ⟨older, last, split, _, same⟩ | ⟨_, _, same, _⟩
  · rw [same]
    exact .repeated _ _ split
  · rw [same]
    exact (accounted.ring.evict accounted.short call.entry).choose_spec.2.2.2

theorem accounted_withFile (f : φ) (now : SystemTime) (target sessionId : Text) :
    let a := Activity.withFile (.ok f) now target sessionId
    Accounted content (content f) a.tag [] a :=
  ⟨rfl, .empty, Nat.zero_le _, nofun, f, [], rfl, (List.append_nil _).symm, nofun, [], rfl, rfl⟩

theorem newline_withFile (f : φ) (now : SystemTime) (target sessionId : Text) :
    '\n' ∉ (Activity.withFile (.ok f) now target sessionId).tag := by
  refine not_mem_append (not_mem_append (newline_legible target) (by decide)) ?_
  change '\n' ∉ if sessionId.take 8 = [] then ['-'] else Ui.legible (sessionId.take 8)
  split
  · decide
  · exact newline_legible _

theorem Accounted.run (keeps : Keeps writeLine content) {old tag : Text} (tagged : '\n' ∉ tag)
    {a : Activity φ} (start : Accounted content old tag [] a) (calls : List Call)
    (few : ∀ e ∈ folded calls, e.repeats < 2 ^ 32) :
    Accounted content old tag calls (a.run writeLine calls) := by
  induction calls using List.reverseRecOn with
  | nil => exact start
  | append_singleton calls call ih =>
      rw [Activity.run, List.foldl_append]
      exact (ih (few_of_snoc few)).record keeps tagged few

/-- Nothing that happens is lost from the file or counted twice, and the ring is what is
left of it with the newest always there. Which lines stand for repeats is what the writer
says: a recorded text that itself ends like such a line would be read as one. -/
theorem activity_accounts_for_every_call (keeps : Keeps writeLine content) (f : φ) (opened closed : SystemTime)
    (target sessionId : Text) (calls : List Call) (few : ∀ e ∈ folded calls, e.repeats < 2 ^ 32) :
    let a := (Activity.withFile (.ok f) opened target sessionId).run writeLine calls
    (∃ f' lines, (a.drop writeLine closed).file = some f' ∧ content f' = content f ++ written a.tag lines ∧
      (∀ line ∈ lines, '\n' ∉ line.text a.tag) ∧ expand lines = some (calls.map Call.said)) ∧
    a.ring.length ≤ ringCap ∧ a.ring.Sublist (folded calls) ∧ a.ring.getLast? = (folded calls).getLast? ∧
    ∀ call, Recorded a.ring (a.record writeLine call).ring := by
  intro a
  have tagged := newline_withFile f opened target sessionId
  have accounted : Accounted content (content f) _ calls a :=
    (accounted_withFile f opened target sessionId).run keeps tagged calls few
  have recorded := accounted.recorded keeps
  obtain ⟨named, ring, short, plain, f₁, lines, file, holds, ended, tells⟩ := accounted
  refine ⟨?_, short, ring.sublist, ring.getLast?, recorded⟩
  obtain ⟨f₂, dropped, wrote⟩ := endRun_keeps keeps file closed
  refine ⟨f₂, lines ++ owed a.ring, by rw [Activity.drop, dropped], ?_, ?_, tells.owed⟩
  · rw [wrote, holds, named, List.append_assoc]
    simp only [written, List.flatMap_append]
  · intro line member
    rw [named]
    rcases List.mem_append.mp member with old | more
    · exact ended line old
    · exact newline_owed tagged plain line more

/-- A file keeps what is written to it, some of it where a rotation overwrites it. -/
theorem logFile_keeps :
    Keeps LogFile.writeLine fun file => file.overwritten ++ file.rotated ++ file.named := by
  refine ⟨fun file line => ⟨_, rfl, ?_⟩⟩
  dsimp only
  split
  · simp only [LogFile.rotate, List.nil_append, List.append_assoc]
  · simp only [List.append_assoc]

/-- A call, its repeat and another one, in a file that is rotated after each line. -/
theorem activity_accounts_for_a_repeat :
    let up := Call.record .link "up".toList ⟨0⟩
    let calls := [up, up, .recordDetail .rebuild "again\nand again".toList ⟨0⟩]
    let a := (Activity.withFile (.ok { cap := 1 }) ⟨0⟩ "bastion".toList []).run LogFile.writeLine calls
    ∃ f' lines, (a.drop LogFile.writeLine ⟨0⟩).file = some f' ∧
      f'.overwritten ++ f'.rotated ++ f'.named = written a.tag lines ∧
      expand lines = some (calls.map Call.said) := by
  obtain ⟨⟨f', lines, file, holds, _, said⟩, _⟩ := activity_accounts_for_every_call logFile_keeps
    { cap := 1 } ⟨0⟩ ⟨0⟩ "bastion".toList []
    [.record .link "up".toList ⟨0⟩, .record .link "up".toList ⟨0⟩,
      .recordDetail .rebuild "again\nand again".toList ⟨0⟩] (by decide +kernel)
  exact ⟨f', lines, file, holds, said⟩

end Writing
end Oxutrm.Log
