import Oxutrm.Host.Terminal
import Oxutrm.Host.Turns

/-!
What the operations of a session do to its counts. Every state a session hands to its
sender carries counts no lower than the one before it, whether a terminal made it or a
lobby did; the clipboard loses its text or takes copies, and its number only rises.
-/
namespace Oxutrm.Host
open Proto Sync

section Clipboards

/-- What a clipboard became while `n` copies were taken. -/
inductive Later (c : Clipboard) : Nat → Clipboard → Prop where
  | refl : Later c 0 c
  | dropped {n : Nat} {c' : Clipboard} (before : Later c n c') : Later c n c'.withoutText
  | copied {n : Nat} {c' : Clipboard} (kind : ClipboardType) {text : Text}
      (short : text.len ≤ maxClipboard) (before : Later c n c') :
      Later c (n + 1) (recordCopy c' kind text).1

theorem serial_recordCopy (c : Clipboard) (kind : ClipboardType) {text : Text}
    (short : text.len ≤ maxClipboard) :
    (recordCopy c kind text).1.serial.toNat = min (c.serial.toNat + 1) (2 ^ 32 - 1) := by
  have below := c.serial.toNat_lt
  have one : (1 : UInt32).toNat = 1 := rfl
  unfold recordCopy
  rw [if_neg (Nat.not_lt.mpr short)]
  dsimp only
  split
  · rw [UInt32.toNat_add]
    omega
  · omega

theorem recordCopy_of_long (c : Clipboard) (kind : ClipboardType) {text : Text}
    (long : ¬ text.len ≤ maxClipboard) : (recordCopy c kind text).1 = c := by
  unfold recordCopy
  rw [if_pos (Nat.lt_of_not_le long)]

namespace Later
variable {c c' c'' x : Clipboard} {n m : Nat}

theorem trans (first : Later c n c') (second : Later c' m c'') : Later c (n + m) c'' := by
  induction second with
  | refl => exact first
  | dropped _ ih => exact ih.dropped
  | copied kind short _ ih => exact ih.copied kind short

theorem records (copies : List (ClipboardType × Text)) (before : Later c n c') :
    Later c (n + taken copies) (recordCopies c' copies) := by
  induction copies generalizing n c' with
  | nil => exact before
  | cons copy copies ih =>
      by_cases short : copy.2.len ≤ maxClipboard
      · have rest := ih (before.copied copy.1 short)
        have count : taken (copy :: copies) = taken copies + 1 :=
          List.countP_cons_of_pos (decide_eq_true short)
        rw [count, Nat.add_comm (taken copies), ← Nat.add_assoc]
        exact rest
      · have rest := ih before
        have count : taken (copy :: copies) = taken copies :=
          List.countP_cons_of_neg (by simpa using short)
        rw [count]
        rw [← recordCopy_of_long c' copy.1 short] at rest
        exact rest

theorem le_serial (later : Later c n c') : c.serial ≤ c'.serial := by
  induction later with
  | refl => exact UInt32.le_refl _
  | dropped _ ih => exact ih
  | @copied n c' kind text short _ ih =>
      refine UInt32.le_trans ih (UInt32.le_iff_toNat_le.mpr ?_)
      have below := c'.serial.toNat_lt
      rw [serial_recordCopy c' kind short]
      omega

theorem numbered (later : Later c n c') {k : Nat}
    (counts : c.serial.toNat = min k (2 ^ 32 - 1)) :
    c'.serial.toNat = min (k + n) (2 ^ 32 - 1) := by
  induction later with
  | refl => exact counts
  | dropped _ ih => exact ih
  | copied kind short _ ih =>
      rw [serial_recordCopy _ kind short, ih]
      omega

end Later

/-- A clipboard shown earlier: of an older copy, or of this one for as long as its text
is here. -/
structure Elder (c x : Clipboard) : Prop where
  le : x.serial ≤ c.serial
  same : c.copy ≠ none → x.serial = c.serial → x = c

theorem Elder.refl (c : Clipboard) : Elder c c := ⟨UInt32.le_refl _, fun _ _ => rfl⟩

theorem Elder.later {c c' x : Clipboard} {n k : Nat} (elder : Elder c x) (later : Later c n c')
    (counts : c.serial.toNat = min k (2 ^ 32 - 1)) (room : k + n < 2 ^ 32) : Elder c' x := by
  induction later with
  | refl => exact elder
  | dropped _ ih => exact ⟨(ih room).le, fun text => absurd rfl text⟩
  | @copied n c' kind text short before ih =>
      have older := (ih (Nat.lt_of_succ_lt room)).le
      have number := before.numbered counts
      have next := serial_recordCopy c' kind short
      have above : x.serial.toNat < (recordCopy c' kind text).1.serial.toNat := by
        have := UInt32.le_iff_toNat_le.mp older
        omega
      refine ⟨UInt32.le_iff_toNat_le.mpr (Nat.le_of_lt above), fun _ same => ?_⟩
      rw [same] at above
      exact absurd above (Nat.lt_irrefl _)

/-- Text has a number. -/
def Clipboard.Numbered (c : Clipboard) : Prop := c.copy ≠ none → c.serial ≠ 0

theorem Later.numbers {c c' : Clipboard} {n : Nat} (later : Later c n c') (numbered : Clipboard.Numbered c) :
    Clipboard.Numbered c' := by
  induction later with
  | refl => exact numbered
  | dropped _ _ => exact fun text => absurd rfl text
  | @copied n c' kind text short _ _ =>
      intro _ zero
      have number := serial_recordCopy c' kind short
      rw [zero] at number
      change 0 = min (c'.serial.toNat + 1) (2 ^ 32 - 1) at number
      omega

theorem Later.same_or_above {c c' : Clipboard} {n k : Nat} (later : Later c n c')
    (counts : c.serial.toNat = min k (2 ^ 32 - 1)) (room : k + n < 2 ^ 32)
    (text : c'.copy ≠ none) : c' = c ∨ c.serial < c'.serial := by
  cases later with
  | refl => exact Or.inl rfl
  | dropped _ => exact absurd rfl text
  | @copied n c' kind text short before =>
      refine Or.inr (UInt32.lt_iff_toNat_lt.mpr ?_)
      have low := UInt32.le_iff_toNat_le.mp before.le_serial
      have number := before.numbered counts
      rw [serial_recordCopy c' kind short]
      omega

end Clipboards

/-- The counts of a screen are no higher than those of a terminal. -/
structure Tally.Covers (t : Tally) (s : ScreenState) : Prop where
  bell : s.bell ≤ t.bell
  scrollbackLen : s.scrollbackLen ≤ t.scrollbackLen
  serial : s.clipboard.serial ≤ t.clipboard.serial

theorem countersLe_refl (s : ScreenState) : s.CountersLe s :=
  ⟨UInt32.le_refl _, UInt64.le_refl _, UInt32.le_refl _⟩

namespace HostTerm
variable {E κ : Type} {p : Pty E κ} {t t' : HostTerm E} {s : ScreenState}

theorem Pictures.countersLe {t : Tally} {x : ScreenState} (pictures : Pictures t x)
    (covers : t.Covers s) : s.CountersLe x := by
  refine ⟨?_, ?_, ?_⟩
  · rw [pictures.bell]
    exact covers.bell
  · rw [pictures.scrollbackLen]
    exact covers.scrollbackLen
  · rw [pictures.clipboard]
    exact covers.serial

theorem Pictures.covers {t : Tally} {x : ScreenState} (pictures : Pictures t x) : t.Covers x := by
  refine ⟨?_, ?_, ?_⟩
  · rw [pictures.bell]
    exact UInt32.le_refl _
  · rw [pictures.scrollbackLen]
    exact UInt64.le_refl _
  · rw [pictures.clipboard]
    exact UInt32.le_refl _

theorem poll_spec {moved : Bool} (polled : t.poll p = .ok (t', moved)) :
    ∃ n, t'.copies = t.copies + n ∧ t'.dropped = t.dropped ∧
      Later t.clipboard n t'.clipboard ∧ (t.Covers s → t'.Covers s) := by
  unfold poll at polled
  split at polled
  · cases polled
  · rename_i pty signals drained
    cases polled
    have later : Later t.clipboard (taken signals.clipboard)
        (recordCopies t.clipboard signals.clipboard) := by
      have records := Later.records signals.clipboard (Later.refl (c := t.clipboard))
      rwa [Nat.zero_add] at records
    refine ⟨_, rfl, rfl, later, fun covers => ⟨?_, ?_, ?_⟩⟩
    · exact UInt32.le_trans covers.bell (le_saturatingAdd32 _ _)
    · exact UInt64.le_trans covers.scrollbackLen (le_scrolled _ _)
    · exact UInt32.le_trans covers.serial later.le_serial

theorem clipboardDelivered_tally (t : HostTerm E) (serial : UInt32) :
    (t.clipboardDelivered serial).1.toTally = t.toTally ∨
      t.clipboard.serial = serial ∧ t.clipboard.copy ≠ none ∧
        (t.clipboardDelivered serial).1.toTally =
          { t.toTally with
            clipboard := t.clipboard.withoutText
            dropped := t.dropped ++ [t.clipboard] } := by
  unfold clipboardDelivered
  split
  · exact Or.inl rfl
  · rename_i both
    rw [not_or, not_not] at both
    exact Or.inr ⟨both.1, both.2, rfl⟩

theorem countOnFrom_covers (t : HostTerm E) (prior : ScreenState) :
    (t.countOnFrom prior).Covers prior := by
  have bell : prior.bell ≤ max t.bell prior.bell := by
    change prior.bell ≤ if t.bell ≤ prior.bell then prior.bell else t.bell
    split
    · exact UInt32.le_refl _
    · exact UInt32.le_of_lt (UInt32.not_le.mp ‹_›)
  have scrolled : prior.scrollbackLen ≤ max t.scrollbackLen prior.scrollbackLen := by
    change prior.scrollbackLen ≤ if t.scrollbackLen ≤ prior.scrollbackLen then
      prior.scrollbackLen else t.scrollbackLen
    split
    · exact UInt64.le_refl _
    · exact UInt64.le_of_lt (UInt64.not_le.mp ‹_›)
  unfold countOnFrom
  dsimp only
  split
  · exact ⟨bell, scrolled, UInt32.le_refl _⟩
  · exact ⟨bell, scrolled, UInt32.not_lt.mp ‹_›⟩

/-- The clipboard of a new shell has the number of the screen before it and no text. -/
theorem spawn_countOnFrom {pty : E} {size : TermSize} (spawned : spawn pty size = some t)
    (prior : ScreenState) :
    (t.countOnFrom prior).clipboard = prior.clipboard.withoutText ∧
      (t.countOnFrom prior).copies = 0 ∧ (t.countOnFrom prior).dropped = [] := by
  unfold spawn at spawned
  split at spawned
  · cases spawned
    unfold countOnFrom
    dsimp only
    split
    · exact ⟨rfl, rfl, rfl⟩
    · rename_i none_
      have zero : prior.clipboard.serial = 0 := by
        have low := UInt32.le_iff_toNat_le.mp (UInt32.not_lt.mp none_)
        exact UInt32.toNat_inj.mp (Nat.le_zero.mp low)
      refine ⟨?_, rfl, rfl⟩
      rw [Clipboard.withoutText, zero]
  · cases spawned

end HostTerm

section Sessions
variable {E κ : Type} {p : Pty E κ} {s s' s'' : HostSession (HostTerm E)}

namespace HostSession

/-- The counts of the terminal; a lobby has none. -/
def tally (s : HostSession (HostTerm E)) : Option Tally := s.term.map HostTerm.toTally

/-- The clipboard of the shell, or of the lobby's screen. -/
def clipboard (s : HostSession (HostTerm E)) : Clipboard :=
  match s.tally with
  | some t => t.clipboard
  | none => s.screenTx.current.clipboard

/-- The copies the shell has taken. -/
def copies (s : HostSession (HostTerm E)) : Nat :=
  match s.tally with
  | some t => t.copies
  | none => 0

/-- The copies whose text the shell has dropped. -/
def drops (s : HostSession (HostTerm E)) : List Clipboard :=
  match s.tally with
  | some t => t.dropped
  | none => []

theorem clipboard_of_tally {t : Tally} (held : s.tally = some t) : s.clipboard = t.clipboard := by
  rw [clipboard, held]

theorem copies_of_tally {t : Tally} (held : s.tally = some t) : s.copies = t.copies := by
  rw [copies, held]

theorem drops_of_tally {t : Tally} (held : s.tally = some t) : s.drops = t.dropped := by
  rw [drops, held]

theorem clipboard_of_lobby (lobby : s.tally = none) :
    s.clipboard = s.screenTx.current.clipboard := by
  rw [clipboard, lobby]

theorem copies_of_lobby (lobby : s.tally = none) : s.copies = 0 := by
  rw [copies, lobby]

theorem drops_of_lobby (lobby : s.tally = none) : s.drops = [] := by
  rw [drops, lobby]

end HostSession

/-- The terminal is not behind the screen that was handed over last. -/
def Poised (s : HostSession (HostTerm E)) : Prop :=
  ∀ t, s.tally = some t → t.Covers s.screenTx.current

/-- One session after another that has handed the states `new` to its sender and taken
`n` copies. -/
structure Hands (s s' : HostSession (HostTerm E)) (n : Nat) (new : List ScreenState) : Prop where
  tx : s'.screenTx = new.foldl Sender.update s.screenTx
  rx : s'.inputRx = s.inputRx
  valid : ∀ x ∈ new, x.validate = .ok ()
  onward : (s.screenTx.current :: new).Pairwise ScreenState.CountersLe
  later : Later s.clipboard n s'.clipboard
  shown : ∀ x ∈ new, ∃ k j, k + j = n ∧ Later s.clipboard k x.clipboard ∧
    Later x.clipboard j s'.clipboard
  poised : Poised s'
  drops : s'.drops ⊆ s.drops

namespace Hands
variable {n : Nat} {new : List ScreenState} {x : ScreenState}

theorem none (tx : s'.screenTx = s.screenTx) (rx : s'.inputRx = s.inputRx)
    (later : Later s.clipboard n s'.clipboard) (poised : Poised s') (drops : s'.drops ⊆ s.drops) :
    Hands s s' n [] where
  tx := tx
  rx := rx
  valid := fun _ member => absurd member List.not_mem_nil
  onward := List.pairwise_singleton _ _
  later := later
  shown := fun _ member => absurd member List.not_mem_nil
  poised := poised
  drops := drops

theorem one (tx : s'.screenTx = s.screenTx.update x) (rx : s'.inputRx = s.inputRx)
    (valid : x.validate = .ok ()) (onward : s.screenTx.current.CountersLe x)
    (later : Later s.clipboard n s'.clipboard) (shown : x.clipboard = s'.clipboard)
    (poised : Poised s') (drops : s'.drops ⊆ s.drops) : Hands s s' n [x] where
  tx := tx
  rx := rx
  valid := by
    intro y member
    rw [List.mem_singleton.mp member]
    exact valid
  onward := by
    refine List.pairwise_cons.mpr ⟨?_, List.pairwise_singleton _ _⟩
    intro y member
    rw [List.mem_singleton.mp member]
    exact onward
  later := later
  shown := by
    intro y member
    rw [List.mem_singleton.mp member, shown]
    exact ⟨n, 0, rfl, later, Later.refl⟩
  poised := poised
  drops := drops

theorem unseen {t : Tally} (tx : s'.screenTx = s.screenTx) (rx : s'.inputRx = s.inputRx)
    (now : s'.tally = some t) (ahead : t.Covers s.screenTx.current)
    (later : Later s.clipboard n t.clipboard) (drops : t.dropped = s.drops) : Hands s s' n [] := by
  rw [← HostSession.clipboard_of_tally now] at later
  refine Hands.none tx rx later ?_ ?_
  · intro u held
    rw [now] at held
    cases held
    rw [tx]
    exact ahead
  · rw [HostSession.drops_of_tally now, drops]
    exact List.Subset.refl _

theorem pictured {t : Tally} (tx : s'.screenTx = s.screenTx.update x)
    (rx : s'.inputRx = s.inputRx) (now : s'.tally = some t) (ahead : t.Covers s.screenTx.current)
    (later : Later s.clipboard n t.clipboard) (pictures : HostTerm.Pictures t x)
    (drops : t.dropped = s.drops) : Hands s s' n [x] := by
  rw [← HostSession.clipboard_of_tally now] at later
  refine Hands.one tx rx pictures.valid (pictures.countersLe ahead) later ?_ ?_ ?_
  · rw [HostSession.clipboard_of_tally now]
    exact pictures.clipboard
  · intro u held
    rw [now] at held
    cases held
    rw [tx, Sender.current_update]
    have covers := pictures.covers
    exact ⟨covers.bell, covers.scrollbackLen, covers.serial⟩
  · rw [HostSession.drops_of_tally now, drops]
    exact List.Subset.refl _

end Hands

theorem lobbyScreen_spec {size : TermSize} {last x : ScreenState}
    (made : lobbyScreen size last = .ok x) :
    x.validate = .ok () ∧ last.CountersLe x ∧ x.clipboard = last.clipboard.withoutText := by
  by_cases bounds : TermSize.checkBounds { rows := size.rows, cols := size.cols } = .ok ()
  · have blank := ScreenState.blank_ok bounds
    simp only [lobbyScreen, blank] at made
    cases made
    have valid := ScreenState.blankState_valid bounds
    refine ⟨(ScreenState.validate_ok _).mpr ?_, countersLe_refl last, rfl⟩
    exact ⟨valid.bounds, valid.length, valid.seq, valid.cursor, valid.text, valid.title, rfl,
      valid.links, valid.known⟩
  · have refused := ScreenState.blank_error bounds
    simp only [lobbyScreen, refused] at made
    cases made

namespace HostSession

theorem poised_of_lobby (lobby : s.tally = none) : Poised s := by
  intro t held
  rw [lobby] at held
  cases held

/-- A lobby's screen is handed over, after a screen with the session's own clipboard. -/
theorem lobby_hands {size : TermSize} {last x : ScreenState}
    (made : lobbyScreen size last = .ok x) (onward : s.screenTx.current.CountersLe last)
    (same : last.clipboard = s.clipboard) (tx : s'.screenTx = s.screenTx.update x)
    (rx : s'.inputRx = s.inputRx) (lobby : s'.tally = none) : Hands s s' 0 [x] := by
  obtain ⟨valid, kept, text⟩ := lobbyScreen_spec made
  have shown : x.clipboard = s'.clipboard := by
    rw [clipboard_of_lobby lobby, tx, Sender.current_update]
    rfl
  have none_ : s'.drops ⊆ s.drops := by
    rw [drops_of_lobby lobby]
    exact List.nil_subset _
  refine Hands.one tx rx valid (onward.trans kept) ?_ shown (poised_of_lobby lobby) none_
  rw [← shown, text, same]
  exact Later.refl.dropped

theorem resize_hands {size : TermSize} (poised : Poised s)
    (resized : s.resize (HostTerm.ops p) size = (s', .ok ())) :
    ∃ new, new.length ≤ 1 ∧ Hands s s' 0 new ∧ s'.tally = s.tally := by
  unfold resize at resized
  split at resized
  · cases resized
    exact ⟨[], Nat.zero_le _, Hands.none rfl rfl Later.refl poised (List.Subset.refl _), rfl⟩
  · cases held : s.term with
    | some t =>
        rw [held] at resized
        dsimp only at resized
        unfold TermOps.resize at resized
        cases bounds : size.checkBounds with
        | error e =>
            rw [bounds] at resized
            cases resized
        | ok _ =>
            rw [bounds] at resized
            dsimp only at resized
            cases moved : (HostTerm.ops p).ptyResize t size with
            | error why =>
                rw [moved] at resized
                cases resized
            | ok t' =>
                rw [moved] at resized
                cases resized
                have same : HostSession.tally
                    { s with term := some t', size := size } = s.tally := by
                  rw [HostSession.tally, HostSession.tally, held]
                  exact congrArg some (HostTerm.ptyResize_tally moved)
                refine ⟨[], Nat.zero_le _, Hands.none rfl rfl ?_ ?_ ?_, same⟩
                · rw [clipboard, clipboard, same]
                  exact Later.refl
                · intro u here
                  rw [same] at here
                  exact poised u here
                · rw [drops, drops, same]
                  exact List.Subset.refl _
    | none =>
        have lobby : s.tally = none := by
          rw [HostSession.tally, held]
          rfl
        rw [held] at resized
        dsimp only at resized
        cases made : lobbyScreen size s.screenTx.current with
        | error e =>
            rw [made] at resized
            cases resized
        | ok x =>
            rw [made] at resized
            cases resized
            exact ⟨[x], Nat.le_refl _, lobby_hands made (countersLe_refl _)
              (clipboard_of_lobby lobby).symm rfl rfl rfl, lobby.symm⟩

/-- The shell's own counts, not the sender's, which may be behind. -/
theorem becomeLobby_hands (poised : Poised s)
    (became : s.becomeLobby (HostTerm.ops p) = (s', .ok ())) :
    ∃ x, Hands s s' 0 [x] ∧ s'.tally = none := by
  have last : s.screenTx.current.CountersLe (s.lastScreen (HostTerm.ops p)) ∧
      (s.lastScreen (HostTerm.ops p)).clipboard = s.clipboard := by
    unfold lastScreen
    cases held : s.term with
    | some t =>
        have here : s.tally = some t.toTally := by
          rw [HostSession.tally, held]
          rfl
        have pictures := @HostTerm.snapshot_pictures _ _ p t 1 (by decide)
        rw [clipboard_of_tally here]
        exact ⟨pictures.countersLe (poised _ here), pictures.clipboard⟩
    | none =>
        have lobby : s.tally = none := by
          rw [HostSession.tally, held]
          rfl
        rw [clipboard_of_lobby lobby]
        exact ⟨countersLe_refl _, rfl⟩
  unfold becomeLobby at became
  cases made : lobbyScreen s.size (s.lastScreen (HostTerm.ops p)) with
  | error e =>
      rw [made] at became
      cases became
  | ok x =>
      rw [made] at became
      cases became
      exact ⟨x, lobby_hands made last.1 last.2 rfl rfl rfl, rfl⟩

theorem startShell_hands {pty : E} {size : TermSize} {t : HostTerm E} (lobby : s.tally = none)
    (spawned : HostTerm.spawn pty size = some t) :
    Hands s (s.startShell (t.countOnFrom s.screenTx.current)) 0 [] ∧
      (s.startShell (t.countOnFrom s.screenTx.current)).copies = 0 := by
  obtain ⟨text, none_, empty⟩ := HostTerm.spawn_countOnFrom spawned s.screenTx.current
  refine ⟨Hands.none rfl rfl ?_ ?_ ?_, none_⟩
  · change Later s.clipboard 0 (t.countOnFrom s.screenTx.current).clipboard
    rw [text, clipboard_of_lobby lobby]
    exact Later.refl.dropped
  · intro u held
    cases held
    exact t.countOnFrom_covers s.screenTx.current
  · change (t.countOnFrom s.screenTx.current).dropped ⊆ s.drops
    rw [empty]
    exact List.nil_subset _

theorem drainInput_kept (drained : s.drainInput (HostTerm.ops p) = (s', .ok ())) :
    s'.screenTx = s.screenTx ∧ s'.inputRx = s.inputRx ∧ s'.tally = s.tally := by
  unfold drainInput at drained
  dsimp only at drained
  generalize (if s.written > s.inputRx.state.pending.length then s.inputRx.state.pending.length
    else s.written) = written at drained
  split at drained
  · cases held : s.term with
    | none =>
        rw [held] at drained
        cases drained
        exact ⟨rfl, rfl, by rw [tally, tally, held]⟩
    | some t =>
        rw [held] at drained
        dsimp only at drained
        cases wrote : (HostTerm.ops p).writeInput t (s.inputRx.state.pending.drop written) with
        | error why =>
            rw [wrote] at drained
            cases drained
        | ok t' =>
            rw [wrote] at drained
            cases drained
            refine ⟨rfl, rfl, ?_⟩
            rw [tally, tally, held]
            exact congrArg some (HostTerm.writeInput_tally wrote)
  · cases drained
    exact ⟨rfl, rfl, rfl⟩

end HostSession

namespace Turning
variable {t t' : Turning (HostTerm E)} {codecIn : Codec InputDiff}

theorem takeFrame_kept {f : Frame} (took : t.takeFrame codecIn (HostTerm.ops p) f = (t', .ok ())) :
    t'.session.screenTx = t.session.screenTx ∧
      t'.session.inputRx = (t.session.inputRx.onFrame codecIn f).1 ∧
      t'.session.tally = t.session.tally := by
  unfold takeFrame at took
  rcases heard : t.session.inputRx.onFrame codecIn f with ⟨rx, result⟩
  rw [heard] at took
  cases result with
  | error e =>
      cases took
      exact ⟨rfl, rfl, rfl⟩
  | ok applied =>
      cases applied with
      | false =>
          cases took
          exact ⟨rfl, rfl, rfl⟩
      | true =>
          obtain ⟨rfl, drained⟩ := Prod.mk.inj took
          exact HostSession.drainInput_kept (Prod.ext rfl drained)

theorem takeFrames_kept {frames : List Frame}
    (took : t.takeFrames codecIn (HostTerm.ops p) frames = (t', .ok ())) :
    t'.session.screenTx = t.session.screenTx ∧
      t'.session.inputRx = t.session.inputRx.hear codecIn frames ∧
      t'.session.tally = t.session.tally := by
  induction frames generalizing t with
  | nil =>
      cases took
      exact ⟨rfl, rfl, rfl⟩
  | cons f frames ih =>
      simp only [takeFrames, andThen_ok] at took
      obtain ⟨u, first, rest⟩ := took
      obtain ⟨tx, rx, same⟩ := takeFrame_kept first
      obtain ⟨tx', rx', same'⟩ := ih rest
      refine ⟨tx'.trans tx, ?_, same'.trans same⟩
      rw [rx', rx]
      rfl

theorem deliverClipboard_spec (p : Pty E κ) (t : Turning (HostTerm E)) :
    let s := t.session
    let s' := (t.deliverClipboard (HostTerm.ops p)).session
    s'.screenTx = s.screenTx.onAck s.inputRx.peerAck ∧ s'.inputRx = s.inputRx ∧
      (s'.tally = s.tally ∨
        ∃ held acked, s.tally = some held ∧
          s'.tally = some { held with
            clipboard := held.clipboard.withoutText
            dropped := held.dropped ++ [held.clipboard] } ∧
          (s.screenTx.onAck s.inputRx.peerAck).peerSaw ≠ 0 ∧
          (s.screenTx.onAck s.inputRx.peerAck).base = some acked ∧
          held.clipboard.serial = acked.clipboard.serial ∧ held.clipboard.copy ≠ none) := by
  dsimp only
  unfold deliverClipboard
  dsimp only
  split
  · rename_i term acked held found
    change t.session.term = some term at held
    split
    · refine ⟨rfl, rfl, ?_⟩
      have here : t.session.tally = some term.toTally := by
        rw [HostSession.tally, held]
        rfl
      cases term.clipboardDelivered_tally acked.clipboard.serial with
      | inl same =>
          refine Or.inl ?_
          rw [here]
          exact congrArg some same
      | inr dropped =>
          have seen : (t.session.screenTx.onAck t.session.inputRx.peerAck).peerSaw ≠ 0 := by
            intro zero
            rw [if_pos zero] at found
            cases found
          rw [if_neg seen] at found
          exact Or.inr ⟨term.toTally, acked, here, congrArg some dropped.2.2, seen, found,
            dropped.1, dropped.2.1⟩
    · exact ⟨rfl, rfl, Or.inl rfl⟩
  · exact ⟨rfl, rfl, Or.inl rfl⟩

theorem pollTerm_hands {around : Surroundings} (poised : Poised t.session)
    (polled : t.pollTerm (HostTerm.ops p) around = (t', .ok ())) :
    ∃ n new, new.length ≤ 1 ∧ Hands t.session t'.session n new ∧
      t'.session.copies = t.session.copies + n := by
  unfold pollTerm at polled
  cases held : t.session.term with
  | none =>
      rw [held] at polled
      cases polled
      exact ⟨0, [], Nat.zero_le _,
        Hands.none rfl rfl Later.refl poised (List.Subset.refl _), rfl⟩
  | some term =>
      rw [held] at polled
      dsimp only at polled
      have here : t.session.tally = some term.toTally := by
        rw [HostSession.tally, held]
        rfl
      cases drained : (HostTerm.ops p).poll term with
      | error why =>
          rw [drained] at polled
          cases polled
      | ok result =>
          obtain ⟨term', moved⟩ := result
          rw [drained] at polled
          dsimp only at polled
          obtain ⟨n, count, kept, later, covers⟩ := HostTerm.poll_spec drained
          have ahead := covers (poised _ here)
          rw [← HostSession.clipboard_of_tally here] at later
          rw [← HostSession.copies_of_tally here] at count
          rw [← HostSession.drops_of_tally here] at kept
          split at polled
          · split at polled
            · cases polled
              have same := congrArg some (HostTerm.snapshot_tally p term' 1)
              have pictures := @HostTerm.snapshot_pictures _ _ p term' 1 (by decide)
              refine ⟨n, _, Nat.le_refl _, Hands.pictured rfl rfl same ahead later pictures kept, ?_⟩
              refine Eq.trans (HostSession.copies_of_tally ?_) count
              exact same
            · cases polled
              exact ⟨n, [], Nat.zero_le _, Hands.unseen rfl rfl rfl ahead later kept, count⟩
          · cases polled
            exact ⟨n, [], Nat.zero_le _, Hands.unseen rfl rfl rfl ahead later kept, count⟩

end Turning

/-- The session on a new link: a blank screen comes first, and in a lobby its screen
after it. -/
structure Adopts (s s' : HostSession (HostTerm E)) (size : TermSize) (blank : ScreenState)
    (new : List ScreenState) : Prop where
  tx : s'.screenTx = new.foldl Sender.update (Sender.new blank)
  short : new.length ≤ 1
  rx : s'.inputRx = Receiver.new (emptyInput size)
  sound : blank.validate = .ok ()
  one : blank.seq = 1
  text : blank.clipboard = {}
  valid : ∀ x ∈ new, x.validate = .ok ()
  onward : (blank :: new).Pairwise ScreenState.CountersLe
  later : Later s.clipboard 0 s'.clipboard
  shown : ∀ x ∈ new, x.clipboard = s'.clipboard
  poised : Poised s'
  tally : s'.tally = s.tally

theorem HostSession.adoptAs_adopts {size : TermSize} (poised : Poised s)
    (adopted : s.adoptAs (HostTerm.ops p) size = (s', .ok ())) :
    ∃ blank new, Adopts s s' size blank new := by
  unfold adoptAs at adopted
  simp only [andThen_ok] at adopted
  obtain ⟨u, resized, rest⟩ := adopted
  obtain ⟨early, -, hands, same⟩ := resize_hands poised resized
  have bounds : TermSize.checkBounds { rows := u.size.rows, cols := u.size.cols } = .ok () := by
    by_contra outside
    rw [ScreenState.blank_error outside] at rest
    split at rest
    · cases rest
    · cases rest
  have sound := (ScreenState.validate_ok _).mpr (ScreenState.blankState_valid bounds)
  rw [ScreenState.blank_ok bounds] at rest
  cases held : u.term with
  | some term =>
      rw [held] at rest
      cases rest
      have here : u.tally = some term.toTally := by
        rw [tally, held]
        rfl
      refine ⟨_, [], rfl, Nat.zero_le _, rfl, sound, rfl, rfl, fun _ member => absurd member List.not_mem_nil,
        List.pairwise_singleton _ _, ?_, fun _ member => absurd member List.not_mem_nil, ?_, ?_⟩
      · have later := hands.later
        rw [clipboard_of_tally here] at later
        exact later
      · intro t _
        exact ⟨UInt32.zero_le, UInt64.zero_le, UInt32.zero_le⟩
      · exact here.symm.trans same
  | none =>
      rw [held] at rest
      dsimp only at rest
      have lobby : u.tally = none := by
        rw [tally, held]
        rfl
      cases made : lobbyScreen u.size u.screenTx.current with
      | error e =>
          rw [made] at rest
          cases rest
      | ok x =>
          rw [made] at rest
          cases rest
          obtain ⟨valid, -, text⟩ := lobbyScreen_spec made
          refine ⟨_, [x], rfl, Nat.le_refl _, rfl, sound, rfl, rfl, ?_, ?_, ?_, ?_, ?_, ?_⟩
          · intro y member
            rw [List.mem_singleton.mp member]
            exact valid
          · refine List.pairwise_cons.mpr ⟨?_, List.pairwise_singleton _ _⟩
            intro y _
            exact ⟨UInt32.zero_le, UInt64.zero_le, UInt32.zero_le⟩
          · have later := hands.later.dropped
            rw [clipboard_of_lobby lobby, ← text] at later
            exact later
          · intro y member
            rw [List.mem_singleton.mp member]
            rfl
          · exact poised_of_lobby rfl
          · exact lobby.symm.trans same

end Sessions
end Oxutrm.Host
