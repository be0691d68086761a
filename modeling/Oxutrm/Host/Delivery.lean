import Oxutrm.Host.LinkEnd

/-!
Delivery of copies. Whatever the links do to frames and acknowledgements, the text of a
copy leaves the host only after the client has applied a state with that text, and the
client has written it then if it was allowed to.
-/
namespace Oxutrm.Host
open Proto Sync Transition
open Oxutrm.Client (Written oscCopy Rising ClipboardRelay)

variable {E κ : Type} {w : Site E κ} {invented : Nat → ScreenState} {m m' : Mirror E} {n : Nat}

/-- What is so of a link that the host has adopted. -/
structure Linked (w : Site E κ) (invented : ScreenState) (m : Mirror E) (n : Nat)
    (net : Net ScreenState) : Prop where
  coupled : Coupled w.codecOut invented net
  rx : net.rx = m.rx n
  frames : ∀ f, (n, f) ∈ m.down → f ∈ net.frames
  acks : ∀ f, (n, f) ∈ m.up → f.ackState = 0 ∨ f.ackState ∈ net.acks
  elder : m.copies < 2 ^ 32 → ∀ x ∈ net.held, Elder m.session.clipboard x.clipboard

/-- What is so of a link that the host has not adopted yet. -/
structure Ahead (invented : ScreenState) (m : Mirror E) (n : Nat) : Prop where
  rx : m.rx n = Receiver.new invented
  unsent : ∀ f, (n, f) ∉ m.down
  unacked : ∀ f, (n, f) ∈ m.up → f.ackState = 0

/-- What is so in every state of a run. -/
structure Right (w : Site E κ) (invented : Nat → ScreenState) (m : Mirror E) : Prop where
  links : ∀ n ≤ m.host, ∃ net, Linked w (invented n) m n net ∧
    (n = m.host → Screened w.codecOut (invented n) m.session net)
  ahead : ∀ n, m.host < n → Ahead (invented n) m n
  counts : m.session.clipboard.serial.toNat = min m.copies (2 ^ 32 - 1)
  numbered : Clipboard.Numbered m.session.clipboard
  kept : ∀ n, (m.rx n).appliedAny = true → (m.rx n).ring ⊆ m.applied
  elder : m.copies < 2 ^ 32 → ∀ x ∈ m.applied, Elder m.session.clipboard x.clipboard

/-- What was dropped as delivered had been applied, text and all. -/
def Delivered (m : Mirror E) : Prop :=
  m.copies < 2 ^ 32 → ∀ c ∈ m.session.drops, c.copy ≠ none ∧ ∃ x ∈ m.applied, x.clipboard = c

/-- The relay knows the highest number of what was applied. -/
structure Noted (w : Site E κ) (m : Mirror E) : Prop where
  above : ∀ x ∈ m.applied, ∃ last, m.relay.seen w.here = some last ∧ x.clipboard.serial ≤ last
  source : ∀ last, m.relay.seen w.here = some last → ∃ x ∈ m.applied, x.clipboard.serial = last
  rising : Rising m.relay m.written
  genuine : ∀ v ∈ m.written, v.session = w.here → ∃ x ∈ m.applied,
    x.clipboard.serial = v.serial ∧ x.clipboard.copy.map (oscCopy w.base64) = some v.bytes

theorem Right.older (right : Right w invented m) {s' : HostSession (HostTerm E)}
    (later : Later m.session.clipboard n s'.clipboard) (room : m.copies + n < 2 ^ 32)
    {x : ScreenState} (elder : Elder m.session.clipboard x.clipboard) :
    Elder s'.clipboard x.clipboard :=
  elder.later later right.counts room

/-- The host moved on its link: what was so of every link still is. -/
theorem Right.goes (right : Right w invented m) {s' : HostSession (HostTerm E)} {sent : Option Frame}
    {net net' : Net ScreenState} (linked : Linked w (invented m.host) m m.host net)
    (goes : Goes w.codecOut (invented m.host) m.session s' net net' n sent.toList) {gone : Nat}
    (copies : gone + s'.copies = m.copies + n) :
    Right w invented { m.after s' sent with gone := gone } := by
  have count : ({ m.after s' sent with gone := gone } : Mirror E).copies = m.copies + n := copies
  have below : ∀ k f, (k, f) ∈ ({ m.after s' sent with gone := gone } : Mirror E).down →
      (k, f) ∈ m.down ∨ k = m.host ∧ f ∈ sent.toList := by
    intro k f member
    refine (List.mem_append.mp member).imp_right ?_
    intro late
    obtain ⟨g, among, same⟩ := List.mem_map.mp late
    cases same
    exact ⟨rfl, among⟩
  refine ⟨?_, ?_, ?_, goes.later.numbers right.numbered, right.kept, ?_⟩
  · intro k le
    by_cases here : k = m.host
    · subst here
      refine ⟨net', ⟨goes.screened.coupled, goes.rx.trans linked.rx, ?_, ?_, ?_⟩,
        fun _ => goes.screened⟩
      · intro f member
        rw [goes.frames]
        exact List.mem_append.mpr ((below _ f member).imp (linked.frames f) And.right)
      · intro f member
        rw [goes.acks]
        exact linked.acks f member
      · intro few x member
        rw [count] at few
        rcases goes.held x member with early | ⟨k, j, whole, before, after⟩
        · exact right.older goes.later few (linked.elder (by omega) x early)
        · have number := before.numbered right.counts
          exact (Elder.refl _).later after number (by omega)
    · obtain ⟨old, linked', -⟩ := right.links k le
      refine ⟨old, ⟨linked'.coupled, linked'.rx, ?_, linked'.acks, ?_⟩, fun same => absurd same here⟩
      · intro f member
        exact linked'.frames f ((below k f member).resolve_right fun both => here both.1)
      · intro few x member
        rw [count] at few
        exact right.older goes.later few (linked'.elder (by omega) x member)
  · intro k beyond
    have ahead := right.ahead k beyond
    refine ⟨ahead.rx, ?_, ahead.unacked⟩
    intro f member
    rcases below k f member with old | ⟨same, -⟩
    · exact ahead.unsent f old
    · exact absurd same (Nat.ne_of_gt beyond)
  · rw [count]
    exact goes.later.numbered right.counts
  · intro few x member
    rw [count] at few
    exact right.older goes.later few (right.elder (by omega) x member)

/-- The acknowledged state is one the client has applied, and sees the very copy. -/
theorem Right.acknowledged (right : Right w invented m) {net : Net ScreenState}
    (linked : Linked w (invented m.host) m m.host net) {c : Clipboard}
    (few : m.copies < 2 ^ 32) (same : c = m.session.clipboard) (text : c.copy ≠ none)
    (acked : Screened.Acknowledged net c) : ∃ x ∈ m.applied, x.clipboard = c := by
  obtain ⟨x, present, applied, held, serial⟩ := acked
  have member := right.kept m.host (linked.rx ▸ applied) (linked.rx ▸ present)
  have elder := linked.elder few x held
  subst same
  exact ⟨x, member, elder.same text serial⟩

theorem Mirror.mem_arrived {picks : List Nat} {f : Frame} (member : f ∈ m.arrived picks) :
    (m.host, f) ∈ m.up := by
  obtain ⟨i, -, found⟩ := List.mem_filterMap.mp member
  obtain ⟨q, at_, same⟩ := Option.bind_eq_some_iff.mp found
  split at same
  · rename_i here
    cases same
    rw [← here]
    exact List.mem_of_getElem? at_
  · cases same

theorem Right.turned (right : Right w invented m) {around : Surroundings} {frames : List Frame}
    {t : Turning (HostTerm E)} (made : ∀ f ∈ frames, (m.host, f) ∈ m.up)
    (ran : m.session.turnAt w.codecIn w.codecOut (HostTerm.ops w.pty) around frames =
      (t, .ok ())) :
    Right w invented (m.after t.session t.turn.sent) ∧
      ∃ k, Later m.session.clipboard k t.session.clipboard ∧
        (m.after t.session t.turn.sent).copies = m.copies + k ∧
        m.session.screenTx.current.CountersLe t.session.screenTx.current ∧
        (rank m.session.screenTx.current < 2 ^ 64 - 1 → m.copies + k < 2 ^ 32 →
          ∀ c ∈ t.session.drops, c ∈ m.session.drops ∨
            c = m.session.clipboard ∧ c.copy ≠ none ∧ ∃ x ∈ m.applied, x.clipboard = c) := by
  obtain ⟨net, linked, screened⟩ := right.links m.host (Nat.le_refl _)
  obtain ⟨net', k, goes, copies, drops⟩ :=
    (screened rfl).turn (fun f member => linked.acks f (made f member)) ran
  have count : m.gone + t.session.copies = m.copies + k := by
    rw [copies, Mirror.copies, Nat.add_assoc]
  refine ⟨right.goes linked goes count, k, goes.later, count, goes.ahead (screened rfl), ?_⟩
  intro room few c member
  refine (drops c member).imp_right ?_
  rintro ⟨same, text, acked⟩
  exact ⟨same, text, right.acknowledged linked (by omega) same text (acked room)⟩

theorem Right.relayed (right : Right w invented m) (relay : ClipboardRelay)
    (written : List Written) : Right w invented { m with relay := relay, written := written } where
  links := by
    intro k le
    obtain ⟨net, linked, screened⟩ := right.links k le
    exact ⟨net, ⟨linked.coupled, linked.rx, linked.frames, linked.acks, linked.elder⟩, screened⟩
  ahead := by
    intro k beyond
    have ahead := right.ahead k beyond
    exact ⟨ahead.rx, ahead.unsent, ahead.unacked⟩
  counts := right.counts
  numbered := right.numbered
  kept := right.kept
  elder := right.elder

theorem Right.received (right : Right w invented m) {link : Nat} {f : Frame}
    (roundTrips : w.codecOut.RoundTrips) (sound : ∀ n, (invented n).validate = .ok ())
    (made : (link, f) ∈ m.down) {more : List ScreenState}
    (new : ∀ x ∈ more, x = ((m.rx link).onFrame w.codecOut f).1.state)
    (keeps : ((m.rx link).onFrame w.codecOut f).1.appliedAny = true →
      ((m.rx link).onFrame w.codecOut f).1.ring ⊆ m.applied ++ more)
    (applies : more ≠ [] → ((m.rx link).onFrame w.codecOut f).1.appliedAny = true) :
    Right w invented { m with
      rx := Function.update m.rx link ((m.rx link).onFrame w.codecOut f).1
      applied := m.applied ++ more } := by
  have within : link ≤ m.host := by
    by_contra beyond
    exact (right.ahead link (Nat.lt_of_not_le beyond)).unsent f made
  obtain ⟨net, linked, screened⟩ := right.links link within
  have delivered := linked.coupled.deliver (sound link) roundTrips (linked.frames f made)
  rw [linked.rx] at delivered
  refine ⟨?_, ?_, right.counts, right.numbered, ?_, ?_⟩
  · intro k le
    by_cases here : k = link
    · subst here
      have rx := Function.update_self k ((m.rx k).onFrame w.codecOut f).1 m.rx
      refine ⟨_, ⟨delivered, rx.symm, linked.frames, linked.acks, linked.elder⟩, ?_⟩
      intro same
      exact ⟨delivered, (screened same).tx, (screened same).told, (screened same).poised⟩
    · obtain ⟨old, linked', screened'⟩ := right.links k le
      exact ⟨old, ⟨linked'.coupled, linked'.rx.trans (Function.update_of_ne here _ _).symm,
        linked'.frames, linked'.acks, linked'.elder⟩, screened'⟩
  · intro k beyond
    have ahead := right.ahead k beyond
    have other : k ≠ link := by
      rintro rfl
      exact ahead.unsent f made
    exact ⟨(Function.update_of_ne other _ _).trans ahead.rx, ahead.unsent, ahead.unacked⟩
  · intro k applied
    dsimp only at applied ⊢
    by_cases here : k = link
    · subst here
      rw [Function.update_self] at applied ⊢
      exact keeps applied
    · rw [Function.update_of_ne here] at applied ⊢
      exact List.Subset.trans (right.kept k applied) (List.subset_append_left _ _)
  · intro few x member
    rcases List.mem_append.mp member with old | late
    · exact right.elder few x old
    · rw [new x late]
      have held := delivered.authored (applies (List.ne_nil_of_mem late)) _ (Receiver.mem_state _)
      exact linked.elder few _ held

theorem Right.hears (right : Right w invented m) {link : Nat} {f : Frame} (enabled : Bool)
    (roundTrips : w.codecOut.RoundTrips) (sound : ∀ n, (invented n).validate = .ok ())
    (made : (link, f) ∈ m.down) : Right w invented (m.hear w link f enabled) := by
  unfold Mirror.hear
  have old (kept : (m.rx link).appliedAny = true) := right.kept link kept
  rcases (m.rx link).onFrame_cases w.codecOut f with
    ⟨-, result⟩ | ⟨e, -, -, result⟩ | ⟨next, -, -, result⟩
  · have received := @Right.received _ _ w invented m right link f roundTrips sound made []
      (fun _ member => absurd member List.not_mem_nil)
      (by rw [result, List.append_nil]; exact old) (fun no => absurd rfl no)
    rw [List.append_nil] at received
    rw [result] at received ⊢
    exact received
  · have received := @Right.received _ _ w invented m right link f roundTrips sound made []
      (fun _ member => absurd member List.not_mem_nil)
      (by rw [result, List.append_nil]; exact old) (fun no => absurd rfl no)
    rw [List.append_nil] at received
    rw [result] at received ⊢
    exact received
  · have received := @Right.received _ _ w invented m right link f roundTrips sound made
      [((m.rx link).onFrame w.codecOut f).1.state] (fun _ member => List.mem_singleton.mp member)
      (by
        intro _ x present
        rw [result] at present ⊢
        rcases Receiver.mem_advance present with rfl | ⟨applied, earlier⟩
        · rw [Receiver.state_commit]
          exact List.mem_append_right _ List.mem_cons_self
        · exact List.mem_append_left _ (old applied earlier))
      (fun _ => by rw [result]; rfl)
    rw [result] at received ⊢
    exact received.relayed _ _

theorem Right.offered (right : Right w invented m) {link : Nat} {f : Frame}
    (acked : f.ackState = (m.rx link).ack) : Right w invented { m with up := m.up ++ [(link, f)] } := by
  have among : ∀ k g, (k, g) ∈ m.up ++ [(link, f)] → (k, g) ∈ m.up ∨ k = link ∧ g = f := by
    intro k g member
    refine (List.mem_append.mp member).imp_right ?_
    intro last
    cases List.mem_singleton.mp last
    exact ⟨rfl, rfl⟩
  refine ⟨?_, ?_, right.counts, right.numbered, right.kept, right.elder⟩
  · intro k le
    obtain ⟨net, linked, screened⟩ := right.links k le
    by_cases here : k = link
    · subst here
      refine ⟨_, ⟨linked.coupled.report, linked.rx, linked.frames, ?_, linked.elder⟩, ?_⟩
      · intro g member
        rcases among k g member with old | ⟨-, rfl⟩
        · exact (linked.acks g old).imp_right (List.mem_append_left _)
        · rw [acked, ← linked.rx]
          exact Or.inr (List.mem_append_right _ List.mem_cons_self)
      · intro same
        exact ⟨linked.coupled.report, (screened same).tx,
          (screened same).told.imp_right (List.mem_append_left _), (screened same).poised⟩
    · refine ⟨net, ⟨linked.coupled, linked.rx, linked.frames, ?_, linked.elder⟩, screened⟩
      intro g member
      exact linked.acks g ((among k g member).resolve_right fun both => here both.1)
  · intro k beyond
    have ahead := right.ahead k beyond
    refine ⟨ahead.rx, ahead.unsent, ?_⟩
    intro g member
    rcases among k g member with old | ⟨rfl, rfl⟩
    · exact ahead.unacked g old
    · rw [acked, ahead.rx]
      rfl

theorem Right.started (right : Right w invented m) (lobby : m.session.tally = none) {pty : E}
    {t : HostTerm E} (spawned : HostTerm.spawn pty m.session.size = some t) :
    Right w invented
      { m with session := m.session.startShell (t.countOnFrom m.session.screenTx.current) } := by
  obtain ⟨net, linked, screened⟩ := right.links m.host (Nat.le_refl _)
  obtain ⟨hands, fresh⟩ := HostSession.startShell_hands lobby spawned
  obtain ⟨net', goes⟩ := (screened rfl).hands hands
  have count : m.gone + (m.session.startShell (t.countOnFrom m.session.screenTx.current)).copies =
      m.copies + 0 := by
    rw [fresh, Mirror.copies, HostSession.copies_of_lobby lobby]
  have next := @Right.goes _ _ w invented m 0 right _ none net net' linked goes _ count
  rw [Mirror.after, Option.toList_none, List.map_nil, List.append_nil] at next
  exact next

theorem Right.quitted (right : Right w invented m) {s' : HostSession (HostTerm E)}
    (became : m.session.becomeLobby (HostTerm.ops w.pty) = (s', .ok ())) :
    Right w invented { m with session := s', gone := m.copies } := by
  obtain ⟨net, linked, screened⟩ := right.links m.host (Nat.le_refl _)
  obtain ⟨x, hands, lobby⟩ := HostSession.becomeLobby_hands (screened rfl).poised became
  obtain ⟨net', goes⟩ := (screened rfl).hands hands
  have count : m.copies + s'.copies = m.copies + 0 := by
    rw [HostSession.copies_of_lobby lobby]
  have next := @Right.goes _ _ w invented m 0 right _ none net net' linked goes _ count
  rw [Mirror.after, Option.toList_none, List.map_nil, List.append_nil] at next
  exact next

theorem Right.finished (right : Right w invented m) {s' : HostSession (HostTerm E)}
    {sent : Option Frame}
    (ended : m.session.finish w.codecOut (HostTerm.ops w.pty) = (s', sent)) :
    Right w invented (m.after s' sent) := by
  obtain ⟨net, linked, screened⟩ := right.links m.host (Nat.le_refl _)
  obtain ⟨net', k, goes, copies, -⟩ := (screened rfl).lastFrame ended
  have count : m.gone + s'.copies = m.copies + k := by
    rw [copies, Mirror.copies, Nat.add_assoc]
  exact right.goes linked goes count

theorem Right.adopted (right : Right w invented m) {size : TermSize}
    {s' : HostSession (HostTerm E)}
    (adopted : m.session.adoptAs (HostTerm.ops w.pty) size = (s', .ok ())) :
    Right w invented { m with host := m.host + 1, session := s' } ∧
      rank s'.screenTx.current < 2 ^ 64 - 1 ∧ s'.drops = m.session.drops := by
  obtain ⟨before, -, screened⟩ := right.links m.host (Nat.le_refl _)
  obtain ⟨blank, new, adopts⟩ := HostSession.adoptAs_adopts (screened rfl).poised adopted
  have copies : s'.copies = m.session.copies := by
    rw [HostSession.copies, HostSession.copies, adopts.tally]
  have drops : s'.drops = m.session.drops := by
    rw [HostSession.drops, HostSession.drops, adopts.tally]
  have count : ({ m with host := m.host + 1, session := s' } : Mirror E).copies = m.copies := by
    rw [Mirror.copies, Mirror.copies, copies]
  have number := adopts.later.numbered right.counts
  have numbered := adopts.later.numbers right.numbered
  refine ⟨⟨?_, ?_, ?_, numbered, right.kept, ?_⟩, ?_, drops⟩
  · intro k le
    by_cases here : k = m.host + 1
    · subst here
      have ahead := right.ahead (m.host + 1) (Nat.lt_succ_self _)
      have fresh : ∃ net, Screened w.codecOut (invented (m.host + 1)) s' net ∧
          net.rx = Receiver.new (invented (m.host + 1)) ∧ net.frames = [] ∧ net.acks = [] ∧
          ∀ x ∈ net.held, x.clipboard = {} ∨ x.clipboard = s'.clipboard := adopts.screened
      obtain ⟨net, screened, rx, frames, acks, shown⟩ := fresh
      refine ⟨net, ⟨screened.coupled, rx.trans ahead.rx.symm,
        fun f member => absurd member (ahead.unsent f), fun f member => Or.inl (ahead.unacked f member),
        ?_⟩, fun _ => screened⟩
      intro _ x member
      rcases shown x member with blank | same
      · rw [blank]
        refine ⟨UInt32.zero_le, fun text zero => ?_⟩
        exact absurd zero.symm (numbered text)
      · rw [same]
        exact Elder.refl _
    · have earlier : k ≤ m.host := Nat.le_of_lt_succ (Nat.lt_of_le_of_ne le here)
      obtain ⟨net, linked, -⟩ := right.links k earlier
      refine ⟨net, ⟨linked.coupled, linked.rx, linked.frames, linked.acks, ?_⟩,
        fun same => absurd same here⟩
      intro few x member
      rw [count] at few
      exact right.older adopts.later few (linked.elder few x member)
  · intro k beyond
    have ahead := right.ahead k (Nat.lt_of_succ_lt beyond)
    exact ⟨ahead.rx, ahead.unsent, ahead.unacked⟩
  · rw [count]
    exact number
  · intro few x member
    rw [count] at few
    exact right.older adopts.later few (right.elder few x member)
  · rw [adopts.tx]
    exact Nat.lt_of_le_of_lt (rank_begun adopts.one adopts.short) (by decide)

/-- How the host moves in a step. While copies are taken its clipboard grows older; what it drops
was dropped before or, as long as the numbers of the states last, is the present copy, applied
by then; and on one link its counts do not go back. -/
structure Onward (m m' : Mirror E) : Prop where
  moved : ∃ k, Later m.session.clipboard k m'.session.clipboard ∧ m'.copies = m.copies + k ∧
    (rank m.session.screenTx.current < 2 ^ 64 - 1 → m.copies + k < 2 ^ 32 →
      ∀ c ∈ m'.session.drops, c ∈ m.session.drops ∨
        c = m.session.clipboard ∧ c.copy ≠ none ∧ ∃ x ∈ m.applied, x.clipboard = c)
  ahead : m'.host = m.host → m.session.screenTx.current.CountersLe m'.session.screenTx.current

theorem Onward.same (session : m'.session = m.session) (gone : m'.gone = m.gone) : Onward m m' := by
  refine ⟨⟨0, ?_, ?_, ?_⟩, fun _ => session ▸ countersLe_refl _⟩
  · rw [session]
    exact Later.refl
  · rw [Mirror.copies, Mirror.copies, session, gone]
    rfl
  · intro _ _ c member
    rw [session] at member
    exact Or.inl member

theorem Onward.kept {k : Nat} (later : Later m.session.clipboard k m'.session.clipboard)
    (copies : m'.copies = m.copies + k) (drops : m'.session.drops ⊆ m.session.drops)
    (ahead : m'.host = m.host →
      m.session.screenTx.current.CountersLe m'.session.screenTx.current) : Onward m m' :=
  ⟨⟨k, later, copies, fun _ _ _ member => Or.inl (drops member)⟩, ahead⟩

theorem Mirror.hear_session (w : Site E κ) (m : Mirror E) (link : Nat) (f : Frame)
    (enabled : Bool) : (m.hear w link f enabled).session = m.session ∧
      (m.hear w link f enabled).gone = m.gone := by
  unfold hear
  split
  · exact ⟨rfl, rfl⟩
  · exact ⟨rfl, rfl⟩

/-- As long as the numbers of the states last. -/
def Mirror.Roomy (m : Mirror E) (_ : MirrorEvent E) : Prop :=
  rank m.session.screenTx.current < 2 ^ 64 - 1

/-- A promotion is an adoption and a turn on the link it moves to. -/
theorem Right.promoted (right : Right w invented m) {around : Surroundings} {first : Frame}
    {frames : List Frame} {t : Turning (HostTerm E)}
    (made : ∀ f ∈ first :: frames, (m.host + 1, f) ∈ m.up)
    (ran : m.session.promoteStandby w.codecIn w.codecOut (HostTerm.ops w.pty) around first frames =
      (t, .ok ())) :
    Right w invented (({ m with host := m.host + 1 } : Mirror E).after t.session t.turn.sent) ∧
      Onward m (({ m with host := m.host + 1 } : Mirror E).after t.session t.turn.sent) := by
  unfold HostSession.promoteStandby at ran
  rcases adopted : m.session.adoptAs (HostTerm.ops w.pty) m.session.size with ⟨s', result⟩
  rw [adopted] at ran
  cases result with
  | error e => cases ran
  | ok _ =>
      obtain ⟨right', room', drops⟩ := right.adopted adopted
      obtain ⟨before, -, screened⟩ := right.links m.host (Nat.le_refl _)
      obtain ⟨blank, new, adopts⟩ := HostSession.adoptAs_adopts (screened rfl).poised adopted
      obtain ⟨right'', k, later, copies, -, dropped⟩ := right'.turned made ran
      have unchanged : ({ m with host := m.host + 1, session := s' } : Mirror E).copies =
          m.copies := by
        rw [Mirror.copies, Mirror.copies, HostSession.copies, HostSession.copies, adopts.tally]
      rw [unchanged] at copies dropped
      have whole := adopts.later.trans later
      rw [Nat.zero_add] at whole
      refine ⟨right'', ⟨k, whole, copies, ?_⟩, fun same => absurd same (Nat.succ_ne_self _)⟩
      intro _ few c member
      rcases dropped room' few c member with old | ⟨same, text, applied⟩
      · change c ∈ s'.drops at old
        rw [drops] at old
        exact Or.inl old
      · -- a copy whose text is still here after the move was here before it
        change c = s'.clipboard at same
        rcases adopts.later.same_or_above right.counts (by omega) (same ▸ text) with
          equal | above
        · exact Or.inr ⟨same.trans equal, text, applied⟩
        · have number := adopts.later.numbered right.counts
          have counts := right.counts
          have high := UInt32.lt_iff_toNat_lt.mp above
          rw [number, counts] at high
          exact absurd high (Nat.lt_irrefl _)

theorem Right.step (right : Right w invented m) (roundTrips : w.codecOut.RoundTrips)
    (sound : ∀ n, (invented n).validate = .ok ()) {e : MirrorEvent E}
    (taken : m.step w e = some m') : Right w invented m' ∧ Onward m m' := by
  cases e with
  | hear i enabled =>
      obtain ⟨q, found, rfl⟩ := Option.map_eq_some_iff.mp taken
      have same := m.hear_session w q.1 q.2 enabled
      exact ⟨right.hears enabled roundTrips sound (List.mem_of_getElem? found),
        Onward.same same.1 same.2⟩
  | elsewhere session c enabled =>
      simp only [Mirror.step] at taken
      split at taken
      · cases taken
      · cases taken
        exact ⟨right.relayed _ _, Onward.same rfl rfl⟩
  | offer link f =>
      simp only [Mirror.step] at taken
      split at taken
      · rename_i acked
        cases taken
        exact ⟨right.offered acked, Onward.same rfl rfl⟩
      · cases taken
  | turn around picks =>
      obtain ⟨t, ran, rfl⟩ := Option.map_eq_some_iff.mp taken
      have turned := right.turned (fun f member => Mirror.mem_arrived member)
        (surviving_eq_some.mp ran)
      obtain ⟨right', k, later, copies, ahead, dropped⟩ := turned
      exact ⟨right', ⟨k, later, copies, dropped⟩, fun _ => ahead⟩
  | startShell pty =>
      simp only [Mirror.step] at taken
      cases held : m.session.term with
      | some term =>
          rw [held] at taken
          cases taken
      | none =>
          rw [held] at taken
          obtain ⟨t, spawned, rfl⟩ := Option.map_eq_some_iff.mp taken
          have lobby : m.session.tally = none := by
            rw [HostSession.tally, held]
            rfl
          obtain ⟨hands, fresh⟩ := HostSession.startShell_hands lobby spawned
          refine ⟨right.started lobby spawned,
            Onward.kept hands.later ?_ hands.drops fun _ => countersLe_refl _⟩
          rw [Mirror.copies, Mirror.copies, fresh, HostSession.copies_of_lobby lobby]
  | becomeLobby =>
      obtain ⟨s', survived, rfl⟩ := Option.map_eq_some_iff.mp taken
      have became := surviving_eq_some.mp survived
      obtain ⟨before, -, screened⟩ := right.links m.host (Nat.le_refl _)
      obtain ⟨x, hands, lobby⟩ := HostSession.becomeLobby_hands (screened rfl).poised became
      obtain ⟨net', goes⟩ := (screened rfl).hands hands
      refine ⟨right.quitted became,
        Onward.kept hands.later ?_ hands.drops fun _ => goes.ahead (screened rfl)⟩
      rw [Mirror.copies, HostSession.copies_of_lobby lobby]
  | finish =>
      simp only [Mirror.step] at taken
      rcases ended : m.session.finish w.codecOut (HostTerm.ops w.pty) with ⟨s', sent⟩
      rw [ended] at taken
      cases taken
      obtain ⟨net, -, screened⟩ := right.links m.host (Nat.le_refl _)
      obtain ⟨net', k, goes, copies, drops⟩ := (screened rfl).lastFrame ended
      refine ⟨right.finished ended,
        Onward.kept goes.later ?_ drops fun _ => goes.ahead (screened rfl)⟩
      change m.gone + s'.copies = m.copies + k
      rw [copies, Mirror.copies, Nat.add_assoc]
  | adopt size =>
      obtain ⟨s', survived, rfl⟩ := Option.map_eq_some_iff.mp taken
      have adopted := surviving_eq_some.mp survived
      obtain ⟨right', -, drops⟩ := right.adopted adopted
      obtain ⟨before, -, screened⟩ := right.links m.host (Nat.le_refl _)
      obtain ⟨blank, new, adopts⟩ := HostSession.adoptAs_adopts (screened rfl).poised adopted
      refine ⟨right', Onward.kept adopts.later ?_ (fun c member => drops ▸ member)
        fun same => absurd same (Nat.succ_ne_self _)⟩
      rw [Mirror.copies, Mirror.copies, HostSession.copies, HostSession.copies, adopts.tally]
      rfl
  | promote around i picks =>
      obtain ⟨q, found, taken⟩ := Option.bind_eq_some_iff.mp taken
      split at taken
      · rename_i here
        obtain ⟨t, survived, rfl⟩ := Option.map_eq_some_iff.mp taken
        refine right.promoted ?_ (surviving_eq_some.mp survived)
        intro f member
        rcases List.mem_cons.mp member with rfl | rest
        · exact here ▸ List.mem_of_getElem? found
        · exact Mirror.mem_arrived rest
      · cases taken

theorem Delivered.step (delivered : Delivered m) (onward : Onward m m')
    (room : rank m.session.screenTx.current < 2 ^ 64 - 1) (applied : m.applied ⊆ m'.applied) :
    Delivered m' := by
  intro few c member
  obtain ⟨k, -, copies, dropped⟩ := onward.moved
  rw [copies] at few
  rcases dropped room few c member with old | ⟨-, text, x, among, same⟩
  · obtain ⟨text, x, among, same⟩ := delivered (by omega) c old
    exact ⟨text, x, applied among, same⟩
  · exact ⟨text, x, applied among, same⟩

section Relaying

/-- The writing of copies is on. -/
def MirrorEvent.Enabled : MirrorEvent E → Prop
  | .hear _ enabled => enabled = true
  | _ => True

/-- The client applied `x` and the relay looked at it. -/
structure Sees (w : Site E κ) (m m' : Mirror E) (x : ScreenState) (enabled : Bool) : Prop where
  applied : m'.applied = m.applied ++ [x]
  relay : m'.relay = (m.relay.onState w.base64 w.here x.clipboard enabled).1
  written : m'.written = m.written ++
    Rising.record w.here x.clipboard (m.relay.onState w.base64 w.here x.clipboard enabled).2

/-- What a step does to the client: nothing, a look at another session's state, or a state
applied and looked at. -/
inductive Looks (w : Site E κ) (m m' : Mirror E) (e : MirrorEvent E) : Prop where
  | idle (applied : m'.applied = m.applied) (relay : m'.relay = m.relay)
      (written : m'.written = m.written)
  | elsewhere (session : Option Ui.SessionId) (c : Clipboard) (enabled : Bool)
      (other : session ≠ w.here) (same : m' = m.onState w session c enabled)
  | state (x : ScreenState) (enabled : Bool) (on : e.Enabled → enabled = true)
      (sees : Sees w m m' x enabled)

theorem Mirror.step_looks {e : MirrorEvent E} (taken : m.step w e = some m') : Looks w m m' e := by
  cases e with
  | hear i enabled =>
      obtain ⟨q, -, rfl⟩ := Option.map_eq_some_iff.mp taken
      unfold hear
      split
      · exact .state _ enabled id ⟨rfl, rfl, rfl⟩
      · exact .idle rfl rfl rfl
  | elsewhere session c enabled =>
      simp only [step] at taken
      split at taken
      · cases taken
      · rename_i other
        cases taken
        exact .elsewhere session c enabled other rfl
  | offer link f =>
      simp only [step] at taken
      split at taken
      · cases taken
        exact .idle rfl rfl rfl
      · cases taken
  | turn around picks =>
      obtain ⟨t, -, rfl⟩ := Option.map_eq_some_iff.mp taken
      exact .idle rfl rfl rfl
  | startShell pty =>
      simp only [step] at taken
      split at taken
      · cases taken
      · obtain ⟨t, -, rfl⟩ := Option.map_eq_some_iff.mp taken
        exact .idle rfl rfl rfl
  | becomeLobby =>
      obtain ⟨s', -, rfl⟩ := Option.map_eq_some_iff.mp taken
      exact .idle rfl rfl rfl
  | finish =>
      cases taken
      exact .idle rfl rfl rfl
  | adopt size =>
      obtain ⟨s', -, rfl⟩ := Option.map_eq_some_iff.mp taken
      exact .idle rfl rfl rfl
  | promote around i picks =>
      obtain ⟨q, -, taken⟩ := Option.bind_eq_some_iff.mp taken
      split at taken
      · obtain ⟨t, -, rfl⟩ := Option.map_eq_some_iff.mp taken
        exact .idle rfl rfl rfl
      · cases taken

/-- The relay's baseline after a state is the highest number so far. -/
theorem Noted.state (noted : Noted w m) {x : ScreenState} {enabled : Bool}
    (sees : Sees w m m' x enabled) : Noted w m' := by
  have rising := noted.rising.onState w.base64 w.here x.clipboard enabled
  rw [← sees.relay, ← sees.written] at rising
  have here : ∀ y ∈ m'.applied, y ∈ m.applied ∨ y = x := by
    intro y member
    rw [sees.applied] at member
    exact (List.mem_append.mp member).imp_right List.mem_singleton.mp
  have last_ : x ∈ m'.applied := by
    rw [sees.applied]
    exact List.mem_append_right _ List.mem_cons_self
  have next := sees.relay
  have genuine : ∀ v ∈ m'.written, v.session = w.here → ∃ y ∈ m'.applied,
      y.clipboard.serial = v.serial ∧ y.clipboard.copy.map (oscCopy w.base64) = some v.bytes := by
    intro v member session
    rw [sees.written] at member
    rw [sees.applied]
    rcases List.mem_append.mp member with old | new
    · obtain ⟨y, before, same⟩ := noted.genuine v old session
      exact ⟨y, List.mem_append_left _ before, same⟩
    · obtain ⟨bytes, out, rfl⟩ := List.mem_map.mp new
      refine ⟨x, List.mem_append_right _ List.mem_cons_self, rfl, ?_⟩
      exact ClipboardRelay.onState_bytes (Option.mem_toList.mp out)
  cases seen : m.relay.seen w.here with
  | none =>
      rw [ClipboardRelay.onState_first seen] at next
      have now : m'.relay.seen w.here = some x.clipboard.serial := by
        rw [next]
        exact ClipboardRelay.note_seen _ _ _
      refine ⟨?_, ?_, rising, genuine⟩
      · intro y member
        refine ⟨x.clipboard.serial, now, ?_⟩
        rcases here y member with old | rfl
        · obtain ⟨last, found, -⟩ := noted.above y old
          rw [seen] at found
          cases found
        · exact UInt32.le_refl _
      · intro last found
        rw [now] at found
        exact ⟨x, last_, Option.some.inj found⟩
  | some last =>
      have known : ∀ y ∈ m.applied, y.clipboard.serial ≤ last := by
        intro y old
        obtain ⟨known, found, le⟩ := noted.above y old
        rw [seen] at found
        cases found
        exact le
      by_cases low : x.clipboard.serial ≤ last
      · have now : m'.relay.seen w.here = some last := by
          rw [next]
          exact (ClipboardRelay.onState_low seen low enabled).1
        refine ⟨?_, ?_, rising, genuine⟩
        · intro y member
          refine ⟨last, now, ?_⟩
          rcases here y member with old | rfl
          · exact known y old
          · exact low
        · intro other found
          rw [now] at found
          cases found
          obtain ⟨y, member, same⟩ := noted.source last seen
          rw [sees.applied]
          exact ⟨y, List.mem_append_left _ member, same⟩
      · have now : m'.relay.seen w.here = some x.clipboard.serial := by
          rw [next]
          exact (ClipboardRelay.onState_high seen low).1
        refine ⟨?_, ?_, rising, genuine⟩
        · intro y member
          refine ⟨x.clipboard.serial, now, ?_⟩
          rcases here y member with old | rfl
          · exact UInt32.le_trans (known y old) (UInt32.le_of_lt (UInt32.not_le.mp low))
          · exact UInt32.le_refl _
        · intro other found
          rw [now] at found
          exact ⟨x, last_, Option.some.inj found⟩

theorem Noted.looks (noted : Noted w m) {e : MirrorEvent E} (looks : Looks w m m' e) :
    Noted w m' := by
  cases looks with
  | idle applied relay written =>
      refine ⟨?_, ?_, ?_, ?_⟩
      · rw [applied, relay]
        exact noted.above
      · rw [applied, relay]
        exact noted.source
      · rw [relay, written]
        exact noted.rising
      · rw [applied, written]
        exact noted.genuine
  | elsewhere session c enabled other same =>
      subst same
      have seen : (m.relay.onState w.base64 session c enabled).1.seen w.here = m.relay.seen w.here :=
        ClipboardRelay.onState_other (Ne.symm other) m.relay c enabled
      refine ⟨?_, ?_, noted.rising.onState w.base64 session c enabled, ?_⟩
      · intro x member
        obtain ⟨last, found, le⟩ := noted.above x member
        exact ⟨last, seen.trans found, le⟩
      · intro last found
        exact noted.source last (seen.symm.trans found)
      · intro v member here
        rcases List.mem_append.mp member with old | new
        · exact noted.genuine v old here
        · obtain ⟨bytes, -, rfl⟩ := List.mem_map.mp new
          exact absurd here other
  | state x enabled on sees => exact noted.state sees

/-- The copy was written, with its own number and bytes. -/
def Put (w : Site E κ) (m : Mirror E) (c : Clipboard) : Prop :=
  ∃ v ∈ m.written, v.session = w.here ∧ v.serial = c.serial ∧
    c.copy.map (oscCopy w.base64) = some v.bytes

/-- Every copy past number `k` that the client has applied, or whose text the host has
dropped, is written. -/
structure Told (w : Site E κ) (k : UInt32) (m : Mirror E) : Prop where
  capable : m.relay.osc52 = true
  begun : m.applied ≠ []
  present : ∀ x ∈ m.applied, x.clipboard = m.session.clipboard → x.clipboard.copy ≠ none →
    k < x.clipboard.serial → Put w m x.clipboard
  dropped : ∀ c ∈ m.session.drops, k < c.serial → Put w m c

theorem Put.mono {c : Clipboard} (put : Put w m c) (written : m.written ⊆ m'.written) :
    Put w m' c := by
  obtain ⟨v, member, rest⟩ := put
  exact ⟨v, written member, rest⟩

theorem Looks.written {e : MirrorEvent E} (looks : Looks w m m' e) : m.written ⊆ m'.written := by
  cases looks with
  | idle _ _ written =>
      rw [written]
      exact List.Subset.refl _
  | elsewhere session c enabled _ same =>
      rw [same]
      exact List.subset_append_left _ _
  | state x enabled _ sees =>
      rw [sees.written]
      exact List.subset_append_left _ _

theorem Looks.capable {e : MirrorEvent E} (looks : Looks w m m' e) :
    m'.relay.osc52 = m.relay.osc52 := by
  cases looks with
  | idle _ relay _ => rw [relay]
  | elsewhere session c enabled _ same =>
      rw [same]
      exact m.relay.onState_osc52 session c enabled
  | state x enabled _ sees =>
      rw [sees.relay]
      exact m.relay.onState_osc52 w.here x.clipboard enabled

theorem Looks.applied {e : MirrorEvent E} (looks : Looks w m m' e) : m.applied ⊆ m'.applied := by
  cases looks with
  | idle applied _ _ =>
      rw [applied]
      exact List.Subset.refl _
  | elsewhere session c enabled _ same =>
      rw [same]
      exact List.Subset.refl _
  | state x enabled _ sees =>
      rw [sees.applied]
      exact List.subset_append_left _ _

/-- A copy that is still the session's and was applied before the step was written. -/
theorem Told.early {k : UInt32} (told : Told w k m) (right : Right w invented m)
    (onward : Onward m m') (few : m'.copies < 2 ^ 32) {x : ScreenState} (member : x ∈ m.applied)
    (same : x.clipboard = m'.session.clipboard) (text : x.clipboard.copy ≠ none)
    (late : k < x.clipboard.serial) : Put w m x.clipboard := by
  obtain ⟨j, later, copies, -⟩ := onward.moved
  rw [copies] at few
  rcases later.same_or_above right.counts few (same ▸ text) with equal | above
  · exact told.present x member (same.trans equal) text late
  · have elder := right.elder (by omega) x member
    rw [← same] at above
    exact absurd (UInt32.lt_of_lt_of_le above elder.le) (UInt32.lt_irrefl _)

theorem Told.step {k : UInt32} (told : Told w k m) (right : Right w invented m)
    (right' : Right w invented m') (noted : Noted w m) (onward : Onward m m') {e : MirrorEvent E}
    (room : m.Roomy e) (enabled : e.Enabled) (looks : Looks w m m' e) (few : m'.copies < 2 ^ 32) : Told w k m' := by
  refine ⟨looks.capable.trans told.capable, ?_, ?_, ?_⟩
  · intro none_
    exact told.begun (List.eq_nil_of_subset_nil (none_ ▸ looks.applied))
  · intro x member same text late
    have early (old : x ∈ m.applied) : Put w m' x.clipboard :=
      (told.early right onward few old same text late).mono looks.written
    cases looks with
    | idle applied _ _ => exact early (applied ▸ member)
    | elsewhere session c on _ there =>
        rw [there] at member
        exact early member
    | state y on allowed sees =>
        rw [sees.applied] at member
        rcases List.mem_append.mp member with old | new
        · exact early old
        · obtain rfl := List.mem_singleton.mp new
          have first := List.getElem_mem (List.length_pos_of_ne_nil told.begun)
          obtain ⟨last, seen, -⟩ := noted.above _ first
          by_cases low : x.clipboard.serial ≤ last
          · -- the number was seen before: with this very copy, which was written then
            obtain ⟨y, old, number⟩ := noted.source last seen
            have elder := right'.elder few y (by
              rw [sees.applied]
              exact List.mem_append_left _ old)
            rw [← same] at elder
            have equal : y.clipboard = x.clipboard := by
              refine elder.same text (UInt32.le_antisymm elder.le ?_)
              rw [number]
              exact low
            have put := told.early right onward few old (equal.trans same) (equal ▸ text) (equal ▸ late)
            rw [equal] at put
            exact put.mono (by
              rw [sees.written]
              exact List.subset_append_left _ _)
          · obtain ⟨copy, held⟩ := Option.ne_none_iff_exists'.mp text
            have out : (m.relay.onState w.base64 w.here x.clipboard on).2 = _ :=
              (ClipboardRelay.onState_high seen low).2
            rw [allowed enabled, told.capable, Bool.true_and, if_pos rfl] at out
            refine ⟨⟨w.here, x.clipboard.serial, oscCopy w.base64 copy⟩, ?_, rfl, rfl, ?_⟩
            · rw [sees.written, allowed enabled, out, held]
              exact List.mem_append_right _ List.mem_cons_self
            · rw [held]
              rfl
  · intro c member late
    obtain ⟨j, -, copies, dropped⟩ := onward.moved
    rcases dropped room (by rw [← copies]; exact few) c member with
      old | ⟨same, text, x, applied, equal⟩
    · exact (told.dropped c old late).mono looks.written
    · subst equal
      exact (told.present x applied same text late).mono looks.written

end Relaying

section Runs

/-- The screens the client starts its receivers with. -/
def blanks (sizes : Nat → TermSize) (n : Nat) : ScreenState :=
  ScreenState.blankState (sizes n).rows (sizes n).cols

variable {sizes : Nat → TermSize} {size : TermSize} {session : HostSession (HostTerm E)}
  {osc52 : Bool}

theorem blanks_valid (bounds : ∀ n, (sizes n).checkBounds = .ok ()) (n : Nat) :
    (blanks sizes n).validate = .ok () :=
  (ScreenState.validate_ok _).mpr (ScreenState.blankState_valid (bounds n))

theorem Right.start (w : Site E κ) (begun : HostSession.lobby size = .ok session) :
    Right w (blanks sizes) (Mirror.start sizes session osc52) := by
  have bounds : TermSize.checkBounds { rows := size.rows, cols := size.cols } = .ok () := by
    by_contra outside
    simp only [HostSession.lobby, ScreenState.blank_error outside] at begun
    cases begun
  have sound := (ScreenState.validate_ok _).mpr (ScreenState.blankState_valid bounds)
  simp only [HostSession.lobby, ScreenState.blank_ok bounds] at begun
  cases begun
  have lobby : HostSession.tally ({
      term := none
      screenTx := Sender.new (ScreenState.blankState size.rows size.cols)
      inputRx := Receiver.new (emptyInput size)
      size := size
      written := 0
      screenStale := false } : HostSession (HostTerm E)) = none := rfl
  refine ⟨?_, ?_, rfl, fun text => absurd rfl text, ?_, ?_⟩
  · intro n le
    obtain rfl := Nat.le_zero.mp le
    have coupled : Coupled w.codecOut (blanks sizes 0)
        (Net.start (ScreenState.blankState size.rows size.cols) (blanks sizes 0)) :=
      Coupled.start sound rfl
    refine ⟨_, ⟨coupled, rfl, fun f member => absurd member List.not_mem_nil,
      fun f member => absurd member List.not_mem_nil, ?_⟩,
      fun _ => ⟨coupled, rfl, Or.inl rfl, HostSession.poised_of_lobby lobby⟩⟩
    intro _ x member
    rw [List.mem_singleton.mp member]
    exact Elder.refl _
  · intro n _
    exact ⟨rfl, fun f member => absurd member List.not_mem_nil,
      fun f member => absurd member List.not_mem_nil⟩
  · intro n applied
    cases applied
  · intro _ x member
    cases member

theorem Delivered.start (begun : HostSession.lobby size = .ok session) :
    Delivered (Mirror.start sizes session osc52) := by
  intro _ c member
  cases blank : ScreenState.blank size.rows size.cols with
  | error e =>
      simp only [HostSession.lobby, blank, bind, Except.bind] at begun
      cases begun
  | ok screen =>
      simp only [HostSession.lobby, blank, bind, Except.bind] at begun
      cases begun
      cases member

theorem Noted.start (w : Site E κ) (session : HostSession (HostTerm E)) :
    Noted w (Mirror.start sizes session osc52) where
  above := fun _ member => absurd member List.not_mem_nil
  source := fun _ seen => by cases seen
  rising := Rising.start osc52
  genuine := fun _ member => absurd member List.not_mem_nil

theorem Mirror.reaches_mono {guard guard' : Mirror E → MirrorEvent E → Prop}
    (weaker : ∀ m e, guard m e → guard' m e) (run : Reaches (Mirror.step w) guard m m') :
    Reaches (Mirror.step w) guard' m m' := by
  induction run with
  | refl => exact Relation.ReflTransGen.refl
  | tail _ fired ih =>
      obtain ⟨e, guarded, taken⟩ := fired
      exact ih.tail ⟨e, weaker _ e guarded, taken⟩

theorem right_reaches (roundTrips : w.codecOut.RoundTrips)
    (bounds : ∀ n, (sizes n).checkBounds = .ok ()) {guard : Mirror E → MirrorEvent E → Prop}
    (run : Reaches (Mirror.step w) guard m m') (right : Right w (blanks sizes) m) :
    Right w (blanks sizes) m' :=
  run.invariant (fun _ _ _ right _ taken =>
    (right.step roundTrips (blanks_valid bounds) taken).1) right

theorem delivered_reaches (roundTrips : w.codecOut.RoundTrips)
    (bounds : ∀ n, (sizes n).checkBounds = .ok ())
    (run : Reaches (Mirror.step w) Mirror.Roomy m m') (right : Right w (blanks sizes) m)
    (delivered : Delivered m) : Delivered m' := by
  refine (run.invariant (I := fun m => Right w (blanks sizes) m ∧ Delivered m) ?_ ⟨right, delivered⟩).2
  intro b e c both room taken
  obtain ⟨right', onward⟩ := both.1.step roundTrips (blanks_valid bounds) taken
  exact ⟨right', both.2.step onward room (Mirror.step_looks taken).applied⟩

theorem noted_reaches {guard : Mirror E → MirrorEvent E → Prop}
    (run : Reaches (Mirror.step w) guard m m') (noted : Noted w m) : Noted w m' :=
  run.invariant (fun _ _ _ noted _ taken =>
    noted.looks (Mirror.step_looks taken)) noted

theorem copies_grow (roundTrips : w.codecOut.RoundTrips)
    (bounds : ∀ n, (sizes n).checkBounds = .ok ()) {guard : Mirror E → MirrorEvent E → Prop}
    (run : Reaches (Mirror.step w) guard m m') (right : Right w (blanks sizes) m) :
    m.copies ≤ m'.copies := by
  refine (run.invariant (I := fun b => Right w (blanks sizes) b ∧ m.copies ≤ b.copies) ?_
    ⟨right, Nat.le_refl _⟩).2
  intro b e c both _ taken
  obtain ⟨right', onward⟩ := both.1.step roundTrips (blanks_valid bounds) taken
  obtain ⟨j, -, copies, -⟩ := onward.moved
  exact ⟨right', by have := both.2; omega⟩

/-- With the writing of copies on, along a run. -/
theorem told_reaches {k : UInt32} (roundTrips : w.codecOut.RoundTrips)
    (bounds : ∀ n, (sizes n).checkBounds = .ok ())
    (run : Reaches (Mirror.step w) (fun m e => m.Roomy e ∧ e.Enabled) m m')
    (right : Right w (blanks sizes) m) (noted : Noted w m) (told : Told w k m)
    (few : m'.copies < 2 ^ 32) : Told w k m' := by
  induction run with
  | refl => exact told
  | @tail b c run fired ih =>
      obtain ⟨e, ⟨room, enabled⟩, taken⟩ := fired
      have rightB := right_reaches roundTrips bounds run right
      have notedB := noted_reaches run noted
      obtain ⟨rightC, onward⟩ := rightB.step roundTrips (blanks_valid bounds) taken
      obtain ⟨j, -, copies, -⟩ := onward.moved
      have toldB := ih (by omega)
      exact toldB.step rightB rightC notedB onward room enabled (Mirror.step_looks taken) few

end Runs

end Oxutrm.Host
