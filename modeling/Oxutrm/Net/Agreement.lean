import Oxutrm.Net.Exchange

/-!
What holds in every state of an attach, and what the two ends agree on for it: an attach that is
done is done for the same session and by the same path at both ends, and what one ladder
learned the other hears in that order.
-/
namespace Oxutrm.Exchange
open Transition
open Oxutrm.Net (Candidate)
open Oxutrm.Proto (Text)

/-- The host opens with its hello, and says nothing but candidates before its verdict. -/
def Plain (hello : HostHello) (signals : List Signal) : Prop :=
  signals.head? = some (.hostHello hello) ∧
    ∀ x ∈ signals, x = .hostHello hello ∨ ∃ candidates, x = .candidateUpdate candidates

/-- The client's hello was read, and a screen can be built at its size. -/
def Met (client : ClientHello) (signals : List Signal) : Prop :=
  .clientHello client ∈ signals ∧ client.size.checkBounds = .ok ()

/-- The path is described by the host's own verdict on its NAT. -/
def Described (hello : HostHello) (path : PathDescription) : Prop :=
  ∃ n rtt mtu, path = pathDescription n hello.nat rtt mtu

/-- What a host has written and read when it has come to a stage. -/
def HostStage.Fits (hello : HostHello) (learned : List Candidate) (sent read : List Signal) (dialled : Bool) :
    HostStage → Prop
  | .offering => sent = [] ∧ read = []
  | .awaiting => Plain hello sent ∧ read = []
  | .racing client | .draining client _ => Plain hello sent ∧ Met client read
  | .failing _ => Plain hello sent
  | .accepting client _ => Plain hello sent ∧ Met client read ∧ learned = []
  | .announcing client path =>
      Plain hello sent ∧ Met client read ∧ learned = [] ∧ dialled = true ∧ Described hello path
  | .ended (.ok a) =>
      (∃ pre, sent = pre ++ [.established a.path] ∧ Plain hello pre) ∧
        (∃ client, Met client read ∧ a.clientSize = client.size) ∧ learned = [] ∧ dialled = true ∧
        Described hello a.path
  | .ended (.error _) =>
      sent = [] ∨ ∃ pre last, sent = pre ++ last ∧ Plain hello pre ∧ (last = [] ∨ ∃ reason, last = [.failed reason])

/-- The same of a client. It never sees a path declared that it has not nominated. -/
def ClientStage.Fits (sent read : List Signal) (dialled : Bool) : ClientStage → Prop
  | .offered => sent = [] ∧ read = [] ∧ dialled = false
  | .greeting host => sent = [] ∧ .hostHello host ∈ read ∧ dialled = false
  | .racing host | .draining host _ => sent ≠ [] ∧ .hostHello host ∈ read ∧ dialled = false
  | .connecting host _ | .waiting host => sent ≠ [] ∧ .hostHello host ∈ read
  | .panicked => False
  | .ended (.ok e) => .established e.path ∈ read ∧ ∃ host, .hostHello host ∈ read ∧
      e = ⟨e.path, host.sessionId, host.attachId, host.features⟩
  | .ended (.error _) => True

/-- What holds in every state of an attach. -/
structure Sound (s : Parties) : Prop where
  down : s.sentDown = s.readDown ++ s.down
  up : s.sentUp = s.readUp ++ s.up
  host : s.host.stage.Fits s.host.hello s.host.learned s.sentDown s.readUp s.client.dialled
  client : s.client.stage.Fits s.sentUp s.readDown s.client.dialled
  greets : ∀ x, s.sentUp.head? = some x → x = .clientHello s.client.hello
  words : ∀ x ∈ s.sentUp, x = .clientHello s.client.hello ∨ ∃ candidates, x = .candidateUpdate candidates
  hostFound : s.hostFound = updates s.sentDown ++ s.host.learned
  clientFound : s.clientFound = updates s.sentUp ++ s.client.learned
  hostHeard : s.host.heard = updates s.readUp
  clientHeard : s.client.heard = updates s.readDown

section Invariant
variable {s t : Parties} {hello : HostHello} {x : Signal} {rest : List Signal}

theorem Plain.single (hello : HostHello) : Plain hello [.hostHello hello] :=
  ⟨rfl, fun _ member => .inl (List.mem_singleton.mp member)⟩

theorem Plain.head_append {a b : List Signal} (plain : Plain hello a) :
    (a ++ b).head? = some (.hostHello hello) := by
  rw [List.head?_append, plain.1]
  rfl

theorem Plain.snoc {a : List Signal} {candidates : List Candidate} (plain : Plain hello a) :
    Plain hello (a ++ [.candidateUpdate candidates]) := by
  refine ⟨plain.head_append, fun y member => ?_⟩
  rcases List.mem_append.mp member with before | now
  · exact plain.2 y before
  · exact .inr ⟨candidates, List.mem_singleton.mp now⟩

theorem Met.mono {client : ClientHello} {a b : List Signal} (met : Met client a) (within : ∀ y ∈ a, y ∈ b) :
    Met client b := ⟨within _ met.1, met.2⟩

theorem mem_snoc {a : List Signal} : ∀ y ∈ a, y ∈ a ++ [x] := fun _ member => List.mem_append_left _ member

theorem HostStage.Open.fits {stage : HostStage} {client : ClientHello} {learned : List Candidate}
    {sent read : List Signal} {dialled : Bool} (at_ : stage.Open client) :
    stage.Fits hello learned sent read dialled ↔ Plain hello sent ∧ Met client read := by
  rcases at_ with rfl | ⟨outcome, rfl⟩
  · exact Iff.rfl
  · exact Iff.rfl

theorem ClientStage.Open.fits {stage : ClientStage} {host : HostHello} {sent read : List Signal} {dialled : Bool}
    (at_ : stage.Open host) :
    stage.Fits sent read dialled ↔ sent ≠ [] ∧ .hostHello host ∈ read ∧ dialled = false := by
  rcases at_ with rfl | ⟨outcome, rfl⟩
  · exact Iff.rfl
  · exact Iff.rfl

theorem HostStage.Fits.said {stage : HostStage} {learned : List Candidate} {sent read : List Signal}
    {dialled : Bool} (fits : stage.Fits hello learned sent read dialled) (member : x ∈ sent) :
    (x = .hostHello hello ∨ ∃ candidates, x = .candidateUpdate candidates) ∨
      (∃ a, stage = .ended (.ok a) ∧ x = .established a.path) ∨ ∃ reason, x = .failed reason := by
  cases stage with
  | offering =>
      rw [fits.1] at member
      cases member
  | awaiting => exact .inl (fits.1.2 x member)
  | racing client | draining client _ => exact .inl (fits.1.2 x member)
  | failing report => exact .inl (fits.2 x member)
  | accepting client n | announcing client path => exact .inl (fits.1.2 x member)
  | ended result =>
      cases result with
      | ok a =>
          obtain ⟨⟨pre, rfl, plain⟩, -⟩ := fits
          rcases List.mem_append.mp member with before | last
          · exact .inl (plain.2 x before)
          · exact .inr (.inl ⟨a, rfl, List.mem_singleton.mp last⟩)
      | error why =>
          obtain nothing | ⟨pre, last, rfl, plain, ends⟩ := fits
          · rw [nothing] at member
            cases member
          · rcases List.mem_append.mp member with before | among
            · exact .inl (plain.2 x before)
            · rcases ends with rfl | ⟨reason, rfl⟩
              · cases among
              · exact .inr (.inr ⟨reason, List.mem_singleton.mp among⟩)

theorem HostStage.Fits.declared {stage : HostStage} {learned : List Candidate} {sent read : List Signal}
    {dialled : Bool} {path : PathDescription} (fits : stage.Fits hello learned sent read dialled)
    (member : .established path ∈ sent) : ∃ a, stage = .ended (.ok a) ∧ a.path = path := by
  rcases fits.said member with (same | ⟨_, same⟩) | ⟨a, at_, same⟩ | ⟨_, same⟩
  · cases same
  · cases same
  · cases same
    exact ⟨a, at_, rfl⟩
  · cases same

theorem HostStage.Fits.one_hello {stage : HostStage} {learned : List Candidate} {sent read : List Signal}
    {dialled : Bool} {host : HostHello} (fits : stage.Fits hello learned sent read dialled)
    (member : .hostHello host ∈ sent) : host = hello := by
  rcases fits.said member with (same | ⟨_, same⟩) | ⟨_, -, same⟩ | ⟨_, same⟩
  · cases same
    rfl
  · cases same
  · cases same
  · cases same

theorem HostStage.Fits.lost {stage : HostStage} {learned : List Candidate} {sent read : List Signal}
    {dialled : Bool} (why : Failure) (fits : stage.Fits hello learned sent read dialled)
    (on : ∀ r, stage ≠ .ended r) : (HostStage.ended (.error why)).Fits hello learned sent read dialled := by
  have of_plain : Plain hello sent → (HostStage.ended (.error why)).Fits hello learned sent read dialled :=
    fun plain => .inr ⟨sent, [], (List.append_nil _).symm, plain, .inl rfl⟩
  cases stage with
  | offering => exact .inl fits.1
  | failing report => exact of_plain fits
  | awaiting | racing client | draining client _ | accepting client n | announcing client path =>
      exact of_plain fits.1
  | ended result => exact absurd rfl (on result)

/-- Whatever the host says, it opens with its hello. -/
theorem HostStage.Fits.opens {stage : HostStage} {learned : List Candidate} {sent read : List Signal}
    {dialled : Bool} (fits : stage.Fits hello learned sent read dialled) (head : sent.head? = some x) :
    x = .hostHello hello := by
  have of_plain : ∀ {a b}, Plain hello a → (a ++ b).head? = some x → x = .hostHello hello :=
    fun plain head => Option.some.inj (head.symm.trans plain.head_append)
  have whole : Plain hello sent → x = .hostHello hello := fun plain =>
    Option.some.inj (head.symm.trans plain.1)
  cases stage with
  | offering =>
      rw [fits.1] at head
      cases head
  | failing report => exact whole fits
  | awaiting | racing client | draining client _ | accepting client n | announcing client path => exact whole fits.1
  | ended result =>
      cases result with
      | ok a =>
          obtain ⟨⟨pre, rfl, plain⟩, -⟩ := fits
          exact of_plain plain head
      | error why =>
          obtain nothing | ⟨pre, last, rfl, plain, -⟩ := fits
          · rw [nothing] at head
            cases head
          · exact of_plain plain head

/-- That the client has dialled is never taken back. -/
theorem HostStage.Fits.dial {stage : HostStage} {learned : List Candidate} {sent read : List Signal}
    {dialled : Bool} (fits : stage.Fits hello learned sent read dialled) :
    stage.Fits hello learned sent read true := by
  cases stage with
  | offering | awaiting | racing _ | draining _ _ | failing _ | accepting _ _ => exact fits
  | announcing client path => exact ⟨fits.1, fits.2.1, fits.2.2.1, rfl, fits.2.2.2.2⟩
  | ended result =>
      cases result with
      | ok a => exact ⟨fits.1, fits.2.1, fits.2.2.1, rfl, fits.2.2.2.2⟩
      | error why => exact fits

theorem Host.on_of_not_over {h : Host} (on : h.isOver = false) : ∀ r, h.stage ≠ .ended r := by
  intro r at_
  rw [Host.isOver, at_] at on
  cases on

theorem Sound.hostReads (sound : Sound s) (head : s.up = x :: rest) {h : Host} (reads : s.host.Reads x h) :
    Sound { s with host := h, up := rest, readUp := s.readUp ++ [x] } := by
  have up : s.sentUp = (s.readUp ++ [x]) ++ rest := by
    rw [sound.up, head, List.append_assoc]
    rfl
  have host := sound.host
  cases reads with
  | met client at_ size =>
      rw [at_] at host
      obtain ⟨plain, none_⟩ := host
      exact { sound with
        up := up
        host := ⟨plain, List.mem_append_right _ List.mem_cons_self, size⟩
        hostHeard := sound.hostHeard.trans (by rw [updates_append, updates_clientHello, List.append_nil]) }
  | gone x why at_ =>
      rw [at_] at host
      obtain ⟨plain, none_⟩ := host
      have first : x = .clientHello s.client.hello := by
        apply sound.greets
        rw [sound.up, none_, head]
        rfl
      exact { sound with
        up := up
        host := .inr ⟨s.sentDown, [], (List.append_nil _).symm, plain, .inl rfl⟩
        hostHeard := sound.hostHeard.trans (by
          rw [updates_append, first, updates_clientHello, List.append_nil]) }
  | told client candidates at_ room =>
      rw [at_.fits] at host
      exact { sound with
        up := up
        host := at_.fits.mpr ⟨host.1, host.2.mono mem_snoc⟩
        hostHeard := by rw [updates_append, updates_update, ← sound.hostHeard] }
  | deaf client x at_ on other =>
      rw [at_.fits] at host
      exact { sound with
        up := up
        host := at_.fits.mpr ⟨host.1, host.2.mono mem_snoc⟩
        hostHeard := by
          rw [updates_append, other, List.append_nil]
          exact sound.hostHeard }

theorem Sound.hostCloses (sound : Sound s) {h : Host} (closes : s.host.Closes h) :
    Sound { s with host := h } := by
  have host := sound.host
  cases closes with
  | awaiting at_ =>
      rw [at_] at host
      exact { sound with host := .inr ⟨s.sentDown, [], (List.append_nil _).symm, host.1, .inl rfl⟩ }
  | deaf client at_ on => exact { sound with }

theorem Sound.hostWrites (sound : Sound s) {r : Host × Signal} (writes : s.host.Writes r) :
    Sound { s with host := r.1, down := s.down ++ [r.2], sentDown := s.sentDown ++ [r.2] } := by
  have down : ∀ y, s.sentDown ++ [y] = s.readDown ++ (s.down ++ [y]) := by
    intro y
    rw [sound.down, List.append_assoc]
  have host := sound.host
  cases writes with
  | offers at_ =>
      rw [at_] at host
      obtain ⟨none_, unread⟩ := host
      exact { sound with
        down := down _
        host := by
          rw [none_]
          exact ⟨Plain.single _, unread⟩
        hostFound := by rw [updates_append, updates_hostHello, List.append_nil, sound.hostFound] }
  | tells client c more at_ learned =>
      rw [at_.fits] at host
      exact { sound with
        down := down _
        host := at_.fits.mpr ⟨host.1.snoc, host.2⟩
        hostFound := by
          rw [updates_append, updates_update, sound.hostFound, learned, List.append_assoc]
          rfl }
  | givesUp report at_ =>
      rw [at_] at host
      exact { sound with
        down := down _
        host := .inr ⟨s.sentDown, [.failed report], rfl, host, .inr ⟨report, rfl⟩⟩
        hostFound := by rw [updates_append, updates_failed, List.append_nil, sound.hostFound] }
  | announces client path at_ =>
      rw [at_] at host
      obtain ⟨plain, met, none_, dialled, described⟩ := host
      exact { sound with
        down := down _
        host := ⟨⟨s.sentDown, rfl, plain⟩, ⟨client, met, rfl⟩, none_, dialled, described⟩
        hostFound := by rw [updates_append, updates_established, List.append_nil, sound.hostFound] }

theorem Sound.hostTurns (sound : Sound s) {turn : Turn} {h : Host} (turns : s.host.Turns s.client.dialled turn h) :
    Sound { s with host := h, hostFound := s.hostFound ++ turn.found } := by
  have host := sound.host
  cases turns with
  | learns client c at_ =>
      rw [at_] at host
      exact { sound with
        host := by
          rw [at_]
          exact host
        hostFound := by
          rw [sound.hostFound, List.append_assoc]
          rfl }
  | takes client at_ some_ =>
      exact { sound with hostFound := (List.append_nil _).trans sound.hostFound }
  | settles client outcome at_ =>
      rw [at_] at host
      exact { sound with
        host := host
        hostFound := (List.append_nil _).trans sound.hostFound }
  | nominates client n at_ told =>
      rw [at_] at host
      exact { sound with
        host := ⟨host.1, host.2, told⟩
        hostFound := (List.append_nil _).trans sound.hostFound }
  | despairs client report at_ told =>
      rw [at_] at host
      exact { sound with
        host := host.1
        hostFound := (List.append_nil _).trans sound.hostFound }
  | connects client n rtt mtu at_ met =>
      rw [at_] at host
      exact { sound with
        host := ⟨host.1, host.2.1, host.2.2, met, n, rtt, mtu, rfl⟩
        hostFound := (List.append_nil _).trans sound.hostFound }
  | loses turn on none_ =>
      exact { sound with
        host := host.lost .lost (Host.on_of_not_over on)
        hostFound := by
          rw [none_, List.append_nil]
          exact sound.hostFound }

theorem Sound.clientReads (sound : Sound s) (head : s.down = x :: rest) {c : Client} (reads : s.client.Reads x c) :
    Sound { s with client := c, down := rest, readDown := s.readDown ++ [x] } := by
  have down : s.sentDown = (s.readDown ++ [x]) ++ rest := by
    rw [sound.down, head, List.append_assoc]
    rfl
  have sent : x ∈ s.sentDown := by
    rw [down]
    exact List.mem_append_left _ (List.mem_append_right _ List.mem_cons_self)
  have client := sound.client
  have last : x ∈ s.readDown ++ [x] := List.mem_append_right _ List.mem_cons_self
  cases reads with
  | met host at_ =>
      rw [at_] at client
      exact { sound with
        down := down
        client := ⟨client.1, last, client.2.2⟩
        clientHeard := by
          rw [updates_append, updates_hostHello, List.append_nil]
          exact sound.clientHeard }
  | gone x why at_ =>
      rw [at_] at client
      have first : x = .hostHello s.host.hello := by
        apply sound.host.opens
        rw [sound.down, client.2.1, head]
        rfl
      exact { sound with
        down := down
        client := trivial
        clientHeard := by
          rw [updates_append, first, updates_hostHello, List.append_nil]
          exact sound.clientHeard }
  | told host candidates at_ room =>
      have heard : s.client.heard ++ candidates = updates (s.readDown ++ [.candidateUpdate candidates]) := by
        rw [updates_append, updates_update, sound.clientHeard]
      rcases at_ with open_ | waiting
      · rw [open_.fits] at client
        exact { sound with
          down := down
          client := open_.fits.mpr ⟨client.1, mem_snoc _ client.2.1, client.2.2⟩
          clientHeard := heard }
      · rw [waiting] at client
        exact { sound with
          down := down
          client := by
            rw [waiting]
            exact ⟨client.1, mem_snoc _ client.2⟩
          clientHeard := heard }
  | early host x at_ other =>
      rw [at_.fits] at client
      have quiet : ∀ path, x ≠ .established path := by
        intro path same
        obtain ⟨a, stage, -⟩ := sound.host.declared (same ▸ sent)
        have host := sound.host
        rw [stage] at host
        have dialled : s.client.dialled = true := host.2.2.2.1
        rw [client.2.2] at dialled
        cases dialled
      have gone : ∃ why, Client.early host x = .ended (.error why) := by
        cases x with
        | established path => exact absurd rfl (quiet path)
        | failed reason => exact ⟨_, rfl⟩
        | hostHello _ | clientHello _ | candidateUpdate _ => exact ⟨_, rfl⟩
      obtain ⟨why, gone⟩ := gone
      exact { sound with
        down := down
        client := by
          rw [gone]
          trivial
        clientHeard := by
          rw [updates_append, other, List.append_nil]
          exact sound.clientHeard }
  | verdict host x at_ room other =>
      rw [at_] at client
      exact { sound with
        down := down
        client := by
          cases x with
          | established path => exact ⟨last, host, mem_snoc _ client.2, rfl⟩
          | failed _ | hostHello _ | clientHello _ | candidateUpdate _ => trivial
        clientHeard := by
          rw [updates_append, other, List.append_nil]
          exact sound.clientHeard }

theorem Sound.clientWrites (sound : Sound s) {r : Client × Signal} (writes : s.client.Writes r) :
    Sound { s with client := r.1, up := s.up ++ [r.2], sentUp := s.sentUp ++ [r.2] } := by
  have up : ∀ y, s.sentUp ++ [y] = s.readUp ++ (s.up ++ [y]) := by
    intro y
    rw [sound.up, List.append_assoc]
  have client := sound.client
  cases writes with
  | greets host at_ =>
      rw [at_] at client
      obtain ⟨none_, hello, dialled⟩ := client
      exact { sound with
        up := up _
        client := ⟨by simp, hello, dialled⟩
        greets := by
          rw [none_]
          exact fun y head => (Option.some.inj head).symm
        words := by
          rw [none_]
          exact fun y member => .inl (List.mem_singleton.mp member)
        clientFound := by rw [updates_append, updates_clientHello, List.append_nil, sound.clientFound] }
  | tells host found more at_ learned =>
      rw [at_.fits] at client
      obtain ⟨some_, hello, dialled⟩ := client
      exact { sound with
        up := up _
        client := at_.fits.mpr ⟨by simp, hello, dialled⟩
        greets := by
          intro y head
          rw [List.head?_append_of_ne_nil _ some_] at head
          exact sound.greets y head
        words := by
          intro y member
          rcases List.mem_append.mp member with before | now
          · exact sound.words y before
          · exact .inr ⟨[found], List.mem_singleton.mp now⟩
        clientFound := by
          rw [updates_append, updates_update, sound.clientFound, learned, List.append_assoc]
          rfl }

theorem Sound.clientTurns (sound : Sound s) {up : Bool} {turn : Turn} {c : Client} (turns : s.client.Turns up turn c) :
    Sound { s with client := c, clientFound := s.clientFound ++ turn.found } := by
  have client := sound.client
  cases turns with
  | learns host found at_ =>
      rw [at_] at client
      exact { sound with
        client := by
          rw [at_]
          exact client
        clientFound := by
          rw [sound.clientFound, List.append_assoc]
          rfl }
  | takes host at_ some_ =>
      exact { sound with clientFound := (List.append_nil _).trans sound.clientFound }
  | settles host outcome at_ =>
      rw [at_] at client
      exact { sound with
        client := client
        clientFound := (List.append_nil _).trans sound.clientFound }
  | nominates host n at_ told =>
      rw [at_] at client
      exact { sound with
        host := sound.host.dial
        client := ⟨client.1, client.2.1⟩
        clientFound := (List.append_nil _).trans sound.clientFound }
  | connects host n rtt mtu at_ met =>
      rw [at_] at client
      exact { sound with
        client := client
        clientFound := (List.append_nil _).trans sound.clientFound }
  | loses turn why on none_ =>
      exact { sound with
        client := trivial
        clientFound := by
          rw [none_, List.append_nil]
          exact sound.clientFound }

theorem Sound.step {e : Event} (sound : Sound s) (taken : s.step e = some t) : Sound t := by
  cases e with
  | hostReads =>
      simp only [Parties.step] at taken
      split at taken
      next => cases taken
      next x rest head =>
        obtain ⟨h, read, rfl⟩ := Option.map_eq_some_iff.mp taken
        exact sound.hostReads head (Host.reads read)
  | hostCloses =>
      simp only [Parties.step] at taken
      split at taken
      next =>
        obtain ⟨h, closed, rfl⟩ := Option.map_eq_some_iff.mp taken
        exact sound.hostCloses (Host.closes closed)
      next => cases taken
  | hostWrites =>
      obtain ⟨r, written, rfl⟩ := Option.map_eq_some_iff.mp taken
      exact sound.hostWrites (Host.writes written)
  | hostTurns turn =>
      obtain ⟨h, turned, rfl⟩ := Option.map_eq_some_iff.mp taken
      exact sound.hostTurns (Host.turns turned)
  | clientReads =>
      simp only [Parties.step] at taken
      split at taken
      next => cases taken
      next x rest head =>
        obtain ⟨c, read, rfl⟩ := Option.map_eq_some_iff.mp taken
        exact sound.clientReads head (Client.reads read)
  | clientCloses =>
      simp only [Parties.step] at taken
      split at taken
      next =>
        obtain ⟨c, closed, rfl⟩ := Option.map_eq_some_iff.mp taken
        obtain ⟨-, -, rfl⟩ := Client.closes closed
        exact { sound with client := trivial }
      next => cases taken
  | clientWrites =>
      obtain ⟨r, written, rfl⟩ := Option.map_eq_some_iff.mp taken
      exact sound.clientWrites (Client.writes written)
  | clientTurns turn =>
      obtain ⟨c, turned, rfl⟩ := Option.map_eq_some_iff.mp taken
      exact sound.clientTurns (Client.turns turned)

theorem sound_start (host : HostHello) (client : ClientHello) : Sound (Parties.start host client) where
  down := rfl
  up := rfl
  host := ⟨rfl, rfl⟩
  client := ⟨rfl, rfl, rfl⟩
  greets := fun _ head => by cases head
  words := fun _ member => by cases member
  hostFound := rfl
  clientFound := rfl
  hostHeard := rfl
  clientHeard := rfl

theorem hellos_step {e : Event} (taken : s.step e = some t) :
    t.host.hello = s.host.hello ∧ t.client.hello = s.client.hello := by
  cases e with
  | hostReads =>
      simp only [Parties.step] at taken
      split at taken
      next => cases taken
      next x rest head =>
        obtain ⟨h, read, rfl⟩ := Option.map_eq_some_iff.mp taken
        cases Host.reads read with
        | met | gone | told | deaf => exact ⟨rfl, rfl⟩
  | hostCloses =>
      simp only [Parties.step] at taken
      split at taken
      next =>
        obtain ⟨h, closed, rfl⟩ := Option.map_eq_some_iff.mp taken
        cases Host.closes closed with
        | awaiting | deaf => exact ⟨rfl, rfl⟩
      next => cases taken
  | hostWrites =>
      obtain ⟨r, written, rfl⟩ := Option.map_eq_some_iff.mp taken
      cases Host.writes written with
      | offers | tells | givesUp | announces => exact ⟨rfl, rfl⟩
  | hostTurns turn =>
      obtain ⟨h, turned, rfl⟩ := Option.map_eq_some_iff.mp taken
      cases Host.turns turned with
      | learns | takes | settles | nominates | despairs | connects | loses => exact ⟨rfl, rfl⟩
  | clientReads =>
      simp only [Parties.step] at taken
      split at taken
      next => cases taken
      next x rest head =>
        obtain ⟨c, read, rfl⟩ := Option.map_eq_some_iff.mp taken
        cases Client.reads read with
        | met | gone | told | early | verdict => exact ⟨rfl, rfl⟩
  | clientCloses =>
      simp only [Parties.step] at taken
      split at taken
      next =>
        obtain ⟨c, closed, rfl⟩ := Option.map_eq_some_iff.mp taken
        obtain ⟨-, -, rfl⟩ := Client.closes closed
        exact ⟨rfl, rfl⟩
      next => cases taken
  | clientWrites =>
      obtain ⟨r, written, rfl⟩ := Option.map_eq_some_iff.mp taken
      cases Client.writes written with
      | greets | tells => exact ⟨rfl, rfl⟩
  | clientTurns turn =>
      obtain ⟨c, turned, rfl⟩ := Option.map_eq_some_iff.mp taken
      cases Client.turns turned with
      | learns | takes | settles | nominates | connects | loses => exact ⟨rfl, rfl⟩

theorem hellos_reaches {host : HostHello} {client : ClientHello}
    (run : Reaches Parties.step free (Parties.start host client) s) :
    s.host.hello = host ∧ s.client.hello = client :=
  run.invariant (I := fun s => s.host.hello = host ∧ s.client.hello = client)
    (fun _ _ _ same _ taken => ⟨(hellos_step taken).1.trans same.1, (hellos_step taken).2.trans same.2⟩) ⟨rfl, rfl⟩

theorem sound_reaches {host : HostHello} {client : ClientHello}
    (run : Reaches Parties.step free (Parties.start host client) s) : Sound s :=
  run.invariant (fun _ _ _ sound _ taken => sound.step taken) (sound_start host client)

theorem Sound.mem_sentDown (sound : Sound s) (member : x ∈ s.readDown) : x ∈ s.sentDown := by
  rw [sound.down]
  exact List.mem_append_left _ member

theorem Sound.client_heard (sound : Sound s) : s.client.heard <+: s.hostFound := by
  rw [sound.clientHeard, sound.hostFound, sound.down, updates_append, List.append_assoc]
  exact List.prefix_append _ _

theorem Sound.host_heard (sound : Sound s) : s.host.heard <+: s.clientFound := by
  rw [sound.hostHeard, sound.clientFound, sound.up, updates_append, List.append_assoc]
  exact List.prefix_append _ _

theorem Sound.read_whole (sound : Sound s) {path : PathDescription} (read : .established path ∈ s.readDown) :
    s.readDown = s.sentDown := by
  obtain ⟨a, at_, rfl⟩ := sound.host.declared (sound.mem_sentDown read)
  have host := sound.host
  rw [at_] at host
  obtain ⟨⟨pre, sent, plain⟩, -⟩ := host
  have new : .established a.path ∉ pre := by
    intro among
    rcases plain.2 _ among with same | ⟨_, same⟩
    · cases same
    · cases same
  have parts := sound.down.symm.trans sent
  cases left : s.down with
  | nil => rw [sound.down, left, List.append_nil]
  | cons x rest =>
      exfalso
      rcases List.append_eq_append_iff.mp parts with ⟨more, rfl, -⟩ | ⟨more, same, tail⟩
      · exact new (List.mem_append_left _ read)
      · rw [left] at tail
        cases more with
        | nil =>
            rw [List.append_nil] at same
            rw [same] at read
            exact new read
        | cons y more =>
            have length := congrArg List.length tail
            simp at length

end Invariant

section Results
variable {host : HostHello} {client : ClientHello} {s : Parties}

/-- However the two ends, their ladders and the pipes take turns, and whatever fails: the client is
never told of a path before it has nominated one, the ladders run on the two hellos, and a
client that is attached is so to the session and the path the host says it is attached by. -/
theorem both_ends_agree (run : Reaches Parties.step free (Parties.start host client) s) :
    s.client.stage ≠ .panicked ∧
      (∀ met, s.host.stage.Open met → met = client) ∧ (∀ met, s.client.stage.Open met → met = host) ∧
      (∀ e, s.client.stage = .ended (.ok e) → ∃ a, s.host.stage = .ended (.ok a) ∧
        e = ⟨a.path, host.sessionId, host.attachId, host.features⟩) ∧
      ∀ a, s.host.stage = .ended (.ok a) → s.client.dialled = true ∧ a.clientSize = client.size ∧
        client.size.checkBounds = .ok () ∧ Described host a.path := by
  have sound := sound_reaches run
  obtain ⟨rfl, rfl⟩ := hellos_reaches run
  have mine : ∀ met, .clientHello met ∈ s.readUp → met = s.client.hello := by
    intro met member
    have sent : .clientHello met ∈ s.sentUp := by
      rw [sound.up]
      exact List.mem_append_left _ member
    rcases sound.words _ sent with same | ⟨_, same⟩
    · cases same
      rfl
    · cases same
  refine ⟨fun panicked => ?_, fun met at_ => ?_, fun met at_ => ?_, fun e at_ => ?_, fun a at_ => ?_⟩
  · have fits := sound.client
    rw [panicked] at fits
    exact fits
  · exact mine met (at_.fits.mp sound.host).2.1
  · exact sound.host.one_hello (sound.mem_sentDown (at_.fits.mp sound.client).2.1)
  · have fits := sound.client
    rw [at_] at fits
    obtain ⟨read, met, hello, same⟩ := fits
    obtain ⟨a, done, path⟩ := sound.host.declared (sound.mem_sentDown read)
    obtain rfl := sound.host.one_hello (sound.mem_sentDown hello)
    exact ⟨a, done, path ▸ same⟩
  · have fits := sound.host
    rw [at_] at fits
    obtain ⟨-, ⟨met, hello, size⟩, -, dialled, described⟩ := fits
    obtain rfl := mine met hello.1
    exact ⟨dialled, size, hello.2, described⟩

/-- What a ladder hears of its peer is what the peer's ladder learned, in that order and nothing
left out in between, and an attached client has heard it all. -/
theorem candidates_come_in_order (run : Reaches Parties.step free (Parties.start host client) s) :
    s.client.heard <+: s.hostFound ∧ s.host.heard <+: s.clientFound ∧
      ∀ e, s.client.stage = .ended (.ok e) → s.client.heard = s.hostFound := by
  have sound := sound_reaches run
  refine ⟨sound.client_heard, sound.host_heard, fun e at_ => ?_⟩
  have fits := sound.client
  rw [at_] at fits
  obtain ⟨a, done, -⟩ := sound.host.declared (sound.mem_sentDown fits.1)
  have host := sound.host
  rw [done] at host
  rw [sound.clientHeard, sound.hostFound, host.2.2.1, List.append_nil, sound.read_whole fits.1]

end Results

namespace Arranged

def offer : HostHello where
  sessionId := ['s']
  attachId := 7
  certSpkiSha256 := [1]
  psk := [2]
  candidates := []
  nat := { v4 := .endpointIndependent, v6 := .unknown }
  boundPort := 4000
  detachable := true
  features := []

def answer : ClientHello where
  certSpkiSha256 := [3]
  candidates := []
  nat := { v4 := .symmetric, v6 := .unknown }
  size := ⟨80, 24⟩
  features := []

/-- What the host's ladder learned of the client. -/
def learned : Candidate := ⟨.v4 0xcb007109 5000, .peerReflexive, 1⟩

def host : Nominated := ⟨.punched .v4, .v4 0x0a000001 4000, .v4 0xcb007109 5000, 9⟩

def client : Nominated := ⟨.punched .v4, .v4 0x0a000002 6000, .v4 0xc6336407 4000, 4⟩

/-- The hellos cross. -/
def greetings : List Event := [.hostWrites, .clientReads, .clientWrites, .hostReads]

/-- Both ladders found a path, and the host declares it. -/
def verdict : List Event :=
  [.hostTurns .drained, .clientTurns (.settles (.ok client)), .clientTurns .drained, .clientTurns (.connects 31 1200),
    .hostTurns (.connects 30 1400), .hostWrites]

def attach : List Event :=
  greetings ++ [.hostTurns (.learns learned), .hostTurns (.settles (.ok host)), .hostWrites, .clientReads,
    .clientTurns .takes] ++ verdict ++ [.clientReads]

theorem both_ends_agree_x : ∃ s : Parties,
    s.client.stage = .ended (.ok ⟨pathDescription host offer.nat 30 1400, ['s'], 7, []⟩) ∧
      ∃ a, s.host.stage = .ended (.ok a) ∧ a.path = pathDescription host offer.nat 30 1400 := by
  have ran : (runFrom Parties.step (Parties.start offer answer) attach).map (fun s => s.client.stage) =
      some (.ended (.ok ⟨pathDescription host offer.nat 30 1400, ['s'], 7, []⟩)) := by decide +kernel
  obtain ⟨s, run, ended⟩ := Option.map_eq_some_iff.mp ran
  obtain ⟨-, -, -, same, -⟩ := both_ends_agree (reaches_of_runFrom attach (admits_free _ _ _) run)
  obtain ⟨a, done, path⟩ := same _ ended
  exact ⟨s, ended, a, done, (congrArg Established.path path).symm⟩

theorem candidates_come_in_order_x : ∃ s : Parties, s.client.heard = [learned] ∧ s.client.heard = s.hostFound := by
  have ran : (runFrom Parties.step (Parties.start offer answer) attach).map
      (fun s => (s.client.heard, s.client.stage)) =
        some ([learned], .ended (.ok ⟨pathDescription host offer.nat 30 1400, ['s'], 7, []⟩)) := by decide +kernel
  obtain ⟨s, run, ended⟩ := Option.map_eq_some_iff.mp ran
  obtain ⟨heard, done⟩ := Prod.mk.inj ended
  obtain ⟨-, -, all⟩ := candidates_come_in_order (reaches_of_runFrom attach (admits_free _ _ _) run)
  exact ⟨s, heard, all _ done⟩

end Arranged
end Oxutrm.Exchange
