import Oxutrm.Lib.Variant
import Oxutrm.Net.Agreement

/-!
How an attach ends. Unless the ladders go on learning it is over soon, with both ends done, but
for one case: a client that waits for the verdict still reads into the channel of a ladder that
is done, and once that is full it reads no more.
-/
namespace Oxutrm.Exchange
open Transition
open Oxutrm.Net (Candidate)
open Oxutrm.Proto (Text)

/-- Neither a new candidate nor a failure out of nothing. -/
def Turn.quiet : Turn → Bool
  | .learns _ | .fails => false
  | _ => true

def Event.quiet : Event → Bool
  | .hostTurns turn | .clientTurns turn => turn.quiet
  | _ => true

def HostStage.work : HostStage → Nat
  | .offering => 12
  | .awaiting => 10
  | .racing _ => 8
  | .draining _ _ => 6
  | .accepting _ _ => 4
  | .failing _ | .announcing _ _ => 2
  | .ended _ => 0

def ClientStage.work : ClientStage → Nat
  | .offered => 12
  | .greeting _ => 10
  | .racing _ => 8
  | .draining _ _ => 6
  | .connecting _ _ => 4
  | .waiting _ => 2
  | .panicked | .ended _ => 0

/-- A candidate is told, read and taken. -/
def Host.work (h : Host) : Nat :=
  h.stage.work + 3 * h.learned.length + (h.heard.length - h.taken) + h.pumping.toNat

def Client.work (c : Client) : Nat := c.stage.work + 3 * c.learned.length + (c.heard.length - c.taken)

def load (signals : List Signal) : Nat := signals.length + (updates signals).length

/-- What is left to do at most: the stages to come, and what is still to be told, read and taken. -/
def Parties.work (s : Parties) : Nat := s.host.work + s.client.work + load s.down + load s.up

section Work
variable {s t : Parties} {x : Signal} {rest : List Signal}

theorem load_cons : load (x :: rest) = 1 + (updates [x]).length + load rest := by
  have parts : updates (x :: rest) = updates [x] ++ updates rest := updates_append [x] rest
  rw [load, load, parts, List.length_cons, List.length_append]
  omega

theorem load_snoc : load (rest ++ [x]) = load rest + (1 + (updates [x]).length) := by
  rw [load, load, updates_append, List.length_append, List.length_append, List.length_singleton]
  omega

theorem HostStage.work_pos {stage : HostStage} (on : ∀ r, stage ≠ .ended r) : 0 < stage.work := by
  cases stage with
  | ended r => exact absurd rfl (on r)
  | offering | awaiting | racing _ | draining _ _ | failing _ | accepting _ _ | announcing _ _ => exact Nat.succ_pos _

theorem Host.work_reads {h h' : Host} (reads : h.Reads x h') : h'.work ≤ h.work + (updates [x]).length := by
  cases reads with
  | met client at_ size =>
      simp only [work, at_, HostStage.work]
      omega
  | gone x why at_ =>
      simp only [work, at_, HostStage.work]
      omega
  | told client candidates at_ room =>
      simp only [work, updates_update, List.length_append]
      omega
  | deaf client x at_ on other =>
      simp only [work, on, Bool.toNat_true, Bool.toNat_false]
      omega

theorem Host.work_closes {h h' : Host} (closes : h.Closes h') : h'.work < h.work := by
  cases closes with
  | awaiting at_ =>
      simp only [work, at_, HostStage.work]
      omega
  | deaf client at_ on =>
      simp only [work, on, Bool.toNat_true, Bool.toNat_false]
      omega

theorem Host.work_writes {h : Host} {r : Host × Signal} (writes : h.Writes r) :
    r.1.work + (1 + (updates [r.2]).length) < h.work := by
  cases writes with
  | offers at_ =>
      simp only [work, at_, HostStage.work, updates_hostHello, List.length_nil]
      omega
  | tells client c rest at_ learned =>
      simp only [work, learned, updates_update, List.length_cons, List.length_nil]
      omega
  | givesUp report at_ =>
      simp only [work, at_, HostStage.work, updates_failed, List.length_nil]
      omega
  | announces client path at_ =>
      simp only [work, at_, HostStage.work, updates_established, List.length_nil]
      omega

theorem Host.work_turns {h h' : Host} {dialled : Bool} {turn : Turn} (turns : h.Turns dialled turn h')
    (quiet : turn.quiet = true) : h'.work < h.work := by
  cases turns with
  | learns client c at_ => cases quiet
  | takes client at_ some_ =>
      simp only [work]
      omega
  | settles client outcome at_ =>
      simp only [work, at_, HostStage.work]
      omega
  | nominates client n at_ told =>
      simp only [work, at_, HostStage.work]
      omega
  | despairs client report at_ told =>
      simp only [work, at_, HostStage.work]
      omega
  | connects client n rtt mtu at_ met =>
      simp only [work, at_, HostStage.work]
      omega
  | loses turn on none_ =>
      have some_ := HostStage.work_pos (Host.on_of_not_over on)
      have nothing : (HostStage.ended (.error .lost)).work = 0 := rfl
      simp only [work]
      omega

theorem ClientStage.work_pos {c : Client} (on : c.isOver = false) : 0 < c.stage.work := by
  unfold Client.isOver at on
  cases at_ : c.stage with
  | ended r =>
      rw [at_] at on
      cases on
  | panicked =>
      rw [at_] at on
      cases on
  | offered | greeting _ | racing _ | draining _ _ | connecting _ _ | waiting _ => exact Nat.succ_pos _

theorem Client.work_reads {c c' : Client} (reads : c.Reads x c') : c'.work ≤ c.work + (updates [x]).length := by
  cases reads with
  | met host at_ =>
      simp only [work, at_, ClientStage.work]
      omega
  | gone x why at_ =>
      simp only [work, at_, ClientStage.work]
      omega
  | told host candidates at_ room =>
      simp only [work, updates_update, List.length_append]
      omega
  | early host x at_ other =>
      have nothing : (early host x).work = 0 := by
        unfold early
        cases establishedPath host x with
        | ok _ | error _ => rfl
      simp only [work, nothing]
      omega
  | verdict host x at_ room other =>
      simp only [work, at_, ClientStage.work]
      omega

theorem Client.work_writes {c : Client} {r : Client × Signal} (writes : c.Writes r) :
    r.1.work + (1 + (updates [r.2]).length) < c.work := by
  cases writes with
  | greets host at_ =>
      simp only [work, at_, ClientStage.work, updates_clientHello, List.length_nil]
      omega
  | tells host found rest at_ learned =>
      simp only [work, learned, updates_update, List.length_cons, List.length_nil]
      omega

theorem Client.work_turns {c c' : Client} {up : Bool} {turn : Turn} (turns : c.Turns up turn c')
    (quiet : turn.quiet = true) : c'.work < c.work := by
  cases turns with
  | learns host found at_ => cases quiet
  | takes host at_ some_ =>
      simp only [work]
      omega
  | settles host outcome at_ =>
      simp only [work, at_, ClientStage.work]
      omega
  | nominates host n at_ told =>
      simp only [work, at_, ClientStage.work]
      omega
  | connects host n rtt mtu at_ met =>
      simp only [work, at_, ClientStage.work]
      omega
  | loses turn why on none_ =>
      have some_ := ClientStage.work_pos on
      have nothing : (ClientStage.ended (.error why)).work = 0 := rfl
      simp only [work]
      omega

theorem Parties.work_lt {e : Event} (quiet : e.quiet = true) (taken : s.step e = some t) : t.work < s.work := by
  cases e with
  | hostReads =>
      simp only [Parties.step] at taken
      split at taken
      next => cases taken
      next x rest head =>
        obtain ⟨h, read, rfl⟩ := Option.map_eq_some_iff.mp taken
        have less := Host.work_reads (Host.reads read)
        simp only [work, head, load_cons]
        omega
  | hostCloses =>
      simp only [Parties.step] at taken
      split at taken
      next =>
        obtain ⟨h, closed, rfl⟩ := Option.map_eq_some_iff.mp taken
        have less := Host.work_closes (Host.closes closed)
        simp only [work]
        omega
      next => cases taken
  | hostWrites =>
      obtain ⟨r, written, rfl⟩ := Option.map_eq_some_iff.mp taken
      have less := Host.work_writes (Host.writes written)
      simp only [work, load_snoc]
      omega
  | hostTurns turn =>
      obtain ⟨h, turned, rfl⟩ := Option.map_eq_some_iff.mp taken
      have less := Host.work_turns (Host.turns turned) quiet
      simp only [work]
      omega
  | clientReads =>
      simp only [Parties.step] at taken
      split at taken
      next => cases taken
      next x rest head =>
        obtain ⟨c, read, rfl⟩ := Option.map_eq_some_iff.mp taken
        have less := Client.work_reads (Client.reads read)
        simp only [work, head, load_cons]
        omega
  | clientCloses =>
      simp only [Parties.step] at taken
      split at taken
      next =>
        obtain ⟨c, closed, rfl⟩ := Option.map_eq_some_iff.mp taken
        obtain ⟨on, -, rfl⟩ := Client.closes closed
        have some_ := ClientStage.work_pos on
        have nothing : (ClientStage.ended (.error .lost)).work = 0 := rfl
        simp only [work, Client.work]
        omega
      next => cases taken
  | clientWrites =>
      obtain ⟨r, written, rfl⟩ := Option.map_eq_some_iff.mp taken
      have less := Client.work_writes (Client.writes written)
      simp only [work, load_snoc]
      omega
  | clientTurns turn =>
      obtain ⟨c, turned, rfl⟩ := Option.map_eq_some_iff.mp taken
      have less := Client.work_turns (Client.turns turned) quiet
      simp only [work]
      omega

end Work

/-- The host is done, and the client is done or wedged. -/
def Parties.Final (s : Parties) : Prop := s.host.isOver = true ∧ (s.client.isOver = true ∨ s.client.Wedged)

/-- A quiet event can happen. -/
def Parties.Goes (s : Parties) : Prop := ∃ e, e.quiet = true ∧ ∃ t, s.step e = some t

section Progress
variable {s t : Parties}

theorem goes_hostWrites {r : Host × Signal} (written : s.host.write = some r) : s.Goes :=
  ⟨.hostWrites, rfl, _, by rw [Parties.step, written]; rfl⟩

theorem goes_clientWrites {r : Client × Signal} (written : s.client.write = some r) : s.Goes :=
  ⟨.clientWrites, rfl, _, by rw [Parties.step, written]; rfl⟩

theorem goes_hostTurns {turn : Turn} {h : Host} (quiet : turn.quiet = true)
    (turned : s.host.turn s.client.dialled turn = some h) : s.Goes :=
  ⟨.hostTurns turn, quiet, _, by rw [Parties.step, turned]; rfl⟩

theorem goes_clientTurns {turn : Turn} {c : Client} (quiet : turn.quiet = true)
    (turned : s.client.turn s.host.up turn = some c) : s.Goes :=
  ⟨.clientTurns turn, quiet, _, by rw [Parties.step, turned]; rfl⟩

theorem goes_clientReads (read : ∀ x, ∃ c, s.client.read x = some c) (some_ : s.down ≠ []) : s.Goes := by
  cases head : s.down with
  | nil => exact absurd head some_
  | cons x rest =>
      obtain ⟨c, taken⟩ := read x
      exact ⟨.clientReads, rfl, { s with client := c, down := rest, readDown := s.readDown ++ [x] }, by
        simp only [Parties.step, head, taken, Option.map_some]⟩

theorem reads_offered {c : Client} (at_ : c.stage = .offered) (x : Signal) : ∃ c', c.read x = some c' := by
  unfold Client.read
  rw [at_]
  cases x with
  | hostHello _ | clientHello _ | candidateUpdate _ | established _ | failed _ => exact ⟨_, rfl⟩

theorem reads_waiting {c : Client} {host : HostHello} (at_ : c.stage = .waiting host) (room : c.Room) (x : Signal) :
    ∃ c', c.read x = some c' := by
  unfold Client.read
  rw [at_]
  cases x with
  | hostHello _ | clientHello _ | candidateUpdate _ | established _ | failed _ => exact ⟨_, if_pos room⟩

theorem reads_awaiting {h : Host} (at_ : h.stage = .awaiting) (x : Signal) : ∃ h', h.read x = some h' := by
  unfold Host.read
  rw [at_]
  cases x with
  | clientHello client =>
      by_cases size : client.size.checkBounds = .ok ()
      · exact ⟨_, if_pos size⟩
      · exact ⟨_, if_neg size⟩
  | hostHello _ | candidateUpdate _ | established _ | failed _ => exact ⟨_, rfl⟩

/-- A host that is not done can go on, or the client can that it waits for. -/
theorem Sound.goes_host (sound : Sound s) (on : s.host.isOver = false) : s.Goes := by
  have fits := sound.host
  cases at_ : s.host.stage with
  | offering => exact goes_hostWrites (by rw [Host.write, at_])
  | awaiting =>
      rw [at_] at fits
      cases head : s.up with
      | cons x rest =>
          obtain ⟨h, taken⟩ := reads_awaiting at_ x
          exact ⟨.hostReads, rfl, { s with host := h, up := rest, readUp := s.readUp ++ [x] }, by
            simp only [Parties.step, head, taken, Option.map_some]⟩
      | nil =>
          have silent : s.sentUp = [] := by rw [sound.up, fits.2, head, List.append_nil]
          have client := sound.client
          cases client_at : s.client.stage with
          | offered =>
              rw [client_at] at client
              refine goes_clientReads (reads_offered client_at) fun unread => ?_
              have said := fits.1.1
              rw [sound.down, client.2.1, unread] at said
              cases said
          | greeting host => exact goes_clientWrites (by rw [Client.write, client_at])
          | racing host | draining host _ | connecting host _ | waiting host =>
              rw [client_at] at client
              exact absurd silent client.1
          | panicked =>
              rw [client_at] at client
              exact absurd client id
          | ended result =>
              have done : s.client.isOver = true := by rw [Client.isOver, client_at]
              have closed : s.host.closed = some { s.host with stage := .ended (.error .lost) } := by
                rw [Host.closed, at_]
              exact ⟨.hostCloses, rfl, _, by rw [Parties.step, if_pos ⟨head, done⟩, closed]; rfl⟩
  | racing client =>
      have turned : s.host.turn s.client.dialled (.settles (.error [])) =
          some { s.host with stage := .draining client (.error []) } := by
        simp only [Host.turn, at_]
      exact goes_hostTurns rfl turned
  | draining client outcome =>
      cases learned : s.host.learned with
      | nil =>
          cases outcome with
          | ok n =>
              have turned : s.host.turn s.client.dialled .drained =
                  some { s.host with stage := .accepting client n } := by
                simp only [Host.turn, Host.drained, at_, learned, if_true]
              exact goes_hostTurns rfl turned
          | error report =>
              have turned : s.host.turn s.client.dialled .drained =
                  some { s.host with stage := .failing report } := by
                simp only [Host.turn, Host.drained, at_, learned, if_true]
              exact goes_hostTurns rfl turned
      | cons c rest => exact goes_hostWrites (by rw [Host.write, at_, Host.tell, learned])
  | failing report => exact goes_hostWrites (by rw [Host.write, at_])
  | accepting client n =>
      have turned : s.host.turn s.client.dialled .expires =
          some { s.host with stage := .ended (.error .lost) } := by
        simp only [Host.turn, at_]
      exact goes_hostTurns rfl turned
  | announcing client path => exact goes_hostWrites (by rw [Host.write, at_])
  | ended result =>
      rw [Host.isOver, at_] at on
      cases on

/-- A client whose host is done can read on, or hears that there is no more. -/
theorem goes_client (done : s.host.isOver = true) (on : s.client.isOver = false) (free : ¬ s.client.Wedged) :
    s.Goes := by
  have waits : (∀ x, ∃ c, s.client.read x = some c) → (∃ c, s.client.closed = some c) → s.Goes := by
    rintro read ⟨c, closed⟩
    by_cases unread : s.down = []
    · exact ⟨.clientCloses, rfl, _, by rw [Parties.step, if_pos ⟨unread, done⟩, closed]; rfl⟩
    · exact goes_clientReads read unread
  cases at_ : s.client.stage with
  | offered => exact waits (reads_offered at_) ⟨_, by rw [Client.closed, at_]⟩
  | greeting host => exact goes_clientWrites (by rw [Client.write, at_])
  | racing host =>
      have turned : s.client.turn s.host.up (.settles (.error [])) =
          some { s.client with stage := .draining host (.error []) } := by
        simp only [Client.turn, at_]
      exact goes_clientTurns rfl turned
  | draining host outcome =>
      cases learned : s.client.learned with
      | nil =>
          cases outcome with
          | ok n =>
              have turned : s.client.turn s.host.up .drained =
                  some { s.client with stage := .connecting host n, dialled := true } := by
                simp only [Client.turn, Client.drained, at_, learned, if_true]
              exact goes_clientTurns rfl turned
          | error report =>
              have turned : s.client.turn s.host.up .drained =
                  some { s.client with stage := .ended (.error (.noPath report)) } := by
                simp only [Client.turn, Client.drained, at_, learned, if_true]
              exact goes_clientTurns rfl turned
      | cons c rest => exact goes_clientWrites (by rw [Client.write, at_, Client.tell, learned])
  | connecting host n =>
      have turned : s.client.turn s.host.up .expires =
          some { s.client with stage := .ended (.error .lost) } := by
        simp only [Client.turn, at_]
      exact goes_clientTurns rfl turned
  | waiting host =>
      have room : s.client.Room := by
        by_contra full
        exact free ⟨⟨host, at_⟩, full⟩
      exact waits (reads_waiting at_ room) ⟨_, by rw [Client.closed, at_]; exact if_pos room⟩
  | panicked =>
      rw [Client.isOver, at_] at on
      cases on
  | ended result =>
      rw [Client.isOver, at_] at on
      cases on

theorem Sound.goes (sound : Sound s) (left : ¬ s.Final) : s.Goes := by
  cases done : s.host.isOver with
  | false => exact sound.goes_host done
  | true =>
      refine goes_client done ?_ fun wedged => left ⟨done, .inr wedged⟩
      rw [← Bool.not_eq_true]
      exact fun done' => left ⟨done, .inl done'⟩

theorem Host.done_still {h : Host} (done : h.isOver = true) :
    (∀ x, h.read x = none) ∧ h.closed = none ∧ h.write = none ∧
      ∀ dialled turn, turn.quiet = true → h.turn dialled turn = none := by
  cases at_ : h.stage with
  | ended r =>
      refine ⟨fun x => by simp only [read, at_], by rw [closed, at_], by rw [write, at_], fun dialled turn quiet => ?_⟩
      cases turn with
      | fails => cases quiet
      | learns _ | takes | settles _ | connects _ _ | expires => simp only [turn, at_]
      | drained => simp only [turn, drained, at_]
  | offering | awaiting | racing _ | draining _ _ | failing _ | accepting _ _ | announcing _ _ =>
      rw [isOver, at_] at done
      cases done

theorem Client.done_still {c : Client} (done : c.isOver = true) :
    (∀ x, c.read x = none) ∧ c.closed = none ∧ c.write = none ∧
      ∀ up turn, turn.quiet = true → c.turn up turn = none := by
  cases at_ : c.stage with
  | ended _ | panicked =>
      refine ⟨fun x => by simp only [read, at_], by rw [closed, at_], by rw [write, at_], fun up turn quiet => ?_⟩
      cases turn with
      | fails => cases quiet
      | learns _ | takes | settles _ | connects _ _ | expires => simp only [turn, at_]
      | drained => simp only [turn, drained, at_]
  | offered | greeting _ | racing _ | draining _ _ | connecting _ _ | waiting _ =>
      rw [isOver, at_] at done
      cases done

theorem Client.wedged_still {c : Client} (wedged : c.Wedged) :
    (∀ x, c.read x = none) ∧ c.closed = none ∧ c.write = none ∧
      ∀ up turn c', c.turn up turn = some c' → turn = .fails := by
  obtain ⟨⟨host, at_⟩, full⟩ := wedged
  refine ⟨fun x => by simp only [read, at_, if_neg full], by simp only [closed, at_, if_neg full],
    by rw [write, at_], fun up turn c' turned => ?_⟩
  cases turn with
  | fails => rfl
  | learns _ | takes | settles _ | connects _ _ | expires =>
      simp only [turn, at_] at turned
      cases turned
  | drained =>
      simp only [turn, drained, at_] at turned
      cases turned

theorem Client.still {c : Client} (stuck : c.isOver = true ∨ c.Wedged) :
    (∀ x, c.read x = none) ∧ c.closed = none ∧ c.write = none ∧
      ∀ up turn, turn.quiet = true → c.turn up turn = none := by
  rcases stuck with done | wedged
  · exact Client.done_still done
  · obtain ⟨reads, closes, writes, turns⟩ := Client.wedged_still wedged
    refine ⟨reads, closes, writes, fun up turn quiet => ?_⟩
    cases turned : c.turn up turn with
    | none => rfl
    | some c' =>
        rw [turns up turn c' turned] at quiet
        cases quiet

theorem Parties.Final.still (final : s.Final) {e : Event} (quiet : e.quiet = true) : s.step e = none := by
  obtain ⟨reads, closes, writes, turns⟩ := Host.done_still final.1
  obtain ⟨reads', closes', writes', turns'⟩ := Client.still final.2
  cases e with
  | hostReads =>
      cases head : s.up with
      | nil => simp only [Parties.step, head]
      | cons x rest => simp only [Parties.step, head, reads, Option.map_none]
  | hostCloses => simp only [Parties.step, closes, Option.map_none, ite_self]
  | hostWrites => simp only [Parties.step, writes, Option.map_none]
  | hostTurns turn => simp only [Parties.step, turns _ turn quiet, Option.map_none]
  | clientReads =>
      cases head : s.down with
      | nil => simp only [Parties.step, head]
      | cons x rest => simp only [Parties.step, head, reads', Option.map_none]
  | clientCloses => simp only [Parties.step, closes', Option.map_none, ite_self]
  | clientWrites => simp only [Parties.step, writes', Option.map_none]
  | clientTurns turn => simp only [Parties.step, turns' _ turn quiet, Option.map_none]

/-- In a step that is not the client's own failure a wedged client stays what it is. -/
theorem wedged_step {e : Event} (wedged : s.client.Wedged) (taken : s.step e = some t)
    (other : e ≠ .clientTurns .fails) : t.client = s.client := by
  obtain ⟨reads, closes, writes, turns⟩ := Client.wedged_still wedged
  cases e with
  | hostReads =>
      simp only [Parties.step] at taken
      split at taken
      next => cases taken
      next =>
        obtain ⟨h, -, rfl⟩ := Option.map_eq_some_iff.mp taken
        rfl
  | hostCloses =>
      simp only [Parties.step] at taken
      split at taken
      next =>
        obtain ⟨h, -, rfl⟩ := Option.map_eq_some_iff.mp taken
        rfl
      next => cases taken
  | hostWrites =>
      obtain ⟨r, -, rfl⟩ := Option.map_eq_some_iff.mp taken
      rfl
  | hostTurns turn =>
      obtain ⟨h, -, rfl⟩ := Option.map_eq_some_iff.mp taken
      rfl
  | clientReads =>
      simp only [Parties.step, reads, Option.map_none] at taken
      split at taken
      next => cases taken
      next => cases taken
  | clientCloses =>
      simp only [Parties.step, closes, Option.map_none, ite_self] at taken
      cases taken
  | clientWrites =>
      simp only [Parties.step, writes, Option.map_none] at taken
      cases taken
  | clientTurns turn =>
      obtain ⟨c, turned, -⟩ := Option.map_eq_some_iff.mp taken
      rw [turns _ turn c turned] at other
      exact absurd rfl other

end Progress

section Results
variable {host : HostHello} {client : ClientHello} {s : Parties}

/-- Unless the ladders go on learning an attach is over soon, whatever happens in which order: no
run of other events is longer than the work that is left, one comes to a final state, and only
in a final state nothing more can happen but a failure. -/
theorem attach_comes_to_an_end (run : Reaches Parties.step free (Parties.start host client) s) :
    (∀ es t, (∀ e ∈ es, e.quiet = true) → runFrom Parties.step s es = some t → es.length ≤ s.work) ∧
      (∃ es t, (∀ e ∈ es, e.quiet = true) ∧ runFrom Parties.step s es = some t ∧ t.Final) ∧
      ((∀ e, e.quiet = true → s.step e = none) ↔ s.Final) := by
  have keep : ∀ s e t, Sound s → Parties.step s e = some t → Sound t := fun _ _ _ sound taken => sound.step taken
  have drop : ∀ s e t, Sound s → e.quiet = true → Parties.step s e = some t → t.work < s.work :=
    fun _ _ _ _ quiet taken => Parties.work_lt quiet taken
  have goes : ∀ s, Sound s → ¬ s.Final → ∃ e, e.quiet = true ∧ ∃ t, Parties.step s e = some t :=
    fun _ sound left => sound.goes left
  have sound := sound_reaches run
  refine ⟨fun es t quiet ran => length_le_work keep drop es sound quiet ran,
    exists_final_run keep drop goes sound, fun stuck => ?_, fun final e quiet => final.still quiet⟩
  by_contra left
  obtain ⟨e, quiet, t, taken⟩ := goes s sound left
  rw [stuck e quiet] at taken
  cases taken

/-- A client is wedged only if its host learned more candidates than the channel holds beside those
the client's ladder took, and then it stays so, whatever the host comes to, until it fails
itself. -/
theorem wedged_client_hangs (run : Reaches Parties.step free (Parties.start host client) s)
    (wedged : s.client.Wedged) :
    s.client.taken + channelSize < s.hostFound.length ∧
      ∀ t, Reaches Parties.step (fun _ e => e ≠ .clientTurns .fails) s t → t.client = s.client := by
  refine ⟨?_, fun t later => ?_⟩
  · have told := (sound_reaches run).client_heard.length_le
    have full := wedged.2
    unfold Client.Room at full
    omega
  · refine later.invariant (I := fun t => t.client = s.client) (fun u e v same other taken => ?_) rfl
    exact (wedged_step (same ▸ wedged) taken other).trans same

end Results

namespace Arranged

theorem attach_comes_to_an_end_x : ∃ s : Parties, s.work = 17 ∧ ¬ s.Final ∧
    ∃ es t, (∀ e ∈ es, e.quiet = true) ∧ runFrom Parties.step s es = some t ∧ t.Final := by
  have ran : (runFrom Parties.step (Parties.start offer answer) greetings).map
      (fun s => (s.work, s.host.isOver)) = some (17, false) := by decide +kernel
  obtain ⟨s, run, measured⟩ := Option.map_eq_some_iff.mp ran
  obtain ⟨work, on⟩ := Prod.mk.inj measured
  have ends := attach_comes_to_an_end (reaches_of_runFrom greetings (admits_free _ _ _) run)
  refine ⟨s, work, fun final => ?_, ends.2.1⟩
  have done := final.1
  rw [on] at done
  cases done

/-- The host's ladder learns one candidate more than the client's channel holds, and the client's
takes none. -/
def crowded : List Event :=
  greetings ++ List.replicate 33 (.hostTurns (.learns learned)) ++ [.hostTurns (.settles (.ok host))] ++
    List.replicate 33 .hostWrites ++ verdict ++ List.replicate 33 .clientReads

/-- The host counts the client attached, and the client hangs. -/
theorem wedged_client_hangs_x : ∃ s : Parties, s.client.Wedged ∧ s.down ≠ [] ∧
    s.host.stage = .ended (.ok ⟨pathDescription host offer.nat 30 1400, ⟨80, 24⟩⟩) ∧
    ∀ t, Reaches Parties.step (fun _ e => e ≠ .clientTurns .fails) s t → t.client = s.client := by
  have ran : (runFrom Parties.step (Parties.start offer answer) crowded).map
      (fun s => (s.client.stage, decide s.client.Room, s.down.length, s.host.stage)) =
        some (.waiting offer, false, 1, .ended (.ok ⟨pathDescription host offer.nat 30 1400, ⟨80, 24⟩⟩)) := by
    decide +kernel
  obtain ⟨s, run, measured⟩ := Option.map_eq_some_iff.mp ran
  obtain ⟨waiting, measured⟩ := Prod.mk.inj measured
  obtain ⟨full, measured⟩ := Prod.mk.inj measured
  obtain ⟨unread, done⟩ := Prod.mk.inj measured
  have wedged : s.client.Wedged := ⟨⟨offer, waiting⟩, of_decide_eq_false full⟩
  have hangs := wedged_client_hangs (reaches_of_runFrom crowded (admits_free _ _ _) run) wedged
  refine ⟨s, wedged, fun nothing => ?_, done, hangs.2⟩
  rw [nothing] at unread
  cases unread

end Arranged
end Oxutrm.Exchange
