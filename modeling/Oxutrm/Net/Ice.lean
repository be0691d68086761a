import Mathlib.Data.List.Lex
import Mathlib.Order.Nat
import Oxutrm.Net.Stun

/-!
The ICE agent. One turn of its loop sends the checks that are due, nominates if
it may, and then reads one datagram. Instants and durations are counted in
milliseconds.
-/
namespace Oxutrm.Net

/-- How often a check is re-sent to a pair that has not answered. -/
def retryInterval : Nat := 200

structure PairState where
  /-- The peer answered a check of ours: we can reach them. -/
  outboundOk : Bool := false
  /-- A valid check arrived from them: they can reach us. -/
  inboundOk : Bool := false
  priority : Nat := 0
  kind : Option CandidateKind := none
  lastSent : Option Nat := none
  deriving DecidableEq

def PairState.validated (s : PairState) : Bool := s.outboundOk && s.inboundOk

/-- Why a run of the agent ends without a path. -/
inductive IceFailure where
  | noLocalAddress
  | noRemoteCandidates
  | alreadyFinished
  | noValidatedPath (gatherTimeout probes : Nat)
  deriving DecidableEq

inductive IceEvent where
  | newLocalCandidate (c : Candidate)
  | nominated (localAddr remote : SocketAddr) (rung : Rung) (probes : Nat)
  | failed (why : IceFailure)
  deriving DecidableEq

/-- The remotes in the order of their addresses. -/
abbrev Pairs := List (SocketAddr × PairState)

namespace Pairs

def get (pairs : Pairs) (addr : SocketAddr) : Option PairState :=
  (pairs.find? fun pair => pair.1 = addr).map Prod.snd

/-- `entry(addr).or_insert(fresh)`, and what is done to it. -/
def entry (addr : SocketAddr) (fresh : PairState) (f : PairState → PairState) : Pairs → Pairs
  | [] => [(addr, f fresh)]
  | (a, s) :: rest =>
      if a = addr then (a, f s) :: rest
      else if addr.key < a.key then (addr, f fresh) :: (a, s) :: rest
      else (a, s) :: entry addr fresh f rest

/-- `get_mut(addr)`, and what is done to it. -/
def modify (addr : SocketAddr) (f : PairState → PairState) (pairs : Pairs) : Pairs :=
  pairs.map fun pair => if pair.1 = addr then (pair.1, f pair.2) else pair

end Pairs

/-- `max_by_key` over a key whose order is `le`: of equals the last. -/
def maxBy {α : Type} (le : α → α → Bool) (xs : List α) : Option α :=
  xs.foldl (fun best x =>
    match best with
    | none => some x
    | some b => if le b x then some x else some b) none

structure IceAgent where
  role : IceRole
  gatherTimeout : Nat
  locals : List Candidate := []
  pairs : Pairs := []
  /-- Outstanding requests, with the pair that caused each and its time. -/
  outstanding : List (TransactionId × SocketAddr × Nat) := []
  reflexiveSeen : List SocketAddr := []
  probes : Nat := 0
  lastRtt : Option Nat := none
  deadline : Option Nat := none
  nominated : Option SocketAddr := none
  done : Bool := false
  remoteFilter : Option (SocketAddr → Bool) := none

/-- A check as it is sent: its transaction id, and whether the socket took it. -/
structure CheckSend where
  tid : TransactionId
  taken : Bool
  deriving DecidableEq

namespace IceAgent

def addLocal (a : IceAgent) (c : Candidate) : IceAgent :=
  if a.locals.any fun x => x.addr = c.addr then a else { a with locals := a.locals ++ [c] }

def addRemote (a : IceAgent) (c : Candidate) : IceAgent :=
  { a with
    pairs := a.pairs.entry (unmap c.addr) {} fun s =>
      if s.priority < c.priority then { s with priority := c.priority, kind := some c.kind } else s }

/-- The pairs that are due a check. -/
def due (a : IceAgent) (now : Nat) : List SocketAddr :=
  (a.pairs.filter fun pair => !pair.2.outboundOk &&
    match pair.2.lastSent with
    | none => true
    | some sent => retryInterval ≤ now - sent).map Prod.fst

def admits (a : IceAgent) (remote : SocketAddr) : Bool :=
  match a.remoteFilter with
  | none => true
  | some f => f remote

/-- The highest-priority pair validated in both directions, of equals the one with
the least address. -/
def bestValidated (a : IceAgent) : Option SocketAddr :=
  (maxBy (fun p q : SocketAddr × PairState =>
      decide (p.2.priority < q.2.priority) ||
        (decide (p.2.priority = q.2.priority) && decide (q.1.key ≤ p.1.key)))
    (a.pairs.filter fun pair => pair.2.validated && a.admits pair.1)).map Prod.fst

def nominatedEvent (a : IceAgent) (localAddr remote : SocketAddr) : IceEvent :=
  let rung := match (a.pairs.get remote).bind PairState.kind with
    | none => Rung.punched (Family.of remote)
    | some kind => Rung.ofCandidate kind remote
  .nominated (unmap localAddr) remote rung a.probes

section Wire
variable (codec : StunCodec) (creds : IceCredentials)

/-- One check. The transaction id is drawn, the message built and sent, and what
went out is remembered. -/
def sendCheck (now : Nat) (a : IceAgent × List Packet) (remote : SocketAddr) (send : CheckSend) :
    IceAgent × List Packet :=
  match buildCheckRequest codec creds remote (IceCredentials.outbound a.1.role) send.tid with
  | none => a
  | some packet =>
      if send.taken then
        ({ a.1 with
            probes := a.1.probes + 1
            outstanding := (send.tid, remote, now) ::
              a.1.outstanding.filter (fun entry => entry.1 ≠ send.tid)
            pairs := a.1.pairs.modify remote fun s => { s with lastSent := some now } },
          a.2 ++ [packet])
      else a

/-- A check to every pair that is due one. Fewer sends than pairs are those of a
run that was dropped halfway. -/
def sendDueChecks (a : IceAgent) (now : Nat) (sends : List CheckSend) : IceAgent × List Packet :=
  ((a.due now).zip sends).foldl (fun acc pair => sendCheck codec creds now acc pair.1 pair.2) (a, [])

/-- The nomination goes out three times. -/
def nominate (a : IceAgent) (localAddr remote : SocketAddr) (tid : TransactionId) :
    IceAgent × List Packet × Option IceEvent :=
  let packets :=
    match buildNomination codec creds remote (IceCredentials.outbound a.role) tid with
    | some packet => [packet, packet, packet]
    | none => []
  let a := { a with nominated := some remote, done := true }
  (a, packets, some (a.nominatedEvent localAddr remote))

/-- A turn of `run` up to its read: `tid` is drawn if there is a nomination. -/
def turn (a : IceAgent) (localAddr : SocketAddr) (now : Nat) (sends : List CheckSend)
    (tid : TransactionId) : IceAgent × List Packet × Option IceEvent :=
  let deadline := a.deadline.getD (now + a.gatherTimeout)
  let a := { a with deadline := some deadline }
  if a.pairs.isEmpty then (a, [], some (.failed .noRemoteCandidates))
  else if a.done then (a, [], some (.failed .alreadyFinished))
  else if deadline ≤ now then
    ({ a with done := true }, [], some (.failed (.noValidatedPath a.gatherTimeout a.probes)))
  else
    let (a, checks) := a.sendDueChecks codec creds now sends
    match a.role, a.nominated, a.bestValidated with
    | .controlling, none, some remote =>
        let (a, packets, event) := a.nominate codec creds localAddr remote tid
        (a, checks ++ packets, event)
    | _, _, _ => (a, checks, none)

/-- A request of the peer: they reached us. A source we never heard of becomes a
peer-reflexive pair. -/
def onRequest (a : IceAgent) (source : SocketAddr) (check : Check) : IceAgent × List Packet :=
  let fresh : PairState :=
    { priority := icePriority .peerReflexive source.ip, kind := some .peerReflexive }
  ({ a with pairs := a.pairs.entry source fresh fun s => { s with inboundOk := true } },
    (buildCheckResponse codec creds source (IceCredentials.inbound a.role) check.tid source).toList)

def onResponse (a : IceAgent) (now : Nat) (check : Check) (remote : SocketAddr) (sentAt : Nat) :
    IceAgent × Option IceEvent :=
  let a := { a with
    outstanding := a.outstanding.filter (fun entry => entry.1 ≠ check.tid)
    lastRtt := some (now - sentAt)
    pairs := a.pairs.modify remote fun s => { s with outboundOk := true } }
  match check.reflexive with
  | none => (a, none)
  | some seen =>
      if seen ∈ a.reflexiveSeen then (a, none)
      else
        let a := { a with reflexiveSeen := seen :: a.reflexiveSeen }
        if a.locals.any fun c => c.addr = seen then (a, none)
        else
          let cand : Candidate := ⟨seen, .serverReflexive, icePriority .serverReflexive seen.ip⟩
          ({ a with locals := a.locals ++ [cand] }, some (.newLocalCandidate cand))

/-- Classify one arriving datagram, its source already unmapped. -/
def onDatagram (a : IceAgent) (localAddr : SocketAddr) (now : Nat) (source : SocketAddr)
    (datagram : List UInt8) : IceAgent × List Packet × Option IceEvent :=
  match parseCheck codec creds (IceCredentials.inbound a.role) datagram with
  | some check =>
      match check.kind with
      | .request =>
          let (a, packets) := a.onRequest codec creds source check
          (a, packets, none)
      | .nomination =>
          match a.role with
          | .controlled =>
              let a := { a with nominated := some source, done := true }
              (a, [], some (a.nominatedEvent localAddr source))
          | .controlling => (a, [], none)
      | .successResponse => (a, [], none)
  | none =>
      match parseCheck codec creds (IceCredentials.outbound a.role) datagram with
      | some check =>
          match check.kind, a.outstanding.find? fun entry => entry.1 = check.tid with
          | .successResponse, some (_, remote, sentAt) =>
              let (a, event) := a.onResponse now check remote sentAt
              (a, [], event)
          | _, _ => (a, [], none)
      | none => (a, [], none)

end Wire
end IceAgent
end Oxutrm.Net
