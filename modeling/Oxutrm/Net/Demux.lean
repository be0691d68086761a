import Oxutrm.Net.Stun

/-!
One UDP socket for STUN and QUIC: every batch the socket below delivers is compacted in place,
what is STUN goes to a channel and the rest to quinn. An index out of range, which would
panic, is `none`. What the channel's receiver does meanwhile is a parameter.
-/
namespace Oxutrm.Net.Demux

structure RecvMeta where
  addr : SocketAddr
  len : Nat
  stride : Nat
  ecn : Option UInt8
  dstIp : Option IpAddr
  deriving DecidableEq

/-- One datagram as it arrived, with its own description. -/
structure Datagram where
  info : RecvMeta
  bytes : List UInt8
  exact : info.len = bytes.length
  deriving DecidableEq

/-- The buffers and descriptions a call is given. -/
structure Arrays where
  bufs : List (List UInt8)
  metas : List RecvMeta
  deriving DecidableEq

/-- `&buf[..len]`. -/
def upTo (buf : List UInt8) (len : Nat) : Option (List UInt8) :=
  if len ≤ buf.length then some (buf.take len) else none

def fromBeBytes (high low : UInt8) : Nat := high.toNat * 256 + low.toNat

def checkStun (datagram : List UInt8) : Option Bool :=
  if datagram.length < stunHeaderLen then some false
  else
    match datagram[0]? with
    | none => none
    | some first =>
        if first &&& 0xC0 ≠ 0 then some false
        else if datagram.length < 8 then none
        else if (datagram.drop 4).take 4 ≠ [0x21, 0x12, 0xA4, 0x42] then some false
        else
          match datagram[2]?, datagram[3]? with
          | some high, some low =>
              if fromBeBytes high low % 4 ≠ 0 then some false
              else some (decide (stunHeaderLen + fromBeBytes high low ≤ datagram.length))
          | _, _ => none

section Channel

/-- A datagram as the channel carries it. -/
structure Peeled where
  bytes : List UInt8
  addr : SocketAddr
  deriving DecidableEq

def stunQueue : Nat := 64

/-- One `try_send`, with the channel as it found it and whether it was kept. -/
structure Offer where
  peeled : Peeled
  waiting : Nat
  closed : Bool
  kept : Bool
  deriving DecidableEq

/-- The channel, with what was ever offered to it and what its receiver took. -/
structure Channel where
  queue : List Peeled
  closed : Bool
  received : List Peeled
  offered : List Offer
  deriving DecidableEq

def Channel.fresh : Channel := ⟨[], false, [], []⟩

/-- What the receiver did between two offers: so many taken, and whether it closed. -/
structure Meanwhile where
  taken : Nat
  closes : Bool

def Channel.elsewhere (c : Channel) (m : Meanwhile) : Channel :=
  { c with
    queue := c.queue.drop m.taken
    received := c.received ++ c.queue.take m.taken
    closed := c.closed || m.closes }

/-- `Sender::try_send`: a full or closed channel drops it. -/
def Channel.trySend (c : Channel) (p : Peeled) : Channel :=
  if c.closed || stunQueue ≤ c.queue.length then
    { c with offered := c.offered ++ [⟨p, c.queue.length, c.closed, false⟩] }
  else
    { c with
      queue := c.queue ++ [p]
      offered := c.offered ++ [⟨p, c.queue.length, c.closed, true⟩] }

end Channel

section Receiving
variable (receiver : Nat → Meanwhile)

/-- The receiver's part since the last offer, then the offer. -/
def offer (c : Channel) (p : Peeled) : Channel :=
  (c.elsewhere (receiver c.offered.length)).trySend p

/-- The datagrams from `read` on, `left` of them, with `write` already kept. -/
def compact : Nat → Nat → Nat → Arrays → Channel → Option (Nat × Arrays × Channel)
  | 0, _, write, a, c => some (write, a, c)
  | left + 1, read, write, a, c => do
      let m ← a.metas[read]?
      let buf ← a.bufs[read]?
      let datagram ← upTo buf m.len
      if ← checkStun datagram then
        compact left (read + 1) write a (offer receiver c ⟨datagram, m.addr⟩)
      else if write ≠ read then do
        if a.bufs.length < read then none
        else do
          let dst ← (a.bufs.take read)[write]?
          let src ← (a.bufs.drop read)[0]?
          let copied ← upTo src m.len
          let _ ← upTo dst m.len
          if a.metas.length ≤ write then none
          else
            compact left (read + 1) (write + 1)
              ⟨a.bufs.set write (copied ++ dst.drop m.len), a.metas.set write m⟩ c
      else compact left (read + 1) (write + 1) a c

/-- What the socket below does with the arrays when a batch has arrived. -/
def deliver (batch : List Datagram) (a : Arrays) : Arrays where
  bufs := List.zipWith (fun d buf => d.bytes ++ buf.drop d.bytes.length) batch a.bufs ++
    a.bufs.drop batch.length
  metas := batch.map Datagram.info ++ a.metas.drop batch.length

/-- What ends a sequence of batches. -/
inductive Last where
  | pending
  | error (why : String)
  deriving DecidableEq

inductive Poll where
  | ready (n : Nat)
  | last (l : Last)
  deriving DecidableEq

/-- One call, with the batches the socket below still has before it answers `last`. -/
def pollRecv (last : Last) :
    List (List Datagram) → Arrays → Channel → Option (Poll × Arrays × List (List Datagram) × Channel)
  | [], a, c => some (.last last, a, [], c)
  | batch :: batches, a, c => do
      let (write, a, c) ← compact receiver batch.length 0 0 (deliver batch a) c
      if 0 < write then some (.ready write, a, batches, c)
      else pollRecv last batches a c

/-- What quinn finds in the first `n` places. -/
def handed (a : Arrays) (n : Nat) : List (RecvMeta × List UInt8) :=
  (List.zipWith (fun m buf => (m, buf.take m.len)) a.metas a.bufs).take n

/-- Successive calls, each with arrays of its own, until the socket below answers `last`;
at most `k` of them. Each is recorded with its count and what quinn finds. -/
def drain (arrays : Nat → Arrays) (last : Last) :
    Nat → List (List Datagram) → Channel →
      Option (List (Nat × List (RecvMeta × List UInt8)) × Last × Channel)
  | 0, _, _ => none
  | k + 1, batches, c => do
      match ← pollRecv receiver last batches (arrays k) c with
      | (.last l, _, _, c) => some ([], l, c)
      | (.ready n, a, batches, c) => do
          let (rest, l, c) ← drain arrays last k batches c
          some ((n, handed a n) :: rest, l, c)

end Receiving

/-- `width` buffers of one size, with a description for each. -/
structure Arrays.Sized (width size : Nat) (a : Arrays) : Prop where
  bufs : a.bufs.length = width
  metas : a.metas.length = width
  each : ∀ buf ∈ a.bufs, buf.length = size

/-- What one call is given. -/
structure Given (width size : Nat) where
  arrays : Arrays
  sized : arrays.Sized width size

/-- What the socket below can deliver into such arrays. -/
structure Batch (width size : Nat) where
  datagrams : List Datagram
  few : datagrams.length ≤ width
  fits : ∀ d ∈ datagrams, d.bytes.length ≤ size

def Datagram.stun (d : Datagram) : Bool := isStun d.bytes

def Datagram.quic (d : Datagram) : Bool := !isStun d.bytes

def Datagram.peeled (d : Datagram) : Peeled := ⟨d.bytes, d.info.addr⟩

/-- The `i`th place holds this datagram, bytes and description. -/
def Arrays.Shows (a : Arrays) (i : Nat) (d : Datagram) : Prop :=
  a.metas[i]? = some d.info ∧
    ∃ buf, a.bufs[i]? = some buf ∧ d.bytes.length ≤ buf.length ∧ buf.take d.bytes.length = d.bytes

section Indexing

theorem checkStun_eq (datagram : List UInt8) : checkStun datagram = some (isStun datagram) := by
  unfold checkStun isStun
  by_cases short : datagram.length < stunHeaderLen
  · rw [if_pos short, if_pos short]
  · have long : 20 ≤ datagram.length := Nat.not_lt.mp short
    have get : ∀ i, i < 20 → datagram[i]? = some (datagram.getD i 0) := by
      intro i small
      rw [List.getD_eq_getElem?_getD, List.getElem?_eq_getElem (by omega), Option.getD_some]
    rw [if_neg short, if_neg short, get 0 (by omega), get 2 (by omega), get 3 (by omega)]
    simp only [if_neg (show ¬ datagram.length < 8 by omega)]
    split
    · rfl
    · split
      · rfl
      · split
        · rename_i odd
          exact congrArg some (if_pos odd).symm
        · rename_i whole
          exact congrArg some (if_neg whole).symm

theorem top_bits_of_isStun {b : UInt8} {rest : List UInt8} (stun : isStun (b :: rest) = true) :
    b &&& 0xC0 = 0 := by
  unfold isStun at stun
  split at stun
  · cases stun
  · split at stun
    · cases stun
    · rename_i clear
      exact not_not.mp clear

theorem upTo_shown {d : Datagram} {buf : List UInt8} (room : d.bytes.length ≤ buf.length)
    (shown : buf.take d.bytes.length = d.bytes) : upTo buf d.info.len = some d.bytes := by
  rw [upTo, d.exact, if_pos room, shown]

theorem Arrays.Shows.of_ne {a : Arrays} {i write : Nat} {d : Datagram} (shown : a.Shows i d)
    (other : write ≠ i) (buf : List UInt8) (m : RecvMeta) :
    (Arrays.mk (a.bufs.set write buf) (a.metas.set write m)).Shows i d := by
  obtain ⟨info, old, place, room, same⟩ := shown
  refine ⟨?_, old, ?_, room, same⟩
  · rw [List.getElem?_set_ne other, info]
  · rw [List.getElem?_set_ne other, place]

theorem Arrays.Shows.written {width size : Nat} {a : Arrays} (sized : a.Sized width size)
    {write : Nat} (inside : write < width) (d : Datagram) (rest : List UInt8) :
    (Arrays.mk (a.bufs.set write (d.bytes ++ rest)) (a.metas.set write d.info)).Shows write d := by
  refine ⟨?_, d.bytes ++ rest, ?_, ?_, List.take_left⟩
  · rw [List.getElem?_set_self (sized.metas.symm ▸ inside)]
  · rw [List.getElem?_set_self (sized.bufs.symm ▸ inside)]
  · rw [List.length_append]
    omega

theorem Arrays.Sized.set {width size : Nat} {a : Arrays} (sized : a.Sized width size) (write : Nat)
    {buf : List UInt8} (length : buf.length = size) (m : RecvMeta) :
    (Arrays.mk (a.bufs.set write buf) (a.metas.set write m)).Sized width size := by
  refine ⟨?_, ?_, ?_⟩
  · rw [List.length_set, sized.bufs]
  · rw [List.length_set, sized.metas]
  · intro other member
    cases List.mem_or_eq_of_mem_set member with
    | inl old => exact sized.each other old
    | inr new => rw [new, length]

theorem shows_snoc {a : Arrays} {kept : List Datagram} {d : Datagram}
    (shown : ∀ i e, kept[i]? = some e → a.Shows i e) (last : a.Shows kept.length d) {i : Nat}
    {e : Datagram} (found : (kept ++ [d])[i]? = some e) : a.Shows i e := by
  by_cases old : i < kept.length
  · rw [List.getElem?_append_left old] at found
    exact shown i e found
  · rw [List.getElem?_append_right (Nat.not_lt.mp old)] at found
    have bound := (List.getElem?_eq_some_iff.mp found).1
    rw [List.length_singleton] at bound
    have place : i = kept.length := by omega
    subst place
    rw [Nat.sub_self] at found
    cases found
    exact last

end Indexing

section Compaction
variable (receiver : Nat → Meanwhile) {width size : Nat}

/-- The offers of these datagrams, one after another. -/
def offers (c : Channel) (datagrams : List Datagram) : Channel :=
  datagrams.foldl (fun c d => offer receiver c d.peeled) c

theorem compact_step_stun {read write left : Nat} {a : Arrays} {c : Channel} {d : Datagram}
    (here : a.Shows read d) (stun : isStun d.bytes = true) :
    compact receiver (left + 1) read write a c =
      compact receiver left (read + 1) write a (offer receiver c d.peeled) := by
  obtain ⟨info, buf, place, room, shown⟩ := here
  simp only [compact, info, place, bind, Option.bind_some, upTo_shown room shown, checkStun_eq,
    stun, if_true]
  rfl

theorem compact_step_kept {read left : Nat} {a : Arrays} {c : Channel} {d : Datagram}
    (here : a.Shows read d) (quic : isStun d.bytes = false) :
    compact receiver (left + 1) read read a c =
      compact receiver left (read + 1) (read + 1) a c := by
  obtain ⟨info, buf, place, room, shown⟩ := here
  simp only [compact, info, place, bind, Option.bind_some, upTo_shown room shown, checkStun_eq,
    quic, Bool.false_eq_true, if_false, ne_eq, not_true_eq_false]

theorem compact_step_moved {read write left : Nat} {a : Arrays} {c : Channel} {d : Datagram}
    (sized : a.Sized width size) (here : a.Shows read d) (quic : isStun d.bytes = false)
    (behind : write < read) :
    ∃ rest, (d.bytes ++ rest).length = size ∧
      compact receiver (left + 1) read write a c =
        compact receiver left (read + 1) (write + 1)
          ⟨a.bufs.set write (d.bytes ++ rest), a.metas.set write d.info⟩ c := by
  obtain ⟨info, buf, place, room, shown⟩ := here
  obtain ⟨inside, value⟩ := List.getElem?_eq_some_iff.mp place
  have source : (a.bufs.drop read)[0]? = some buf := by rw [List.getElem?_drop, Nat.add_zero, place]
  have bound : write < a.bufs.length := by omega
  have target : (a.bufs.take read)[write]? = some a.bufs[write] := by
    rw [List.getElem?_take_of_lt behind, List.getElem?_eq_getElem bound]
  have length : a.bufs[write].length = size := sized.each _ (List.getElem_mem bound)
  have length' : buf.length = size := sized.each _ (value ▸ List.getElem_mem inside)
  have room' : upTo a.bufs[write] d.info.len = some (a.bufs[write].take d.info.len) := by
    rw [upTo, if_pos]
    rw [d.exact, length]
    omega
  have metas : ¬ a.metas.length ≤ write := by
    rw [sized.metas, ← sized.bufs]
    omega
  refine ⟨a.bufs[write].drop d.info.len, ?_, ?_⟩
  · rw [List.length_append, List.length_drop, length, d.exact]
    omega
  · have apart : write ≠ read := by omega
    have within : ¬ a.bufs.length < read := by omega
    simp only [compact, info, place, bind, Option.bind_some, upTo_shown room shown, checkStun_eq,
      quic, Bool.false_eq_true, if_false, ne_eq, apart, not_false_eq_true, if_true, within, target,
      source, room', metas]

/-- The loop over one batch: what was read is split, what is ahead still stands. -/
theorem compact_spec {done todo : List Datagram} {a : Arrays} (c : Channel)
    (sized : a.Sized width size)
    (kept : ∀ i d, (done.filter Datagram.quic)[i]? = some d → a.Shows i d)
    (ahead : ∀ j d, todo[j]? = some d → a.Shows (done.length + j) d) :
    ∃ a', compact receiver todo.length done.length (done.filter Datagram.quic).length a c =
        some (((done ++ todo).filter Datagram.quic).length, a',
          offers receiver c (todo.filter Datagram.stun)) ∧
      a'.Sized width size ∧
      ∀ i d, ((done ++ todo).filter Datagram.quic)[i]? = some d → a'.Shows i d := by
  induction todo generalizing done a c with
  | nil =>
      rw [List.append_nil]
      exact ⟨a, rfl, sized, kept⟩
  | cons d todo ih =>
      have here : a.Shows done.length d := ahead 0 d rfl
      have join : done ++ d :: todo = done ++ [d] ++ todo := by simp
      have count : (done ++ [d]).length = done.length + 1 := by simp
      have later : ∀ j e, todo[j]? = some e → a.Shows ((done ++ [d]).length + j) e := by
        intro j e found
        rw [count, Nat.add_assoc, Nat.add_comm 1 j]
        exact ahead (j + 1) e found
      cases stun : isStun d.bytes with
      | true =>
          have drops : (done ++ [d]).filter Datagram.quic = done.filter Datagram.quic := by
            rw [List.filter_append, List.filter_cons_of_neg (by simp [Datagram.quic, stun]),
              List.filter_nil, List.append_nil]
          have next := @ih (done ++ [d]) a (offer receiver c d.peeled) sized
            (fun i e found => kept i e (drops ▸ found)) later
          rw [List.length_cons, compact_step_stun receiver here stun, join,
            List.filter_cons_of_pos (by exact stun)]
          rw [count, drops] at next
          exact next
      | false =>
          have adds : (done ++ [d]).filter Datagram.quic = done.filter Datagram.quic ++ [d] := by
            rw [List.filter_append, List.filter_cons_of_pos (by simp [Datagram.quic, stun]),
              List.filter_nil]
          have length : ((done ++ [d]).filter Datagram.quic).length =
              (done.filter Datagram.quic).length + 1 := by
            rw [adds, List.length_append]
            rfl
          have behind : (done.filter Datagram.quic).length ≤ done.length :=
            List.length_filter_le _ _
          have skips : (d :: todo).filter Datagram.stun = todo.filter Datagram.stun :=
            List.filter_cons_of_neg (by simp [Datagram.stun, stun])
          rw [List.length_cons, join, skips]
          by_cases same : (done.filter Datagram.quic).length = done.length
          · have next := @ih (done ++ [d]) a c sized
              (fun i e found => shows_snoc kept (same.symm ▸ here) (adds ▸ found)) later
            rw [count, length, same] at next
            rw [same, compact_step_kept receiver here stun]
            exact next
          · have inside : done.length < width := by
              obtain ⟨_, buf, place, _⟩ := here
              have bound := (List.getElem?_eq_some_iff.mp place).1
              rwa [sized.bufs] at bound
            obtain ⟨rest, whole, step⟩ := @compact_step_moved receiver width size done.length
              (done.filter Datagram.quic).length todo.length a c d sized here stun (by omega)
            have next := @ih (done ++ [d]) _ c
              (sized.set (done.filter Datagram.quic).length whole d.info)
              (fun i e found => shows_snoc
                (fun i e found => (kept i e found).of_ne
                  (Nat.ne_of_gt (List.getElem?_eq_some_iff.mp found).1) _ _)
                (Arrays.Shows.written sized (by omega) d rest) (adds ▸ found))
              (fun j e found => (later j e found).of_ne (by omega) _ _)
            rw [count, length] at next
            rw [step]
            exact next

theorem deliver_sized {a : Arrays} (sized : a.Sized width size) (batch : Batch width size) :
    (deliver batch.datagrams a).Sized width size := by
  have few := batch.few
  refine ⟨?_, ?_, ?_⟩
  · simp only [deliver, List.length_append, List.length_zipWith, List.length_drop, sized.bufs]
    omega
  · simp only [deliver, List.length_append, List.length_map, List.length_drop, sized.metas]
    omega
  · intro buf member
    cases List.mem_append.mp member with
    | inl filled =>
        obtain ⟨i, place, rfl⟩ := List.mem_iff_getElem.mp filled
        rw [List.length_zipWith] at place
        rw [List.getElem_zipWith, List.length_append, List.length_drop,
          sized.each _ (List.getElem_mem (by omega))]
        have fits := batch.fits _ (List.getElem_mem (show i < batch.datagrams.length by omega))
        omega
    | inr rest => exact sized.each buf (List.mem_of_mem_drop rest)

theorem deliver_shows {a : Arrays} (sized : a.Sized width size) (batch : Batch width size)
    {j : Nat} {d : Datagram} (found : batch.datagrams[j]? = some d) :
    (deliver batch.datagrams a).Shows j d := by
  have few := batch.few
  obtain ⟨inside, value⟩ := List.getElem?_eq_some_iff.mp found
  have bound : j < a.bufs.length := by
    rw [sized.bufs]
    omega
  refine ⟨?_, d.bytes ++ a.bufs[j].drop d.bytes.length, ?_, ?_, List.take_left⟩
  · rw [deliver, List.getElem?_append_left (by rw [List.length_map]; exact inside),
      List.getElem?_map, found]
    rfl
  · rw [deliver, List.getElem?_append_left (by rw [List.length_zipWith]; omega),
      List.getElem?_zipWith, found, List.getElem?_eq_getElem bound]
  · rw [List.length_append]
    omega

theorem compact_deliver {a : Arrays} (c : Channel) (sized : a.Sized width size)
    (batch : Batch width size) :
    ∃ a', compact receiver batch.datagrams.length 0 0 (deliver batch.datagrams a) c =
        some ((batch.datagrams.filter Datagram.quic).length, a',
          offers receiver c (batch.datagrams.filter Datagram.stun)) ∧
      a'.Sized width size ∧
      ∀ i d, (batch.datagrams.filter Datagram.quic)[i]? = some d → a'.Shows i d :=
  @compact_spec receiver width size [] batch.datagrams _ c (deliver_sized sized batch)
    (fun _ _ found => nomatch found)
    (fun j _ found => (Nat.zero_add j).symm ▸ deliver_shows sized batch found)

theorem handed_shown {a : Arrays} {kept : List Datagram}
    (shown : ∀ i d, kept[i]? = some d → a.Shows i d) :
    handed a kept.length = kept.map fun d => (d.info, d.bytes) := by
  apply List.ext_getElem?
  intro i
  by_cases inside : i < kept.length
  · have found : kept[i]? = some kept[i] := List.getElem?_eq_getElem inside
    obtain ⟨info, buf, place, room, same⟩ := shown i kept[i] found
    rw [handed, List.getElem?_take_of_lt inside, List.getElem?_zipWith, info, place,
      List.getElem?_map, found, Option.map_some]
    simp only [kept[i].exact, same]
  · have beyond : (handed a kept.length)[i]? = none := by
      rw [List.getElem?_eq_none_iff, handed, List.length_take]
      omega
    rw [beyond, List.getElem?_map, List.getElem?_eq_none (Nat.not_lt.mp inside)]
    rfl

end Compaction

section Calls
variable (receiver : Nat → Meanwhile) {width size : Nat}

/-- The datagrams of some batches, in the order they arrived. -/
def arrived (batches : List (Batch width size)) : List Datagram :=
  batches.flatMap Batch.datagrams

theorem offers_append (c : Channel) (first second : List Datagram) :
    offers receiver c (first ++ second) = offers receiver (offers receiver c first) second :=
  List.foldl_append

/-- One call: it goes through batches of STUN alone and stops at the first that is not. -/
theorem pollRecv_spec (last : Last) (batches : List (Batch width size)) {a : Arrays} (c : Channel)
    (sized : a.Sized width size) :
    (∃ a', pollRecv receiver last (batches.map Batch.datagrams) a c =
        some (.last last, a', [], offers receiver c ((arrived batches).filter Datagram.stun)) ∧
      (arrived batches).filter Datagram.quic = []) ∨
    ∃ used rest a', batches = used ++ rest ∧ rest.length < batches.length ∧
      (arrived used).filter Datagram.quic ≠ [] ∧
      pollRecv receiver last (batches.map Batch.datagrams) a c =
        some (.ready ((arrived used).filter Datagram.quic).length, a', rest.map Batch.datagrams,
          offers receiver c ((arrived used).filter Datagram.stun)) ∧
      handed a' ((arrived used).filter Datagram.quic).length =
        ((arrived used).filter Datagram.quic).map fun d => (d.info, d.bytes) := by
  induction batches generalizing a c with
  | nil => exact .inl ⟨a, rfl, rfl⟩
  | cons batch batches ih =>
      obtain ⟨a', compacted, sized', shown⟩ := compact_deliver receiver c sized batch
      rw [List.map_cons, pollRecv, compacted]
      simp only [bind, Option.bind_some]
      cases kept : batch.datagrams.filter Datagram.quic with
      | nil =>
          have drop : ∀ more : List (Batch width size),
              (arrived (batch :: more)).filter Datagram.quic =
                (arrived more).filter Datagram.quic := by
            intro more
            rw [arrived, List.flatMap_cons, List.filter_append, kept, List.nil_append]
            rfl
          have grow : ∀ more : List (Batch width size),
              offers receiver c ((arrived (batch :: more)).filter Datagram.stun) =
                offers receiver (offers receiver c (batch.datagrams.filter Datagram.stun))
                  ((arrived more).filter Datagram.stun) := by
            intro more
            rw [arrived, List.flatMap_cons, List.filter_append, offers_append]
            rfl
          rw [List.length_nil, if_neg (Nat.lt_irrefl 0)]
          cases ih (offers receiver c (batch.datagrams.filter Datagram.stun)) sized' with
          | inl ended =>
              obtain ⟨a'', result, none_⟩ := ended
              exact .inl ⟨a'', by rw [grow]; exact result, by rw [drop, none_]⟩
          | inr found =>
              obtain ⟨used, rest, a'', split, fewer, some_, result, read⟩ := found
              refine .inr ⟨batch :: used, rest, a'', by rw [split]; rfl, ?_, ?_, ?_, ?_⟩
              · rw [List.length_cons]
                omega
              · rwa [drop]
              · rw [drop, grow]
                exact result
              · rwa [drop]
      | cons d more =>
          have only : arrived [batch] = batch.datagrams := List.append_nil _
          rw [kept] at shown
          refine .inr ⟨[batch], batches, a', rfl, by simp, ?_, ?_, ?_⟩
          · rw [only, kept]
            exact nofun
          · rw [only, kept, if_pos (by simp)]
          · rw [only, kept]
            exact handed_shown shown

/-- The calls until the socket below has no more, of which one for each batch is enough. -/
theorem drain_spec (given : Nat → Given width size) (last : Last) (k : Nat)
    (batches : List (Batch width size)) (c : Channel) (enough : batches.length < k) :
    ∃ read, drain receiver (fun i => (given i).arrays) last k (batches.map Batch.datagrams) c =
        some (read, last, offers receiver c ((arrived batches).filter Datagram.stun)) ∧
      (∀ h ∈ read, 0 < h.1 ∧ h.2.length = h.1) ∧
      read.flatMap Prod.snd =
        ((arrived batches).filter Datagram.quic).map fun d => (d.info, d.bytes) := by
  induction k generalizing batches c with
  | zero => omega
  | succ k ih =>
      rw [drain]
      cases pollRecv_spec receiver last batches c (given k).sized with
      | inl ended =>
          obtain ⟨a', result, none_⟩ := ended
          refine ⟨[], ?_, nofun, ?_⟩
          · rw [result]
            rfl
          · rw [none_]
            rfl
      | inr found =>
          obtain ⟨used, rest, a', split, fewer, some_, result, shown⟩ := found
          obtain ⟨read, more, nonempty, flat⟩ := ih rest
            (offers receiver c ((arrived used).filter Datagram.stun)) (by omega)
          have whole : arrived batches = arrived used ++ arrived rest := by
            rw [split, arrived, List.flatMap_append]
            rfl
          refine ⟨(((arrived used).filter Datagram.quic).length,
            handed a' ((arrived used).filter Datagram.quic).length) :: read, ?_, ?_, ?_⟩
          · rw [result]
            simp only [bind, Option.bind_some, more]
            rw [whole, List.filter_append, offers_append]
          · intro h member
            cases member with
            | head => exact ⟨List.length_pos_iff.mpr some_, by rw [shown, List.length_map]⟩
            | tail _ member => exact nonempty h member
          · rw [List.flatMap_cons, flat, shown, whole, List.filter_append, List.map_append]

end Calls

section Offers
variable (receiver : Nat → Meanwhile)

/-- What was taken out or still waits is what was kept, in order. -/
def Channel.Sound (c : Channel) : Prop :=
  c.received ++ c.queue = (c.offered.filter Offer.kept).map Offer.peeled

/-- An offer was lost only to a full or closed channel. -/
def Offer.Fair (o : Offer) : Prop := o.kept = false → o.closed = true ∨ stunQueue ≤ o.waiting

theorem offer_spec (c : Channel) (p : Peeled) :
    (c.Sound → (offer receiver c p).Sound) ∧
      ∃ o : Offer, (offer receiver c p).offered = c.offered ++ [o] ∧ o.peeled = p ∧ o.Fair := by
  have moved : (c.elsewhere (receiver c.offered.length)).received ++
      (c.elsewhere (receiver c.offered.length)).queue = c.received ++ c.queue := by
    simp only [Channel.elsewhere, List.append_assoc, List.take_append_drop]
  have kept : (c.elsewhere (receiver c.offered.length)).offered = c.offered := rfl
  unfold offer Channel.trySend
  split
  · rename_i lost
    refine ⟨fun sound => ?_, _, by rw [kept], rfl, fun _ => ?_⟩
    · unfold Channel.Sound at sound ⊢
      simp only [moved, kept, sound, List.filter_append, List.map_append]
      exact (List.append_nil _).symm
    · simpa only [Bool.or_eq_true, decide_eq_true_eq] using lost
  · refine ⟨fun sound => ?_, _, by rw [kept], rfl, fun lost => ?_⟩
    · unfold Channel.Sound at sound ⊢
      simp only [kept, List.filter_append, List.map_append, ← List.append_assoc, moved, sound]
      rfl
    · cases lost

theorem offers_spec (c : Channel) (datagrams : List Datagram) :
    (c.Sound → (offers receiver c datagrams).Sound) ∧
      ∃ new : List Offer, (offers receiver c datagrams).offered = c.offered ++ new ∧
        new.map Offer.peeled = datagrams.map Datagram.peeled ∧ ∀ o ∈ new, o.Fair := by
  induction datagrams generalizing c with
  | nil => exact ⟨id, [], (List.append_nil _).symm, rfl, nofun⟩
  | cons d datagrams ih =>
      obtain ⟨sound, o, record, peeled, fair⟩ := offer_spec receiver c d.peeled
      obtain ⟨sound', new, record', peeled', fair'⟩ := ih (offer receiver c d.peeled)
      refine ⟨sound' ∘ sound, o :: new, ?_, ?_, ?_⟩
      · refine record'.trans ?_
        rw [record, List.append_assoc]
        rfl
      · rw [List.map_cons, List.map_cons, peeled, peeled']
      · intro o' member
        cases member with
        | head => exact fair
        | tail _ member => exact fair' o' member

end Offers

/-- The demultiplexer is a stable filter: quinn is handed what is not STUN, the channel is
offered what is, each in the order of arrival and with its own bytes and source. -/
theorem demux_is_a_stable_filter {width size : Nat} (receiver : Nat → Meanwhile)
    (given : Nat → Given width size) (batches : List (Batch width size)) (last : Last)
    (c : Channel) :
    ∃ read c', drain receiver (fun i => (given i).arrays) last (batches.length + 1)
        (batches.map Batch.datagrams) c = some (read, last, c') ∧
      (∀ h ∈ read, 0 < h.1 ∧ h.2.length = h.1) ∧
      read.flatMap Prod.snd =
        ((arrived batches).filter fun d => !isStun d.bytes).map (fun d => (d.info, d.bytes)) ∧
      (∃ new : List Offer, c'.offered = c.offered ++ new ∧
        new.map Offer.peeled =
          ((arrived batches).filter fun d => isStun d.bytes).map (fun d => ⟨d.bytes, d.info.addr⟩) ∧
        (∀ o ∈ new, o.kept = false → o.closed = true ∨ stunQueue ≤ o.waiting) ∧
        ∀ o ∈ new, ∀ b rest, o.peeled.bytes = b :: rest → b &&& 0xC0 = 0) ∧
      Channel.fresh.Sound ∧ (c.Sound → c'.Sound) := by
  obtain ⟨read, result, nonempty, flat⟩ := drain_spec receiver given last (batches.length + 1)
    batches c (Nat.lt_succ_self _)
  obtain ⟨sound, new, record, peeled, fair⟩ :=
    offers_spec receiver c ((arrived batches).filter Datagram.stun)
  refine ⟨read, _, result, nonempty, flat, ⟨new, record, peeled, fair, ?_⟩, rfl, sound⟩
  intro o member b rest first
  have offered : o.peeled ∈ ((arrived batches).filter Datagram.stun).map Datagram.peeled :=
    peeled ▸ List.mem_map_of_mem member
  obtain ⟨d, inside, same⟩ := List.mem_map.mp offered
  have stun : isStun d.bytes = true := (List.mem_filter.mp inside).2
  have bytes : d.bytes = b :: rest := by
    rw [← first, ← same]
    rfl
  rw [bytes] at stun
  exact top_bits_of_isStun stun

end Oxutrm.Net.Demux
