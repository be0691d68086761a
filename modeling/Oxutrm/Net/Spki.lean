import Oxutrm.Lib.Der

/-!
The `SubjectPublicKeyInfo` of a certificate, found by a walker that skips the fields before
it, and the pin checked against it. A `usize` has 64 bits; an index out of range and an
addition that overflows are faults of their own. SHA-256 is a parameter.
-/
namespace Oxutrm.Net.Spki

open Oxutrm.Der

/-- What would make the walker panic. -/
inductive Fault where
  | outOfRange
  | overflow
  deriving DecidableEq, Repr

/-- `a + b` on `usize`. -/
def add (a b : Nat) : Except Fault Nat :=
  if a + b < 2 ^ 64 then .ok (a + b) else .error .overflow

def checkedAdd (a b : Nat) : Option Nat := if a + b < 2 ^ 64 then some (a + b) else none

/-- `&buf[start..end]`. -/
def slice (buf : List UInt8) (start end_ : Nat) : Except Fault (List UInt8) :=
  if start ≤ end_ ∧ end_ ≤ buf.length then .ok ((buf.take end_).drop start)
  else .error .outOfRange

structure Tlv where
  tag : UInt8
  value : List UInt8
  whole : List UInt8
  rest : List UInt8
  deriving DecidableEq, Repr

/-- The length octets from the `i`th on, `left` of them still to be read. -/
def readLen (buf : List UInt8) : Nat → Nat → Nat → Except Fault (Option Nat)
  | _, 0, len => .ok (some len)
  | i, left + 1, len => do
      let at_ ← add 2 i
      match buf[at_]? with
      | none => .ok none
      | some b => readLen buf (i + 1) left ((len <<< 8) % 2 ^ 64 ||| b.toNat)

/-- The declared length and where the contents start. -/
def lengthAndHeader (buf : List UInt8) (firstLen : UInt8) : Except Fault (Option (Nat × Nat)) :=
  if firstLen < 0x80 then .ok (some (firstLen.toNat, 2))
  else
    let n := (firstLen &&& 0x7f).toNat
    if n = 0 ∨ 4 < n then .ok none
    else do
      match ← readLen buf 0 n 0 with
      | none => .ok none
      | some len =>
          let header ← add 2 n
          .ok (some (len, header))

/-- Split one tag-length-value off the front. -/
def tlv (buf : List UInt8) : Except Fault (Option Tlv) :=
  match buf[0]?, buf[1]? with
  | some tag, some firstLen => do
      match ← lengthAndHeader buf firstLen with
      | none => .ok none
      | some (len, header) =>
          match checkedAdd header len with
          | none => .ok none
          | some end_ =>
              if buf.length < end_ then .ok none
              else
                let value ← slice buf header end_
                let whole ← slice buf 0 end_
                let rest ← slice buf end_ buf.length
                .ok (some ⟨tag, value, whole, rest⟩)
  | _, _ => .ok none

def sequence : UInt8 := 0x30

def context0 : UInt8 := 0xA0

/-- What follows the first `n` elements. -/
def skip : Nat → List UInt8 → Except Fault (Option (List UInt8))
  | 0, rest => .ok (some rest)
  | n + 1, rest => do
      match ← tlv rest with
      | none => .ok none
      | some t => skip n t.rest

def spkiDer (cert : List UInt8) : Except Fault (Option (List UInt8)) := do
  match ← tlv cert with
  | none => .ok none
  | some certificate =>
      if certificate.tag ≠ sequence then .ok none
      else
        match ← tlv certificate.value with
        | none => .ok none
        | some tbs =>
            if tbs.tag ≠ sequence then .ok none
            else
              match ← skip (if tbs.value[0]? = some context0 then 1 else 0) tbs.value with
              | none => .ok none
              | some rest =>
                  match ← skip 5 rest with
                  | none => .ok none
                  | some rest =>
                      match ← tlv rest with
                      | none => .ok none
                      | some t => .ok (some t.whole)

section Pin
variable (digest : List UInt8 → List UInt8)

def spkiSha256 (cert : List UInt8) : Except Fault (Option (List UInt8)) := do
  match ← spkiDer cert with
  | none => .ok none
  | some key => .ok (some (digest key))

/-- The whole trust decision. -/
def spkiIs (expected cert : List UInt8) (what : String) : Except Fault (Except String Unit) := do
  match ← spkiSha256 digest cert with
  | none => .ok (.error (what ++ " certificate has no parsable SPKI"))
  | some got =>
      if got ≠ expected then
        .ok (.error (what ++ " certificate SPKI does not match the pinned fingerprint"))
      else .ok (.ok ())

end Pin

/-- A certificate as strict DER has it, down to what the walker has to tell apart. -/
structure Certificate where
  version : Option Element
  serialNumber : List UInt8
  signature : List Element
  issuer : List Element
  validity : List Element
  subject : List Element
  subjectPublicKeyInfo : List Element
  /-- Unique identifiers and extensions. -/
  more : List Element
  /-- The algorithm and the signature over the first part. -/
  signed : List Element

namespace Certificate

def spki (c : Certificate) : Element := .constructed sequence c.subjectPublicKeyInfo

def skipped (c : Certificate) : List Element :=
  [.primitive 0x02 c.serialNumber, .constructed sequence c.signature,
    .constructed sequence c.issuer, .constructed sequence c.validity,
    .constructed sequence c.subject]

def explicitVersion (c : Certificate) : List Element :=
  (c.version.map fun v => .constructed context0 [v]).toList

def fields (c : Certificate) : List Element :=
  c.explicitVersion ++ c.skipped ++ c.spki :: c.more

def tbs (c : Certificate) : Element := .constructed sequence c.fields

def element (c : Certificate) : Element := .constructed sequence (c.tbs :: c.signed)

end Certificate

section Walking

theorem shift_or {len : Nat} (b : UInt8) (small : len < 2 ^ 56) :
    (len <<< 8) % 2 ^ 64 ||| b.toNat = len * 256 + b.toNat := by
  have low : b.toNat < 2 ^ 8 := b.toNat_lt
  have shifted : len <<< 8 = len * 256 := by rw [Nat.shiftLeft_eq]
  rw [Nat.mod_eq_of_lt (by omega), ← Nat.shiftLeft_add_eq_or_of_lt low, shifted]

theorem add_small {a b : Nat} (small : a + b < 2 ^ 64) : add a b = .ok (a + b) := if_pos small

theorem readLen_eq (buf : List UInt8) {i left len : Nat} (few : i + left ≤ 4)
    (small : len < 256 ^ i) :
    readLen buf i left len =
      .ok (if 2 + i + left ≤ max (2 + i) buf.length then
        some (((buf.drop (2 + i)).take left).foldl (fun n b => n * 256 + b.toNat) len)
      else none) := by
  induction left generalizing i len with
  | zero => simp [readLen]
  | succ left ih =>
      have index := @add_small 2 i (by omega)
      rw [readLen, index]
      change (match buf[2 + i]? with
        | none => _
        | some b => _) = _
      cases here : buf[2 + i]? with
      | none =>
          have beyond := List.getElem?_eq_none_iff.mp here
          rw [if_neg (by omega)]
      | some b =>
          obtain ⟨inside, value⟩ := List.getElem?_eq_some_iff.mp here
          have power : 256 ^ i ≤ 256 ^ 3 := Nat.pow_le_pow_right (by omega) (by omega)
          have bound := b.toNat_lt
          have next : len * 256 + b.toNat < 256 ^ (i + 1) := by
            rw [Nat.pow_succ]
            have room : (len + 1) * 256 ≤ 256 ^ i * 256 := Nat.mul_le_mul_right 256 small
            omega
          have rest : buf.drop (2 + i) = b :: buf.drop (2 + (i + 1)) := by
            rw [List.drop_eq_getElem_cons inside, value]
            rfl
          simp only
          rw [shift_or b (by omega), ih (by omega) next, rest, List.take_succ_cons, List.foldl_cons]
          congr 2
          exact propext ⟨fun _ => by omega, fun _ => by omega⟩

theorem and_mask {b : UInt8} (long : 128 ≤ b.toNat) : (b &&& 0x7f).toNat = b.toNat - 128 := by
  have bound := b.toNat_lt
  have masked := Nat.and_two_pow_sub_one_eq_mod b.toNat 7
  rw [UInt8.toNat_and]
  change b.toNat &&& (2 ^ 7 - 1) = _
  omega

theorem lengthAndHeader_octets (tag b : UInt8) (octets tail : List UInt8) {len : Nat}
    (definite : LengthOctets (b :: octets) len) :
    lengthAndHeader (tag :: b :: (octets ++ tail)) b = .ok (some (len, 2 + octets.length)) := by
  unfold lengthAndHeader
  cases definite with
  | short _ small =>
      rw [if_pos (UInt8.lt_iff_toNat_lt.mpr small)]
      rfl
  | long _ _ count some_ few =>
      have long : ¬ b < 0x80 := fun low => by
        have small : b.toNat < 128 := UInt8.lt_iff_toNat_lt.mp low
        omega
      have mask : (b &&& 0x7f).toNat = octets.length := by
        rw [and_mask (by omega)]
        omega
      have read := @readLen_eq (tag :: b :: (octets ++ tail)) 0 octets.length 0 (by omega) (by omega)
      have header := @add_small 2 octets.length (by omega)
      have whole : ((tag :: b :: (octets ++ tail)).drop (2 + 0)).take octets.length = octets :=
        List.take_left
      have enough : 2 + 0 + octets.length ≤ max (2 + 0) (tag :: b :: (octets ++ tail)).length := by
        simp only [List.length_cons, List.length_append]
        omega
      rw [if_pos enough, whole] at read
      simp only [if_neg long, mask, read, header, bind, Except.bind]
      rw [if_neg (by omega)]
      rfl

theorem lengthAndHeader_spec (tag b : UInt8) (buf : List UInt8) :
    lengthAndHeader (tag :: b :: buf) b = .ok none ∨
      ∃ octets tail len, buf = octets ++ tail ∧ LengthOctets (b :: octets) len := by
  by_cases short : b.toNat < 128
  · exact .inr ⟨[], buf, b.toNat, rfl, .short b short⟩
  · have long : ¬ b < 0x80 := fun low => short (UInt8.lt_iff_toNat_lt.mp low)
    have mask := @and_mask b (by omega)
    unfold lengthAndHeader
    simp only [if_neg long, mask]
    by_cases count : b.toNat - 128 = 0 ∨ 4 < b.toNat - 128
    · rw [if_pos count]
      exact .inl rfl
    · rw [if_neg count, @readLen_eq (tag :: b :: buf) 0 (b.toNat - 128) 0 (by omega) (by omega)]
      by_cases enough : b.toNat - 128 ≤ buf.length
      · right
        have taken : (buf.take (b.toNat - 128)).length = b.toNat - 128 := by
          rw [List.length_take]
          omega
        exact ⟨buf.take (b.toNat - 128), buf.drop (b.toNat - 128), _,
          (List.take_append_drop _ _).symm, .long b _ (by omega) (by omega) (by omega)⟩
      · left
        have length : (tag :: b :: buf).length = buf.length + 2 := rfl
        rw [if_neg (by omega)]
        rfl

theorem slice_ok {buf : List UInt8} {start end_ : Nat} (ordered : start ≤ end_)
    (inside : end_ ≤ buf.length) : slice buf start end_ = .ok ((buf.take end_).drop start) :=
  if_pos ⟨ordered, inside⟩

theorem tlv_framed {tag : UInt8} {value whole : List UInt8} (framed : Framed tag value whole)
    (rest : List UInt8) (small : whole.length < 2 ^ 64) :
    tlv (whole ++ rest) = .ok (some ⟨tag, value, whole, rest⟩) := by
  obtain ⟨octets, definite, rfl⟩ := framed
  cases octets with
  | nil => cases definite
  | cons b octets =>
      have form : tag :: b :: octets ++ value ++ rest = tag :: b :: (octets ++ (value ++ rest)) := by
        simp only [List.cons_append, List.append_assoc]
      have length : (tag :: b :: octets ++ value).length = 2 + octets.length + value.length := by
        simp only [List.cons_append, List.length_cons, List.length_append]
        omega
      have all : (tag :: b :: octets ++ value ++ rest).length =
          2 + octets.length + value.length + rest.length := by
        rw [List.length_append, length]
      have sum : checkedAdd (2 + octets.length) value.length =
          some (2 + octets.length + value.length) := if_pos (by omega)
      have front : (tag :: b :: octets ++ value ++ rest).take (2 + octets.length + value.length) =
          tag :: b :: octets ++ value := by
        rw [← length, List.take_left]
      have inner : (tag :: b :: octets ++ value).drop (2 + octets.length) = value := by
        have head : (tag :: b :: octets).length = 2 + octets.length := by
          simp only [List.length_cons]
          omega
        rw [← head, List.drop_left]
      have behind : (tag :: b :: octets ++ value ++ rest).drop (2 + octets.length + value.length) =
          rest := by
        rw [← length, List.drop_left]
      have cut := lengthAndHeader_octets tag b octets (value ++ rest) definite
      rw [← form] at cut
      have first : (tag :: b :: octets ++ value ++ rest)[0]? = some tag := rfl
      have second : (tag :: b :: octets ++ value ++ rest)[1]? = some b := rfl
      unfold tlv
      simp only [first, second, cut, bind, Except.bind, sum, all]
      rw [if_neg (by omega), slice_ok (by omega) (by omega), slice_ok (by omega) (by omega),
        slice_ok (by omega) (by omega)]
      simp only [front, inner, ← all, List.take_length, behind, List.drop_zero]

theorem tlv_spec (buf : List UInt8) :
    tlv buf = .ok none ∨
      ∃ t, tlv buf = .ok (some t) ∧ Framed t.tag t.value t.whole ∧ buf = t.whole ++ t.rest := by
  cases buf with
  | nil => exact .inl rfl
  | cons tag buf =>
      cases buf with
      | nil => exact .inl rfl
      | cons b buf =>
          cases lengthAndHeader_spec tag b buf with
          | inl none_ =>
              left
              unfold tlv
              simp only [List.getElem?_cons_zero, List.getElem?_cons_succ, none_, bind, Except.bind]
          | inr some_ =>
              obtain ⟨octets, tail, len, rfl, definite⟩ := some_
              by_cases enough : len ≤ tail.length ∧ 2 + octets.length + len < 2 ^ 64
              · have cut : tail = tail.take len ++ tail.drop len :=
                  (List.take_append_drop len tail).symm
                have length : (tail.take len).length = len := by
                  rw [List.length_take]
                  omega
                have framed : Framed tag (tail.take len) (tag :: (b :: octets) ++ tail.take len) :=
                  ⟨b :: octets, length.symm ▸ definite, rfl⟩
                have form : tag :: b :: (octets ++ tail) =
                    (tag :: (b :: octets) ++ tail.take len) ++ tail.drop len := by
                  simp only [List.cons_append, List.append_assoc, List.take_append_drop]
                have split := tlv_framed framed (tail.drop len) (by
                  simp only [List.cons_append, List.length_cons, List.length_append, length]
                  omega)
                rw [← form] at split
                exact .inr ⟨_, split, framed, form⟩
              · left
                have header := lengthAndHeader_octets tag b octets tail definite
                unfold tlv
                simp only [List.getElem?_cons_zero, List.getElem?_cons_succ, header, bind,
                  Except.bind]
                unfold checkedAdd
                by_cases fits : 2 + octets.length + len < 2 ^ 64
                · have long : (tag :: b :: (octets ++ tail)).length < 2 + octets.length + len := by
                    simp only [List.length_cons, List.length_append]
                    omega
                  rw [if_pos fits]
                  simp only [if_pos long]
                · rw [if_neg fits]

theorem skip_spec (n : Nat) (buf : List UInt8) :
    skip n buf = .ok none ∨ ∃ front rest, skip n buf = .ok (some rest) ∧ buf = front ++ rest := by
  induction n generalizing buf with
  | zero => exact .inr ⟨[], buf, rfl, rfl⟩
  | succ n ih =>
      rw [skip]
      cases tlv_spec buf with
      | inl none_ =>
          left
          rw [none_]
          rfl
      | inr some_ =>
          obtain ⟨t, split, _, form⟩ := some_
          rw [split]
          cases ih t.rest with
          | inl none_ => exact .inl none_
          | inr found =>
              obtain ⟨front, rest, skipped, behind⟩ := found
              exact .inr ⟨t.whole ++ front, rest, skipped, by
                rw [List.append_assoc, ← behind, ← form]⟩

theorem tlv_constructed {tag : UInt8} {parts : List Element} (rest : List UInt8)
    (small : (Element.constructed tag parts).encode.length < 2 ^ 32) :
    tlv ((Element.constructed tag parts).encode ++ rest) =
      .ok (some ⟨tag, encodeAll parts, (Element.constructed tag parts).encode, rest⟩) := by
  rw [Element.encode] at small ⊢
  exact tlv_framed (framed_frame tag small) rest (by omega)

theorem tlv_encode {e : Element} (rest : List UInt8) (small : e.encode.length < 2 ^ 32) :
    ∃ tag value, tlv (e.encode ++ rest) = .ok (some ⟨tag, value, e.encode, rest⟩) := by
  cases e with
  | primitive tag contents =>
      rw [Element.encode] at small ⊢
      exact ⟨tag, contents, tlv_framed (framed_frame tag small) rest (by omega)⟩
  | constructed tag parts => exact ⟨tag, encodeAll parts, tlv_constructed rest small⟩

theorem skip_encodeAll {parts : List Element} (rest : List UInt8)
    (small : (encodeAll parts).length < 2 ^ 32) :
    skip parts.length (encodeAll parts ++ rest) = .ok (some rest) := by
  induction parts with
  | nil => rfl
  | cons part parts ih =>
      rw [encodeAll, List.length_append] at small
      obtain ⟨tag, value, split⟩ := @tlv_encode part (encodeAll parts ++ rest) (by omega)
      rw [List.length_cons, skip, encodeAll, List.append_assoc, split]
      exact ih (by omega)

end Walking

section Located

/-- One whole tag-length-value inside the value of the first element of the outer sequence. -/
def Located (cert out : List UInt8) : Prop :=
  ∃ outer value after first tbs behind front back tag contents,
    Framed sequence value outer ∧ cert = outer ++ after ∧
    Framed sequence tbs first ∧ value = first ++ behind ∧
    Framed tag contents out ∧ tbs = front ++ out ++ back

theorem spkiDer_spec (cert : List UInt8) :
    spkiDer cert = .ok none ∨ ∃ out, spkiDer cert = .ok (some out) ∧ Located cert out := by
  unfold spkiDer
  cases tlv_spec cert with
  | inl none_ =>
      left
      rw [none_]
      rfl
  | inr some_ =>
      obtain ⟨certificate, split, framed, form⟩ := some_
      rw [split]
      simp only [bind, Except.bind]
      by_cases outer : certificate.tag = sequence
      · rw [if_neg (not_not.mpr outer)]
        cases tlv_spec certificate.value with
        | inl none_ =>
            left
            rw [none_]
        | inr some_ =>
            obtain ⟨tbs, split', framed', form'⟩ := some_
            rw [split']
            simp only
            by_cases inner : tbs.tag = sequence
            · rw [if_neg (not_not.mpr inner)]
              cases skip_spec (if tbs.value[0]? = some context0 then 1 else 0) tbs.value with
              | inl none_ =>
                  left
                  rw [none_]
              | inr some_ =>
                  obtain ⟨version, rest, skipped, before⟩ := some_
                  rw [skipped]
                  simp only
                  cases skip_spec 5 rest with
                  | inl none_ =>
                      left
                      rw [none_]
                  | inr some_ =>
                      obtain ⟨fields, rest', skipped', before'⟩ := some_
                      rw [skipped']
                      simp only
                      cases tlv_spec rest' with
                      | inl none_ =>
                          left
                          rw [none_]
                      | inr some_ =>
                          obtain ⟨t, split'', framed'', form''⟩ := some_
                          right
                          rw [split'']
                          refine ⟨t.whole, rfl, certificate.whole, certificate.value,
                            certificate.rest, tbs.whole, tbs.value, tbs.rest, version ++ fields,
                            t.rest, t.tag, t.value, outer ▸ framed, form, inner ▸ framed', form',
                            framed'', ?_⟩
                          rw [before, before', form'']
                          simp only [List.append_assoc]
            · exact .inl (by rw [if_pos inner])
      · exact .inl (by rw [if_pos outer])

end Located

section Strict
variable (c : Certificate)

/-- What stands in the first part, up to the key. -/
theorem encodeAll_fields :
    encodeAll c.fields = encodeAll c.explicitVersion ++
      (encodeAll c.skipped ++ (c.spki.encode ++ encodeAll c.more)) := by
  rw [Certificate.fields, encodeAll_append, encodeAll_append, encodeAll, List.append_assoc]

/-- The version is skipped where there is one, and the serial number is never taken for it. -/
theorem skip_version (rest : List UInt8) (small : (encodeAll c.explicitVersion).length < 2 ^ 32) :
    let buf := encodeAll c.explicitVersion ++ (encodeAll c.skipped ++ rest)
    skip (if buf[0]? = some context0 then 1 else 0) buf =
      .ok (some (encodeAll c.skipped ++ rest)) := by
  intro buf
  cases version : c.version with
  | none =>
      have none_ : c.explicitVersion = [] := by rw [Certificate.explicitVersion, version]; rfl
      have first : buf[0]? = some 0x02 := by
        simp only [buf, none_]
        rfl
      rw [first, if_neg (by decide)]
      simp only [buf, none_]
      rfl
  | some v =>
      have one : c.explicitVersion = [.constructed context0 [v]] := by
        rw [Certificate.explicitVersion, version]
        rfl
      have first : buf[0]? = some context0 := by
        simp only [buf, one]
        rfl
      have skipped := @skip_encodeAll c.explicitVersion (encodeAll c.skipped ++ rest) small
      have count : c.explicitVersion.length = 1 := by rw [one]; rfl
      rw [count] at skipped
      rw [first, if_pos rfl]
      exact skipped

theorem length_contents (tag : UInt8) (parts : List Element) :
    (encodeAll parts).length ≤ (Element.constructed tag parts).encode.length := by
  rw [Element.encode, frame, List.length_append]
  omega

theorem spkiDer_encode (small : c.element.encode.length < 2 ^ 32) :
    spkiDer c.element.encode = .ok (some c.spki.encode) := by
  have inside : (encodeAll (c.tbs :: c.signed)).length ≤ c.element.encode.length :=
    length_contents sequence _
  rw [encodeAll, List.length_append] at inside
  have within : (encodeAll c.fields).length ≤ c.tbs.encode.length := length_contents sequence _
  rw [encodeAll_fields, List.length_append, List.length_append, List.length_append] at within
  have outer := @tlv_constructed sequence (c.tbs :: c.signed) [] small
  rw [List.append_nil, ← Certificate.element, encodeAll] at outer
  have first := @tlv_constructed sequence c.fields (encodeAll c.signed)
    (by rw [← Certificate.tbs]; omega)
  rw [encodeAll_fields, ← Certificate.tbs] at first
  have version := skip_version c (c.spki.encode ++ encodeAll c.more) (by omega)
  have fields := @skip_encodeAll c.skipped (c.spki.encode ++ encodeAll c.more) (by omega)
  have length : c.skipped.length = 5 := rfl
  rw [length] at fields
  obtain ⟨tag, value, key⟩ := @tlv_encode c.spki (encodeAll c.more) (by omega)
  unfold spkiDer
  rw [outer]
  simp only [bind, Except.bind, ne_eq, not_true_eq_false, if_false, first]
  rw [version]
  simp only [fields, key]

end Strict

/-- The walker finds the key of every strict certificate, and on any bytes it returns either
nothing or a whole element of the signed part; the pin is on what it finds. -/
theorem pinned_key_is_the_certificates (digest : List UInt8 → List UInt8) :
    (∀ c : Certificate, c.element.encode.length < 2 ^ 32 →
      spkiDer c.element.encode = .ok (some c.spki.encode) ∧
      ∀ expected what, spkiIs digest expected c.element.encode what = .ok (.ok ()) ↔
        digest c.spki.encode = expected) ∧
    ∀ cert, ∃ found, spkiDer cert = .ok found ∧ ∀ out, found = some out → Located cert out := by
  constructor
  · intro c small
    have key := spkiDer_encode c small
    refine ⟨key, fun expected what => ?_⟩
    unfold spkiIs spkiSha256
    rw [key]
    simp only [bind, Except.bind]
    by_cases same : digest c.spki.encode = expected
    · simp [same]
    · simp [same]
  · intro cert
    cases spkiDer_spec cert with
    | inl none_ => exact ⟨none, none_, nofun⟩
    | inr some_ =>
        obtain ⟨out, found, located⟩ := some_
        refine ⟨some out, found, ?_⟩
        rintro _ ⟨⟩
        exact located

end Oxutrm.Net.Spki
