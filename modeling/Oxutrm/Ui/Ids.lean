import Oxutrm.Ui.Entries

/-!
The spelling of a session id: sixteen bytes as thirty-two lowercase hex characters, read
back pair by pair. How `{:?}` writes a text is a parameter.
-/
namespace Oxutrm.Ui

/-- `char::to_digit(16)`. -/
def hexVal (c : Char) : Option Nat :=
  if 48 ≤ c.toNat ∧ c.toNat ≤ 57 then some (c.toNat - 48)
  else if 97 ≤ c.toNat ∧ c.toNat ≤ 102 then some (c.toNat - 87)
  else if 65 ≤ c.toNat ∧ c.toNat ≤ 70 then some (c.toNat - 55)
  else none

/-- One more digit, `None` once the value no longer fits a byte. -/
def pushDigit (acc : Option Nat) (c : Char) : Option Nat := do
  let n ← acc
  let d ← hexVal c
  if n * 16 + d < 256 then some (n * 16 + d) else none

/-- `u8::from_str_radix(src, 16)`: one `+` may stand in front. -/
def fromStrRadix : Text → Option UInt8
  | [] => none
  | ['+'] => none
  | '+' :: digits => (digits.foldl pushDigit (some 0)).map UInt8.ofNat
  | digits => (digits.foldl pushDigit (some 0)).map UInt8.ofNat

def byteLen (text : Text) : Nat := (text.map Char.utf8Size).sum

/-- The first `n` bytes of a text and the rest, unless that cuts a character. -/
def splitBytes : Text → Nat → Option (Text × Text)
  | text, 0 => some ([], text)
  | [], _ + 1 => none
  | c :: text, n + 1 =>
      if c.utf8Size ≤ n + 1 then
        (splitBytes text (n + 1 - c.utf8Size)).map fun p => (c :: p.1, p.2)
      else none

/-- `str::get(start..end)`. -/
def getBytes (text : Text) (start end_ : Nat) : Option Text := do
  let (_, rest) ← splitBytes text start
  let (inner, _) ← splitBytes rest (end_ - start)
  pure inner

namespace SessionId

def hexPair (b : UInt8) : Text := [Config.hexDigit (b.toNat / 16), Config.hexDigit (b.toNat % 16)]

def display (id : SessionId) : Text := id.bytes.flatMap hexPair

/-- Whether `prefix` begins this id, as `display` spells it. -/
def startsWith (id : SessionId) (start : Text) : Bool := start.isPrefixOf id.display

section
variable (debug : Text → Text)

def readPairs (s : Text) : Nat → Nat → Except Text (List UInt8)
  | _, 0 => .ok []
  | i, n + 1 =>
      match getBytes s (i * 2) (i * 2 + 2) with
      | none => .error "session id must be 32 hex characters".toList
      | some pair =>
          match fromStrRadix pair with
          | none =>
              .error ("session id must be 32 hex characters, ".toList ++ debug pair ++
                " is not hex".toList)
          | some b => (readPairs s (i + 1) n).map (b :: ·)

theorem length_readPairs {s : Text} {i n : Nat} {bytes : List UInt8}
    (read : readPairs debug s i n = .ok bytes) : bytes.length = n := by
  induction n generalizing i bytes with
  | zero =>
      cases read
      rfl
  | succ n ih =>
      unfold readPairs at read
      split at read
      · cases read
      · split at read
        · cases read
        · cases rest : readPairs debug s (i + 1) n with
          | error why =>
              rw [rest] at read
              cases read
          | ok more =>
              rw [rest] at read
              cases read
              rw [List.length_cons, ih rest]

/-- Accepts upper or lower case. -/
def fromStr (s : Text) : Except Text SessionId :=
  if byteLen s ≠ 32 then
    .error ("session id must be 32 hex characters, got ".toList ++ (toString (byteLen s)).toList)
  else
    match read : readPairs debug s 0 16 with
    | .error why => .error why
    | .ok bytes => .ok ⟨bytes, length_readPairs debug read⟩

end

/-- The pairs of a text of single characters, none cut. -/
def decodePairs : Text → Option (List UInt8)
  | [] => some []
  | [_] => none
  | a :: b :: rest => do
      let v ← fromStrRadix [a, b]
      let bytes ← decodePairs rest
      pure (v :: bytes)

/-- One of `[0-9a-fA-F]`. -/
def isHex (c : Char) : Bool := (hexVal c).isSome

/-- Every pair is two hex digits, or a plus and one hex digit. -/
def pairsUp : Text → Bool
  | [] => true
  | [_] => false
  | a :: b :: rest => (isHex a || a == '+') && isHex b && pairsUp rest

/-- Sixteen such pairs, with a plus among them. -/
def Signed (s : Text) : Prop := s.length = 32 ∧ pairsUp s = true ∧ '+' ∈ s

/-- What one spelling of an id asks of a string. -/
structure Spelled (debug : Text → Text) (s : Text) : Prop where
  accepted : (∃ id, fromStr debug s = .ok id) ↔ s.length = 32 ∧ ∀ c ∈ s, isHex c = true
  shown : ∀ id, fromStr debug s = .ok id → id.display = s.map Char.toLower

section Digits

theorem hexVal_small {c : Char} {d : Nat} (digit : hexVal c = some d) : c.toNat < 128 := by
  unfold hexVal at digit
  split at digit
  · omega
  · split at digit
    · omega
    · split at digit
      · omega
      · cases digit

theorem utf8Size_of_small {c : Char} (small : c.toNat < 128) : c.utf8Size = 1 := by
  have low : c.val ≤ 0x7f := UInt32.le_iff_toNat_le.mpr (Nat.lt_succ_iff.mp small)
  unfold Char.utf8Size
  exact if_pos low

theorem isHex_small {c : Char} (digit : isHex c = true) : c.toNat < 128 := by
  obtain ⟨d, value⟩ := Option.isSome_iff_exists.mp digit
  exact hexVal_small value

theorem hexDigit_table : ∀ n : Fin 128, (hexVal (Char.ofNat n)).all
    (fun d => d < 16 && Config.hexDigit d == (Char.ofNat n).toLower) = true := by
  decide +kernel

theorem hexDigit_hexVal {c : Char} {d : Nat} (digit : hexVal c = some d) :
    d < 16 ∧ Config.hexDigit d = c.toLower := by
  have known := hexDigit_table ⟨c.toNat, hexVal_small digit⟩
  simp only [Char.ofNat_toNat, digit, Option.all_some, Bool.and_eq_true, decide_eq_true_eq,
    beq_iff_eq] at known
  exact known

theorem pushDigit_some {n : Nat} {c : Char} {d : Nat} (digit : hexVal c = some d)
    (fits : n * 16 + d < 256) : pushDigit (some n) c = some (n * 16 + d) := by
  simp only [pushDigit, digit, Option.bind_eq_bind, Option.bind_some, fits, if_true]

theorem pushDigit_none (acc : Option Nat) {c : Char} (other : hexVal c = none) :
    pushDigit acc c = none := by
  cases acc with
  | none => rfl
  | some n => simp only [pushDigit, other, Option.bind_eq_bind, Option.bind_some, Option.bind_none]

theorem fromStrRadix_plus (c : Char) :
    fromStrRadix ['+', c] = (hexVal c).map UInt8.ofNat := by
  change (pushDigit (some 0) c).map UInt8.ofNat = _
  cases digit : hexVal c with
  | none => rw [pushDigit_none _ digit]
  | some d =>
      have small := (hexDigit_hexVal digit).1
      rw [pushDigit_some digit (by omega), Nat.zero_mul, Nat.zero_add]

theorem fromStrRadix_of_ne {a : Char} (digits : Text) (plain : a ≠ '+') :
    fromStrRadix (a :: digits) = ((a :: digits).foldl pushDigit (some 0)).map UInt8.ofNat := by
  unfold fromStrRadix
  split
  · rename_i none_
    cases none_
  · rename_i sign
    exact absurd (List.cons.inj sign).1 plain
  · rename_i sign
    exact absurd (List.cons.inj sign).1 plain
  · rfl

/-- A pair that is read is two digits, or a plus and one. -/
theorem fromStrRadix_pair (a b : Char) :
    fromStrRadix [a, b] =
      if a = '+' then (hexVal b).map UInt8.ofNat
      else (hexVal a).bind fun x => (hexVal b).map fun y => UInt8.ofNat (x * 16 + y) := by
  split
  · rename_i sign
    rw [sign, fromStrRadix_plus]
  · rename_i plain
    rw [fromStrRadix_of_ne [b] plain, List.foldl_cons, List.foldl_cons, List.foldl_nil]
    cases first : hexVal a with
    | none =>
        rw [pushDigit_none _ first]
        rfl
    | some x =>
        have high := (hexDigit_hexVal first).1
        rw [pushDigit_some first (by omega), Nat.zero_mul, Nat.zero_add, Option.bind_some]
        cases second : hexVal b with
        | none =>
            rw [pushDigit_none _ second]
            rfl
        | some y =>
            have low := (hexDigit_hexVal second).1
            rw [pushDigit_some second (by omega)]
            rfl

theorem isSome_fromStrRadix_pair (a b : Char) :
    (fromStrRadix [a, b]).isSome = ((isHex a || a == '+') && isHex b) := by
  rw [fromStrRadix_pair]
  split
  · rename_i sign
    rw [sign, Option.isSome_map, isHex]
    rfl
  · rename_i plain
    have unsigned : (a == '+') = false := beq_eq_false_iff_ne.mpr plain
    rw [unsigned, Bool.or_false, isHex, isHex]
    cases hexVal a with
    | none => rfl
    | some x => rw [Option.bind_some, Option.isSome_map, Option.isSome_some, Bool.true_and]

end Digits

section Cutting

theorem splitBytes_append (front rest : Text) :
    splitBytes (front ++ rest) (byteLen front) = some (front, rest) := by
  induction front with
  | nil => unfold splitBytes; rfl
  | cons c front ih =>
      have positive := c.utf8Size_pos
      have length : byteLen (c :: front) = c.utf8Size + byteLen front := rfl
      obtain ⟨n, next⟩ : ∃ n, byteLen (c :: front) = n + 1 :=
        Nat.exists_eq_succ_of_ne_zero (by omega)
      have left : n + 1 - c.utf8Size = byteLen front := by omega
      rw [next, List.cons_append, splitBytes, if_pos (by omega), left, ih]
      rfl

theorem getBytes_append (front rest : Text) (n : Nat) :
    getBytes (front ++ rest) (byteLen front) (byteLen front + n) =
      (splitBytes rest n).map Prod.fst := by
  simp only [getBytes, splitBytes_append, Nat.add_sub_cancel_left, Option.bind_eq_bind,
    Option.bind_some]
  cases splitBytes rest n with
  | none => rfl
  | some p => rfl

theorem byteLen_eq_zero {text : Text} (none_ : byteLen text = 0) : text = [] := by
  cases text with
  | nil => rfl
  | cons c text =>
      have positive := c.utf8Size_pos
      have length : byteLen (c :: text) = c.utf8Size + byteLen text := rfl
      omega

theorem hexVal_of_wide {c : Char} (wide : c.utf8Size ≠ 1) : hexVal c = none := by
  cases digit : hexVal c with
  | none => rfl
  | some d => exact absurd (utf8Size_of_small (hexVal_small digit)) wide

theorem ne_plus_of_wide {c : Char} (wide : c.utf8Size ≠ 1) : c ≠ '+' := by
  rintro rfl
  exact wide rfl

theorem fromStrRadix_wide {c : Char} (wide : c.utf8Size ≠ 1) (digits : Text) :
    fromStrRadix (c :: digits) = none := by
  rw [fromStrRadix_of_ne digits (ne_plus_of_wide wide), List.foldl_cons,
    pushDigit_none _ (hexVal_of_wide wide)]
  induction digits with
  | nil => rfl
  | cons d digits ih => exact ih

theorem decodePairs_wide {c : Char} (wide : c.utf8Size ≠ 1) (text : Text) :
    decodePairs (c :: text) = none := by
  cases text with
  | nil => rfl
  | cons d text =>
      rw [decodePairs, fromStrRadix_wide wide]
      rfl

theorem byteLen_append (s t : Text) : byteLen (s ++ t) = byteLen s + byteLen t := by
  rw [byteLen, List.map_append, List.sum_append]
  rfl

/-- A reader that may fail with a reason, and one that may fail without. -/
theorem map_ok_iff {α β ε : Type} {f : α → β} {read : Except ε α} {decoded : Option α}
    (same : ∀ x, read = .ok x ↔ decoded = some x) (y : β) :
    read.map f = .ok y ↔ (decoded.bind fun x => some (f x)) = some y := by
  cases read with
  | ok x =>
      rw [(same x).mp rfl]
      simp only [Except.map, Option.bind_some, Except.ok.injEq, Option.some.injEq]
  | error why =>
      cases decoded with
      | none => exact iff_of_false nofun nofun
      | some x => exact nomatch (same x).mpr rfl

section Pairs
variable {c d : Char} (text : Text)

theorem byteLen_pair (one : c.utf8Size = 1) (single : d.utf8Size = 1) : byteLen [c, d] = 2 := by
  simp only [byteLen, List.map_cons, List.map_nil, List.sum_cons, List.sum_nil, one, single,
    Nat.add_zero, Nat.reduceAdd]

theorem splitBytes_pair (one : c.utf8Size = 1) (single : d.utf8Size = 1) :
    splitBytes (c :: d :: text) 2 = some ([c, d], text) := by
  have front := splitBytes_append [c, d] text
  rwa [byteLen_pair one single] at front

theorem splitBytes_torn (one : c.utf8Size = 1) (wide : d.utf8Size ≠ 1) :
    splitBytes (c :: d :: text) 2 = none := by
  have positive := d.utf8Size_pos
  rw [splitBytes, if_pos (by omega), one, splitBytes, if_neg (by omega)]
  rfl

/-- A character of its own, or none. -/
theorem splitBytes_wide (wide : c.utf8Size ≠ 1) :
    splitBytes (c :: text) 2 = if c.utf8Size = 2 then some ([c], text) else none := by
  have positive := c.utf8Size_pos
  by_cases two : c.utf8Size = 2
  · have whole : byteLen [c] = 2 := two
    have front := splitBytes_append [c] text
    rwa [whole, ← if_pos (c := c.utf8Size = 2) (t := some ([c], text)) (e := none) two] at front
  · rw [splitBytes, if_neg (by omega), if_neg two]

theorem fromStrRadix_torn (wide : d.utf8Size ≠ 1) : fromStrRadix [c, d] = none := by
  rw [fromStrRadix_pair, hexVal_of_wide wide]
  split
  · rfl
  · cases hexVal c with
    | none => rfl
    | some x => rfl

end Pairs

variable (debug : Text → Text)

theorem readPairs_ok {n i : Nat} {front rest : Text} (read : byteLen front = i * 2)
    (left : byteLen rest = n * 2) (bytes : List UInt8) :
    readPairs debug (front ++ rest) i n = .ok bytes ↔ decodePairs rest = some bytes := by
  induction n generalizing i front rest bytes with
  | zero =>
      cases byteLen_eq_zero (left.trans (Nat.zero_mul 2))
      simp only [readPairs, decodePairs, Except.ok.injEq, Option.some.injEq]
  | succ n ih =>
      have cut := getBytes_append front rest 2
      rw [read] at cut
      unfold readPairs
      rw [cut]
      cases rest with
      | nil => exact absurd left (by rw [Nat.succ_mul]; exact nofun)
      | cons c text =>
          have length : byteLen (c :: text) = c.utf8Size + byteLen text := rfl
          by_cases one : c.utf8Size = 1
          · cases text with
            | nil =>
                have none_ : byteLen ([] : Text) = 0 := rfl
                omega
            | cons d text =>
                have length' : byteLen (d :: text) = d.utf8Size + byteLen text := rfl
                by_cases single : d.utf8Size = 1
                · rw [splitBytes_pair text one single]
                  have joined : byteLen (front ++ [c, d]) = (i + 1) * 2 := by
                    rw [byteLen_append, byteLen_pair one single]
                    omega
                  have next := @ih (i + 1) (front ++ [c, d]) text joined (by omega)
                  rw [List.append_assoc] at next
                  cases value : fromStrRadix [c, d] with
                  | none => simp [decodePairs, value]
                  | some v =>
                      simp only [Option.map_some, value, decodePairs, Option.bind_eq_bind,
                        Option.bind_some]
                      change (readPairs debug (front ++ ([c, d] ++ text)) (i + 1) n).map (v :: ·) = _
                        ↔ _
                      exact map_ok_iff next bytes
                · rw [splitBytes_torn text one single]
                  simp [decodePairs, fromStrRadix_torn single]
          · rw [decodePairs_wide one, splitBytes_wide text one]
            by_cases two : c.utf8Size = 2
            · rw [if_pos two]
              simp [fromStrRadix_wide one]
            · rw [if_neg two]
              simp

theorem fromStr_ok {s : Text} {id : SessionId} :
    fromStr debug s = .ok id ↔ byteLen s = 32 ∧ decodePairs s = some id.bytes := by
  unfold fromStr
  by_cases length : byteLen s = 32
  · have pairs := @readPairs_ok debug 16 0 [] s rfl length
    rw [List.nil_append] at pairs
    simp only [length, ne_eq, not_true_eq_false, if_false, true_and]
    rw [← pairs]
    split
    · rename_i why failed
      rw [failed]
      simp
    · rename_i bytes read
      constructor
      · intro same
        cases same
        exact read
      · intro same
        cases id
        cases Except.ok.inj (read.symm.trans same)
        rfl
  · simp [length]

end Cutting

section Pairs

theorem isSome_decodePairs (s : Text) : (decodePairs s).isSome = pairsUp s := by
  fun_induction decodePairs s with
  | case1 => rfl
  | case2 c => rfl
  | case3 a b rest ih =>
      rw [pairsUp, ← isSome_fromStrRadix_pair, ← ih]
      cases fromStrRadix [a, b] with
      | none => rfl
      | some v =>
          cases decodePairs rest with
          | none => rfl
          | some bytes => rfl

theorem length_decodePairs {s : Text} {bytes : List UInt8} (read : decodePairs s = some bytes) :
    s.length = 2 * bytes.length := by
  fun_induction decodePairs s generalizing bytes with
  | case1 =>
      cases read
      rfl
  | case2 c => cases read
  | case3 a b rest ih =>
      obtain ⟨v, _, read⟩ := Option.bind_eq_some_iff.mp read
      obtain ⟨more, inner, read⟩ := Option.bind_eq_some_iff.mp read
      cases read
      rw [List.length_cons, List.length_cons, List.length_cons, ih inner]
      omega

theorem mem_pairsUp {s : Text} (pairs : pairsUp s = true) {c : Char} (member : c ∈ s) :
    isHex c = true ∨ c = '+' := by
  fun_induction pairsUp s with
  | case1 => cases member
  | case2 d => cases pairs
  | case3 a b rest ih =>
      simp only [Bool.and_eq_true, Bool.or_eq_true, beq_iff_eq] at pairs
      obtain ⟨⟨first, second⟩, more⟩ := pairs
      cases member with
      | head => exact first
      | tail _ member =>
          cases member with
          | head => exact .inl second
          | tail _ member => exact ih more member

theorem pairsUp_of_hex {s : Text} {n : Nat} (even : s.length = 2 * n)
    (digits : ∀ c ∈ s, isHex c = true) : pairsUp s = true := by
  fun_induction pairsUp s generalizing n with
  | case1 => rfl
  | case2 c =>
      have one : [c].length = 1 := rfl
      omega
  | case3 a b rest ih =>
      have length : (a :: b :: rest).length = rest.length + 2 := rfl
      have first := digits a List.mem_cons_self
      have second := digits b (List.mem_cons_of_mem a List.mem_cons_self)
      have more := @ih (n - 1) (by omega) fun c member =>
        digits c (List.mem_cons_of_mem a (List.mem_cons_of_mem b member))
      rw [first, second, more]
      rfl

theorem byteLen_of_small {s : Text} (small : ∀ c ∈ s, c.toNat < 128) : byteLen s = s.length := by
  induction s with
  | nil => rfl
  | cons c s ih =>
      have first := utf8Size_of_small (small c List.mem_cons_self)
      have rest := ih fun d member => small d (List.mem_cons_of_mem c member)
      change c.utf8Size + byteLen s = s.length + 1
      omega

theorem byteLen_of_pairsUp {s : Text} (pairs : pairsUp s = true) : byteLen s = s.length := by
  apply byteLen_of_small
  intro c member
  cases mem_pairsUp pairs member with
  | inl digit => exact isHex_small digit
  | inr plus =>
      rw [plus]
      decide

/-- Without a plus, what was read is written back in lower case. -/
theorem flatMap_hexPair {s : Text} {bytes : List UInt8} (read : decodePairs s = some bytes)
    (plain : '+' ∉ s) : bytes.flatMap hexPair = s.map Char.toLower := by
  fun_induction decodePairs s generalizing bytes with
  | case1 =>
      cases read
      rfl
  | case2 c => cases read
  | case3 a b rest ih =>
      obtain ⟨v, pair, read⟩ := Option.bind_eq_some_iff.mp read
      obtain ⟨more, inner, read⟩ := Option.bind_eq_some_iff.mp read
      cases read
      have unsigned : a ≠ '+' := fun same => plain (same ▸ List.mem_cons_self)
      rw [fromStrRadix_pair, if_neg unsigned] at pair
      obtain ⟨x, first, pair⟩ := Option.bind_eq_some_iff.mp pair
      obtain ⟨y, second, value⟩ := Option.map_eq_some_iff.mp pair
      obtain ⟨high, upper⟩ := hexDigit_hexVal first
      obtain ⟨low, lower⟩ := hexDigit_hexVal second
      have number : v.toNat = x * 16 + y := by
        rw [← value, UInt8.toNat_ofNat']
        exact Nat.mod_eq_of_lt (by omega)
      have quotient : (x * 16 + y) / 16 = x := by omega
      have remainder : (x * 16 + y) % 16 = y := by omega
      have rest := ih inner fun member =>
        plain (List.mem_cons_of_mem a (List.mem_cons_of_mem b member))
      rw [List.flatMap_cons, rest, hexPair, number, quotient, remainder, upper, lower]
      rfl

theorem hexVal_table : ∀ d : Fin 16,
    hexVal (Config.hexDigit d) = some d.val ∧ Config.hexDigit d ≠ '+' := by
  decide +kernel

theorem hexVal_hexDigit {d : Nat} (small : d < 16) :
    hexVal (Config.hexDigit d) = some d ∧ Config.hexDigit d ≠ '+' :=
  hexVal_table ⟨d, small⟩

theorem hexPair_read (b : UInt8) :
    fromStrRadix (hexPair b) = some b ∧ ∀ c ∈ hexPair b, c.toNat < 128 := by
  have bound := b.toNat_lt
  obtain ⟨high, plain⟩ := @hexVal_hexDigit (b.toNat / 16) (by omega)
  obtain ⟨low, _⟩ := @hexVal_hexDigit (b.toNat % 16) (by omega)
  constructor
  · have whole : b.toNat / 16 * 16 + b.toNat % 16 = b.toNat := by omega
    rw [hexPair, fromStrRadix_pair, if_neg plain, high, low, Option.bind_some, Option.map_some,
      whole, UInt8.ofNat_toNat]
  · intro c member
    simp only [hexPair, List.mem_cons, List.not_mem_nil, or_false] at member
    cases member with
    | inl same => exact same ▸ hexVal_small high
    | inr same => exact same ▸ hexVal_small low

theorem decodePairs_flatMap (bytes : List UInt8) :
    decodePairs (bytes.flatMap hexPair) = some bytes := by
  induction bytes with
  | nil => rfl
  | cons b bytes ih =>
      have pair := (hexPair_read b).1
      rw [List.flatMap_cons, hexPair] at *
      rw [List.cons_append, List.cons_append, List.nil_append, decodePairs, pair, ih]
      rfl

theorem fromStr_display (debug : Text → Text) (id : SessionId) :
    fromStr debug id.display = .ok id := by
  have read := decodePairs_flatMap id.bytes
  have length := length_decodePairs read
  rw [id.size] at length
  have small : ∀ c ∈ id.display, c.toNat < 128 := by
    intro c member
    obtain ⟨b, _, inside⟩ := List.mem_flatMap.mp member
    exact (hexPair_read b).2 c inside
  rw [fromStr_ok]
  exact ⟨(byteLen_of_small small).trans length, read⟩

theorem accepted_iff (debug : Text → Text) (s : Text) :
    (∃ id, fromStr debug s = .ok id) ↔ s.length = 32 ∧ pairsUp s = true := by
  constructor
  · rintro ⟨id, read⟩
    obtain ⟨_, decoded⟩ := (fromStr_ok debug).mp read
    have length := length_decodePairs decoded
    rw [id.size] at length
    rw [← isSome_decodePairs, decoded]
    exact ⟨length, rfl⟩
  · rintro ⟨length, pairs⟩
    have decoded := pairs
    rw [← isSome_decodePairs] at decoded
    obtain ⟨bytes, decoded⟩ := Option.isSome_iff_exists.mp decoded
    have count := length_decodePairs decoded
    exact ⟨⟨bytes, by omega⟩,
      (fromStr_ok debug).mpr ⟨(byteLen_of_pairsUp pairs).trans length, decoded⟩⟩

end Pairs

theorem not_isHex_plus : isHex '+' = false := by decide

/-- An id has one spelling, but that `u8::from_str_radix` takes a plus for a leading zero. -/
theorem one_spelling (debug : Text → Text) :
    (∀ id, fromStr debug id.display = .ok id) ∧ ∀ s, Spelled debug s ↔ ¬ Signed s := by
  refine ⟨fromStr_display debug, fun s => ⟨?_, ?_⟩⟩
  · rintro spelled ⟨length, pairs, plus⟩
    have digits := (spelled.accepted.mp ((accepted_iff debug s).mpr ⟨length, pairs⟩)).2
    have digit := digits '+' plus
    rw [not_isHex_plus] at digit
    cases digit
  · intro plain
    refine ⟨(accepted_iff debug s).trans ⟨?_, ?_⟩, ?_⟩
    · rintro ⟨length, pairs⟩
      refine ⟨length, fun c member => ?_⟩
      cases mem_pairsUp pairs member with
      | inl digit => exact digit
      | inr plus => exact absurd ⟨length, pairs, plus ▸ member⟩ plain
    · rintro ⟨length, digits⟩
      exact ⟨length, @pairsUp_of_hex s 16 length digits⟩
    · intro id read
      obtain ⟨length, pairs⟩ := (accepted_iff debug s).mp ⟨id, read⟩
      exact flatMap_hexPair ((fromStr_ok debug).mp read).2 fun plus =>
        plain ⟨length, pairs, plus⟩

/-- What `{:?}` writes of a text in which nothing is to be escaped. -/
def quoted (text : Text) : Text := '"' :: text ++ ['"']

/-- Sixteen times `+a` is the id of sixteen bytes 10. -/
theorem plus_spells_a_zero :
    fromStr quoted ((List.replicate 16 "+a".toList).flatten) =
        .ok ⟨List.replicate 16 10, List.length_replicate⟩ ∧
      ¬ Spelled quoted ((List.replicate 16 "+a".toList).flatten) := by
  have read : fromStr quoted ((List.replicate 16 "+a".toList).flatten) =
      .ok ⟨List.replicate 16 10, List.length_replicate⟩ := by
    rw [fromStr_ok]
    decide +kernel
  refine ⟨read, fun spelled => ?_⟩
  have digits := (spelled.accepted.mp ⟨_, read⟩).2
  have digit := digits '+' (by decide +kernel)
  rw [not_isHex_plus] at digit
  cases digit

end SessionId
end Oxutrm.Ui
