/-!
# Base64

The standard alphabet with padding.  Three bytes are four digits of six bits; a
group of one or two bytes at the end is padded with equals signs, and the bits a
padded digit has to spare must be zero.

## Main results

* `decode_encode` — a text of bytes is read back.
* `comma_notMem_encode` — an encoded text has no comma in it.
-/

namespace PgBrakes.Verified.Base64

def alphabet : List Char :=
  "ABCDEFGHIJKLMNOPQRSTUVWXYZabcdefghijklmnopqrstuvwxyz0123456789+/".toList

/-- The character of six bits. -/
def digit (n : Nat) : Char := alphabet[n]?.getD 'A'

/-- The six bits of a character. -/
def value (c : Char) : Option Nat := alphabet.idxOf? c

def encode : List UInt8 → List Char
  | [] => []
  | [a] => [digit (a.toNat / 4), digit (a.toNat % 4 * 16), '=', '=']
  | [a, b] =>
      [digit (a.toNat / 4), digit (a.toNat % 4 * 16 + b.toNat / 16), digit (b.toNat % 16 * 4), '=']
  | a :: b :: c :: rest =>
      digit (a.toNat / 4) :: digit (a.toNat % 4 * 16 + b.toNat / 16) ::
        digit (b.toNat % 16 * 4 + c.toNat / 64) :: digit (c.toNat % 64) :: encode rest

/-- A group with two pads. -/
def decodeOne (w x : Char) : Option (List UInt8) :=
  match value w, value x with
  | some w, some x => if x % 16 = 0 then some [.ofNat (w * 4 + x / 16)] else none
  | _, _ => none

/-- A group with one pad. -/
def decodeTwo (w x y : Char) : Option (List UInt8) :=
  match value w, value x, value y with
  | some w, some x, some y =>
      if y % 4 = 0 then some [.ofNat (w * 4 + x / 16), .ofNat (x % 16 * 16 + y / 4)] else none
  | _, _, _ => none

/-- A whole group. -/
def decodeThree (w x y z : Char) : Option (List UInt8) :=
  match value w, value x, value y, value z with
  | some w, some x, some y, some z =>
      some [.ofNat (w * 4 + x / 16), .ofNat (x % 16 * 16 + y / 4), .ofNat (y % 4 * 64 + z)]
  | _, _, _, _ => none

def decode : List Char → Option (List UInt8)
  | [] => some []
  | w :: x :: y :: z :: rest =>
      if y = '=' ∧ z = '=' ∧ rest = [] then decodeOne w x
      else if z = '=' ∧ rest = [] then decodeTwo w x y
      else
        match decodeThree w x y z, decode rest with
        | some bytes, some more => some (bytes ++ more)
        | _, _ => none
  | _ => none

/-! ## Digits -/

theorem value_digit {n : Nat} (h : n < 64) : value (digit n) = some n := by
  have hall : ∀ i : Fin 64, value (digit i) = some i.val := by decide +kernel
  exact hall ⟨n, h⟩

/-- No digit is a pad or a comma. -/
theorem digit_ne {n : Nat} : digit n ≠ '=' ∧ digit n ≠ ',' := by
  have hall : (alphabet.all fun c => c ≠ '=' && c ≠ ',') = true := by decide
  rw [digit]
  rcases h : alphabet[n]? with _ | c
  · decide
  · simpa using List.all_eq_true.mp hall c (List.mem_of_getElem? h)

theorem ofNat_eq {a : UInt8} {n : Nat} (h : n = a.toNat) : UInt8.ofNat n = a := by
  rw [h, UInt8.ofNat_toNat]

/-! ## Groups -/

theorem decodeOne_digits (a : UInt8) :
    decodeOne (digit (a.toNat / 4)) (digit (a.toNat % 4 * 16)) = some [a] := by
  have ha := a.toNat_lt
  rw [decodeOne, value_digit (by omega), value_digit (by omega)]
  dsimp only
  rw [if_pos (by omega), ofNat_eq (by omega : _ = a.toNat)]

theorem decodeTwo_digits (a b : UInt8) :
    decodeTwo (digit (a.toNat / 4)) (digit (a.toNat % 4 * 16 + b.toNat / 16))
      (digit (b.toNat % 16 * 4)) = some [a, b] := by
  have ha := a.toNat_lt
  have hb := b.toNat_lt
  rw [decodeTwo, value_digit (by omega), value_digit (by omega), value_digit (by omega)]
  dsimp only
  rw [if_pos (by omega), ofNat_eq (by omega : _ = a.toNat), ofNat_eq (by omega : _ = b.toNat)]

theorem decodeThree_digits (a b c : UInt8) :
    decodeThree (digit (a.toNat / 4)) (digit (a.toNat % 4 * 16 + b.toNat / 16))
      (digit (b.toNat % 16 * 4 + c.toNat / 64)) (digit (c.toNat % 64)) = some [a, b, c] := by
  have ha := a.toNat_lt
  have hb := b.toNat_lt
  have hc := c.toNat_lt
  rw [decodeThree, value_digit (by omega), value_digit (by omega), value_digit (by omega),
    value_digit (by omega)]
  dsimp only
  rw [ofNat_eq (by omega : _ = a.toNat), ofNat_eq (by omega : _ = b.toNat),
    ofNat_eq (by omega : _ = c.toNat)]

/-- What was encoded is read back. -/
theorem decode_encode : ∀ bs : List UInt8, decode (encode bs) = some bs
  | [] => rfl
  | [a] => by
      rw [encode, decode, if_pos ⟨rfl, rfl, rfl⟩, decodeOne_digits]
  | [a, b] => by
      rw [encode, decode, if_neg fun h => digit_ne.1 h.1, if_pos ⟨rfl, rfl⟩, decodeTwo_digits]
  | a :: b :: c :: rest => by
      rw [encode, decode, if_neg fun h => digit_ne.1 h.1, if_neg fun h => digit_ne.1 h.1,
        decodeThree_digits, decode_encode rest]
      rfl

theorem comma_notMem_encode : ∀ bs : List UInt8, ',' ∉ encode bs
  | [] => by simp [encode]
  | [a] => by simp [encode, digit_ne.2.symm]
  | [a, b] => by simp [encode, digit_ne.2.symm]
  | a :: b :: c :: rest => by
      have ih := comma_notMem_encode rest
      simp [encode, digit_ne.2.symm, ih]

end PgBrakes.Verified.Base64
