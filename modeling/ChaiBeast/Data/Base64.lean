import Mathlib.Data.List.Basic

namespace ChaiBeast.Data.Base64

/-! The base64 encoding of RFC 4648, section 4, and when it may be computed
piece by piece.

`encode` works on groups of three bytes and pads the last group.  `decode`
accepts padding in the last group of characters only.
-/

def alphabet : List Char :=
  "ABCDEFGHIJKLMNOPQRSTUVWXYZabcdefghijklmnopqrstuvwxyz0123456789+/".toList

def digit (sextet : Nat) : Char := alphabet.getD sextet '='

def value (c : Char) : Option Nat := alphabet.findIdx? (· == c)

def encode : List UInt8 → List Char
  | [] => []
  | [a] => [digit (a.toNat / 4), digit (a.toNat % 4 * 16), '=', '=']
  | [a, b] =>
      [digit (a.toNat / 4), digit (a.toNat % 4 * 16 + b.toNat / 16),
        digit (b.toNat % 16 * 4), '=']
  | a :: b :: c :: rest =>
      digit (a.toNat / 4) :: digit (a.toNat % 4 * 16 + b.toNat / 16) ::
        digit (b.toNat % 16 * 4 + c.toNat / 64) :: digit (c.toNat % 64) :: encode rest

def decode : List Char → Option (List UInt8)
  | [] => some []
  | w :: x :: y :: z :: rest => do
      let first ← value w
      let second ← value x
      let a := UInt8.ofNat (first * 4 + second / 16)
      if z == '=' then
        if !rest.isEmpty then none
        else if y == '=' then return [a]
        else
          let third ← value y
          return [a, UInt8.ofNat (second % 16 * 16 + third / 4)]
      else
        let third ← value y
        let fourth ← value z
        let b := UInt8.ofNat (second % 16 * 16 + third / 4)
        let c := UInt8.ofNat (third % 4 * 64 + fourth)
        return a :: b :: c :: (← decode rest)
  | _ => none

/-- Cut points at which an encoding may be continued: every chunk that more
bytes follow fills its last group of three. -/
def Aligned : List (List UInt8) → Prop
  | [] => True
  | chunk :: chunks => (chunks.flatten = [] ∨ 3 ∣ chunk.length) ∧ Aligned chunks

instance decidableAligned : (chunks : List (List UInt8)) → Decidable (Aligned chunks)
  | [] => isTrue trivial
  | _ :: chunks => @instDecidableAnd _ _ _ (decidableAligned chunks)

theorem value_digit {sextet : Nat} (small : sextet < 64) : value (digit sextet) = some sextet := by
  revert sextet
  decide +kernel

theorem digit_ne_pad {sextet : Nat} (small : sextet < 64) : digit sextet ≠ '=' := by
  revert sextet
  decide +kernel

theorem encode_length (bytes : List UInt8) :
    (encode bytes).length = (bytes.length + 2) / 3 * 4 := by
  fun_induction encode bytes with
  | case1 => rfl
  | case2 => simp
  | case3 => simp
  | case4 a b c rest ih =>
      simp only [List.length_cons, ih]
      omega

theorem encode_eq_nil {bytes : List UInt8} : encode bytes = [] ↔ bytes = [] := by
  rw [← List.length_eq_zero_iff, encode_length, ← List.length_eq_zero_iff]
  omega

theorem encode_append {front : List UInt8} (back : List UInt8) (filled : 3 ∣ front.length) :
    encode (front ++ back) = encode front ++ encode back := by
  fun_induction encode front with
  | case1 => rfl
  | case2 => simp at filled
  | case3 => simp at filled
  | case4 a b c rest ih =>
      have restFilled : 3 ∣ rest.length := by
        simp only [List.length_cons] at filled
        omega
      simp [encode, ih restFilled]

private theorem first_byte (a : UInt8) (low : Nat) (small : low < 16) :
    UInt8.ofNat (a.toNat / 4 * 4 + (a.toNat % 4 * 16 + low) / 16) = a := by
  have sum : a.toNat / 4 * 4 + (a.toNat % 4 * 16 + low) / 16 = a.toNat := by omega
  rw [sum, UInt8.ofNat_toNat]

private theorem second_byte (b : UInt8) (high low : Nat) (small : low < 4) :
    UInt8.ofNat ((high * 16 + b.toNat / 16) % 16 * 16 + (b.toNat % 16 * 4 + low) / 4) = b := by
  have bound := b.toNat_lt
  have sum : (high * 16 + b.toNat / 16) % 16 * 16 + (b.toNat % 16 * 4 + low) / 4 = b.toNat := by
    omega
  rw [sum, UInt8.ofNat_toNat]

private theorem third_byte (c : UInt8) (high : Nat) :
    UInt8.ofNat ((high * 4 + c.toNat / 64) % 4 * 64 + c.toNat % 64) = c := by
  have bound := c.toNat_lt
  have sum : (high * 4 + c.toNat / 64) % 4 * 64 + c.toNat % 64 = c.toNat := by omega
  rw [sum, UInt8.ofNat_toNat]

theorem decode_one {first second : Nat} (smallFirst : first < 64) (smallSecond : second < 64) :
    decode [digit first, digit second, '=', '='] =
      some [UInt8.ofNat (first * 4 + second / 16)] := by
  simp only [decode, value_digit smallFirst, value_digit smallSecond]
  rfl

theorem decode_two {first second third : Nat} (smallFirst : first < 64) (smallSecond : second < 64)
    (smallThird : third < 64) :
    decode [digit first, digit second, digit third, '='] =
      some [UInt8.ofNat (first * 4 + second / 16), UInt8.ofNat (second % 16 * 16 + third / 4)] := by
  simp only [decode, value_digit smallFirst, value_digit smallSecond, value_digit smallThird,
    beq_iff_eq, digit_ne_pad smallThird, if_false]
  rfl

theorem decode_group {first second third fourth : Nat} (rest : List Char) (smallFirst : first < 64)
    (smallSecond : second < 64) (smallThird : third < 64) (smallFourth : fourth < 64) :
    decode (digit first :: digit second :: digit third :: digit fourth :: rest) =
      (decode rest).map fun tail =>
        UInt8.ofNat (first * 4 + second / 16) :: UInt8.ofNat (second % 16 * 16 + third / 4) ::
          UInt8.ofNat (third % 4 * 64 + fourth) :: tail := by
  simp only [decode, value_digit smallFirst, value_digit smallSecond, value_digit smallThird,
    value_digit smallFourth, beq_iff_eq, digit_ne_pad smallFourth, if_false]
  cases decode rest <;> rfl

/-- Padding ends the text. -/
theorem decode_pad_cons (w x y next : Char) (rest : List Char) :
    decode (w :: x :: y :: '=' :: next :: rest) = none := by
  cases first : value w <;> cases second : value x <;> simp [decode, first, second]

theorem decode_encode (bytes : List UInt8) : decode (encode bytes) = some bytes := by
  fun_induction encode bytes with
  | case1 => rfl
  | case2 a =>
      have bound := a.toNat_lt
      have byte := first_byte a 0 (by omega)
      rw [Nat.add_zero] at byte
      rw [decode_one (by omega) (by omega), byte]
  | case3 a b =>
      have boundA := a.toNat_lt
      have boundB := b.toNat_lt
      have byteB := second_byte b (a.toNat % 4) 0 (by omega)
      rw [Nat.add_zero] at byteB
      rw [decode_two (by omega) (by omega) (by omega), first_byte a _ (by omega), byteB]
  | case4 a b c rest ih =>
      have boundA := a.toNat_lt
      have boundB := b.toNat_lt
      have boundC := c.toNat_lt
      rw [decode_group _ (by omega) (by omega) (by omega) (by omega), ih,
        first_byte a _ (by omega), second_byte b _ _ (by omega), third_byte c]
      rfl

/-- The padding of an unfilled group refuses everything that follows it. -/
theorem decode_after_padding {front : List UInt8} {rest : List Char}
    (unfilled : ¬ 3 ∣ front.length) (more : rest ≠ []) : decode (encode front ++ rest) = none := by
  obtain ⟨next, later, rfl⟩ := List.exists_cons_of_ne_nil more
  fun_induction encode front with
  | case1 => simp at unfilled
  | case2 a => exact decode_pad_cons ..
  | case3 a b => exact decode_pad_cons ..
  | case4 a b c front ih =>
      have boundA := a.toNat_lt
      have boundB := b.toNat_lt
      have boundC := c.toNat_lt
      have tail : decode (encode front ++ next :: later) = none := by
        apply ih
        simp only [List.length_cons] at unfilled
        omega
      simp only [List.cons_append]
      rw [decode_group _ (by omega) (by omega) (by omega) (by omega), tail]
      rfl

theorem aligned_of_flatten_nil {chunks : List (List UInt8)} (empty : chunks.flatten = []) :
    Aligned chunks := by
  induction chunks with
  | nil => exact trivial
  | cons chunk chunks ih =>
      rw [List.flatten_cons, List.append_eq_nil_iff] at empty
      exact ⟨.inl empty.2, ih empty.2⟩

theorem flatten_map_encode_eq_nil {chunks : List (List UInt8)} :
    (chunks.map encode).flatten = [] ↔ chunks.flatten = [] := by
  simp only [List.flatten_eq_nil_iff, List.mem_map, forall_exists_index, and_imp,
    forall_apply_eq_imp_iff₂, encode_eq_nil]

/-- Encoding chunk by chunk encodes the whole exactly if the chunks are cut at
full groups. -/
theorem flatten_map_encode_iff (chunks : List (List UInt8)) :
    (chunks.map encode).flatten = encode chunks.flatten ↔ Aligned chunks := by
  induction chunks with
  | nil => simp [Aligned, encode]
  | cons chunk chunks ih =>
      simp only [List.map_cons, List.flatten_cons, Aligned]
      by_cases filled : 3 ∣ chunk.length
      · rw [encode_append _ filled, List.append_cancel_left_eq, ih]
        simp [filled]
      · by_cases last : chunks.flatten = []
        · have none := flatten_map_encode_eq_nil.mpr last
          simp [last, none, aligned_of_flatten_nil last]
        · have more := mt flatten_map_encode_eq_nil.mp last
          have refused := decode_after_padding filled more
          simp only [last, filled, or_self, false_and, iff_false]
          intro same
          rw [same, decode_encode] at refused
          contradiction

end ChaiBeast.Data.Base64
