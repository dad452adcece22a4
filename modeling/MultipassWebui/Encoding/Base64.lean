import Mathlib.Data.List.Basic
import Mathlib.Tactic.Common

/-!
# Base64

The padded encoding, its strict decoder and the forgiving decoder of web
browsers.  The strict decoder rejects every character outside the alphabet,
missing or misplaced padding, and non-zero bits under the padding; it accepts
exactly the encodings and inverts them.  The forgiving decoder skips blanks and
ignores the bits under the padding, and agrees on encodings.
-/

namespace MultipassWebui.Encoding

/-- A sequence of bytes. -/
abbrev Bytes := List UInt8

namespace Base64

/-- The character of a six-bit digit. -/
def digitChar (digit : Nat) : Char :=
  if digit < 26 then Char.ofNat (65 + digit)
  else if digit < 52 then Char.ofNat (71 + digit)
  else if digit < 62 then Char.ofNat (digit - 4)
  else if digit = 62 then '+'
  else '/'

/-- The digit of a character of the alphabet. -/
def charDigit (char : Char) : Option Nat :=
  let code := char.toNat
  if 65 ≤ code ∧ code ≤ 90 then some (code - 65)
  else if 97 ≤ code ∧ code ≤ 122 then some (code - 71)
  else if 48 ≤ code ∧ code ≤ 57 then some (code + 4)
  else if code = 43 then some 62
  else if code = 47 then some 63
  else none

theorem charDigit_digitChar {digit : Nat} (bound : digit < 64) :
    charDigit (digitChar digit) = some digit := by
  have table : ∀ d : Fin 64, charDigit (digitChar d) = some d.val := by decide
  exact table ⟨digit, bound⟩

/-- The alphabet contains each digit under one character only. -/
theorem charDigit_eq_some {char : Char} {digit : Nat} (found : charDigit char = some digit) :
    digit < 64 ∧ char = digitChar digit := by
  have code : char = Char.ofNat char.toNat := (Char.ofNat_toNat char).symm
  simp only [charDigit] at found
  split_ifs at found with upper lower number plus slash <;>
    simp only [Option.some.injEq] at found <;> subst found
  · constructor
    · omega
    · rw [digitChar, if_pos (by omega), Nat.add_sub_cancel' upper.1]
      exact code
  · constructor
    · omega
    · have shifted : 71 + (char.toNat - 71) = char.toNat := by omega
      rw [digitChar, if_neg (by omega), if_pos (by omega), shifted]
      exact code
  · constructor
    · omega
    · rw [digitChar, if_neg (by omega), if_neg (by omega), if_pos (by omega), Nat.add_sub_cancel]
      exact code
  · constructor
    · decide
    · rw [code, plus]
      rfl
  · constructor
    · decide
    · rw [code, slash]
      rfl

theorem digitChar_ne_pad {digit : Nat} (bound : digit < 64) : digitChar digit ≠ '=' := by
  intro equal
  have decoded := charDigit_digitChar bound
  rw [equal] at decoded
  simp [charDigit] at decoded

/-! ## Encoding -/

/-- Padded encoding, three bytes to four characters. -/
def encode : Bytes → List Char
  | a :: b :: c :: rest =>
      digitChar (a.toNat / 4) :: digitChar (a.toNat % 4 * 16 + b.toNat / 16) ::
        digitChar (b.toNat % 16 * 4 + c.toNat / 64) :: digitChar (c.toNat % 64) :: encode rest
  | [a, b] =>
      [digitChar (a.toNat / 4), digitChar (a.toNat % 4 * 16 + b.toNat / 16),
        digitChar (b.toNat % 16 * 4), '=']
  | [a] => [digitChar (a.toNat / 4), digitChar (a.toNat % 4 * 16), '=', '=']
  | [] => []

/-- The bytes that four consecutive digits stand for. -/
def highByte (w x : Nat) : UInt8 := UInt8.ofNat (w * 4 + x / 16)
def middleByte (x y : Nat) : UInt8 := UInt8.ofNat (x % 16 * 16 + y / 4)
def lowByte (y z : Nat) : UInt8 := UInt8.ofNat (y % 4 * 64 + z)

/-! Every digit of an encoding is below 64.  A `last` digit has no bits of a
following byte. -/

theorem firstDigit_lt (a : UInt8) : a.toNat / 4 < 64 :=
  Nat.div_lt_of_lt_mul a.toNat_lt

theorem highBits_lt (b : UInt8) : b.toNat / 16 < 16 :=
  Nat.div_lt_of_lt_mul b.toNat_lt

theorem topBits_lt (c : UInt8) : c.toNat / 64 < 4 :=
  Nat.div_lt_of_lt_mul c.toNat_lt

theorem secondDigit_lt (a : UInt8) {low : Nat} (bound : low < 16) :
    a.toNat % 4 * 16 + low < 64 := by
  omega

theorem thirdDigit_lt (b : UInt8) {low : Nat} (bound : low < 4) : b.toNat % 16 * 4 + low < 64 := by
  omega

theorem secondDigit_last_lt (a : UInt8) : a.toNat % 4 * 16 < 64 :=
  secondDigit_lt a (Nat.zero_lt_succ 15)

theorem thirdDigit_last_lt (b : UInt8) : b.toNat % 16 * 4 < 64 :=
  thirdDigit_lt b (Nat.zero_lt_succ 3)

theorem fourthDigit_lt (c : UInt8) : c.toNat % 64 < 64 :=
  Nat.mod_lt _ (by decide)

/-! The digits of a byte give the byte back. -/

theorem highByte_eq (a : UInt8) {low : Nat} (bound : low < 16) :
    highByte (a.toNat / 4) (a.toNat % 4 * 16 + low) = a := by
  have whole : a.toNat / 4 * 4 + (a.toNat % 4 * 16 + low) / 16 = a.toNat := by omega
  rw [highByte, whole]
  exact UInt8.ofNat_toNat

theorem middleByte_eq (b : UInt8) (high : Nat) {low : Nat} (bound : low < 4) :
    middleByte (high * 16 + b.toNat / 16) (b.toNat % 16 * 4 + low) = b := by
  have bBound := b.toNat_lt
  have whole : (high * 16 + b.toNat / 16) % 16 * 16 + (b.toNat % 16 * 4 + low) / 4 = b.toNat := by
    omega
  rw [middleByte, whole]
  exact UInt8.ofNat_toNat

theorem lowByte_eq (c : UInt8) (high : Nat) :
    lowByte (high * 4 + c.toNat / 64) (c.toNat % 64) = c := by
  have cBound := c.toNat_lt
  have whole : (high * 4 + c.toNat / 64) % 4 * 64 + c.toNat % 64 = c.toNat := by omega
  rw [lowByte, whole]
  exact UInt8.ofNat_toNat

theorem highByte_last (a : UInt8) : highByte (a.toNat / 4) (a.toNat % 4 * 16) = a :=
  highByte_eq a (Nat.zero_lt_succ 15)

theorem middleByte_last (b : UInt8) (high : Nat) :
    middleByte (high * 16 + b.toNat / 16) (b.toNat % 16 * 4) = b :=
  middleByte_eq b high (Nat.zero_lt_succ 3)

/-! ## Strict decoding -/

/-- Decode padded text; `none` on anything that is not an encoding. -/
def strictDecode : List Char → Option Bytes
  | [] => some []
  | w :: x :: y :: z :: rest => do
      let w ← charDigit w
      let x ← charDigit x
      if y = '=' then
        if z = '=' ∧ rest = [] ∧ x % 16 = 0 then pure [highByte w x] else none
      else
        let y ← charDigit y
        if z = '=' ∧ rest = [] then
          if y % 4 = 0 then pure [highByte w x, middleByte x y] else none
        else
          let z ← charDigit z
          let decoded ← strictDecode rest
          pure (highByte w x :: middleByte x y :: lowByte y z :: decoded)
  | _ => none

theorem strictDecode_encode (bytes : Bytes) : strictDecode (encode bytes) = some bytes := by
  induction bytes using encode.induct with
  | case1 a b c rest ih =>
      have second := secondDigit_lt a (highBits_lt b)
      have third := thirdDigit_lt b (topBits_lt c)
      simp only [encode, strictDecode]
      rw [charDigit_digitChar (firstDigit_lt a), charDigit_digitChar second,
        charDigit_digitChar third, charDigit_digitChar (fourthDigit_lt c), ih]
      simp [digitChar_ne_pad third, digitChar_ne_pad (fourthDigit_lt c),
        highByte_eq a (highBits_lt b), middleByte_eq b (a.toNat % 4) (topBits_lt c), lowByte_eq]
  | case2 a b =>
      have third := thirdDigit_last_lt b
      have clear : b.toNat % 16 * 4 % 4 = 0 := Nat.mul_mod_left _ _
      simp only [encode, strictDecode]
      rw [charDigit_digitChar (firstDigit_lt a),
        charDigit_digitChar (secondDigit_lt a (highBits_lt b)), charDigit_digitChar third]
      simp [digitChar_ne_pad third, clear, highByte_eq a (highBits_lt b), middleByte_last]
  | case3 a =>
      have second := secondDigit_last_lt a
      have clear : a.toNat % 4 * 16 % 16 = 0 := Nat.mul_mod_left _ _
      simp only [encode, strictDecode]
      rw [charDigit_digitChar (firstDigit_lt a), charDigit_digitChar second]
      simp [highByte_last, clear]
  | case4 => rfl

/-! The bytes of four digits have these digits. -/

theorem toNat_highByte {w x : Nat} (wBound : w < 64) (xBound : x < 64) :
    (highByte w x).toNat = w * 4 + x / 16 := by
  simp only [highByte, UInt8.toNat_ofNat']
  omega

theorem toNat_middleByte {x y : Nat} (yBound : y < 64) :
    (middleByte x y).toNat = x % 16 * 16 + y / 4 := by
  simp only [middleByte, UInt8.toNat_ofNat']
  omega

theorem toNat_lowByte {y z : Nat} (zBound : z < 64) : (lowByte y z).toNat = y % 4 * 64 + z := by
  simp only [lowByte, UInt8.toNat_ofNat']
  omega

theorem first_eq {w x : Nat} (xBound : x < 64) : (w * 4 + x / 16) / 4 = w := by
  omega

theorem second_eq {w x y : Nat} (xBound : x < 64) (yBound : y < 64) :
    (w * 4 + x / 16) % 4 * 16 + (x % 16 * 16 + y / 4) / 16 = x := by
  omega

theorem third_eq {x y z : Nat} (yBound : y < 64) (zBound : z < 64) :
    (x % 16 * 16 + y / 4) % 16 * 4 + (y % 4 * 64 + z) / 64 = y := by
  omega

theorem fourth_eq {y z : Nat} (zBound : z < 64) : (y % 4 * 64 + z) % 64 = z := by
  omega

theorem encode_triple {w x y z : Nat} (rest : Bytes) (wBound : w < 64) (xBound : x < 64)
    (yBound : y < 64) (zBound : z < 64) :
    encode (highByte w x :: middleByte x y :: lowByte y z :: rest) =
      digitChar w :: digitChar x :: digitChar y :: digitChar z :: encode rest := by
  rw [encode, toNat_highByte wBound xBound, toNat_middleByte yBound, toNat_lowByte zBound,
    first_eq xBound, second_eq xBound yBound, third_eq yBound zBound, fourth_eq zBound]

theorem encode_pair {w x y : Nat} (wBound : w < 64) (xBound : x < 64)
    (yBound : y < 64) (clear : y % 4 = 0) :
    encode [highByte w x, middleByte x y] = [digitChar w, digitChar x, digitChar y, '='] := by
  have third : (x % 16 * 16 + y / 4) % 16 * 4 = y := by omega
  rw [encode, toNat_highByte wBound xBound, toNat_middleByte yBound, first_eq xBound,
    second_eq xBound yBound, third]

theorem encode_single {w x : Nat} (wBound : w < 64) (xBound : x < 64) (clear : x % 16 = 0) :
    encode [highByte w x] = [digitChar w, digitChar x, '=', '='] := by
  have second : (w * 4 + x / 16) % 4 * 16 = x := by omega
  rw [encode, toNat_highByte wBound xBound, first_eq xBound, second]

/-- The strict decoder accepts precisely the encodings. -/
theorem strictDecode_eq_some_iff {text : List Char} {bytes : Bytes} :
    strictDecode text = some bytes ↔ text = encode bytes := by
  constructor
  · intro decoded
    induction text using strictDecode.induct generalizing bytes with
    | case1 =>
        simp only [strictDecode, Option.some.injEq] at decoded
        subst decoded
        rfl
    | case2 w x y z rest ih =>
        simp only [strictDecode, Option.bind_eq_bind, Option.bind_eq_some_iff] at decoded
        obtain ⟨w', wFound, x', xFound, decoded⟩ := decoded
        obtain ⟨wBound, rfl⟩ := charDigit_eq_some wFound
        obtain ⟨xBound, rfl⟩ := charDigit_eq_some xFound
        by_cases yPad : y = '='
        · rw [if_pos yPad] at decoded
          split_ifs at decoded with ending
          cases decoded
          rw [encode_single wBound xBound ending.2.2, yPad, ending.1, ending.2.1]
        · rw [if_neg yPad] at decoded
          simp only [Option.bind_eq_some_iff] at decoded
          obtain ⟨y', yFound, decoded⟩ := decoded
          obtain ⟨yBound, rfl⟩ := charDigit_eq_some yFound
          by_cases ending : z = '=' ∧ rest = []
          · rw [if_pos ending] at decoded
            split_ifs at decoded with clear
            cases decoded
            rw [encode_pair wBound xBound yBound clear, ending.1, ending.2]
          · rw [if_neg ending] at decoded
            simp only [Option.bind_eq_some_iff] at decoded
            obtain ⟨z', zFound, tail, tailDecoded, result⟩ := decoded
            obtain ⟨zBound, rfl⟩ := charDigit_eq_some zFound
            cases result
            rw [encode_triple tail wBound xBound yBound zBound, ih tailDecoded]
    | case3 text noQuantum noEmpty =>
        rw [strictDecode] at decoded
        · contradiction
        · exact noQuantum
        · exact noEmpty
  · rintro rfl
    exact strictDecode_encode bytes

/-! ## Forgiving decoding -/

/-- The blanks that the forgiving decoder skips. -/
def isBlank (char : Char) : Bool :=
  char = ' ' || char = '\t' || char = '\n' || char = '\r' || char = '\x0c'

/-- Drop one or two padding characters from the end. -/
def stripPadding : List Char → List Char
  | [] => []
  | ['='] => []
  | ['=', '='] => []
  | char :: rest => char :: stripPadding rest

/-- Decode unpadded text and ignore left-over bits. -/
def decodeDigits : List Char → Option Bytes
  | [] => some []
  | w :: x :: y :: z :: rest => do
      let w ← charDigit w
      let x ← charDigit x
      let y ← charDigit y
      let z ← charDigit z
      let decoded ← decodeDigits rest
      pure (highByte w x :: middleByte x y :: lowByte y z :: decoded)
  | [w, x, y] => do
      let w ← charDigit w
      let x ← charDigit x
      let y ← charDigit y
      pure [highByte w x, middleByte x y]
  | [w, x] => do
      let w ← charDigit w
      let x ← charDigit x
      pure [highByte w x]
  | [_] => none

/-- The decoder of web browsers. -/
def forgivingDecode (text : List Char) : Option Bytes :=
  let text := text.filter fun char => !isBlank char
  decodeDigits (if text.length % 4 = 0 then stripPadding text else text)

theorem digitChar_ne_blank {digit : Nat} (bound : digit < 64) :
    isBlank (digitChar digit) = false := by
  have table : ∀ d : Fin 64, isBlank (digitChar d) = false := by decide
  exact table ⟨digit, bound⟩

theorem stripPadding_cons {char : Char} (notPad : char ≠ '=') (rest : List Char) :
    stripPadding (char :: rest) = char :: stripPadding rest := by
  rw [stripPadding]
  · intro equal
    exact absurd equal notPad
  · intro equal
    exact absurd equal notPad

theorem encode_filter_isBlank (bytes : Bytes) :
    (encode bytes).filter (fun char => !isBlank char) = encode bytes := by
  have pad : isBlank '=' = false := by decide
  induction bytes using encode.induct with
  | case1 a b c rest ih =>
      simp [encode, ih, digitChar_ne_blank (firstDigit_lt a),
        digitChar_ne_blank (secondDigit_lt a (highBits_lt b)),
        digitChar_ne_blank (thirdDigit_lt b (topBits_lt c)), digitChar_ne_blank (fourthDigit_lt c)]
  | case2 a b =>
      have third := thirdDigit_last_lt b
      simp [encode, pad, digitChar_ne_blank (firstDigit_lt a),
        digitChar_ne_blank (secondDigit_lt a (highBits_lt b)), digitChar_ne_blank third]
  | case3 a =>
      have second := secondDigit_last_lt a
      simp [encode, pad, digitChar_ne_blank (firstDigit_lt a), digitChar_ne_blank second]
  | case4 => rfl

theorem encode_length_mod (bytes : Bytes) : (encode bytes).length % 4 = 0 := by
  induction bytes using encode.induct with
  | case1 a b c rest ih =>
      simp only [encode, List.length_cons]
      omega
  | case2 a b => simp [encode]
  | case3 a => simp [encode]
  | case4 => rfl

theorem stripPadding_digit {digit : Nat} (bound : digit < 64) (rest : List Char) :
    stripPadding (digitChar digit :: rest) = digitChar digit :: stripPadding rest :=
  stripPadding_cons (digitChar_ne_pad bound) rest

theorem decodeDigits_stripPadding_encode (bytes : Bytes) :
    decodeDigits (stripPadding (encode bytes)) = some bytes := by
  induction bytes using encode.induct with
  | case1 a b c rest ih =>
      have second := secondDigit_lt a (highBits_lt b)
      have third := thirdDigit_lt b (topBits_lt c)
      rw [encode, stripPadding_digit (firstDigit_lt a), stripPadding_digit second,
        stripPadding_digit third, stripPadding_digit (fourthDigit_lt c), decodeDigits,
        charDigit_digitChar (firstDigit_lt a), charDigit_digitChar second,
        charDigit_digitChar third, charDigit_digitChar (fourthDigit_lt c), ih]
      simp [highByte_eq a (highBits_lt b), middleByte_eq b (a.toNat % 4) (topBits_lt c), lowByte_eq]
  | case2 a b =>
      have second := secondDigit_lt a (highBits_lt b)
      have third := thirdDigit_last_lt b
      rw [encode, stripPadding_digit (firstDigit_lt a), stripPadding_digit second,
        stripPadding_digit third]
      simp only [stripPadding, decodeDigits]
      rw [charDigit_digitChar (firstDigit_lt a), charDigit_digitChar second,
        charDigit_digitChar third]
      simp [highByte_eq a (highBits_lt b), middleByte_last]
  | case3 a =>
      have second := secondDigit_last_lt a
      rw [encode, stripPadding_digit (firstDigit_lt a), stripPadding_digit second]
      simp only [stripPadding, decodeDigits]
      rw [charDigit_digitChar (firstDigit_lt a), charDigit_digitChar second]
      simp [highByte_last]
  | case4 => rfl

theorem forgivingDecode_encode (bytes : Bytes) :
    forgivingDecode (encode bytes) = some bytes := by
  simp only [forgivingDecode, encode_filter_isBlank, encode_length_mod, if_true]
  exact decodeDigits_stripPadding_encode bytes

end Base64

end MultipassWebui.Encoding
