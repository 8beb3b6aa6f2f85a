import TapeMips.Text.Encoding

/-!
# Decoding what was encoded

The decoder gives back the text whose bytes it is given, with or without the
permission for surrogates. A character is encoded in one to four bytes; the first
of them tells how many, and the decoder's bounds on the second are exactly the
bounds beyond which a shorter form, a surrogate or a number above the last code
point would lie. So each length is one case, in which the bounds follow from the
number of the character, and the bits that the bytes carry add up to it.
-/

namespace TapeMips.Text.Utf8

theorem toNat_byte {n : Nat} (h : n < 256) : (UInt8.ofNat n).toNat = n := by
  rw [UInt8.toNat_ofNat']
  omega

theorem leadOf_one (surrogates : Bool) {n : Nat} (h : n < 0x80) :
    leadOf surrogates (UInt8.ofNat n) = .one := by
  have hb := toNat_byte (n := n) (by omega)
  simp only [leadOf, UInt8.lt_iff_toNat_lt, UInt8.reduceToNat, hb]
  exact if_pos h

theorem leadOf_two (surrogates : Bool) {n : Nat} (hlow : 0xC2 ≤ n) (hhigh : n < 0xE0) :
    leadOf surrogates (UInt8.ofNat n) = .two := by
  have hb := toNat_byte (n := n) (by omega)
  simp only [leadOf, UInt8.lt_iff_toNat_lt, UInt8.reduceToNat, hb]
  rw [if_neg (by omega), if_neg (by omega), if_pos hhigh]

/-- The bounds on the second of three bytes let through what is neither too short nor a
surrogate. -/
theorem leadOf_three (surrogates : Bool) {n t : Nat} (hlow : 0xE0 ≤ n)
    (hhigh : n < 0xF0) (ht : 0x80 ≤ t) (ht' : t < 0xC0) (hshort : n = 0xE0 → 0xA0 ≤ t)
    (hsur : n = 0xED → t < 0xA0) :
    ∃ low high, leadOf surrogates (UInt8.ofNat n) = .three low high ∧
      low ≤ UInt8.ofNat t ∧ UInt8.ofNat t ≤ high := by
  have hb := toNat_byte (n := n) (by omega)
  have hc := toNat_byte (n := t) (by omega)
  simp only [leadOf, UInt8.lt_iff_toNat_lt, UInt8.le_iff_toNat_le, ← UInt8.toNat_inj,
    UInt8.reduceToNat, hb, hc]
  rw [if_neg (by omega), if_neg (by omega), if_neg (by omega)]
  by_cases hE0 : n = 0xE0
  · have := hshort hE0
    refine ⟨_, _, if_pos hE0, ?_, ?_⟩ <;> simp <;> omega
  · rw [if_neg hE0]
    by_cases hED : n = 0xED ∧ surrogates = false
    · have := hsur hED.1
      refine ⟨_, _, if_pos (by simp [hED]), ?_, ?_⟩ <;> simp <;> omega
    · rw [if_neg (by simpa using hED), if_pos hhigh]
      refine ⟨_, _, rfl, ?_, ?_⟩ <;> simp <;> omega

/-- The bounds on the second of four bytes let through what is neither too short
nor above the last code point. -/
theorem leadOf_four (surrogates : Bool) {n t : Nat} (hlow : 0xF0 ≤ n)
    (hhigh : n < 0xF5) (ht : 0x80 ≤ t) (ht' : t < 0xC0) (hshort : n = 0xF0 → 0x90 ≤ t)
    (hlast : n = 0xF4 → t < 0x90) :
    ∃ low high, leadOf surrogates (UInt8.ofNat n) = .four low high ∧
      low ≤ UInt8.ofNat t ∧ UInt8.ofNat t ≤ high := by
  have hb := toNat_byte (n := n) (by omega)
  have hc := toNat_byte (n := t) (by omega)
  simp only [leadOf, UInt8.lt_iff_toNat_lt, UInt8.le_iff_toNat_le, ← UInt8.toNat_inj,
    UInt8.reduceToNat, hb, hc]
  have hED : ¬ (decide (n = 0xED) && !surrogates) = true := by simp; omega
  rw [if_neg (by omega), if_neg (by omega), if_neg (by omega),
    if_neg (by omega), if_neg hED, if_neg (by omega)]
  by_cases hF0 : n = 0xF0
  · have := hshort hF0
    refine ⟨_, _, if_pos hF0, ?_, ?_⟩ <;> simp <;> omega
  · rw [if_neg hF0]
    by_cases hF4 : n = 0xF4
    · have := hlast hF4
      rw [if_neg (by omega)]
      refine ⟨_, _, if_pos hF4, ?_, ?_⟩ <;> simp <;> omega
    · rw [if_pos (by omega)]
      refine ⟨_, _, rfl, ?_, ?_⟩ <;> simp <;> omega

theorem isTail_byte {n : Nat} (h : n < 64) :
    isTail (UInt8.ofNat (n + 128)) = true := by
  have hb := toNat_byte (n := n + 128) (by omega)
  simp only [isTail, UInt8.le_iff_toNat_le, UInt8.reduceToNat, hb]
  simp
  omega

theorem tailBits_byte {n : Nat} (h : n < 64) :
    tailBits (UInt8.ofNat (n + 128)) = n := by
  rw [tailBits, toNat_byte (by omega)]
  omega

/-! ## Single characters

What a sequence of each length is decoded to, given the bits in its bytes. -/

theorem decodeFrom_one (surrogates : Bool) (position : Nat) (read : List Nat) {a : Nat}
    (ha : a < 128) (rest : List UInt8) :
    decodeFrom surrogates position read (UInt8.ofNat a :: rest) =
      decodeFrom surrogates (position + 1) (a :: read) rest := by
  rw [decodeFrom.eq_def]
  simp only [leadOf_one surrogates ha]
  rw [toNat_byte (by omega)]

theorem decodeFrom_two (surrogates : Bool) (position : Nat) (read : List Nat)
    {a b : Nat} (ha : 2 ≤ a) (ha' : a < 32) (hb : b < 64) (rest : List UInt8) :
    decodeFrom surrogates position read (UInt8.ofNat (a + 192) ::
      UInt8.ofNat (b + 128) :: rest) =
      decodeFrom surrogates (position + 2) ((a * 64 + b) :: read) rest := by
  rw [decodeFrom, leadOf_two surrogates (by omega) (by omega)]
  simp only [isTail_byte hb, tailBits_byte hb, Bool.not_true,
    Bool.false_eq_true, if_false]
  rw [toNat_byte (by omega), show (a + 192) % 32 = a by omega]

theorem decodeFrom_three (surrogates : Bool) (position : Nat) (read : List Nat)
    {a b c : Nat} (ha : a < 16) (hb : b < 64) (hc : c < 64) (hshort : a = 0 → 32 ≤ b)
    (hsur : a = 13 → b < 32) (rest : List UInt8) :
    decodeFrom surrogates position read
        (UInt8.ofNat (a + 224) :: UInt8.ofNat (b + 128) ::
          UInt8.ofNat (c + 128) :: rest) =
      decodeFrom surrogates (position + 3) (((a * 64 + b) * 64 + c) :: read) rest := by
  obtain ⟨low, high, hlead, hlow, hhigh⟩ :=
    leadOf_three surrogates (n := a + 224) (t := b + 128)
      (by omega) (by omega) (by omega) (by omega) (by omega) (by omega)
  rw [decodeFrom, hlead]
  simp only [hlow, hhigh, isTail_byte hc, tailBits_byte hb,
    tailBits_byte hc, decide_true, Bool.and_true, Bool.not_true,
    Bool.false_eq_true, if_false]
  rw [toNat_byte (by omega), show (a + 224) % 16 = a by omega]

theorem decodeFrom_four (surrogates : Bool) (position : Nat) (read : List Nat)
    {a b c d : Nat} (ha : a < 5) (hb : b < 64) (hc : c < 64) (hd : d < 64)
    (hshort : a = 0 → 16 ≤ b) (hlast : a = 4 → b < 16) (rest : List UInt8) :
    decodeFrom surrogates position read
        (UInt8.ofNat (a + 240) :: UInt8.ofNat (b + 128) :: UInt8.ofNat (c + 128) ::
          UInt8.ofNat (d + 128) :: rest) =
      decodeFrom surrogates (position + 4)
        ((((a * 64 + b) * 64 + c) * 64 + d) :: read) rest := by
  obtain ⟨low, high, hlead, hlow, hhigh⟩ :=
    leadOf_four surrogates (n := a + 240) (t := b + 128)
      (by omega) (by omega) (by omega) (by omega) (by omega) (by omega)
  rw [decodeFrom, hlead]
  simp only [hlow, hhigh, isTail_byte hc, isTail_byte hd, tailBits_byte hb,
    tailBits_byte hc, tailBits_byte hd, decide_true, Bool.and_true, Bool.not_true,
    Bool.false_eq_true, if_false]
  rw [toNat_byte (by omega), show (a + 240) % 8 = a by omega]

theorem toNat_valid (c : Char) :
    c.toNat < 0xD800 ∨ (0xDFFF < c.toNat ∧ c.toNat < 0x110000) := c.valid

/-- The bytes of a character are decoded to its number. -/
theorem decodeFrom_char (surrogates : Bool) (position : Nat) (read : List Nat)
    (c : Char) (rest : List UInt8) :
    decodeFrom surrogates position read (String.utf8EncodeChar c ++ rest) =
      decodeFrom surrogates (position + (String.utf8EncodeChar c).length)
        (c.toNat :: read) rest := by
  have hvalid := toNat_valid c
  rw [String.utf8EncodeChar, show c.val.toNat = c.toNat from rfl]
  generalize c.toNat = v at hvalid
  split
  · next h => exact decodeFrom_one surrogates position read (by omega) rest
  · split
    · next h =>
        have hbits : v / 64 % 32 * 64 + v % 64 = v := by omega
        have hdecode :=
          decodeFrom_two surrogates position read (a := v / 64 % 32) (b := v % 64)
            (by omega) (by omega) (by omega) rest
        rwa [hbits] at hdecode
    · split
      · next h =>
          have hbits : (v / 4096 % 16 * 64 + v / 64 % 64) * 64 + v % 64 = v := by omega
          have hdecode :=
            decodeFrom_three surrogates position read (a := v / 4096 % 16)
              (b := v / 64 % 64) (c := v % 64)
              (by omega) (by omega) (by omega) (by omega) (by omega) rest
          rwa [hbits] at hdecode
      · next h =>
          have hbits :
              ((v / 262144 % 8 * 64 + v / 4096 % 64) * 64 + v / 64 % 64) * 64 +
                  v % 64 = v := by
            omega
          have hdecode :=
            decodeFrom_four surrogates position read (a := v / 262144 % 8)
              (b := v / 4096 % 64) (c := v / 64 % 64) (d := v % 64)
              (by omega) (by omega) (by omega) (by omega) (by omega) (by omega) rest
          rwa [hbits] at hdecode

theorem encode_eq (text : String) :
    encode text = text.toList.flatMap String.utf8EncodeChar := by
  rw [encode, String.toUTF8, ← String.utf8Encode_toList, List.utf8Encode]
  simp

theorem encode_append (front back : String) :
    encode (front ++ back) = encode front ++ encode back := by
  rw [encode_eq, encode_eq, encode_eq, String.toList_append, List.flatMap_append]

theorem decodeFrom_chars (surrogates : Bool) (position : Nat) (read : List Nat)
    (cs : List Char) :
    decodeFrom surrogates position read (cs.flatMap String.utf8EncodeChar) =
      .ok (read.reverse ++ cs.map (·.toNat)) := by
  induction cs generalizing position read with
  | nil => simp [decodeFrom]
  | cons c rest ih =>
      rw [List.flatMap_cons, decodeFrom_char, ih]
      simp

theorem decode_encode (text : String) : decode (encode text) = .ok text.toList := by
  rw [decode, encode_eq, decodeFrom_chars]
  simp [Except.map, Function.comp_def]

theorem encode_eq_nil_iff (text : String) : encode text = [] ↔ text = "" := by
  constructor
  · intro h
    have hempty := decode_encode text
    rw [h] at hempty
    exact String.toList_eq_nil_iff.mp (Except.ok.inj hempty).symm
  · rintro rfl
    rfl

theorem codePoint_toNat (c : Char) : CodePoint.ofNat c.toNat = .char c := by
  have hvalid := toNat_valid c
  have hsur : CodePoint.isSurrogateNumber c.toNat = false := by
    simp [CodePoint.isSurrogateNumber]
    omega
  rw [CodePoint.ofNat, hsur, Char.ofNat_toNat]
  rfl

theorem decodeLoosely_encode (text : String) :
    decodeLoosely (encode text) = .ok (CodePoints.ofText text) := by
  rw [decodeLoosely, encode_eq, decodeFrom_chars, CodePoints.ofText]
  simp [Except.map, Function.comp_def, codePoint_toNat]

end TapeMips.Text.Utf8
