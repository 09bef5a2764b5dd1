import Mathlib.Data.List.Basic
import Mathlib.Data.Nat.Notation

/-!
# Text strings and their encodings

Python's text strings and the three encodings that the library itself names. Latin-1
gives each byte a character; UTF-8 gives one byte to the ASCII characters only.
-/

namespace Pylyskom

/-- Python's text strings. No decoder makes a lone surrogate, so characters suffice. -/
abbrev Str := List Char

/-- `s.decode('latin1')` -/
def latin1Decode (s : List UInt8) : Str := s.map fun c => Char.ofNat c.toNat

/-- `s.encode('latin1')`, or `none` for a `UnicodeEncodeError`. -/
def latin1Encode : Str → Option (List UInt8)
  | [] => some []
  | c :: s => if c.toNat < 256 then (latin1Encode s).map (c.toUInt8 :: ·) else none

/-- `s.encode('utf-8')` -/
def utf8Encode (s : Str) : List UInt8 := s.flatMap String.utf8EncodeChar

/-- `s.decode('utf-8')`, or `none` for a `UnicodeDecodeError`. -/
def utf8Decode (s : List UInt8) : Option Str := s.toByteArray.utf8Decode?.map Array.toList

/-- The value of a character of the base 64 alphabet. -/
def base64Value (c : Char) : Option ℕ :=
  if 'A'.toNat ≤ c.toNat ∧ c.toNat ≤ 'Z'.toNat then some (c.toNat - 'A'.toNat)
  else if 'a'.toNat ≤ c.toNat ∧ c.toNat ≤ 'z'.toNat then some (c.toNat - 'a'.toNat + 26)
  else if '0'.toNat ≤ c.toNat ∧ c.toNat ≤ '9'.toNat then some (c.toNat - '0'.toNat + 52)
  else if c = '+' then some 62
  else if c = '/' then some 63
  else none

/-- The loop of `b64decode`: `quad` characters of the current four are read, with the bits
`left` of them not yet written and `pads` pad characters seen. Other characters are
skipped; `none` is the `binascii.Error` for an incomplete quad. -/
def base64Loop (quad left pads : ℕ) : Str → Option (List UInt8)
  | [] => if quad = 0 then some [] else none
  | c :: s =>
    if c = '=' then
      if 2 ≤ quad then
        if 4 ≤ quad + (pads + 1) then some [] else base64Loop quad left (pads + 1) s
      else base64Loop quad left pads s
    else match base64Value c with
      | none => base64Loop quad left pads s
      | some v =>
        if quad = 0 then base64Loop 1 v 0 s
        else if quad = 1 then
          (base64Loop 2 (v % 16) 0 s).map (UInt8.ofNat (left * 4 + v / 16) :: ·)
        else if quad = 2 then
          (base64Loop 3 (v % 4) 0 s).map (UInt8.ofNat (left * 16 + v / 4) :: ·)
        else (base64Loop 0 0 0 s).map (UInt8.ofNat (left * 64 + v) :: ·)

/-- `base64.b64decode(s)` of a text string, or `none` for a `ValueError`. -/
def b64decode (s : Str) : Option (List UInt8) :=
  if s.all fun c => c.toNat < 128 then base64Loop 0 0 0 s else none

example : b64decode "aGVq\naGU=".toList = some [104, 101, 106, 104, 101] := by decide

/-! ## Bytes that are not ASCII -/

/-- The number of bytes that are not ASCII. -/
def nonAscii (s : List UInt8) : ℕ := s.countP fun c => 128 ≤ c

@[simp] theorem nonAscii_nil : nonAscii [] = 0 := rfl

@[simp] theorem nonAscii_append (s t : List UInt8) :
    nonAscii (s ++ t) = nonAscii s + nonAscii t := List.countP_append

theorem nonAscii_eq_zero {s : List UInt8} : nonAscii s = 0 ↔ ∀ c ∈ s, c < 128 := by
  simp [nonAscii, List.countP_eq_zero]

/-- The character that latin-1 gives a byte. -/
theorem toNat_ofNat_byte (c : UInt8) : (Char.ofNat c.toNat).toNat = c.toNat := by
  have hc : c.toNat < 256 := c.toNat_lt
  have hvalid : c.toNat.isValidChar := Or.inl (by omega)
  rw [Char.ofNat, dif_pos hvalid]
  rfl

theorem toNat_toUInt8 {c : Char} (h : c.toNat < 256) : c.toUInt8.toNat = c.toNat := by
  simp only [Char.toUInt8, UInt32.toNat_toUInt8]
  change c.toNat % 2 ^ 8 = c.toNat
  omega

theorem toUInt8_ofNat_byte (c : UInt8) : (Char.ofNat c.toNat).toUInt8 = c := by
  have hc : c.toNat < 256 := c.toNat_lt
  have htoNat := toNat_ofNat_byte c
  apply UInt8.toNat_inj.mp
  rw [toNat_toUInt8 (by omega), htoNat]

/-- Latin-1 decodes every byte string, and encoding gives it back. -/
theorem latin1Encode_latin1Decode (s : List UInt8) : latin1Encode (latin1Decode s) = some s := by
  induction s with
  | nil => rfl
  | cons c s ih =>
    have hc : c.toNat < 256 := c.toNat_lt
    have hdecode : latin1Decode (c :: s) = Char.ofNat c.toNat :: latin1Decode s := rfl
    rw [hdecode, latin1Encode, toNat_ofNat_byte, if_pos hc, ih, toUInt8_ofNat_byte]
    rfl

theorem utf8Decode_utf8Encode (s : Str) : utf8Decode (utf8Encode s) = some s := by
  have h := List.utf8Decode?_utf8Encode (l := s)
  rw [List.utf8Encode] at h
  simp [utf8Decode, utf8Encode, h]

/-- What UTF-8 decodes is what it encodes to. -/
theorem utf8Encode_of_utf8Decode {s : List UInt8} {t : Str} (h : utf8Decode s = some t) :
    utf8Encode t = s := by
  obtain ⟨cs, hcs, rfl⟩ := Option.map_eq_some_iff.mp h
  have hsome : s.toByteArray.utf8Decode?.isSome := by simp [hcs]
  have henc := ByteArray.utf8Encode_get_utf8Decode? (b := s.toByteArray) (h := hsome)
  simp only [hcs, Option.get_some] at henc
  exact List.toByteArray_inj.mp henc

theorem utf8EncodeChar_ascii {c : Char} (h : c.toNat < 128) :
    String.utf8EncodeChar c = [c.toUInt8] := by
  have hle : c.val.toNat ≤ 0x7f := Nat.le_of_lt_succ h
  have hbyte : UInt8.ofNat c.val.toNat = c.toUInt8 := by
    apply UInt8.toNat_inj.mp
    rw [toNat_toUInt8 (by omega), UInt8.toNat_ofNat']
    change c.toNat % 2 ^ 8 = c.toNat
    omega
  rw [String.utf8EncodeChar]
  simp only [hle, if_true, hbyte]

/-- A character above ASCII that latin-1 can encode takes two bytes in UTF-8, neither of
them ASCII. -/
theorem nonAscii_utf8EncodeChar {c : Char} (h : 128 ≤ c.toNat) (h' : c.toNat < 256) :
    nonAscii (String.utf8EncodeChar c) = 2 := by
  have hval : c.val.toNat = c.toNat := rfl
  have hgt : ¬ c.val.toNat ≤ 0x7f := by omega
  have hle : c.val.toNat ≤ 0x7ff := by omega
  have hbyte : ∀ n, 128 ≤ n → n < 256 → decide ((128 : UInt8) ≤ UInt8.ofNat n) = true := by
    intro n hn hn'
    rw [decide_eq_true_eq, UInt8.le_iff_toNat_le, UInt8.toNat_ofNat']
    change 128 ≤ n % 2 ^ 8
    omega
  rw [String.utf8EncodeChar]
  simp only [hgt, hle, if_true, if_false, nonAscii, List.countP_cons, List.countP_nil]
  rw [hbyte _ (by omega) (by omega), hbyte _ (by omega) (by omega)]
  rfl

/-- All bytes of a character above ASCII are above ASCII, and the first one marks the start of
a character. -/
theorem utf8EncodeChar_high {c : Char} (h : 128 ≤ c.toNat) :
    ∃ b bs, String.utf8EncodeChar c = b :: bs ∧ 0xc0 ≤ b.toNat ∧ ∀ x ∈ b :: bs, 128 ≤ x.toNat := by
  have hval : c.val.toNat = c.toNat := rfl
  have hgt : ¬ c.val.toNat ≤ 0x7f := by omega
  have hbyte : ∀ n, n < 256 → (UInt8.ofNat n).toNat = n := fun _ => UInt8.toNat_ofNat_of_lt'
  rw [String.utf8EncodeChar]
  simp only [hgt, if_false]
  split_ifs with htwo hthree
  · refine ⟨_, _, rfl, ?_, ?_⟩
    · rw [hbyte _ (by omega)]
      omega
    · simp only [List.forall_mem_cons, List.not_mem_nil, false_imp_iff, implies_true, and_true]
      rw [hbyte _ (by omega), hbyte _ (by omega)]
      omega
  · refine ⟨_, _, rfl, ?_, ?_⟩
    · rw [hbyte _ (by omega)]
      omega
    · simp only [List.forall_mem_cons, List.not_mem_nil, false_imp_iff, implies_true, and_true]
      rw [hbyte _ (by omega), hbyte _ (by omega), hbyte _ (by omega)]
      omega
  · refine ⟨_, _, rfl, ?_, ?_⟩
    · rw [hbyte _ (by omega)]
      omega
    · simp only [List.forall_mem_cons, List.not_mem_nil, false_imp_iff, implies_true, and_true]
      rw [hbyte _ (by omega), hbyte _ (by omega), hbyte _ (by omega), hbyte _ (by omega)]
      omega

/-- The first byte is the character's own number only for one whose second byte is `0x83`. -/
theorem utf8EncodeChar_second {c : Char} (h : 128 ≤ c.toNat) :
    ∃ b b' bs, String.utf8EncodeChar c = b :: b' :: bs ∧ 0xc0 ≤ b.toNat ∧
      (b.toNat = c.toNat → b'.toNat = 0x83) := by
  have hval : c.val.toNat = c.toNat := rfl
  have hgt : ¬ c.val.toNat ≤ 0x7f := by omega
  have hbyte : ∀ n, n < 256 → (UInt8.ofNat n).toNat = n := fun _ => UInt8.toNat_ofNat_of_lt'
  rw [String.utf8EncodeChar]
  simp only [hgt, if_false]
  split_ifs with htwo hthree
  · refine ⟨_, _, _, rfl, ?_, ?_⟩
    · rw [hbyte _ (by omega)]
      omega
    · rw [hbyte _ (by omega), hbyte _ (by omega)]
      intro hlead
      have hquot : c.val.toNat / 64 % 32 = c.val.toNat / 64 := Nat.mod_eq_of_lt (by omega)
      omega
  · refine ⟨_, _, _, rfl, ?_, ?_⟩
    · rw [hbyte _ (by omega)]
      omega
    · rw [hbyte _ (by omega), hbyte _ (by omega)]
      omega
  · refine ⟨_, _, _, rfl, ?_, ?_⟩
    · rw [hbyte _ (by omega)]
      omega
    · rw [hbyte _ (by omega), hbyte _ (by omega)]
      omega

/-- The bytes of an ASCII character occur only where that character is encoded. -/
theorem mem_utf8Encode {s : Str} {b : UInt8} (hb : b.toNat < 128) :
    b ∈ utf8Encode s ↔ ∃ c ∈ s, c.toNat = b.toNat := by
  rw [utf8Encode, List.mem_flatMap]
  refine exists_congr fun c => and_congr_right fun _ => ?_
  by_cases hc : c.toNat < 128
  · rw [utf8EncodeChar_ascii hc, List.mem_singleton, ← UInt8.toNat_inj, toNat_toUInt8 (by omega),
      eq_comm]
  · obtain ⟨b', bs, heq, -, hall⟩ := utf8EncodeChar_high (c := c) (by omega)
    rw [heq]
    refine iff_of_false (fun hmem => ?_) (by omega)
    have hle := hall b hmem
    omega

/-- Decoding in latin-1 inverts encoding. -/
theorem latin1Decode_of_latin1Encode {s : Str} {t : List UInt8} (h : latin1Encode s = some t) :
    latin1Decode t = s := by
  induction s generalizing t with
  | nil =>
    obtain rfl : [] = t := Option.some.inj h
    rfl
  | cons c s ih =>
    rw [latin1Encode] at h
    split at h
    · next hc =>
      obtain ⟨t, ht, rfl⟩ := Option.map_eq_some_iff.mp h
      have hchar : Char.ofNat c.toUInt8.toNat = c := by
        rw [toNat_toUInt8 hc, Char.ofNat_toNat]
      have hdecode : latin1Decode (c.toUInt8 :: t) =
          Char.ofNat c.toUInt8.toNat :: latin1Decode t := rfl
      rw [hdecode, hchar, ih ht]
    · cases h

/-- The bytes of a latin-1 string are its characters. -/
theorem mem_of_latin1Encode {s : Str} {t : List UInt8} (h : latin1Encode s = some t) {b : UInt8}
    (hb : b ∈ t) : Char.ofNat b.toNat ∈ s := by
  rw [← latin1Decode_of_latin1Encode h]
  exact List.mem_map_of_mem hb

/-- ASCII text is the same in both encodings. -/
theorem utf8Decode_of_ascii {s : List UInt8} (h : nonAscii s = 0) :
    utf8Decode s = some (latin1Decode s) := by
  have henc : utf8Encode (latin1Decode s) = s := by
    rw [nonAscii_eq_zero] at h
    induction s with
    | nil => rfl
    | cons c s ih =>
      have hc : c.toNat < 128 := UInt8.lt_iff_toNat_lt.mp (h c List.mem_cons_self)
      have htoNat := toNat_ofNat_byte c
      have hrest := ih fun x hx => h x (List.mem_cons_of_mem c hx)
      have hdecode : latin1Decode (c :: s) = Char.ofNat c.toNat :: latin1Decode s := rfl
      rw [hdecode, utf8Encode, List.flatMap_cons, utf8EncodeChar_ascii (by omega),
        toUInt8_ofNat_byte]
      exact congrArg (c :: ·) hrest
  have hdec := utf8Decode_utf8Encode (latin1Decode s)
  rwa [henc] at hdec

/-- Latin-1 halves the number of bytes that are not ASCII. -/
theorem nonAscii_of_latin1Encode {s t : List UInt8} {cs : Str} (hs : utf8Decode s = some cs)
    (ht : latin1Encode cs = some t) : nonAscii s = 2 * nonAscii t := by
  rw [← utf8Encode_of_utf8Decode hs]
  clear hs
  induction cs generalizing t with
  | nil =>
    obtain rfl : [] = t := Option.some.inj ht
    rfl
  | cons c cs ih =>
    rw [latin1Encode] at ht
    split at ht
    · next hc =>
      obtain ⟨t, hrest, rfl⟩ := Option.map_eq_some_iff.mp ht
      have hchar : nonAscii (String.utf8EncodeChar c) = 2 * nonAscii [c.toUInt8] := by
        have hbyte := toNat_toUInt8 hc
        by_cases hascii : c.toNat < 128
        · rw [utf8EncodeChar_ascii hascii]
          have hzero : nonAscii [c.toUInt8] = 0 := by
            simp only [nonAscii_eq_zero, List.mem_singleton, forall_eq, UInt8.lt_iff_toNat_lt]
            change c.toUInt8.toNat < 128
            omega
          omega
        · rw [nonAscii_utf8EncodeChar (by omega) hc]
          have hle : decide ((128 : UInt8) ≤ c.toUInt8) = true := by
            rw [decide_eq_true_eq, UInt8.le_iff_toNat_le]
            change 128 ≤ c.toUInt8.toNat
            omega
          simp [nonAscii, hle]
      have hsplit := nonAscii_append [c.toUInt8] t
      rw [utf8Encode, List.flatMap_cons, nonAscii_append]
      have := ih hrest
      rw [utf8Encode] at this
      rw [List.singleton_append] at hsplit
      omega
    · simp at ht

end Pylyskom
