import RefSweep.Text.Basic

/-!
# UTF-8 with stray bytes

`encode` writes a text as bytes and `decode` reads bytes as a text. Every byte sequence can be read:
a byte that is no part of a well-formed sequence becomes a stray glyph, one glyph for one byte.

A character is accepted only if its own encoding is what stands in the input, which leaves out
overlong forms, surrogates and truncated sequences at once. Main statement: `encode_decode`, reading
loses nothing.
-/

namespace RefSweep.Utf8

/-- The one to four bytes of a character. -/
def encodeChar (c : Char) : Bytes :=
  let n := c.toNat
  if n < 0x80 then [UInt8.ofNat n]
  else if n < 0x800 then [UInt8.ofNat (0xC0 + n / 64), UInt8.ofNat (0x80 + n % 64)]
  else if n < 0x10000 then
    [UInt8.ofNat (0xE0 + n / 4096), UInt8.ofNat (0x80 + n / 64 % 64), UInt8.ofNat (0x80 + n % 64)]
  else
    [UInt8.ofNat (0xF0 + n / 262144), UInt8.ofNat (0x80 + n / 4096 % 64),
      UInt8.ofNat (0x80 + n / 64 % 64), UInt8.ofNat (0x80 + n % 64)]

def encodeGlyph : Glyph → Bytes
  | .char c => encodeChar c
  | .stray low => [UInt8.ofNat (0x80 + low.val)]

def encode (t : Text) : Bytes := t.flatMap encodeGlyph

/-- How many bytes a sequence has that begins with `b`, or 0 if none begins so. -/
def width (b : UInt8) : Nat :=
  if b < 0x80 then 1 else if b < 0xC0 then 0 else if b < 0xE0 then 2
  else if b < 0xF0 then 3 else if b < 0xF8 then 4 else 0

/-- The character whose payload bits stand in the first byte and those after it, as many as the
first byte announces. -/
def assembled (b : UInt8) (rest : Bytes) : Char :=
  let high := b.toNat % (if b < 0x80 then 128 else Nat.pow 2 (7 - width b))
  Char.ofNat ((rest.take (width b - 1)).foldl (fun n b => 64 * n + b.toNat % 64) high)

/-- The character whose encoding the bytes begin with. -/
def leading : Bytes → Option Char
  | [] => none
  | b :: rest =>
    if encodeChar (assembled b rest) = (b :: rest).take (width b) then some (assembled b rest)
    else none

/-- The glyph of a byte that begins no character. -/
def single (b : UInt8) : Glyph :=
  if h : 0x80 ≤ b.toNat then .stray ⟨b.toNat - 0x80, by have := b.toNat_lt; omega⟩
  else .char (Char.ofNat b.toNat)

/-- The text that the bytes spell. -/
def decode : Bytes → Text
  | [] => []
  | b :: rest =>
    match leading (b :: rest) with
    | some c => .char c :: decode (rest.drop ((encodeChar c).length - 1))
    | none => single b :: decode rest
termination_by bs => bs.length

theorem encodeChar_length_pos (c : Char) : 0 < (encodeChar c).length := by
  simp only [encodeChar]
  split
  · simp
  · split
    · simp
    · split <;> simp

theorem leading_isPrefix {b : UInt8} {rest : Bytes} {c : Char}
    (h : leading (b :: rest) = some c) : encodeChar c <+: b :: rest := by
  rw [leading] at h
  split at h
  · next hc =>
    rw [← Option.some.inj h, hc]
    exact List.take_prefix ..
  · cases h

theorem encodeGlyph_single (b : UInt8) : encodeGlyph (single b) = [b] := by
  rw [single]
  split
  · next h =>
    have : 128 + (b.toNat - 128) = b.toNat := by omega
    simp [encodeGlyph, this]
  · next h =>
    have hb : b.toNat < 128 := by omega
    have hv : b.toNat.isValidChar := by simp [Nat.isValidChar]; omega
    have : (Char.ofNat b.toNat).toNat = b.toNat := by
      rw [Char.ofNat, dif_pos hv]
      rfl
    simp [encodeGlyph, encodeChar, this, hb]

theorem encode_decode (bs : Bytes) : encode (decode bs) = bs := by
  fun_induction decode bs with
  | case1 => rfl
  -- the character's bytes are a prefix of what is left, and are written again
  | case2 b rest c h ih =>
    obtain ⟨tail, ht⟩ := leading_isPrefix h
    have hpos := encodeChar_length_pos c
    match hc : encodeChar c with
    | [] => simp [hc] at hpos
    | b' :: more =>
      rw [hc] at ht ih
      simp only [List.cons_append, List.cons.injEq] at ht
      have hdrop : rest.drop ((b' :: more).length - 1) = tail := by simp [← ht.2]
      rw [hdrop] at ih ⊢
      change encodeChar c ++ encode (decode tail) = _
      rw [ih, hc, ← ht.2, ht.1, List.cons_append]
  | case3 b rest h ih =>
    change encodeGlyph (single b) ++ encode (decode rest) = _
    rw [ih, encodeGlyph_single, List.singleton_append]

end RefSweep.Utf8
