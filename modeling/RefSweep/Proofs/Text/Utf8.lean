import RefSweep.Text.Utf8

/-!
# Reading bytes piece by piece

A byte below `0x80` stands for itself wherever it comes: no character that begins before it can
reach over it, since all bytes of a character but its first one are higher. So bytes can be read in
pieces that are cut in front of such a byte. A text of characters is read as it was written. Main
statements: `decode_append` and `decode_encode_append`.
-/

namespace RefSweep.Utf8

/-! ## The shape of a character -/

/-- The number of a character lies below the end of the Unicode range, so four bytes are always
enough for it. -/
theorem char_toNat_lt (c : Char) : c.toNat < 0x110000 := by
  have h := c.valid
  simp only [UInt32.isValidChar, Nat.isValidChar] at h
  show c.val.toNat < _
  omega

/-- How many bytes a lead byte announces, read off the number it is: one for ASCII, none for a
continuation byte or an impossible one, else two to four. -/
theorem width_ofNat {n : Nat} (h : n < 256) :
    width (UInt8.ofNat n) =
      if n < 0x80 then 1 else if n < 0xC0 then 0 else if n < 0xE0 then 2
      else if n < 0xF0 then 3 else if n < 0xF8 then 4 else 0 := by
  have hn : (UInt8.ofNat n).toNat = n := by
    rw [UInt8.toNat_ofNat']
    omega
  simp only [width, UInt8.lt_iff_toNat_lt, hn]
  rfl

/-- A byte made from a number of at least 128 is itself at least 128, since no number below 256 is
cut. -/
theorem le_ofNat {n : Nat} (hlow : 0x80 ≤ n) (h : n < 256) : (0x80 : UInt8) ≤ UInt8.ofNat n := by
  rw [UInt8.le_iff_toNat_le, UInt8.toNat_ofNat']
  show 0x80 ≤ n % 256
  omega

/-- The first byte of a character announces how many there are, and the others are not below
`0x80`. -/
theorem encodeChar_eq_cons (c : Char) :
    ∃ b rest, encodeChar c = b :: rest ∧ width b = rest.length + 1 ∧ ∀ x ∈ rest, 0x80 ≤ x := by
  have hmax := char_toNat_lt c
  unfold encodeChar
  dsimp only
  split
  -- one byte, which announces no other
  next h1 =>
    refine ⟨_, _, rfl, ?_, fun x hx => absurd hx List.not_mem_nil⟩
    rw [width_ofNat (by omega), if_pos h1]
    rfl
  -- two, three or four bytes: the first says how many, the others carry six bits each
  next h1 =>
    split
    next h2 =>
      refine ⟨_, _, rfl, ?_, List.forall_mem_singleton.2 (le_ofNat (by omega) (by omega))⟩
      rw [width_ofNat (by omega), if_neg (by omega), if_neg (by omega), if_pos (by omega)]
      rfl
    next h2 =>
      split
      next h3 =>
        refine ⟨_, _, rfl, ?_, ?_⟩
        · rw [width_ofNat (by omega), if_neg (by omega), if_neg (by omega), if_neg (by omega),
            if_pos (by omega)]
          rfl
        · simp only [List.forall_mem_cons]
          exact ⟨le_ofNat (by omega) (by omega), le_ofNat (by omega) (by omega), nofun⟩
      next h3 =>
        refine ⟨_, _, rfl, ?_, ?_⟩
        · rw [width_ofNat (by omega), if_neg (by omega), if_neg (by omega), if_neg (by omega),
            if_neg (by omega), if_pos (by omega)]
          rfl
        · simp only [List.forall_mem_cons]
          exact ⟨le_ofNat (by omega) (by omega), le_ofNat (by omega) (by omega),
            le_ofNat (by omega) (by omega), nofun⟩

/-- A character at the front of some bytes takes as many of them as the first one announces, and
they are all there. -/
theorem leading_eq_some {b : UInt8} {bytes : Bytes} {c : Char}
    (h : leading (b :: bytes) = some c) :
    encodeChar c = b :: bytes.take (width b - 1) ∧
      width b = (bytes.take (width b - 1)).length + 1 ∧ ∀ x ∈ bytes.take (width b - 1), 0x80 ≤ x := by
  obtain ⟨b', rest, hc, hwidth, hhigh⟩ := encodeChar_eq_cons c
  rw [leading] at h
  split at h
  -- the bytes that were taken are those of the character, so all that it announces are there
  next htake =>
    rw [Option.some.inj h, hc] at htake
    cases hw : width b with
    | zero => rw [hw] at htake; cases htake
    | succ w =>
      rw [hw, List.take_succ_cons] at htake
      obtain ⟨rfl, rfl⟩ := List.cons.inj htake
      exact ⟨hc, hw.symm.trans hwidth, hhigh⟩
  · cases h

/-! ## Cutting in front of a low byte -/

variable {a rest : Bytes} {b x : UInt8}

/-- A lead byte is as valid in front of a low byte as it is at the end: what follows an ASCII byte
never takes part in the character before. -/
theorem leading_append (hx : x < 0x80) : leading (b :: (a ++ x :: rest)) = leading (b :: a) := by
  by_cases hall : width b ≤ a.length + 1
  · -- the character lies in front of the low byte altogether
    have htake : (a ++ x :: rest).take (width b - 1) = a.take (width b - 1) :=
      List.take_append_of_le_length (by omega)
    have hfront : (b :: (a ++ x :: rest)).take (width b) = (b :: a).take (width b) := by
      rw [← List.cons_append]
      exact List.take_append_of_le_length (by simpa using hall)
    have hsame : assembled b (a ++ x :: rest) = assembled b a := by rw [assembled, assembled, htake]
    rw [leading, leading, hsame, hfront]
  · -- it would have to reach over it, or beyond the end
    have hover : leading (b :: (a ++ x :: rest)) = none := by
      refine Option.eq_none_iff_forall_ne_some.2 fun c hc => ?_
      obtain ⟨-, -, hhigh⟩ := leading_eq_some hc
      have hmem : x ∈ (a ++ x :: rest).take (width b - 1) := by
        refine List.mem_take_iff_getElem.2 ⟨a.length, by simp; omega, by simp⟩
      exact absurd hx (UInt8.not_lt.2 (hhigh x hmem))
    have hbeyond : leading (b :: a) = none := by
      refine Option.eq_none_iff_forall_ne_some.2 fun c hc => ?_
      obtain ⟨-, hwidth, -⟩ := leading_eq_some hc
      have := List.length_take_le (width b - 1) a
      rw [List.length_take] at hwidth
      omega
    rw [hover, hbeyond]

/-- Bytes can be read in two pieces, if the second one begins with a low byte. -/
theorem decode_append (hx : x < 0x80) (a rest : Bytes) :
    decode (a ++ x :: rest) = decode a ++ decode (x :: rest) := by
  fun_induction decode a with
  | case1 => rfl
  -- a whole character is read off the front of the first piece
  | case2 b bytes c h ih =>
    obtain ⟨hc, hwidth, -⟩ := leading_eq_some h
    have hlength : (encodeChar c).length - 1 ≤ bytes.length := by
      rw [hc, List.length_cons, Nat.add_sub_cancel]
      exact List.length_take_le' ..
    rw [List.cons_append, decode, leading_append hx, h]
    simp only [List.cons_append]
    rw [List.drop_append_of_le_length hlength, ih]
  -- a byte that begins none is read as a stray one, also in front of the second piece
  | case3 b bytes h ih =>
    rw [List.cons_append, decode, leading_append hx, h]
    simp only [List.cons_append]
    rw [ih]

/-- The character of a low byte is written as this one byte. -/
theorem encodeChar_ofNat_toNat (hx : x < 0x80) : encodeChar (Char.ofNat x.toNat) = [x] := by
  have hlow : x.toNat < 0x80 := UInt8.lt_iff_toNat_lt.1 hx
  have hvalid : x.toNat.isValidChar := .inl (by omega)
  have hnat : (Char.ofNat x.toNat).toNat = x.toNat := by
    rw [Char.ofNat, dif_pos hvalid]
    rfl
  unfold encodeChar
  dsimp only
  rw [hnat, if_pos hlow, UInt8.ofNat_toNat]

/-- A low byte is a character by itself. -/
theorem leading_of_lt (hx : x < 0x80) (rest : Bytes) :
    leading (x :: rest) = some (Char.ofNat x.toNat) := by
  have hlow : x.toNat < 0x80 := UInt8.lt_iff_toNat_lt.1 hx
  have hone : width x = 1 := if_pos hx
  have hself : assembled x rest = Char.ofNat x.toNat := by
    unfold assembled
    rw [if_pos hx, hone]
    show Char.ofNat (x.toNat % 128) = _
    rw [Nat.mod_eq_of_lt hlow]
  rw [leading, hself, if_pos]
  rw [encodeChar_ofNat_toNat hx, hone]
  rfl

/-- A low byte is always a character of its own, whatever stands behind it. -/
theorem decode_cons (hx : x < 0x80) (rest : Bytes) :
    decode (x :: rest) = .char (Char.ofNat x.toNat) :: decode rest := by
  rw [decode, leading_of_lt hx]
  simp only [encodeChar_ofNat_toNat hx]
  rfl

/-! ## Reading what was written -/

theorem toNat_ofNat_of_lt {n : Nat} (h : n < 256) : (UInt8.ofNat n).toNat = n := by
  rw [UInt8.toNat_ofNat']
  omega

/-- A character is put together from the payload bits of its first byte, and six of each byte after
it. -/
theorem assembled_ofNat {n : Nat} (hn : n < 256) {low : Bytes}
    (hlow : width (UInt8.ofNat n) = low.length + 1) (rest : Bytes) :
    assembled (UInt8.ofNat n) (low ++ rest) =
      Char.ofNat (low.foldl (fun n b => 64 * n + b.toNat % 64)
        (n % if n < 0x80 then 128 else Nat.pow 2 (6 - low.length))) := by
  have hsmall : UInt8.ofNat n < 0x80 ↔ n < 0x80 := by
    rw [UInt8.lt_iff_toNat_lt, toNat_ofNat_of_lt hn]
    rfl
  have htake : width (UInt8.ofNat n) - 1 = low.length := by omega
  have hpower : 7 - width (UInt8.ofNat n) = 6 - low.length := by omega
  unfold assembled
  rw [htake, List.take_left, toNat_ofNat_of_lt hn, hpower]
  simp only [hsmall]

/-- The bytes of a character are put together to this character again, whatever follows them: each
of the four lengths keeps all the bits. -/
theorem assembled_encodeChar {c : Char} {b : UInt8} {low : Bytes} (hc : encodeChar c = b :: low)
    (rest : Bytes) : assembled b (low ++ rest) = c := by
  have hmax := char_toNat_lt c
  obtain ⟨_, _, hcons, hwidth, -⟩ := encodeChar_eq_cons c
  rw [hc] at hcons
  obtain ⟨rfl, rfl⟩ := List.cons.inj hcons
  conv => rhs; rw [← Char.ofNat_toNat c]
  -- one case for each number of bytes
  unfold encodeChar at hc
  dsimp only at hc
  split at hc
  next h1 =>
    obtain ⟨rfl, rfl⟩ := List.cons.inj hc
    rw [assembled_ofNat (by omega) hwidth, if_pos h1, Nat.mod_eq_of_lt h1]
    rfl
  next h1 =>
    split at hc
    next h2 =>
      obtain ⟨rfl, rfl⟩ := List.cons.inj hc
      rw [assembled_ofNat (by omega) hwidth, if_neg (by omega)]
      congr 1
      simp only [List.length_singleton, List.foldl_cons, List.foldl_nil, Nat.pow_eq]
      rw [toNat_ofNat_of_lt (by omega)]
      omega
    next h2 =>
      split at hc
      next h3 =>
        obtain ⟨rfl, rfl⟩ := List.cons.inj hc
        rw [assembled_ofNat (by omega) hwidth, if_neg (by omega)]
        congr 1
        simp only [List.length_cons, List.length_nil, List.foldl_cons, List.foldl_nil, Nat.pow_eq]
        rw [toNat_ofNat_of_lt (by omega), toNat_ofNat_of_lt (by omega)]
        omega
      next h3 =>
        obtain ⟨rfl, rfl⟩ := List.cons.inj hc
        rw [assembled_ofNat (by omega) hwidth, if_neg (by omega)]
        congr 1
        simp only [List.length_cons, List.length_nil, List.foldl_cons, List.foldl_nil, Nat.pow_eq]
        rw [toNat_ofNat_of_lt (by omega), toNat_ofNat_of_lt (by omega),
          toNat_ofNat_of_lt (by omega)]
        omega

/-- The bytes of a character are read as this character, whatever comes after them. -/
theorem leading_encodeChar (c : Char) (rest : Bytes) :
    leading (encodeChar c ++ rest) = some c := by
  obtain ⟨b, low, hc, hwidth, -⟩ := encodeChar_eq_cons c
  rw [hc, List.cons_append, leading, assembled_encodeChar hc, if_pos]
  rw [hc, hwidth, List.take_succ_cons, List.take_left]

/-- The bytes of two texts in a row are the bytes of the first and then those of the second. -/
theorem encode_append (t u : Text) : encode (t ++ u) = encode t ++ encode u :=
  List.flatMap_append

/-- A text of characters is read as it was written, whatever comes after it. -/
theorem decode_encode_append {t : Text} (ht : ∀ g ∈ t, Text.isStray g = false) (rest : Bytes) :
    decode (encode t ++ rest) = t ++ decode rest := by
  induction t with
  | nil => rfl
  | cons g t ih =>
    have htail := ih fun g hg => ht g (.tail _ hg)
    cases g with
    | stray low => cases ht _ (.head _)
    | char c =>
      obtain ⟨b, low, hc, -⟩ := encodeChar_eq_cons c
      have hfront : encode (.char c :: t) ++ rest = b :: (low ++ (encode t ++ rest)) := by
        show encodeChar c ++ encode t ++ rest = _
        rw [hc]
        simp
      -- the bytes of the character are recognised in front of whatever follows
      have hleading : leading (b :: (low ++ (encode t ++ rest))) = some c := by
        rw [← List.cons_append, ← hc]
        exact leading_encodeChar c _
      rw [hfront, decode, hleading]
      simp only [hc, List.length_cons, Nat.add_sub_cancel, List.drop_left]
      rw [htail]
      rfl

/-- The bytes of one text of characters begin with those of another one only if the text itself
does. -/
theorem exists_eq_append_of_encode {t u : Text} {rest : Bytes}
    (ht : ∀ g ∈ t, Text.isStray g = false) (hu : ∀ g ∈ u, Text.isStray g = false)
    (h : encode u = encode t ++ rest) : ∃ v, u = t ++ v ∧ rest = encode v := by
  have hread : decode (encode u ++ []) = decode (encode t ++ rest) := by
    rw [List.append_nil, h]
  rw [decode_encode_append hu, decode_encode_append ht] at hread
  refine ⟨decode rest, ?_, (encode_decode rest).symm⟩
  rw [← hread]
  simp [decode]

end RefSweep.Utf8
