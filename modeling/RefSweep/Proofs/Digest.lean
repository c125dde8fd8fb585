import Mathlib.Data.List.TakeWhile
import RefSweep.Digest
import RefSweep.Proofs.Text.Digits
import RefSweep.Proofs.Text.Split
import RefSweep.Proofs.Text.Utf8

/-!
# What is hashed for an object

The header of an object ends with the first zero character, unless the kind holds one. A kind that
does can begin with the whole header of another object; the payload of that one then repeats what
comes after it (`Repeats`). Main statement: `preimage_eq_iff`, two different objects have the same
bytes hashed exactly if one of them repeats the other so.
-/

namespace RefSweep

namespace Text

variable {t : Text}

/-- A text without stray bytes is one of characters. -/
theorem strayRun?_eq_none_iff : t.strayRun? = none ↔ ∀ g ∈ t, isStray g = false := by
  -- the first glyph that is not passed over is a stray byte, if there is one
  have hsome : t.strayRun? = none ↔ t.dropWhile (!isStray ·) = [] := by
    unfold strayRun?
    cases hrest : t.dropWhile (!isStray ·) with
    | nil => simp
    | cons g rest =>
      have hstray : (!isStray g) = false := by
        have := List.head_dropWhile_not (!isStray ·) (l := t) (by simp [hrest])
        simpa [hrest] using this
      cases g with
      | char c => cases hstray
      | stray low => simp
  rw [hsome, List.dropWhile_eq_nil_iff]
  simp

end Text

namespace Digest

variable {kind kind' front : Text} {payload payload' : Bytes} {n n' : Nat}

/-- What is hashed in front of a payload of `n` bytes. -/
def header (kind : Text) (n : Nat) : Text :=
  kind ++ .char ' ' :: Text.ofNat n ++ [.char '\x00']

theorem preimage_eq (kind : Text) (payload : Bytes) :
    preimage kind payload = Utf8.encode (header kind payload.length) ++ payload := rfl

theorem header_append (front kind : Text) (n : Nat) :
    header (front ++ kind) n = front ++ header kind n := by
  simp [header]

theorem characters_header (hkind : kind.strayRun? = none) (n : Nat) :
    ∀ g ∈ header kind n, Text.isStray g = false := by
  intro g hg
  simp only [header, List.append_assoc, List.cons_append, List.mem_append, List.mem_cons,
    List.not_mem_nil, or_false] at hg
  rcases hg with hg | rfl | hg | rfl
  · exact Text.strayRun?_eq_none_iff.1 hkind g hg
  · rfl
  · exact Text.isStray_of_mem_ofNat hg
  · rfl

/-- The last space ends the kind. So two kinds with one header are the same, although a kind may
hold spaces itself. -/
theorem kind_eq_of_header_eq (h : header kind n = header kind' n') : kind = kind' := by
  have hfront : kind ++ .char ' ' :: Text.ofNat n = kind' ++ .char ' ' :: Text.ofNat n' :=
    List.append_cancel_right h
  have hreversed : (Text.ofNat n).reverse ++ .char ' ' :: kind.reverse =
      (Text.ofNat n').reverse ++ .char ' ' :: kind'.reverse := by
    simpa using congrArg List.reverse hfront
  have hspace : ∀ m, Glyph.char ' ' ∉ (Text.ofNat m).reverse := fun m hmem =>
    Text.notMem_ofNat rfl (List.mem_reverse.1 hmem)
  have hcut := congrArg (Text.cut (.char ' ')) hreversed
  rw [Text.cut_append (hspace n), Text.cut_append (hspace n')] at hcut
  exact List.reverse_inj.1 (Prod.mk.inj hcut).2

/-- The zero character at the end is the only one, if the kind has none. -/
theorem eq_nil_of_zero_mem {start rest : Text} (h : header [] n = start ++ rest)
    (hzero : .char '\x00' ∈ start) : rest = [] := by
  obtain ⟨front, back, rfl, hfront⟩ := List.eq_append_cons_of_mem hzero
  have hnone : Glyph.char '\x00' ∉ .char ' ' :: Text.ofNat n := by
    simpa using Text.notMem_ofNat rfl
  have hcut := congrArg (Text.cut (.char '\x00')) h
  rw [header, List.nil_append, Text.cut_append hnone, List.append_assoc, List.cons_append,
    Text.cut_append hfront] at hcut
  exact (List.append_eq_nil_iff.1 (Prod.mk.inj hcut).2.symm).2

/-- A header that begins with another one is this one, or its kind begins with it. -/
theorem header_eq_append {rest : Text} (h : header kind' n' = header kind n ++ rest) :
    kind = kind' ∧ rest = [] ∨
      ∃ front, kind' = header kind n ++ front ∧ rest = header front n' := by
  -- the kind stands in front, and what comes after it depends on the length only
  have htail : ∀ (kind : Text) (n : Nat), header kind n = kind ++ header [] n := fun kind n => by
    rw [← header_append, List.append_nil]
  rw [htail kind'] at h
  obtain ⟨middle, hheader, hend⟩ | ⟨front, hkind, hrest⟩ := List.append_eq_append_iff.1 h
  · obtain rfl | ⟨start, last, rfl⟩ := List.eq_nil_or_concat middle
    · exact .inr ⟨[], by simpa using hheader.symm, hend.symm⟩
    · -- the zero character that ends the first header is the one that ends the second
      have hlast : .char '\x00' = last := by
        have := congrArg List.getLast? hheader
        rw [List.concat_eq_append, header, ← List.append_assoc, List.getLast?_concat,
          List.getLast?_concat] at this
        exact Option.some.inj this
      have hrest : rest = [] := eq_nil_of_zero_mem hend (by simp [hlast])
      rw [hrest, List.append_nil, ← htail] at h
      exact .inl ⟨(kind_eq_of_header_eq h).symm, hrest⟩
  · exact .inr ⟨front, hkind, by rw [hrest, ← htail]⟩

/-- The kind of the second object begins with the header of the first one, whose payload repeats
all that is hashed after it. -/
def Repeats (kind : Text) (payload : Bytes) (kind' : Text) (payload' : Bytes) : Prop :=
  ∃ front, kind' = header kind payload.length ++ front ∧ payload = preimage front payload'

/-- Only the payload of a kind that holds a zero character can be repeated so. -/
theorem Repeats.zero_mem (h : Repeats kind payload kind' payload') : .char '\x00' ∈ kind' := by
  obtain ⟨front, rfl, -⟩ := h
  simp [header]

theorem Repeats.preimage_eq (h : Repeats kind payload kind' payload') :
    preimage kind payload = preimage kind' payload' := by
  obtain ⟨front, rfl, rfl⟩ := h
  rw [Digest.preimage_eq kind, Digest.preimage_eq front, Digest.preimage_eq (_ ++ front),
    header_append, Utf8.encode_append, List.append_assoc]

/-- The longer header begins with the shorter one, and the rest of it is in the other payload. -/
theorem eq_or_repeats_of_encode (hkind : kind.strayRun? = none) (hkind' : kind'.strayRun? = none)
    {rest : Bytes} (hpayload : payload = rest ++ payload')
    (hheader : Utf8.encode (header kind' payload'.length) =
      Utf8.encode (header kind payload.length) ++ rest) :
    (kind = kind' ∧ payload = payload') ∨ Repeats kind payload kind' payload' := by
  obtain ⟨tail, htail, rfl⟩ := Utf8.exists_eq_append_of_encode (characters_header hkind _)
    (characters_header hkind' _) hheader
  obtain ⟨rfl, rfl⟩ | ⟨front, hfront, rfl⟩ := header_eq_append htail
  · exact .inl ⟨rfl, hpayload⟩
  · exact .inr ⟨front, hfront, hpayload⟩

/-- The same bytes are hashed for two objects exactly if they are equal or one repeats the other. -/
theorem preimage_eq_iff (hkind : kind.strayRun? = none) (hkind' : kind'.strayRun? = none) :
    preimage kind payload = preimage kind' payload' ↔
      (kind = kind' ∧ payload = payload') ∨ Repeats kind payload kind' payload' ∨
        Repeats kind' payload' kind payload := by
  constructor
  · intro h
    obtain ⟨rest, hheader, hpayload⟩ | ⟨rest, hheader, hpayload⟩ :=
      List.append_eq_append_iff.1 (h : Utf8.encode _ ++ payload = Utf8.encode _ ++ payload')
    · obtain hsame | hrepeats := eq_or_repeats_of_encode hkind hkind' hpayload hheader
      · exact .inl hsame
      · exact .inr (.inl hrepeats)
    · obtain ⟨rfl, rfl⟩ | hrepeats := eq_or_repeats_of_encode hkind' hkind hpayload hheader
      · exact .inl ⟨rfl, rfl⟩
      · exact .inr (.inr hrepeats)
  · rintro (⟨rfl, rfl⟩ | h | h)
    · rfl
    · exact h.preimage_eq
    · exact h.preimage_eq.symm

/-- Different bytes are hashed for the two objects, and the keys are the same. -/
def Collide (kind : Text) (payload : Bytes) (kind' : Text) (payload' : Bytes) : Prop :=
  preimage kind payload ≠ preimage kind' payload' ∧ key kind payload = key kind' payload'

/-- Without a collision, objects share a key if they are equal or one repeats the other. -/
theorem key_eq_iff (hkind : kind.strayRun? = none) (hkind' : kind'.strayRun? = none) :
    key kind payload = key kind' payload' ↔
      (kind = kind' ∧ payload = payload') ∨ Repeats kind payload kind' payload' ∨
        Repeats kind' payload' kind payload ∨ Collide kind payload kind' payload' := by
  have hpreimage : preimage kind payload = preimage kind' payload' ↔ _ :=
    preimage_eq_iff hkind hkind'
  rw [← or_assoc, ← or_assoc, or_assoc (a := _ ∧ _), ← hpreimage]
  constructor
  · intro hkey
    exact or_iff_not_imp_left.2 fun hne => ⟨hne, hkey⟩
  · rintro (hsame | ⟨-, hkey⟩)
    · exact congrArg Sha256.hexDigest hsame
    · exact hkey

end Digest

end RefSweep
