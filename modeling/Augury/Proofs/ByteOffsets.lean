import Augury.Proofs.Reports

/-!
# Cutting texts at byte offsets

A text is cut in two at a byte offset, which must not lie beyond the text or inside a character:
`Text.cut?` has parts to give exactly at the boundaries of the text.  Slices that are cut elsewhere are
`Misplaced`.  Offsets come from searching a text for a character (`Text.offsetOf?`) and from counting the
bytes of digits at its front (`Text.digitBytes`), and both count whole characters.
-/

set_option autoImplicit false

namespace Augury.Text

/-! ## Slices -/

/-- The two parts of a text at a byte offset; nothing when the offset lies beyond the text or inside a
character. -/
def cut? (cs : List Char) (offset : Nat) : Option (List Char × List Char) :=
  (charsBefore? cs offset).map fun count => cs.splitAt count

/-- The offset of a slice lies beyond the text, inside a character, or in front of its own start. -/
structure Misplaced where
  offset : Nat
deriving Repr, DecidableEq

/-- The part of a text behind a byte offset. -/
def sliceFrom (cs : List Char) (start : Nat) : Except Misplaced (List Char) :=
  match cut? cs start with
  | some (_, back) => .ok back
  | none => .error ⟨start⟩

/-- The part of a text in front of a byte offset. -/
def sliceTo (cs : List Char) (stop : Nat) : Except Misplaced (List Char) :=
  match cut? cs stop with
  | some (front, _) => .ok front
  | none => .error ⟨stop⟩

/-- The part of a text between two byte offsets. -/
def slice (cs : List Char) (start stop : Nat) : Except Misplaced (List Char) := do
  if stop < start then throw ⟨stop⟩
  sliceFrom (← sliceTo cs stop) start

theorem byteLength_pos {cs : List Char} (hne : cs ≠ []) : 0 < byteLength cs := by
  obtain ⟨c, rest, rfl⟩ := List.exists_cons_of_ne_nil hne
  have hsize := c.utf8Size_pos
  rw [byteLength_cons]
  omega

theorem exists_of_charsBefore? {cs : List Char} {offset count : Nat}
    (h : charsBefore? cs offset = some count) : ∃ front, front <+: cs ∧ byteLength front = offset := by
  induction cs generalizing offset count with
  | nil =>
    rw [charsBefore?] at h
    split at h
    · next hzero => exact ⟨[], List.nil_prefix, hzero.symm⟩
    · cases h
  | cons c cs ih =>
    rw [charsBefore?] at h
    split at h
    · next hzero => exact ⟨[], List.nil_prefix, hzero.symm⟩
    · split at h
      · cases h
      · next hsize =>
        obtain ⟨count, hcount, -⟩ := Option.map_eq_some_iff.mp h
        obtain ⟨front, hfront, hlength⟩ := ih hcount
        refine ⟨c :: front, (List.prefix_cons_inj c).mpr hfront, ?_⟩
        rw [byteLength_cons]
        omega

theorem cut?_append (front back : List Char) :
    cut? (front ++ back) (byteLength front) = some (front, back) := by
  rw [cut?, charsBefore?_append, Option.map_some, List.splitAt_eq, List.take_left, List.drop_left]

/-- A text can be cut at its boundaries and nowhere else. -/
theorem isSome_cut?_iff {cs : List Char} {offset : Nat} :
    (cut? cs offset).isSome ↔ IsBoundary cs offset := by
  constructor
  · intro h
    rw [cut?, Option.isSome_map, Option.isSome_iff_exists] at h
    obtain ⟨count, hcount⟩ := h
    exact exists_of_charsBefore? hcount
  · rintro ⟨front, ⟨back, rfl⟩, rfl⟩
    rw [cut?_append, Option.isSome_some]

theorem sliceFrom_append (front back : List Char) :
    sliceFrom (front ++ back) (byteLength front) = pure back := by
  simp only [sliceFrom, cut?_append]
  rfl

theorem sliceTo_append (front back : List Char) :
    sliceTo (front ++ back) (byteLength front) = pure front := by
  simp only [sliceTo, cut?_append]
  rfl

theorem slice_append (front middle back : List Char) :
    slice (front ++ middle ++ back) (byteLength front) (byteLength front + byteLength middle) =
      pure middle := by
  have hle : ¬ byteLength (front ++ middle) < byteLength front := by
    rw [byteLength_append]
    omega
  simp only [slice, ← byteLength_append, if_neg hle, sliceTo_append, pure_bind, sliceFrom_append]

/-! ## Offsets -/

/-- The byte offset of the first character that is a mark. -/
def offsetOf? (mark : Char → Bool) : List Char → Option Nat
  | [] => none
  | c :: cs => if mark c then some 0 else (offsetOf? mark cs).map (c.utf8Size + ·)

/-- The offset of a mark is the length of what stands in front of the mark. -/
theorem offsetOf?_eq_map_breakAt? (mark : Char → Bool) (cs : List Char) :
    offsetOf? mark cs = (breakAt? mark cs).map fun cut => byteLength cut.1 := by
  induction cs with
  | nil => rfl
  | cons c cs ih =>
    rw [offsetOf?, breakAt?_cons, ih]
    split
    · rfl
    · rw [Option.map_map, Option.map_map]
      rfl

def isDigitByte (byte : UInt8) : Bool :=
  48 ≤ byte && byte ≤ 57

/-- The number of bytes of digits at the front of a text. -/
def digitBytes (cs : List Char) : Nat :=
  ((cs.flatMap String.utf8EncodeChar).takeWhile isDigitByte).length

theorem isDigitByte_iff {byte : UInt8} :
    isDigitByte byte = true ↔ 48 ≤ byte.toNat ∧ byte.toNat ≤ 57 := by
  simp only [isDigitByte, Bool.and_eq_true, decide_eq_true_eq, UInt8.le_iff_toNat_le,
    UInt8.reduceToNat]

theorem utf8EncodeChar_of_isDigit {c : Char} (hc : c.isDigit = true) :
    ∃ byte, String.utf8EncodeChar c = [byte] ∧ isDigitByte byte = true ∧ c.utf8Size = 1 := by
  have hrange := Char.isDigit_iff_toNat.mp hc
  simp only [Char.reduceToNat] at hrange
  have hval : c.val.toNat = c.toNat := rfl
  have hsize : c.utf8Size = 1 := by
    simp only [Char.utf8Size_eq_one_iff, UInt32.le_iff_toNat_le, UInt32.reduceToNat]
    omega
  refine ⟨_, String.utf8EncodeChar_eq_singleton hsize, ?_, hsize⟩
  rw [isDigitByte_iff, UInt32.toNat_toUInt8]
  omega

/-- A character of several bytes starts with a byte that is no digit. -/
theorem utf8EncodeChar_of_not_isDigit {c : Char} (hc : c.isDigit = false) :
    ∃ byte bytes, String.utf8EncodeChar c = byte :: bytes ∧ isDigitByte byte = false := by
  have hrange : ¬ (48 ≤ c.toNat ∧ c.toNat ≤ 57) := by
    rw [← Bool.not_eq_true, Char.isDigit_iff_toNat] at hc
    exact hc
  have hval : c.val.toNat = c.toNat := rfl
  simp only [← Bool.not_eq_true, isDigitByte_iff]
  unfold String.utf8EncodeChar
  simp only
  split_ifs
  all_goals
    refine ⟨_, _, rfl, ?_⟩
    rw [UInt8.toNat_ofNat']
    omega

/-- Only digits have bytes of digits, so that counting the bytes measures the digits. -/
theorem digitBytes_eq (cs : List Char) : digitBytes cs = byteLength (leadingDigits cs) := by
  induction cs with
  | nil => rfl
  | cons c cs ih =>
    cases hc : c.isDigit with
    | true =>
      obtain ⟨byte, hbytes, hbyte, hsize⟩ := utf8EncodeChar_of_isDigit hc
      rw [leadingDigits, List.takeWhile_cons_of_pos hc, byteLength_cons, hsize]
      rw [digitBytes, List.flatMap_cons, hbytes, List.singleton_append,
        List.takeWhile_cons_of_pos hbyte, List.length_cons, Nat.add_comm]
      exact congrArg (1 + ·) ih
    | false =>
      obtain ⟨byte, bytes, hbytes, hbyte⟩ := utf8EncodeChar_of_not_isDigit hc
      rw [leadingDigits, List.takeWhile_cons_of_neg (by simp [hc]), digitBytes, List.flatMap_cons,
        hbytes, List.cons_append, List.takeWhile_cons_of_neg (by simp [hbyte])]
      rfl

end Augury.Text
