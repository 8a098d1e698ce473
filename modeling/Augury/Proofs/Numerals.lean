import Augury.Text.Numeral
import Mathlib.Data.List.Induction

/-!
# How a number may be written

A numeral is the decimal digits of a number with any number of zeros in front
(`IsNumeralOf`).  Reading a text of digits gives back the one number that it is a numeral of
(`numeral?_eq_some_iff`, `word?_eq_some_iff`), and the numeral without any needless zero is the
one that printing produces (`eq_repr_iff_of_isNumeralOf`).
-/

set_option autoImplicit false

namespace Augury.Text

/-- The texts of a number: its decimal digits behind any number of zeros. -/
def IsNumeralOf (n : Nat) (cs : List Char) : Prop :=
  ∃ zeros : Nat, cs = List.replicate zeros '0' ++ n.repr.toList

/-- Whether a numeral has a zero in front that its value does not need. -/
def HasNeedlessZero (cs : List Char) : Prop :=
  ∃ c rest, cs = '0' :: c :: rest

/-- Whether the value of a run of digits exceeds every 32-bit word. -/
def Oversized (run : List Char) : Prop :=
  UInt32.size ≤ Nat.ofDigitChars 10 run 0

theorem isNumeralOf_repr (n : Nat) : IsNumeralOf n n.repr.toList :=
  ⟨0, by simp⟩

theorem ne_nil_of_isNumeralOf {n : Nat} {cs : List Char} (h : IsNumeralOf n cs) : cs ≠ [] := by
  obtain ⟨zeros, rfl⟩ := h
  simp [Nat.toList_repr, Nat.toDigits_ne_nil]

theorem isDigit_of_isNumeralOf {n : Nat} {cs : List Char} (h : IsNumeralOf n cs) :
    ∀ c ∈ cs, c.isDigit = true := by
  obtain ⟨zeros, rfl⟩ := h
  intro c hc
  rw [List.mem_append, Nat.toList_repr] at hc
  rcases hc with hzero | hdigit
  · rw [List.eq_of_mem_replicate hzero]
    rfl
  · exact Nat.isDigit_of_mem_toDigits (by omega) (by omega) hdigit

theorem ofDigitChars_of_isNumeralOf {n : Nat} {cs : List Char} (h : IsNumeralOf n cs) :
    Nat.ofDigitChars 10 cs 0 = n := by
  obtain ⟨zeros, rfl⟩ := h
  rw [Nat.ofDigitChars_append, Nat.ofDigitChars_replicate_zero, Nat.mul_zero, Nat.toList_repr,
    Nat.ofDigitChars_ten_toDigits]

theorem exists_digitChar_of_isDigit {c : Char} (h : c.isDigit = true) :
    ∃ d < 10, c = d.digitChar := by
  have hrange := Char.isDigit_iff_toNat.mp h
  simp only [Char.reduceToNat] at hrange
  have hd : c.toNat - 48 < 10 := by omega
  refine ⟨c.toNat - 48, hd, Char.toNat_inj.mp ?_⟩
  rw [Nat.toNat_digitChar_of_lt_ten hd]
  omega

/-- A non-empty text of digits is a numeral of its value.  The induction takes the digits away
from the end, where the printed number loses its last digit too. -/
theorem isNumeralOf_ofDigitChars {cs : List Char} (hne : cs ≠ [])
    (hdigits : ∀ c ∈ cs, c.isDigit = true) : IsNumeralOf (Nat.ofDigitChars 10 cs 0) cs := by
  induction cs using List.reverseRecOn with
  | nil => exact absurd rfl hne
  | append_singleton front c ih =>
    obtain ⟨d, hd, rfl⟩ := exists_digitChar_of_isDigit (hdigits c (by simp))
    rw [Nat.ofDigitChars_append, Nat.ofDigitChars_cons_digitChar_of_lt_ten hd, Nat.ofDigitChars_nil]
    by_cases hfront : front = []
    · subst hfront
      exact ⟨0, by simp [Nat.toList_repr, Nat.toDigits_of_lt_base hd]⟩
    · obtain ⟨zeros, hzeros⟩ := ih hfront fun x hx => hdigits x (by simp [hx])
      generalize Nat.ofDigitChars 10 front 0 = n at hzeros ⊢
      subst hzeros
      cases n with
      | zero =>
        refine ⟨zeros + 1, ?_⟩
        simp [Nat.toList_repr, Nat.toDigits_of_lt_base hd, List.replicate_succ']
      | succ n =>
        refine ⟨zeros, ?_⟩
        rw [Nat.toList_repr, Nat.toList_repr,
          ← Nat.toDigits_append_toDigits (by omega) (by omega) hd, Nat.toDigits_of_lt_base hd,
          List.append_assoc]

theorem length_repr_le_of_isNumeralOf {n : Nat} {cs : List Char} (h : IsNumeralOf n cs) :
    n.repr.toList.length ≤ cs.length := by
  obtain ⟨zeros, rfl⟩ := h
  rw [List.length_append]
  omega

theorem numeral?_eq_some_iff {cs : List Char} {n : Nat} :
    numeral? cs = some n ↔ IsNumeralOf n cs := by
  unfold numeral?
  constructor
  · intro h
    split at h
    · next hcs =>
      simp only [Bool.and_eq_true, Bool.not_eq_true', List.isEmpty_eq_false_iff,
        List.all_eq_true] at hcs
      rw [Option.some.injEq] at h
      rw [← h]
      exact isNumeralOf_ofDigitChars hcs.1 hcs.2
    · simp at h
  · intro h
    have hne := ne_nil_of_isNumeralOf h
    have hdigits := isDigit_of_isNumeralOf h
    rw [if_pos (by simpa [hne] using hdigits), ofDigitChars_of_isNumeralOf h]

theorem word?_eq_some_iff {cs : List Char} {w : UInt32} :
    word? cs = some w ↔ IsNumeralOf w.toNat cs := by
  rw [← numeral?_eq_some_iff]
  unfold word? numeralBelow?
  constructor
  · intro h
    obtain ⟨n, hn, rfl⟩ := Option.map_eq_some_iff.mp h
    obtain ⟨hn, hlt⟩ := Option.filter_eq_some_iff.mp hn
    rw [hn, UInt32.toNat_ofNat_of_lt' (by simpa using hlt)]
  · intro h
    have hlt : w.toNat < UInt32.size := w.toNat_lt
    rw [h, Option.filter_some, if_pos (by simpa using hlt), Option.map_some, UInt32.ofNat_toNat]

/-- Reading a non-empty text of digits as a word fails only for its size. -/
theorem word?_eq_none_iff {cs : List Char} (hne : cs ≠ [])
    (hdigits : ∀ c ∈ cs, c.isDigit = true) : word? cs = none ↔ Oversized cs := by
  have hread := numeral?_eq_some_iff.mpr (isNumeralOf_ofDigitChars hne hdigits)
  unfold word? numeralBelow? Oversized
  rw [hread, Option.filter_some]
  split <;> simp_all

@[simp] theorem word?_nil : word? [] = none := rfl

/-- A printed number has no needless zero: without it the rest would be a numeral of the same
number that is shorter than the number printed. -/
theorem not_hasNeedlessZero_repr (n : Nat) : ¬ HasNeedlessZero n.repr.toList := by
  rintro ⟨c, rest, h⟩
  have hdigits : ∀ x ∈ c :: rest, x.isDigit = true := fun x hx =>
    isDigit_of_isNumeralOf (isNumeralOf_repr n) x (by rw [h]; exact List.mem_cons_of_mem _ hx)
  have hvalue : Nat.ofDigitChars 10 (c :: rest) 0 = n := by
    rw [← ofDigitChars_of_isNumeralOf (isNumeralOf_repr n), h]
    rfl
  obtain ⟨zeros, hrest⟩ := isNumeralOf_ofDigitChars (List.cons_ne_nil c rest) hdigits
  rw [hvalue, h] at hrest
  have hlength := congrArg List.length hrest
  simp at hlength
  omega

/-- A numeral is the printed number exactly when it has no needless zero. -/
theorem eq_repr_iff_of_isNumeralOf {n : Nat} {cs : List Char} (h : IsNumeralOf n cs) :
    cs = n.repr.toList ↔ ¬ HasNeedlessZero cs := by
  constructor
  · rintro rfl
    exact not_hasNeedlessZero_repr n
  · intro hzero
    obtain ⟨zeros, rfl⟩ := h
    cases zeros with
    | zero => simp
    | succ zeros =>
      have hne : List.replicate zeros '0' ++ n.repr.toList ≠ [] := by
        simp [Nat.toList_repr, Nat.toDigits_ne_nil]
      obtain ⟨c, rest, hrest⟩ := List.exists_cons_of_ne_nil hne
      exact absurd ⟨c, rest, by rw [List.replicate_succ, List.cons_append, hrest]⟩ hzero

end Augury.Text
