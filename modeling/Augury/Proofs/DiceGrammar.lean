import Augury.Proofs.DiceExpression

/-!
# The grammar of dice expressions

An expression is the digits of a count, a `d` and the digits of the sides, and may go on with a sign and
the digits of a value (`Dice.InGrammar`).  Numerals have digits only, at least one of them, and fit 32
bits.  Reading accepts what this grammar allows between white space, and nothing else: not a sign in front
of a numeral, not a second `d`, and no white space inside (`Dice.parse_eq_ok_iff_inGrammar`).

Printed dice are in the grammar, so that they are read back from between any white space.
-/

set_option autoImplicit false

namespace Augury

/-! ## White space around a text -/

namespace Text

theorem isBlank_of_isDigit {c : Char} (hc : c.isDigit = true) : isBlank c = false := by
  have hrange := Char.isDigit_iff_toNat.mp hc
  simp only [Char.reduceToNat] at hrange
  simp only [isBlank, Bool.or_eq_false_iff, Bool.and_eq_false_iff, decide_eq_false_iff_not,
    beq_eq_false_iff_ne]
  omega

section Trim

variable {front cs back : List Char}

theorem trimStart_append (hfront : ∀ c ∈ front, isBlank c = true) (cs : List Char) :
    trimStart (front ++ cs) = trimStart cs :=
  List.dropWhile_append_of_pos hfront

theorem trimStart_eq_self (h : ∀ c ∈ cs.head?, isBlank c = false) : trimStart cs = cs := by
  cases cs with
  | nil => rfl
  | cons c cs =>
    have hc : isBlank c = false := h c rfl
    exact List.dropWhile_cons_of_neg (by simp [hc])

/-- Trimming takes off the white space on both sides of a text that neither starts nor ends with any. -/
theorem trim_between (hne : cs ≠ []) (hhead : ∀ c ∈ cs.head?, isBlank c = false)
    (hlast : ∀ c ∈ cs.getLast?, isBlank c = false) (hfront : ∀ c ∈ front, isBlank c = true)
    (hback : ∀ c ∈ back, isBlank c = true) : trim (front ++ cs ++ back) = cs := by
  have hstart : trimStart (front ++ cs ++ back) = cs ++ back := by
    rw [List.append_assoc, trimStart_append hfront]
    apply trimStart_eq_self
    rw [List.head?_append_of_ne_nil cs hne]
    exact hhead
  have hreverse : ∀ c ∈ back.reverse, isBlank c = true := by
    intro c hc
    exact hback c (List.mem_reverse.mp hc)
  rw [trim, hstart, trimEnd, List.reverse_append, trimStart_append hreverse, trimStart_eq_self,
    List.reverse_reverse]
  rwa [List.head?_reverse]

end Trim

/-! ## Numerals -/

/-- A text of ASCII digits, at least one, whose value is this 32-bit word. -/
structure Denotes (cs : List Char) (word : UInt32) : Prop where
  ne_nil : cs ≠ []
  isDigit : ∀ c ∈ cs, c.isDigit = true
  value : Nat.ofDigitChars 10 cs 0 = word.toNat

theorem denotes_iff {cs : List Char} {word : UInt32} :
    Denotes cs word ↔ IsNumeralOf word.toNat cs := by
  constructor
  · intro h
    rw [← h.value]
    exact isNumeralOf_ofDigitChars h.ne_nil h.isDigit
  · intro h
    exact ⟨ne_nil_of_isNumeralOf h, isDigit_of_isNumeralOf h, ofDigitChars_of_isNumeralOf h⟩

end Text

open Text (Denotes HasNeedlessZero isBlank)

/-! ## Expressions -/

namespace Dice

/-- The expressions of dice: the digits of the count, a `d` and the digits of the sides, and, if there is
a modifier, its sign and the digits of its value.  The numerals are listed from left to right. -/
def InGrammar (d : Dice) (numerals : List (List Char)) (cs : List Char) : Prop :=
  ∃ count sides, Denotes count d.count ∧ Denotes sides d.sides ∧
    match d.modifier with
    | none => numerals = [count, sides] ∧ cs = count ++ 'd' :: sides
    | some m => ∃ value, Denotes value m.value ∧ numerals = [count, sides, value] ∧
        cs = count ++ 'd' :: sides ++ m.sign.toChar :: value

theorem inGrammar_iff_writtenAs {d : Dice} {numerals : List (List Char)} {cs : List Char} :
    d.InGrammar numerals cs ↔ d.WrittenAs numerals cs := by
  constructor
  · obtain ⟨count, sides, modifier⟩ := d
    rintro ⟨c, s, hcount, hsides, hmodifier⟩
    rw [Text.denotes_iff] at hcount hsides
    cases modifier with
    | none =>
      obtain ⟨rfl, rfl⟩ := hmodifier
      exact .plain hcount hsides
    | some m =>
      obtain ⟨v, hvalue, rfl, rfl⟩ := hmodifier
      exact .modified hcount hsides (Text.denotes_iff.mp hvalue)
  · intro h
    cases h with
    | @plain count sides c s hcount hsides =>
      exact ⟨c, s, Text.denotes_iff.mpr hcount, Text.denotes_iff.mpr hsides, rfl, rfl⟩
    | @modified count sides m c s v hcount hsides hvalue =>
      exact ⟨c, s, Text.denotes_iff.mpr hcount, Text.denotes_iff.mpr hsides, v,
        Text.denotes_iff.mpr hvalue, rfl, rfl⟩

/-- Trimming leaves an expression of the text that white space was put around. -/
theorem WrittenAs.trim_between {d : Dice} {numerals : List (List Char)} {front cs back : List Char}
    (h : d.WrittenAs numerals cs) (hfront : ∀ c ∈ front, isBlank c = true)
    (hback : ∀ c ∈ back, isBlank c = true) : Text.trim (front ++ cs ++ back) = cs := by
  have hstart := h.startsWithDigit_append []
  have hend := h.endsWithDigit
  rw [List.append_nil, Text.startsWithDigit] at hstart
  rw [Text.endsWithDigit] at hend
  apply Text.trim_between h.ne_nil
  · intro c hc
    rw [Option.mem_def.mp hc] at hstart
    exact Text.isBlank_of_isDigit hstart
  · intro c hc
    rw [Option.mem_def.mp hc] at hend
    exact Text.isBlank_of_isDigit hend
  · exact hfront
  · exact hback

theorem parse_eq_error_of_ne_ok {text : String} (h : ∀ d, Dice.parse text ≠ .ok d) :
    Dice.parse text = .error (.unreadable text) := by
  unfold Dice.parse at h ⊢
  cases hread : read? (Text.trim text.toList) with
  | none => rfl
  | some d =>
    rw [hread] at h
    exact absurd rfl (h d)

/-- Printed dice are read back from between white space. -/
theorem parse_render_between (d : Dice) {front back : String}
    (hfront : ∀ c ∈ front.toList, isBlank c = true) (hback : ∀ c ∈ back.toList, isBlank c = true) :
    Dice.parse (front ++ d.render ++ back) = .ok d := by
  obtain ⟨numerals, hwritten⟩ := d.exists_writtenAs_render
  rw [parse_eq_ok_iff, String.toList_append, String.toList_append,
    hwritten.trim_between hfront hback]
  exact ⟨numerals, hwritten⟩

/-- **An expression is read exactly when it is in the grammar.**  It is trimmed first, and the dice are
those that its numerals and its sign stand for; any other text is an error that keeps the text as it was
given.  So all dice are read back from where they are printed, whatever white space is put around them, and
an expression is the printed one exactly when none of its numerals has a needless zero. -/
theorem parse_eq_ok_iff_inGrammar (text : String) :
    (∀ d, Dice.parse text = .ok d ↔ ∃ numerals, d.InGrammar numerals (Text.trim text.toList)) ∧
      ((∀ (d : Dice) numerals, ¬ d.InGrammar numerals (Text.trim text.toList)) →
        Dice.parse text = .error (.unreadable text)) ∧
      (∀ (d : Dice) (front back : String), (∀ c ∈ front.toList, isBlank c = true) →
        (∀ c ∈ back.toList, isBlank c = true) → Dice.parse (front ++ d.render ++ back) = .ok d) ∧
      ∀ (d : Dice) numerals, d.InGrammar numerals (Text.trim text.toList) →
        (d.render.toList = Text.trim text.toList ↔
          ∀ numeral ∈ numerals, ¬ HasNeedlessZero numeral) := by
  have hiff : ∀ d, Dice.parse text = .ok d ↔
      ∃ numerals, d.InGrammar numerals (Text.trim text.toList) := by
    intro d
    simp only [parse_eq_ok_iff, inGrammar_iff_writtenAs]
  refine ⟨hiff, ?_, fun d front back => d.parse_render_between, ?_⟩
  · intro h
    apply parse_eq_error_of_ne_ok
    intro d hd
    obtain ⟨numerals, hgrammar⟩ := (hiff d).mp hd
    exact h d numerals hgrammar
  · intro d numerals hgrammar
    rw [← eq_render_iff_of_writtenAs (inGrammar_iff_writtenAs.mp hgrammar)]
    exact eq_comm

/-- A sign in front of a numeral is no part of the grammar, zeros in front of one are, and dice that cannot
be rolled are printed and read back all the same. -/
theorem parse_eq_ok_iff_inGrammar_padded :
    let dice : Dice := { count := 7, sides := 6, modifier := some { sign := .plus, value := 1 } }
    let sideless : Dice := { count := 4294967295, sides := 0 }
    (∀ (d : Dice) numerals, ¬ d.InGrammar numerals (Text.trim " 7d+6".toList)) ∧
      Dice.parse " 7d+6" = .error (.unreadable " 7d+6") ∧
      dice.InGrammar [['0', '7'], ['6'], ['1']] (Text.trim " 07d6+1\t".toList) ∧
      dice.render.toList ≠ Text.trim " 07d6+1\t".toList ∧
      Dice.parse ("\u3000" ++ sideless.render ++ "\n") = .ok sideless := by
  intro dice sideless
  have hrefused : Dice.parse " 7d+6" = .error (.unreadable " 7d+6") := by cbv
  have htrim : Text.trim " 07d6+1\t".toList = "07d6+1".toList := by cbv
  obtain ⟨hiff, herror, -, -⟩ := parse_eq_ok_iff_inGrammar " 7d+6"
  obtain ⟨-, -, hback, hrender⟩ := parse_eq_ok_iff_inGrammar " 07d6+1\t"
  have hnot : ∀ (d : Dice) numerals, ¬ d.InGrammar numerals (Text.trim " 7d+6".toList) := by
    intro d numerals hgrammar
    have hread := (hiff d).mpr ⟨numerals, hgrammar⟩
    rw [hrefused] at hread
    cases hread
  have hgrammar : dice.InGrammar [['0', '7'], ['6'], ['1']] (Text.trim " 07d6+1\t".toList) := by
    rw [htrim]
    have hcount : Denotes ['0', '7'] 7 := ⟨by simp, by simp, by cbv⟩
    have hsides : Denotes ['6'] 6 := ⟨by simp, by simp, by cbv⟩
    have hvalue : Denotes ['1'] 1 := ⟨by simp, by simp, by cbv⟩
    exact ⟨_, _, hcount, hsides, _, hvalue, rfl, rfl⟩
  have hfront : ∀ c ∈ "\u3000".toList, isBlank c = true := by simp [isBlank]
  have hnewline : ∀ c ∈ "\n".toList, isBlank c = true := by simp [isBlank]
  refine ⟨hnot, herror hnot, hgrammar, ?_, hback sideless _ _ hfront hnewline⟩
  intro hsame
  exact (hrender dice _ hgrammar).mp hsame ['0', '7'] (by simp) ⟨'7', [], rfl⟩

end Dice

end Augury
