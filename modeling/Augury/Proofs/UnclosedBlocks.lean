import Augury.Proofs.Concatenation

/-!
# Blocks that are never closed

A prompt cannot be read exactly when it has an offending opener: an opening character behind a text that
can be read, with no closing character of its kind after it (`UnclosedAt`).  There is one such place at
most, and the error names it (`parse_eq_error_iff_unclosedAt`).

An opening character inside an earlier block, or one whose block is closed later, is no such place, since
the text in front of the one cannot be read and the text behind the other has a closing character.
-/

set_option autoImplicit false

namespace Augury.Prompt

open Text (IsRun startsWithDigit)

/-- At this byte offset of a text stands the opening character of a block that is not closed in the text
behind it, and the text in front of the offset can be read. -/
def UnclosedAt (text : String) (kind : Block) (offset : Nat) : Prop :=
  ∃ (front : String) (back : List Char), text.toList = front.toList ++ kind.opener :: back ∧
    Text.byteLength front.toList = offset ∧ (∃ nodes, parse front = .ok nodes) ∧
    kind.closer ∉ back

/-! ## The front of a text -/

section Front

variable {cs ds : List Char}

theorem scanDice?_of_append {run : List Char} (hds : startsWithDigit ds = false)
    (h : scanDice? run (cs ++ ds) = none) : scanDice? run cs = none := by
  rw [scanDice?_eq_none_iff] at h ⊢
  rintro tail rfl
  rw [← Text.leadingDigits_append_of_startsWithDigit tail hds]
  exact h (tail ++ ds) rfl

theorem scanModifier?_of_append (hds : startsWithDigit ds = false)
    (h : scanModifier? (cs ++ ds) = none) : scanModifier? cs = none := by
  rw [scanModifier?_eq_none_iff] at h ⊢
  rintro sign tail rfl
  rw [← Text.leadingDigits_append_of_startsWithDigit tail hds]
  exact h sign (tail ++ ds) rfl

end Front

/-- What stands in front of a block that is never closed is read as it is read alone. -/
theorem Reads.exists_front {cs rest : List Char} {nodes : List Node}
    {stop : Option (Block × List Char)} {kind : Block} (h : Reads cs nodes stop)
    (hstop : stop = some (kind, rest)) :
    ∃ front back before, cs = front ++ rest ∧ rest = kind.opener :: back ∧ kind.closer ∉ back ∧
      Reads front before none := by
  induction h with
  | nil => cases hstop
  | @unclosed kind' back hbody =>
    cases hstop
    exact ⟨[], back, [], rfl, rfl, hbody, .nil⟩
  | @plain c cs nodes stop hc hrest ih =>
    obtain ⟨front, back, before, rfl, rfl, hback, hfront⟩ := ih hstop
    exact ⟨c :: front, back, _, rfl, rfl, hback, .plain hc hfront⟩
  | @digits run cs nodes stop hrun hscan hrest ih =>
    obtain ⟨front, back, before, rfl, rfl, hback, hfront⟩ := ih hstop
    have hopener : startsWithDigit (kind.opener :: back) = false := kind.isDigit_opener
    have hrun' : IsRun [] run front :=
      ⟨hrun.ne_nil, hrun.isDigit, rfl, Text.startsWithDigit_of_append hrun.back⟩
    have hreads := Reads.digits hrun' (scanDice?_of_append hopener hscan) hfront
    refine ⟨run ++ front, back, _, ?_, rfl, hback, hreads⟩
    rw [List.append_assoc]
  | @dice d numerals text cs nodes stop hwritten hdigit hmodifier hrest ih =>
    obtain ⟨front, back, before, rfl, rfl, hback, hfront⟩ := ih hstop
    have hopener : startsWithDigit (kind.opener :: back) = false := kind.isDigit_opener
    have hmodifier' : d.modifier = none → scanModifier? front = none := by
      intro hplain
      exact scanModifier?_of_append hopener (hmodifier hplain)
    have hreads := Reads.dice hwritten (Text.startsWithDigit_of_append hdigit) hmodifier' hfront
    refine ⟨text ++ front, back, _, ?_, rfl, hback, hreads⟩
    rw [List.append_assoc]
  | @block inner body cs nodes stop hbody hrest ih =>
    obtain ⟨front, back, before, rfl, rfl, hback, hfront⟩ := ih hstop
    have hreads := Reads.block hbody hfront
    refine ⟨inner.opener :: body ++ inner.closer :: front, back, _, ?_, rfl, hback, hreads⟩
    simp only [List.cons_append, List.append_assoc]

/-! ## The offending opener -/

theorem startsOutside_opener (kind : Block) (cs : List Char) : StartsOutside (kind.opener :: cs) := by
  intro c hc
  obtain rfl : kind.opener = c := Option.some.inj hc
  cases kind with
  | choice => rfl
  | table => rfl

theorem parse_unclosed {kind : Block} {back : List Char} (hback : kind.closer ∉ back) :
    parse (String.ofList (kind.opener :: back)) = .error
      { block := kind, span := { start := 0, stop := Text.byteLength (kind.opener :: back) } } := by
  rw [parse_eq_error_iff_reads, String.toList_ofList]
  refine ⟨[], kind.opener :: back, .unclosed hback, ?_, rfl⟩
  show 0 = _
  rw [Nat.sub_self]

/-- The error about an offending opener is about the place where it stands. -/
theorem UnclosedAt.parse_eq_error {text : String} {kind : Block} {offset : Nat}
    (h : UnclosedAt text kind offset) :
    parse text = .error
      { block := kind, span := { start := offset, stop := Text.byteLength text.toList } } := by
  obtain ⟨front, back, htext, rfl, ⟨nodes, hfront⟩, hback⟩ := h
  have happend : front ++ String.ofList (kind.opener :: back) = text := by
    rw [← String.toList_inj, String.toList_append, String.toList_ofList, htext]
  have hapart : Apart front.toList (String.ofList (kind.opener :: back)).toList := by
    intro c hc hnotation
    rw [String.toList_ofList]
    exact startsOutside_opener kind back
  have herror := parse_append_of_eq_error hfront hapart (parse_unclosed hback)
  rwa [happend, Nat.add_zero, ← Text.byteLength_append, ← htext] at herror

/-- A prompt that cannot be read has an offending opener. -/
theorem exists_unclosedAt_of_parse_eq_error {text : String} {unclosed : Unclosed}
    (h : parse text = .error unclosed) : ∃ offset, UnclosedAt text unclosed.block offset := by
  obtain ⟨nodes, rest, hreads, -, -⟩ := parse_eq_error_iff_reads.mp h
  obtain ⟨front, back, before, hcs, rfl, hback, hfront⟩ := hreads.exists_front rfl
  refine ⟨Text.byteLength front, String.ofList front, back, ?_, ?_, ⟨before, ?_⟩, hback⟩
  · rw [String.toList_ofList, hcs]
  · rw [String.toList_ofList]
  · rw [parse_eq_ok_iff_reads, String.toList_ofList]
    exact hfront

/-- **Exactly when a prompt cannot be read.**  It has an offending opener, which is the only one; and the
error is about a block of its kind, from its offset to the end of the text. -/
theorem parse_eq_error_iff_unclosedAt (text : String) :
    ((∃ unclosed, parse text = .error unclosed) ↔ ∃ kind offset, UnclosedAt text kind offset) ∧
      ∀ kind offset, UnclosedAt text kind offset →
        (∀ other place, UnclosedAt text other place → other = kind ∧ place = offset) ∧
          parse text = .error
            { block := kind, span := { start := offset, stop := Text.byteLength text.toList } } := by
  refine ⟨⟨?_, ?_⟩, ?_⟩
  · rintro ⟨unclosed, h⟩
    exact ⟨unclosed.block, exists_unclosedAt_of_parse_eq_error h⟩
  · rintro ⟨kind, offset, h⟩
    exact ⟨_, h.parse_eq_error⟩
  · intro kind offset h
    refine ⟨?_, h.parse_eq_error⟩
    intro other place hother
    -- both places are the one that the error is about
    have hsame := Except.error.inj (hother.parse_eq_error.symm.trans h.parse_eq_error)
    exact ⟨congrArg Unclosed.block hsame, congrArg (fun u => u.span.start) hsame⟩

/-- The opener of a table inside a choice does no harm, and neither does the one of a choice inside the
table that is never closed; offsets count bytes. -/
theorem parse_eq_error_iff_unclosedAt_inside :
    UnclosedAt "à 2d6\x7bx[y\x7d[z\x7b" .table 11 ∧ ¬ UnclosedAt "à 2d6\x7bx[y\x7d[z\x7b" .choice 13 ∧
      parse "à 2d6\x7bx[y\x7d[z\x7b" =
        .error { block := .table, span := { start := 11, stop := 14 } } := by
  have hfront : parse "à 2d6\x7bx[y\x7d" =
      .ok [.text "à ", .dice { count := 2, sides := 6 }, .choice ["x[y"]] := by cbv
  have hoffset : Text.byteLength "à 2d6\x7bx[y\x7d".toList = 11 := by cbv
  have hstop : Text.byteLength "à 2d6\x7bx[y\x7d[z\x7b".toList = 14 := by cbv
  have hat : UnclosedAt "à 2d6\x7bx[y\x7d[z\x7b" .table 11 :=
    ⟨"à 2d6\x7bx[y\x7d", ['z', '\x7b'], by rfl, hoffset, ⟨_, hfront⟩, by decide⟩
  obtain ⟨-, hplace⟩ := parse_eq_error_iff_unclosedAt "à 2d6\x7bx[y\x7d[z\x7b"
  obtain ⟨honly, herror⟩ := hplace .table 11 hat
  rw [hstop] at herror
  refine ⟨hat, ?_, herror⟩
  intro hother
  obtain ⟨hkind, -⟩ := honly .choice 13 hother
  cases hkind

end Augury.Prompt
