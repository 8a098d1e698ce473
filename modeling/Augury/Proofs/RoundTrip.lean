import Augury.Proofs.ReadBack
import Mathlib

/-!
# Round trips between texts and nodes

Reading a prompt keeps all of its text but needless zeros in the numerals of dice, and its nodes are
read back from their rendered text (`parse_eq_ok_lossless`).  Conversely the readable nodes are exactly
those that rendering and reading give back (`parse_render_eq_ok_iff`).  Where dice without a modifier
are followed by a sign, it takes dice behind the sign to spoil the round trip: the sign alone does not
(`not_forall_parse_render_iff_no_sign_behind_dice`).
-/

set_option autoImplicit false

namespace Augury.Prompt

open Text (HasNeedlessZero)

/-- Fragments of nodes, one for each, that make up a text. -/
structure CutInto (text : String) (nodes : List Node) (fragments : List Fragment) : Prop where
  writtenAs : List.Forall₂ Node.WrittenAs nodes fragments
  flatten : text.toList = (fragments.map Fragment.text).flatten

theorem Node.WrittenAs.ne_nil_of_readable {node : Node} {fragment : Fragment} {nodes : List Node}
    (h : node.WrittenAs fragment) (hreadable : Readable nodes) (hmem : node ∈ nodes) :
    fragment.text ≠ [] := by
  cases h with
  | exact hdice =>
    cases node with
    | text v => simpa [Node.render] using hreadable.text_ne v hmem
    | choice options => simp [Node.render]
    | table name => simp [Node.render]
    | dice d => exact absurd rfl (hdice d)
  | dice hdice => exact hdice.ne_nil

/-- **Reading is lossless, and rendering gives a normal form.**  A readable text is cut into one
non-empty fragment for each node.  The rendered nodes are read as the same nodes, and they are the text
itself exactly when no numeral of its dice has a needless zero. -/
theorem parse_eq_ok_lossless {text : String} {nodes : List Node} (h : parse text = .ok nodes) :
    (∃ fragments, CutInto text nodes fragments ∧ ∀ fragment ∈ fragments, fragment.text ≠ []) ∧
      parse (render nodes) = .ok nodes ∧
      ∀ fragments, CutInto text nodes fragments →
        (render nodes = text ↔
          ∀ fragment ∈ fragments, ∀ numeral ∈ fragment.numerals, ¬ HasNeedlessZero numeral) := by
  obtain ⟨hspelled, hreadable⟩ := parse_eq_ok_iff.mp h
  refine ⟨?_, parse_eq_ok_iff.mpr ⟨spelled_render nodes, hreadable⟩, ?_⟩
  · obtain ⟨fragments, hwritten, hflatten⟩ := spelled_iff_exists_fragments.mp hspelled
    refine ⟨fragments, ⟨hwritten, hflatten⟩, ?_⟩
    intro fragment hfragment
    obtain ⟨i, hi, rfl⟩ := List.getElem_of_mem hfragment
    have hnode := hwritten.get (by rw [hwritten.length_eq]; exact hi) hi
    exact hnode.ne_nil_of_readable hreadable (List.get_mem _ _)
  · intro fragments hcut
    rw [← flatten_eq_render_iff hcut.writtenAs, ← hcut.flatten, String.toList_inj]
    exact eq_comm

/-- A count that is too large is text, and the zero of the dice behind it goes. -/
theorem parse_eq_ok_lossless_oversized :
    parse "99999999999d06d4" = .ok [.text "99999999999d", .dice { count := 6, sides := 4 }] ∧
      parse "99999999999d6d4" = .ok [.text "99999999999d", .dice { count := 6, sides := 4 }] := by
  have h : parse "99999999999d06d4" =
      .ok [.text "99999999999d", .dice { count := 6, sides := 4 }] := by cbv
  have hrender : render [.text "99999999999d", .dice { count := 6, sides := 4 }] =
      "99999999999d6d4" := by cbv
  refine ⟨h, ?_⟩
  rw [← hrender]
  exact (parse_eq_ok_lossless h).2.1

/-- **The exact domain of the round trip from nodes.**  Rendered nodes are read as the same nodes exactly
when the nodes are readable. -/
theorem parse_render_eq_ok_iff (nodes : List Node) :
    parse (render nodes) = .ok nodes ↔ Readable nodes := by
  rw [parse_eq_ok_iff]
  constructor
  · rintro ⟨-, hreadable⟩
    exact hreadable
  · intro hreadable
    exact ⟨spelled_render nodes, hreadable⟩

/-- Dice without a modifier may be followed by a sign alone: in `1d4-` the sign is a text of its own.
Forbidding it as well would leave out nodes that are read back. -/
theorem not_forall_parse_render_iff_no_sign_behind_dice :
    ¬ ∀ nodes : List Node, parse (render nodes) = .ok nodes ↔
      Readable nodes ∧ ∀ (d : Dice) (sign : Sign), d.modifier = none →
        ¬ [.dice d, .text (String.singleton sign.toChar)] <:+: nodes := by
  intro h
  have hparse : parse (render [.dice { count := 1, sides := 4 }, .text "-"]) =
      .ok [.dice { count := 1, sides := 4 }, .text "-"] := by cbv
  obtain ⟨-, hsign⟩ := (h _).mp hparse
  exact hsign { count := 1, sides := 4 } .minus rfl (List.infix_refl _)

end Augury.Prompt
