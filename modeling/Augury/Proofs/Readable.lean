import Augury.Proofs.Spelling

/-!
# Nodes that can be read back

`Readable` says of a list of nodes, by conditions on single nodes and on neighbours, that its rendered
text is read as these nodes again.  A list is readable when what follows its first node is, and when the
first node fits what follows it (`readable_text_cons`, `readable_dice_cons`).
-/

set_option autoImplicit false

namespace Augury.Prompt

open Text (IsRun EveryRun Oversized startsWithDigit endsWithDigit)

/-- No run of a text is directly followed by a `d` and a second run so that both are words. -/
def HidesNoDice (cs : List Char) : Prop :=
  EveryRun (fun run tail => ∀ sides back, tail = 'd' :: sides ++ back → IsRun ['d'] sides back →
    Oversized run ∨ Oversized sides) cs

/-- A text that starts with a sign has no word directly behind it. -/
def OffersNoModifier (cs : List Char) : Prop :=
  ∀ (sign : Sign) (run back : List Char), cs = sign.toChar :: run ++ back →
    IsRun [sign.toChar] run back → Oversized run

/-- A text does not end in a digit, nor in a word with a `d` behind it. -/
def LeavesDice (cs : List Char) : Prop :=
  endsWithDigit cs = false ∧ EveryRun (fun run tail => tail = ['d'] → Oversized run) cs

/-- Node lists that are read back from their rendered text. -/
structure Readable (nodes : List Node) : Prop where
  text_ne : ∀ v, .text v ∈ nodes → v ≠ ""
  text_opener : ∀ v, .text v ∈ nodes → '{' ∉ v.toList ∧ '[' ∉ v.toList
  text_text : ∀ v w, ¬ [.text v, .text w] <:+: nodes
  choice : ∀ options, .choice options ∈ nodes →
    options ≠ [] ∧ ∀ option ∈ options, '|' ∉ option.toList ∧ '}' ∉ option.toList
  table : ∀ name, .table name ∈ nodes → ']' ∉ name.toList
  text_hides : ∀ v, .text v ∈ nodes → HidesNoDice v.toList
  dice_text : ∀ d v, [.dice d, .text v] <:+: nodes →
    startsWithDigit v.toList = false ∧ (d.modifier = none → OffersNoModifier v.toList)
  text_dice : ∀ v d, [.text v, .dice d] <:+: nodes → LeavesDice v.toList
  dice_dice : ∀ d e, ¬ [.dice d, .dice e] <:+: nodes
  dice_sign_dice : ∀ (d : Dice) (sign : Sign) (e : Dice), d.modifier = none →
    ¬ [.dice d, .text (String.singleton sign.toChar), .dice e] <:+: nodes

/-- A text may stand in front of nodes; the empty text stands for none. -/
structure TextFits (v : List Char) (nodes : List Node) : Prop where
  opener : '{' ∉ v ∧ '[' ∉ v
  hides : HidesNoDice v
  text : ∀ w, ¬ [.text w] <+: nodes
  dice : ∀ d, [.dice d] <+: nodes → LeavesDice v

/-- Dice may stand in front of nodes. -/
structure DiceFit (d : Dice) (nodes : List Node) : Prop where
  dice : ∀ e, ¬ [.dice e] <+: nodes
  text : ∀ v, [.text v] <+: nodes →
    startsWithDigit v.toList = false ∧ (d.modifier = none → OffersNoModifier v.toList)
  sign : ∀ (sign : Sign) (e : Dice), d.modifier = none →
    ¬ [.text (String.singleton sign.toChar), .dice e] <+: nodes

theorem Readable.tail {node : Node} {nodes : List Node} (h : Readable (node :: nodes)) :
    Readable nodes where
  text_ne v hv := h.text_ne v (List.mem_cons_of_mem _ hv)
  text_opener v hv := h.text_opener v (List.mem_cons_of_mem _ hv)
  text_text v w hvw := h.text_text v w (List.infix_cons hvw)
  choice options ho := h.choice options (List.mem_cons_of_mem _ ho)
  table name hn := h.table name (List.mem_cons_of_mem _ hn)
  text_hides v hv := h.text_hides v (List.mem_cons_of_mem _ hv)
  dice_text d v hdv := h.dice_text d v (List.infix_cons hdv)
  text_dice v d hvd := h.text_dice v d (List.infix_cons hvd)
  dice_dice d e hde := h.dice_dice d e (List.infix_cons hde)
  dice_sign_dice d sign e hd hdse := h.dice_sign_dice d sign e hd (List.infix_cons hdse)

theorem readable_nil : Readable [] := by
  constructor <;> simp

theorem cons_infix_cons_of_front {node : Node} {first nodes : List Node} (h : first <+: nodes) :
    node :: first <:+: node :: nodes :=
  List.infix_cons_iff.mpr (.inl (List.cons_prefix_cons.mpr ⟨rfl, h⟩))

/-- Nodes that start with a text are readable when the text fits what follows it. -/
theorem readable_text_cons {v : String} {nodes : List Node} :
    Readable (.text v :: nodes) ↔ v ≠ "" ∧ TextFits v.toList nodes ∧ Readable nodes := by
  constructor
  · intro h
    refine ⟨h.text_ne v (by simp), ⟨h.text_opener v (by simp), h.text_hides v (by simp), ?_, ?_⟩,
      h.tail⟩
    · intro w hw
      exact h.text_text v w (cons_infix_cons_of_front hw)
    · intro d hd
      exact h.text_dice v d (cons_infix_cons_of_front hd)
  · rintro ⟨hv, hfit, h⟩
    -- the conditions on the other kinds of nodes do not look at a text in front
    constructor <;>
      simp only [List.mem_cons, List.infix_cons_iff, List.cons_prefix_cons, Node.text.injEq,
        reduceCtorEq, false_and, false_or, forall_eq_or_imp]
    · exact ⟨hv, h.text_ne⟩
    · exact ⟨hfit.opener, h.text_opener⟩
    · rintro x w (⟨rfl, hw⟩ | hw)
      · exact hfit.text w hw
      · exact h.text_text x w hw
    · exact h.choice
    · exact h.table
    · exact ⟨hfit.hides, h.text_hides⟩
    · exact h.dice_text
    · rintro x d (⟨rfl, hd⟩ | hd)
      · exact hfit.dice d hd
      · exact h.text_dice x d hd
    · exact h.dice_dice
    · exact h.dice_sign_dice

/-- Nodes that start with dice are readable when the dice fit what follows them. -/
theorem readable_dice_cons {d : Dice} {nodes : List Node} :
    Readable (.dice d :: nodes) ↔ DiceFit d nodes ∧ Readable nodes := by
  constructor
  · intro h
    refine ⟨⟨?_, ?_, ?_⟩, h.tail⟩
    · intro e he
      exact h.dice_dice d e (cons_infix_cons_of_front he)
    · intro v hv
      exact h.dice_text d v (cons_infix_cons_of_front hv)
    · intro sign e hd he
      exact h.dice_sign_dice d sign e hd (cons_infix_cons_of_front he)
  · rintro ⟨hfit, h⟩
    constructor <;>
      simp only [List.mem_cons, List.infix_cons_iff, List.cons_prefix_cons, Node.dice.injEq,
        reduceCtorEq, false_and, false_or]
    · exact h.text_ne
    · exact h.text_opener
    · exact h.text_text
    · exact h.choice
    · exact h.table
    · exact h.text_hides
    · rintro x v (⟨rfl, hv⟩ | hv)
      · exact hfit.text v hv
      · exact h.dice_text x v hv
    · exact h.text_dice
    · rintro x e (⟨rfl, he⟩ | he)
      · exact hfit.dice e he
      · exact h.dice_dice x e he
    · rintro x sign e hx (⟨rfl, he⟩ | he)
      · exact hfit.sign sign e hx (by simpa [List.cons_prefix_cons] using he)
      · exact h.dice_sign_dice x sign e hx he

theorem readable_choice_cons {options : List String} {nodes : List Node} :
    Readable (.choice options :: nodes) ↔
      (options ≠ [] ∧ ∀ option ∈ options, '|' ∉ option.toList ∧ '}' ∉ option.toList) ∧
        Readable nodes := by
  constructor
  · intro h
    exact ⟨h.choice options (by simp), h.tail⟩
  · rintro ⟨hoptions, h⟩
    constructor <;>
      simp only [List.mem_cons, List.infix_cons_iff, List.cons_prefix_cons, Node.choice.injEq,
        reduceCtorEq, false_and, false_or, forall_eq_or_imp]
    · exact h.text_ne
    · exact h.text_opener
    · exact h.text_text
    · exact ⟨hoptions, h.choice⟩
    · exact h.table
    · exact h.text_hides
    · exact h.dice_text
    · exact h.text_dice
    · exact h.dice_dice
    · exact h.dice_sign_dice

theorem readable_table_cons {name : String} {nodes : List Node} :
    Readable (.table name :: nodes) ↔ ']' ∉ name.toList ∧ Readable nodes := by
  constructor
  · intro h
    exact ⟨h.table name (by simp), h.tail⟩
  · rintro ⟨hname, h⟩
    constructor <;>
      simp only [List.mem_cons, List.infix_cons_iff, List.cons_prefix_cons, Node.table.injEq,
        reduceCtorEq, false_and, false_or, forall_eq_or_imp]
    · exact h.text_ne
    · exact h.text_opener
    · exact h.text_text
    · exact h.choice
    · exact ⟨hname, h.table⟩
    · exact h.text_hides
    · exact h.dice_text
    · exact h.text_dice
    · exact h.dice_dice
    · exact h.dice_sign_dice

end Augury.Prompt
