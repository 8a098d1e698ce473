import Augury.Proofs.Reading

/-!
# The texts of nodes

A text is spelled by nodes when it is made up of one fragment for each of them: the text of the node as
it is rendered, except that the numerals of dice may have zeros in front.  Rendering nodes spells them
(`spelled_render`), and it does so without a needless zero: the rendered text is the shortest one and
the only one of its kind (`flatten_eq_render_iff`).
-/

set_option autoImplicit false

namespace Augury.Prompt

open Text (HasNeedlessZero)

/-- A piece of a text, with the numerals of the dice in it. -/
structure Fragment where
  numerals : List (List Char)
  text : List Char

/-- The fragments of a node: its rendered text or, for dice, one with zeros in front of numerals. -/
inductive Node.WrittenAs : Node → Fragment → Prop where
  | exact {node : Node} (hnode : ∀ d, node ≠ .dice d) : WrittenAs node ⟨[], node.render.toList⟩
  | dice {d : Dice} {numerals : List (List Char)} {text : List Char}
      (hdice : d.WrittenAs numerals text) : WrittenAs (.dice d) ⟨numerals, text⟩

/-- The texts that are made up of one fragment for each node, in the order of the nodes. -/
inductive Spelled : List Node → List Char → Prop where
  | nil : Spelled [] []
  | cons {node : Node} {fragment : Fragment} {nodes : List Node} {cs : List Char}
      (hnode : node.WrittenAs fragment) (hrest : Spelled nodes cs) :
      Spelled (node :: nodes) (fragment.text ++ cs)

/-! ## Fragments -/

theorem spelled_iff_exists_fragments {nodes : List Node} {cs : List Char} :
    Spelled nodes cs ↔ ∃ fragments, List.Forall₂ Node.WrittenAs nodes fragments ∧
      cs = (fragments.map Fragment.text).flatten := by
  constructor
  · intro h
    induction h with
    | nil => exact ⟨[], .nil, rfl⟩
    | @cons node fragment nodes cs hnode hrest ih =>
      obtain ⟨fragments, hfragments, rfl⟩ := ih
      exact ⟨fragment :: fragments, .cons hnode hfragments, rfl⟩
  · rintro ⟨fragments, hfragments, rfl⟩
    induction hfragments with
    | nil => exact .nil
    | cons hnode _ ih => exact .cons hnode ih

theorem Node.writtenAs_text (value : String) : WrittenAs (.text value) ⟨[], value.toList⟩ :=
  .exact (by simp)

theorem Node.exists_writtenAs_render (node : Node) :
    ∃ numerals, node.WrittenAs ⟨numerals, node.render.toList⟩ := by
  cases node with
  | text value => exact ⟨[], .exact (by simp)⟩
  | choice options => exact ⟨[], .exact (by simp)⟩
  | table name => exact ⟨[], .exact (by simp)⟩
  | dice d =>
    obtain ⟨numerals, h⟩ := d.exists_writtenAs_render
    exact ⟨numerals, .dice h⟩

theorem Node.WrittenAs.eq_render_iff {node : Node} {fragment : Fragment}
    (h : node.WrittenAs fragment) :
    fragment.text = node.render.toList ↔
      ∀ numeral ∈ fragment.numerals, ¬ HasNeedlessZero numeral := by
  cases h with
  | exact hnode => simp
  | dice hdice => exact Dice.eq_render_iff_of_writtenAs hdice

theorem Node.WrittenAs.length_render_le {node : Node} {fragment : Fragment}
    (h : node.WrittenAs fragment) : node.render.toList.length ≤ fragment.text.length := by
  cases h with
  | exact hnode => exact Nat.le_refl _
  | dice hdice => exact hdice.length_render_le

/-! ## Rendered nodes -/

theorem toList_render_cons (node : Node) (nodes : List Node) :
    (render (node :: nodes)).toList = node.render.toList ++ (render nodes).toList := by
  simp [render]

theorem spelled_render (nodes : List Node) : Spelled nodes (render nodes).toList := by
  induction nodes with
  | nil => exact .nil
  | cons node nodes ih =>
    obtain ⟨numerals, hnode⟩ := node.exists_writtenAs_render
    rw [toList_render_cons]
    exact .cons hnode ih

theorem Spelled.length_render_le {nodes : List Node} {cs : List Char} (h : Spelled nodes cs) :
    (render nodes).toList.length ≤ cs.length := by
  induction h with
  | nil => exact Nat.le_refl _
  | @cons node fragment nodes cs hnode hrest ih =>
    have hfragment := hnode.length_render_le
    rw [toList_render_cons, List.length_append, List.length_append]
    omega

/-- Fragments make up the rendered text exactly when no numeral of theirs has a needless zero.  Since
no fragment is shorter than its rendered node, equal texts are cut at the same places. -/
theorem flatten_eq_render_iff {nodes : List Node} {fragments : List Fragment}
    (h : List.Forall₂ Node.WrittenAs nodes fragments) :
    (fragments.map Fragment.text).flatten = (render nodes).toList ↔
      ∀ fragment ∈ fragments, ∀ numeral ∈ fragment.numerals, ¬ HasNeedlessZero numeral := by
  induction h with
  | nil => simp [render]
  | @cons node fragment nodes fragments hnode hrest ih =>
    have hfragment := hnode.length_render_le
    have hnodes := (spelled_iff_exists_fragments.mpr ⟨fragments, hrest, rfl⟩).length_render_le
    rw [toList_render_cons, List.map_cons, List.flatten_cons, List.forall_mem_cons, ← ih,
      ← hnode.eq_render_iff]
    constructor
    · intro heq
      have hlength := congrArg List.length heq
      rw [List.length_append, List.length_append] at hlength
      exact List.append_inj heq (by omega)
    · rintro ⟨htext, hflatten⟩
      rw [htext, hflatten]

/-! ## Putting tokens in front -/

/-- Literal text in front of what nodes spell is spelled with the literal text in front of the
nodes. -/
theorem Spelled.cons_literal {nodes : List Node} {cs : List Char} (h : Spelled nodes cs)
    (front : List Char) : Spelled (Node.cons (.literal front) nodes) (front ++ cs) := by
  cases h with
  | nil => simpa [Node.cons] using Spelled.cons (Node.writtenAs_text (String.ofList front)) .nil
  | @cons node fragment nodes cs hnode hrest =>
    cases node with
    | text value =>
      cases hnode with
      | exact _ =>
        have h := Spelled.cons (Node.writtenAs_text (String.ofList front ++ value)) hrest
        simpa [Node.render] using h
    | choice options =>
      simpa [Node.cons] using Spelled.cons (Node.writtenAs_text (String.ofList front)) (.cons hnode hrest)
    | table name =>
      simpa [Node.cons] using Spelled.cons (Node.writtenAs_text (String.ofList front)) (.cons hnode hrest)
    | dice d =>
      simpa [Node.cons] using Spelled.cons (Node.writtenAs_text (String.ofList front)) (.cons hnode hrest)

theorem splitOn_eq_splitOn (separator : Char) (cs : List Char) :
    Text.splitOn separator cs = cs.splitOn separator := by
  induction cs with
  | nil => rfl
  | cons c cs ih =>
    rw [Text.splitOn, List.splitOn_cons_eq_if_modifyHead, ih]
    simp

theorem mem_of_mem_intercalate {separator : List Char} {pieces : List (List Char)} {c : Char}
    (h : c ∈ separator.intercalate pieces) : c ∈ separator ∨ ∃ piece ∈ pieces, c ∈ piece := by
  induction pieces with
  | nil => simp at h
  | cons piece pieces ih =>
    by_cases hnil : pieces = []
    · subst hnil
      rw [List.intercalate_singleton] at h
      exact .inr ⟨piece, by simp, h⟩
    · rw [List.intercalate_cons_of_ne_nil hnil] at h
      simp only [List.mem_append] at h
      rcases h with (h | h) | h
      · exact .inr ⟨piece, by simp, h⟩
      · exact .inl h
      · rcases ih h with h | ⟨other, hother, h⟩
        · exact .inl h
        · exact .inr ⟨other, List.mem_cons_of_mem _ hother, h⟩

theorem not_mem_and_subset_of_mem_splitOn {separator : Char} {cs piece : List Char}
    (h : piece ∈ Text.splitOn separator cs) : separator ∉ piece ∧ piece ⊆ cs := by
  induction cs generalizing piece with
  | nil =>
    obtain rfl : piece = [] := by simpa [Text.splitOn] using h
    simp
  | cons c cs ih =>
    rw [Text.splitOn] at h
    split at h
    · rcases List.mem_cons.mp h with rfl | h
      · simp
      · exact ⟨(ih h).1, List.subset_cons_of_subset c (ih h).2⟩
    · next hc =>
      cases hsplit : Text.splitOn separator cs with
      | nil => simp [hsplit] at h
      | cons first others =>
        rw [hsplit, List.modifyHead_cons] at h
        rw [hsplit] at ih
        rcases List.mem_cons.mp h with rfl | h
        · obtain ⟨hmem, hsubset⟩ := ih (List.mem_cons_self ..)
          exact ⟨by simp [Ne.symm hc, hmem], List.cons_subset_cons c hsubset⟩
        · obtain ⟨hmem, hsubset⟩ := ih (List.mem_cons_of_mem _ h)
          exact ⟨hmem, List.subset_cons_of_subset c hsubset⟩

/-- The node of a block is rendered as the block. -/
theorem exists_node_of_block (kind : Block) (body : List Char) :
    ∃ node : Node, (∀ d, node ≠ .dice d) ∧
      node.render.toList = kind.opener :: body ++ [kind.closer] ∧
      ∀ nodes, Node.cons (.block kind body) nodes = node :: nodes := by
  cases kind with
  | choice =>
    refine ⟨.choice ((Text.splitOn '|' body).map String.ofList), by simp, ?_, fun _ => rfl⟩
    simp [Node.render, splitOn_eq_splitOn, Block.opener, Block.closer]
  | table =>
    refine ⟨.table (String.ofList body), by simp, ?_, fun _ => rfl⟩
    simp [Node.render, Block.opener, Block.closer]

end Augury.Prompt
