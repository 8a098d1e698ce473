import Augury.Proofs.Flattening
import Augury.Proofs.ReadBack

/-!
# Literal text

Text without directives passes through a resolution untouched.  So does a reference to an unknown table,
which is left as it is written, so that a prompt of nothing but text and unknown references resolves to
itself under every limit and without a draw.  This covers every text that has no opening character and no
digit, `d` and digit in a row: it is read as one piece of text.

Conversely every choice draws once and accepted dice draw at least once.  Where no tables are given, a
resolution that drew nothing has therefore met nothing but literal text, and returned it
(`resolveRecorded_literal`).
-/

set_option autoImplicit false

namespace Augury.Prompt

open Augury.Random (Draw Recorded Records Script Source)
open Text (IsRun)

/-! ## Literal nodes -/

/-- A node is literal when it is text or refers to an unknown table. -/
def Node.IsLiteral (tables : Tables) (node : Node) : Prop :=
  (∃ value, node = .text value) ∨ ∃ name, node = .table name ∧ tables[name]? = none

section Literal

variable {tables : Tables} {expand : String → String → Plan}

theorem Node.IsLiteral.plan_eq {node : Node} (h : node.IsLiteral tables) :
    node.plan tables expand = { leaves := [node], error := none } := by
  rcases h with ⟨value, rfl⟩ | ⟨name, rfl, hunknown⟩
  · rfl
  · simp only [Node.plan, hunknown]
    rfl

theorem Node.IsLiteral.ne_dice {node : Node} (h : node.IsLiteral tables) (d : Dice) :
    node ≠ .dice d := by
  rcases h with ⟨value, rfl⟩ | ⟨name, rfl, -⟩ <;> simp

variable {σ : Type} [Source σ]

/-- A literal node is replaced by the text that it was read from, without a draw. -/
theorem Node.IsLiteral.emit_eq {node : Node} (h : node.IsLiteral tables) :
    (node.emit : StateM σ String) = pure node.render := by
  rcases h with ⟨value, rfl⟩ | ⟨name, rfl, -⟩
  · rfl
  · rfl

theorem planNodes_eq_of_literal {nodes : List Node} (h : ∀ node ∈ nodes, node.IsLiteral tables) :
    planNodes tables expand nodes = { leaves := nodes, error := none } := by
  induction nodes with
  | nil => rfl
  | cons node nodes ih =>
    rw [List.forall_mem_cons] at h
    rw [planNodes_cons, ih h.2, h.1.plan_eq]
    rfl

theorem emitAll_eq_of_literal {nodes : List Node} (h : ∀ node ∈ nodes, node.IsLiteral tables) :
    (emitAll nodes : StateM σ String) = pure (render nodes) := by
  induction nodes with
  | nil => rfl
  | cons node nodes ih =>
    rw [List.forall_mem_cons] at h
    rw [emitAll, h.1.emit_eq, ih h.2]
    simp [render]

end Literal

/-- Literal nodes are spelled in one way only, which is how they are rendered. -/
theorem Spelled.eq_render {nodes : List Node} {cs : List Char} (h : Spelled nodes cs)
    (hdice : ∀ node ∈ nodes, ∀ d, node ≠ .dice d) : cs = (render nodes).toList := by
  induction h with
  | nil => rfl
  | @cons node fragment nodes cs hnode hrest ih =>
    rw [List.forall_mem_cons] at hdice
    rw [toList_render_cons, ← ih hdice.2]
    cases hnode with
    | exact _ => rfl
    | @dice d _ _ _ => exact absurd rfl (hdice.1 d)

/-- A text of literal nodes is what they are rendered as. -/
theorem render_eq_of_literal {tables : Tables} {text : String} {nodes : List Node}
    (hparse : parse text = .ok nodes) (h : ∀ node ∈ nodes, node.IsLiteral tables) :
    render nodes = text := by
  have hspelled : Spelled nodes text.toList := (parse_eq_ok_iff.mp hparse).1
  have hrender := hspelled.eq_render fun node hnode => (h node hnode).ne_dice
  rw [← String.toList_inj, hrender]

/-- **Literal nodes are resolved to the text that they were read from**, and nothing is drawn. -/
theorem resolveRecorded_eq_self {σ : Type} [Source σ] {tables : Tables} {text : String}
    {nodes : List Node} (hparse : parse text = .ok nodes)
    (h : ∀ node ∈ nodes, node.IsLiteral tables) (limit : Nat) (s : σ) :
    resolveRecorded tables limit text s = (.ok text, { source := s }) := by
  obtain ⟨expand, hplan⟩ := exists_plan_eq_planText tables limit
  rw [resolveRecorded_eq, hplan, planText_of_parse_eq_ok hparse, planNodes_eq_of_literal h]
  simp only [emitAll_eq_of_literal h, render_eq_of_literal hparse h]
  rfl

/-! ## Texts without directives -/

/-- A text has no opening character and no digit, `d` and digit in a row. -/
structure NoDirective (text : String) : Prop where
  brace : '{' ∉ text.toList
  bracket : '[' ∉ text.toList
  dice : ∀ x y : Char, x.isDigit = true → y.isDigit = true → ¬ [x, 'd', y] <:+: text.toList

/-- Where a run of digits, a `d` and a second run follow each other, there is a digit on either side of
the `d`. -/
theorem NoDirective.hidesNoDice {text : String} (h : NoDirective text) : HidesNoDice text.toList := by
  rintro front run tail htext hrun sides back rfl hsides
  exfalso
  obtain ⟨init, x, rfl⟩ : ∃ init x, run = init ++ [x] := by
    exact ⟨_, _, (List.dropLast_append_getLast hrun.ne_nil).symm⟩
  obtain ⟨y, more, rfl⟩ := List.exists_cons_of_ne_nil hsides.ne_nil
  apply h.dice x y (hrun.isDigit x (by simp)) (hsides.isDigit y (by simp))
  refine ⟨front ++ init, more ++ back, ?_⟩
  rw [htext]
  simp

theorem NoDirective.exists_parse_eq_ok {text : String} (h : NoDirective text) :
    ∃ nodes, parse text = .ok nodes ∧ ∀ node ∈ nodes, ∃ value, node = .text value := by
  have hfit : TextFits text.toList [] := by
    refine ⟨⟨h.brace, h.bracket⟩, h.hidesNoDice, ?_, ?_⟩
    · intro w hw
      simp at hw
    · intro d hd
      simp at hd
  have hreads := Reads.withText .nil .nil hfit
  rw [List.append_nil] at hreads
  refine ⟨withText text.toList [], parse_eq_ok_iff_reads.mpr hreads, ?_⟩
  intro node hnode
  unfold withText at hnode
  split at hnode
  · cases hnode
  · exact ⟨_, List.mem_singleton.mp hnode⟩

/-! ## Resolutions without a draw -/

section Draws

variable {σ : Type} [Source σ]

/-- Whatever a source answers, a leaf asks for its upper bounds. -/
theorem exists_records_emit (leaf : Node) (r : Recorded σ) :
    ∃ draws, Records r draws (leaf.emit.run r).2 ∧ draws.map Draw.upper = leaf.bounds := by
  cases leaf with
  | text value => exact ⟨[], .nil r, rfl⟩
  | table name => exact ⟨[], .nil r, rfl⟩
  | choice options => exact ⟨_, Random.records_draw (UInt32.ofNat options.length) r, rfl⟩
  | dice d =>
    have hcount := Random.length_drawMany d.sides d.count.toNat r
    exact ⟨_, Random.records_drawMany d.sides d.count.toNat r, (Emits.dice hcount).map_upper⟩

theorem exists_records_emitAll (leaves : List Node) (r : Recorded σ) :
    ∃ draws, Records r draws ((emitAll leaves).run r).2 ∧
      draws.map Draw.upper = leaves.flatMap Node.bounds := by
  induction leaves generalizing r with
  | nil => exact ⟨[], .nil r, rfl⟩
  | cons leaf leaves ih =>
    obtain ⟨draws, hdraws, hbounds⟩ := exists_records_emit leaf r
    obtain ⟨more, hmore, hbounds'⟩ := ih (leaf.emit.run r).2
    refine ⟨draws ++ more, hdraws.append hmore, ?_⟩
    rw [List.map_append, List.flatMap_cons, hbounds, hbounds']

/-- A resolution asks for the upper bounds of the leaves of its plan. -/
theorem map_upper_resolveRecorded (tables : Tables) (limit : Nat) (text : String) (s : σ) :
    (resolveRecorded tables limit text s).2.draws.toList.map Draw.upper =
      (plan tables limit text).leaves.flatMap Node.bounds := by
  obtain ⟨draws, hrecords, hbounds⟩ :=
    exists_records_emitAll (plan tables limit text).leaves ({ source := s } : Recorded σ)
  rw [resolveRecorded_eq, ← hbounds, ← hrecords.toList_eq]

end Draws

/-- A choice draws, and so do accepted dice, so that a leaf without a draw is literal. -/
theorem Node.isLiteral_of_bounds_eq_nil {tables : Tables} {node : Node}
    (hleaf : node.IsLeaf tables) (haccepted : node.refusal? = none) (h : node.bounds = []) :
    node.IsLiteral tables := by
  cases node with
  | text value => exact .inl ⟨value, rfl⟩
  | table name => exact .inr ⟨name, rfl, hleaf name rfl⟩
  | choice options => cases h
  | dice d =>
    obtain ⟨hcount, -, -⟩ := d.refusal?_eq_none_iff.mp (Option.map_eq_none_iff.mp haccepted)
    rw [UInt32.le_iff_toNat_le, UInt32.toNat_one] at hcount
    have hzero : d.count.toNat = 0 := by
      simpa [Node.bounds] using h
    omega

/-- Nodes that refer to no known table flatten to themselves. -/
theorem Flattens.eq_of_isLeaf {tables : Tables} {nodes leaves : List Node}
    (h : Flattens tables nodes leaves) (hleaf : ∀ node ∈ nodes, node.IsLeaf tables) :
    leaves = nodes := by
  induction h with
  | nil => rfl
  | leaf hnode hrest ih =>
    rw [List.forall_mem_cons] at hleaf
    rw [ih hleaf.2]
  | table hbody hparse hinner hrest ihinner ihrest =>
    exact absurd (hleaf _ List.mem_cons_self) (not_isLeaf_of_known hbody)

theorem isLeaf_empty (node : Node) : node.IsLeaf ∅ := by
  rintro name -
  exact Std.TreeMap.getElem?_emptyc

/-- Without tables, nodes whose resolution succeeds and draws nothing are literal. -/
theorem isLiteral_of_draws_eq_empty {σ : Type} [Source σ] {limit : Nat} {text result : String} {s : σ}
    {last : Recorded σ} (hrun : resolveRecorded none limit text s = (.ok result, last))
    (hdraws : last.draws = #[]) :
    ∃ nodes, parse text = .ok nodes ∧ ∀ node ∈ nodes, node.IsLiteral ∅ := by
  rw [resolveRecorded_eq_getD, Option.getD_none] at hrun
  have hplan : (plan ∅ limit text).error = none :=
    exists_resolveRecorded_eq_ok_iff.mp ⟨result, congrArg Prod.fst hrun⟩
  obtain ⟨nodes, hparse, hflattens⟩ := exists_flattens_of_planWithin hplan
  have hleaves := hflattens.eq_of_isLeaf fun node _ => isLeaf_empty node
  have haccepted := accepted_planWithin ∅ limit limit text
  have hbounds := map_upper_resolveRecorded ∅ limit text s
  rw [hrun, plan, hdraws, hleaves] at hbounds
  rw [Plan.Accepted, hleaves] at haccepted
  refine ⟨nodes, hparse, ?_⟩
  intro node hnode
  apply Node.isLiteral_of_bounds_eq_nil (isLeaf_empty node) (haccepted node hnode)
  exact List.flatMap_eq_nil_iff.mp hbounds.symm node hnode

/-! ## Literal text passes through -/

/-- **Literal text passes through untouched.**  A text of nothing but text nodes and unknown references is
resolved to itself without a draw, under every limit.  A text without directives is one of these.  And
where there are no tables, a resolution that succeeds without a draw has not changed its text. -/
theorem resolveRecorded_literal {σ : Type} [Source σ] :
    (∀ (tables : Tables) (limit : Nat) (text : String) (nodes : List Node) (s : σ),
        parse text = .ok nodes → (∀ node ∈ nodes, node.IsLiteral tables) →
        resolveRecorded tables limit text s = (.ok text, { source := s, draws := #[] })) ∧
      (∀ text, NoDirective text →
        (∃ nodes, parse text = .ok nodes ∧ ∀ node ∈ nodes, ∃ value, node = .text value) ∧
        ∀ (tables : Option Tables) (limit : Nat) (s : σ),
          resolveRecorded tables limit text s = (.ok text, { source := s, draws := #[] })) ∧
      ∀ (limit : Nat) (text result : String) (s : σ) (last : Recorded σ),
        resolveRecorded none limit text s = (.ok result, last) → last.draws = #[] → result = text := by
  refine ⟨?_, ?_, ?_⟩
  · intro tables limit text nodes s hparse hliteral
    exact resolveRecorded_eq_self hparse hliteral limit s
  · intro text htext
    obtain ⟨nodes, hparse, hnodes⟩ := htext.exists_parse_eq_ok
    refine ⟨⟨nodes, hparse, hnodes⟩, ?_⟩
    intro tables limit s
    rw [resolveRecorded_eq_getD]
    apply resolveRecorded_eq_self hparse
    intro node hnode
    exact .inl (hnodes node hnode)
  · intro limit text result s last hrun hdraws
    obtain ⟨nodes, hparse, hliteral⟩ := isLiteral_of_draws_eq_empty hrun hdraws
    rw [resolveRecorded_eq_getD, Option.getD_none, resolveRecorded_eq_self hparse hliteral] at hrun
    exact (Except.ok.inj (congrArg Prod.fst hrun)).symm

/-- A reference with a brace in its name, a count that is too large and closing characters on their own
are literal; so is a `d` in front of a number and one behind it. -/
theorem resolveRecorded_literal_unknown :
    let tables := Tables.ofList [("x", "1d6")]
    let ones : Script := { values := #[1] }
    let text : String := "[\x7bx] 99999999999d6\x7d|"
    parse text = .ok [.table "\x7bx", .text " 99999999999d6\x7d|"] ∧
      resolveRecorded tables 0 text ones = (.ok text, { source := ones, draws := #[] }) ∧
      NoDirective "d4 3d é" ∧
      resolveRecorded tables 0 "d4 3d é" ones = (.ok "d4 3d é", { source := ones, draws := #[] }) ∧
      ∃ result last, resolveRecorded none 0 "[x] 3d" ones = (.ok result, last) ∧ last.draws = #[] ∧
        result = "[x] 3d" := by
  intro tables ones text
  have hparse : parse text = .ok [.table "\x7bx", .text " 99999999999d6\x7d|"] := by cbv
  have hunknown : tables["\x7bx"]? = none := by cbv
  have hliteral : ∀ node ∈ [Node.table "\x7bx", .text " 99999999999d6\x7d|"],
      node.IsLiteral tables := by
    simp only [List.forall_mem_cons, List.not_mem_nil, false_implies, implies_true, and_true]
    exact ⟨.inr ⟨_, rfl, hunknown⟩, .inl ⟨_, rfl⟩⟩
  have hplain : NoDirective "d4 3d é" := by
    refine ⟨by simp, by simp, ?_⟩
    intro x y hx hy h
    have hchars : x = '3' ∧ y = ' ' := by
      simpa [List.infix_cons_iff, List.cons_prefix_cons] using h
    rw [hchars.2] at hy
    cases hy
  have hrun : resolveRecorded none 0 "[x] 3d" ones =
      (.ok "[x] 3d", { source := ones, draws := #[] }) := by cbv
  obtain ⟨hself, hdirective, hdraws⟩ := resolveRecorded_literal (σ := Script)
  exact ⟨hparse, hself tables 0 text _ ones hparse hliteral, hplain,
    (hdirective _ hplain).2 tables 0 ones, _, _, hrun, rfl, hdraws 0 _ _ ones _ hrun rfl⟩

end Augury.Prompt
