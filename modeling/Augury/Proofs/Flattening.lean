import Augury.Proofs.Emission

/-!
# Flattening

Flattening replaces every reference to a known table by the leaves of its text, wherever it stands and
as deep as tables go.  It knows no limit and no randomness.  The leaves of a plan that ends without an
error are the flattened nodes of its text (`exists_flattens_of_planWithin`), so a resolution that
succeeds replaces these from left to right and does nothing else
(`exists_flattens_emitsAll_of_resolveRecorded`).
-/

set_option autoImplicit false

namespace Augury.Prompt

open Augury.Random (Draws LawfulSource Recorded Script Source)

/-- The leaves that nodes flatten to. -/
inductive Flattens (tables : Tables) : List Node → List Node → Prop where
  | nil : Flattens tables [] []
  | leaf {node : Node} {nodes leaves : List Node}
      (hleaf : node.IsLeaf tables)
      (hrest : Flattens tables nodes leaves) : Flattens tables (node :: nodes) (node :: leaves)
  | table {name body : String} {inner nodes expanded leaves : List Node}
      (hbody : tables[name]? = some body) (hparse : parse body = .ok inner)
      (hinner : Flattens tables inner expanded) (hrest : Flattens tables nodes leaves) :
      Flattens tables (.table name :: nodes) (expanded ++ leaves)

variable {tables : Tables}

/-- Nodes flatten to one list of leaves at most. -/
theorem Flattens.unique {nodes leaves others : List Node} (h : Flattens tables nodes leaves)
    (hothers : Flattens tables nodes others) : leaves = others := by
  induction h generalizing others with
  | nil =>
    cases hothers
    rfl
  | leaf hleaf hrest ih =>
    cases hothers with
    | leaf _ hrest' => rw [ih hrest']
    | table hbody => exact absurd hleaf (not_isLeaf_of_known hbody)
  | table hbody hparse hinner hrest ihinner ihrest =>
    cases hothers with
    | leaf hleaf => exact absurd hleaf (not_isLeaf_of_known hbody)
    | table hbody' hparse' hinner' hrest' =>
      rw [hbody] at hbody'
      obtain rfl := Option.some.inj hbody'
      rw [hparse] at hparse'
      obtain rfl := Except.ok.inj hparse'
      rw [ihinner hinner', ihrest hrest']

/-! ## Plans without an error -/

namespace Plan

theorem leaves_ofLeaf {node : Node} (h : (ofLeaf node).error = none) :
    (ofLeaf node).leaves = [node] := by
  unfold ofLeaf at h ⊢
  cases hrefused : node.refusal? with
  | some error =>
    rw [hrefused] at h
    cases h
  | none => rfl

theorem error_append_eq_none {first second : Plan} (h : (first.append second).error = none) :
    first.error = none ∧ second.error = none := by
  rw [error_append, Option.or_eq_none_iff] at h
  exact h

theorem leaves_append {first second : Plan} (h : first.error = none) :
    (first.append second).leaves = first.leaves ++ second.leaves := by
  rw [append_of_error_eq_none h]

theorem error_within_eq_none {table : String} {p : Plan} (h : (p.within table).error = none) :
    p.error = none :=
  Option.map_eq_none_iff.mp h

end Plan

section Plans

variable {expansion : String → String → Plan}

theorem flattens_planNodes
    (hexpand : ∀ name body, (expansion name body).error = none →
      ∃ inner, parse body = .ok inner ∧ Flattens tables inner (expansion name body).leaves)
    {nodes : List Node} (h : (planNodes tables expansion nodes).error = none) :
    Flattens tables nodes (planNodes tables expansion nodes).leaves := by
  induction nodes with
  | nil => exact .nil
  | cons node nodes ih =>
    rw [planNodes_cons] at h ⊢
    obtain ⟨hfirst, hrest⟩ := Plan.error_append_eq_none h
    rw [Plan.leaves_append hfirst]
    obtain ⟨name, body, rfl, hbody, hplan⟩ | ⟨hleaf, hplan⟩ := node.plan_cases tables expansion
    · rw [hplan] at hfirst ⊢
      obtain ⟨inner, hparse, hinner⟩ := hexpand name body hfirst
      exact .table hbody hparse hinner (ih hrest)
    · rw [hplan] at hfirst ⊢
      rw [Plan.leaves_ofLeaf hfirst]
      exact .leaf hleaf (ih hrest)

theorem exists_flattens_of_planText
    (hexpand : ∀ name body, (expansion name body).error = none →
      ∃ inner, parse body = .ok inner ∧ Flattens tables inner (expansion name body).leaves)
    {text : String} (h : (planText tables expansion text).error = none) :
    ∃ nodes, parse text = .ok nodes ∧
      Flattens tables nodes (planText tables expansion text).leaves := by
  unfold planText at h ⊢
  cases hparse : parse text with
  | error unclosed =>
    rw [hparse] at h
    cases h
  | ok nodes =>
    rw [hparse] at h
    exact ⟨nodes, rfl, flattens_planNodes hexpand h⟩

end Plans

/-- The leaves of a plan without an error are those that the nodes of the text flatten to. -/
theorem exists_flattens_of_planWithin {limit levels : Nat} {text : String}
    (h : (planWithin tables limit levels text).error = none) :
    ∃ nodes, parse text = .ok nodes ∧
      Flattens tables nodes (planWithin tables limit levels text).leaves := by
  induction levels generalizing text with
  | zero =>
    -- where no level is left, a known reference ends the plan with an error
    refine exists_flattens_of_planText ?_ h
    intro name body hfail
    cases hfail
  | succ levels ih =>
    refine exists_flattens_of_planText ?_ h
    intro name body hbody
    exact ih (Plan.error_within_eq_none hbody)

variable {σ : Type} [Source σ] [LawfulSource σ]

/-- **Resolution is flattening and then one pass of draws.**  A resolution that succeeds has replaced the
leaves to which the nodes of the text flatten, from left to right, each with draws of its own, and has
drawn nothing else. -/
theorem exists_flattens_emitsAll_of_resolveRecorded {limit : Nat} {text result : String} {s : σ}
    {last : Recorded σ} (hrun : resolveRecorded tables limit text s = (.ok result, last)) :
    ∃ nodes leaves, parse text = .ok nodes ∧ Flattens tables nodes leaves ∧
      (∀ others, Flattens tables nodes others → others = leaves) ∧
      EmitsAll leaves last.draws.toList result ∧ Draws s last.draws.toList last.source := by
  obtain ⟨emitted, hemits, hdraws, houtcome⟩ :=
    exists_emitsAll_of_resolveRecorded tables limit text s hrun
  cases herror : (plan tables limit text).error with
  | some error =>
    rw [Plan.outcome_of_error_eq_some herror] at houtcome
    contradiction
  | none =>
    rw [Plan.outcome_of_error_eq_none herror] at houtcome
    obtain rfl := Except.ok.inj houtcome
    obtain ⟨nodes, hparse, hflattens⟩ := exists_flattens_of_planWithin herror
    refine ⟨nodes, _, hparse, hflattens, ?_, hemits, hdraws⟩
    intro others hothers
    exact hothers.unique hflattens

/-- The text of the table and the digit in front of its reference spell dice that nobody rolls. -/
theorem exists_flattens_emitsAll_spelled_dice :
    ∃ nodes leaves, parse "2[x]\x7b a |b\x7d1d4-1[y]" = .ok nodes ∧
      Flattens (Tables.ofList [("x", "d6")]) nodes leaves ∧
      (∀ others, Flattens (Tables.ofList [("x", "d6")]) nodes others → others = leaves) ∧
      EmitsAll leaves [⟨2, 1⟩, ⟨4, 3⟩] "2d6a2[y]" ∧
      Draws ({ values := #[3] } : Script) [⟨2, 1⟩, ⟨4, 3⟩] { values := #[3], position := 2 } := by
  have hrun : resolveRecorded (Tables.ofList [("x", "d6")]) 1 "2[x]\x7b a |b\x7d1d4-1[y]"
      ({ values := #[3] } : Script) = (.ok "2d6a2[y]",
        { source := { values := #[3], position := 2 }, draws := #[⟨2, 1⟩, ⟨4, 3⟩] }) := by cbv
  exact exists_flattens_emitsAll_of_resolveRecorded hrun

end Augury.Prompt
