import Augury.Proofs.Draws
import Augury.Proofs.Plan
import Augury.Random.Script

/-!
# What leaves are replaced by

`Emits` says which draws a leaf takes and which text they turn it into.  A recorded resolution notes
exactly the draws of the leaves of its plan, and its outcome is the one that the plan has for their
texts (`exists_emitsAll_of_resolveRecorded`).  Since the plan is made without a source, two resolutions
of a text differ in their texts at most (`resolveRecorded_oblivious`).
-/

set_option autoImplicit false

namespace Augury.Prompt

open Augury.Random (Draw Draws LawfulSource Recorded Records Script Source)

/-! ## Leaves and their draws -/

/-- The upper bounds of the draws that a leaf takes. -/
def Node.bounds : Node → List UInt32
  | .text _ => []
  | .choice options => [UInt32.ofNat options.length]
  | .table _ => []
  | .dice d => List.replicate d.count.toNat d.sides

/-- The draws of a leaf and the text that they turn it into. -/
inductive Emits : Node → List Draw → String → Prop where
  | text (value : String) : Emits (.text value) [] value
  | table (name : String) : Emits (.table name) [] ("[" ++ name ++ "]")
  | choice {options : List String} {draw : Draw} {option : String}
      (hupper : draw.upper.toNat = options.length) (hfirst : 1 ≤ draw.value)
      (hoption : options[draw.value.toNat - 1]? = some option) :
      Emits (.choice options) [draw] (String.ofList (Text.trim option.toList))
  | dice {d : Dice} {shown : List UInt32} (hcount : shown.length = d.count.toNat) :
      Emits (.dice d) (shown.map fun value => { upper := d.sides, value })
        (d.total (Dice.sum shown)).repr

/-- The draws of leaves from left to right and the text that they turn them into. -/
inductive EmitsAll : List Node → List Draw → String → Prop where
  | nil : EmitsAll [] [] ""
  | cons {leaf : Node} {leaves : List Node} {draws more : List Draw} {text rest : String}
      (hleaf : Emits leaf draws text) (hleaves : EmitsAll leaves more rest) :
      EmitsAll (leaf :: leaves) (draws ++ more) (text ++ rest)

theorem Emits.map_upper {leaf : Node} {draws : List Draw} {text : String}
    (h : Emits leaf draws text) : draws.map Draw.upper = leaf.bounds := by
  cases h with
  | text value => rfl
  | table name => rfl
  | @choice options draw option hupper hfirst hoption =>
    rw [Node.bounds, ← hupper, UInt32.ofNat_toNat]
    rfl
  | @dice d shown hcount =>
    rw [Node.bounds, ← hcount, List.map_map]
    exact List.map_const'

theorem EmitsAll.map_upper {leaves : List Node} {draws : List Draw} {text : String}
    (h : EmitsAll leaves draws text) : draws.map Draw.upper = leaves.flatMap Node.bounds := by
  induction h with
  | nil => rfl
  | cons hleaf hleaves ih => rw [List.map_append, List.flatMap_cons, hleaf.map_upper, ih]

/-! ## Emission -/

/-- An accepted choice has an option, and as few as there are upper bounds. -/
theorem length_of_refusal?_choice {options : List String}
    (h : (Node.choice options).refusal? = none) :
    0 < options.length ∧ options.length < UInt32.size := by
  simp only [Node.refusal?] at h
  split at h
  next hempty => contradiction
  next hempty =>
    split at h
    next hmany => contradiction
    next hmany =>
      rw [List.isEmpty_iff, ← ne_eq, ← List.length_pos_iff] at hempty
      exact ⟨hempty, by omega⟩

theorem toNat_length_of_refusal?_choice {options : List String}
    (h : (Node.choice options).refusal? = none) :
    (UInt32.ofNat options.length).toNat = options.length :=
  UInt32.toNat_ofNat_of_lt' (length_of_refusal?_choice h).2

/-- The draws of an accepted leaf have numbers to answer with. -/
theorem one_le_of_mem_bounds {leaf : Node} (haccepted : leaf.refusal? = none) {upper : UInt32}
    (h : upper ∈ leaf.bounds) : 1 ≤ upper := by
  cases leaf with
  | text value => exact absurd h List.not_mem_nil
  | table name => exact absurd h List.not_mem_nil
  | choice options =>
    obtain ⟨hpos, -⟩ := length_of_refusal?_choice haccepted
    rw [List.mem_singleton.mp h, UInt32.le_iff_toNat_le,
      toNat_length_of_refusal?_choice haccepted]
    exact hpos
  | dice d =>
    obtain ⟨-, -, hsides⟩ := d.refusal?_eq_none_iff.mp (Option.map_eq_none_iff.mp haccepted)
    rw [List.eq_of_mem_replicate h]
    exact hsides

/-- A number in the range of an accepted choice picks one of its options. -/
theorem emits_choice {options : List String} (haccepted : (Node.choice options).refusal? = none)
    {picked : UInt32} (hfirst : 1 ≤ picked) (hlast : picked ≤ UInt32.ofNat options.length) :
    Emits (.choice options) [{ upper := UInt32.ofNat options.length, value := picked }]
      (String.ofList (Text.trim (options[picked.toNat - 1]?.getD "").toList)) := by
  obtain ⟨hpos, -⟩ := length_of_refusal?_choice haccepted
  have hupper := toNat_length_of_refusal?_choice haccepted
  rw [UInt32.le_iff_toNat_le, hupper] at hlast
  have hoption : options[picked.toNat - 1]? = some options[picked.toNat - 1] :=
    List.getElem?_eq_getElem (by omega)
  rw [hoption, Option.getD_some]
  exact .choice hupper hfirst hoption

section Emission

variable {σ : Type} [Source σ] [LawfulSource σ]

/-- A leaf that is not refused takes its draws and turns into the text that belongs to them. -/
theorem exists_emits_emit {leaf : Node} (haccepted : leaf.refusal? = none) (r : Recorded σ) :
    ∃ draws, Emits leaf draws (leaf.emit.run r).1 ∧ Records r draws (leaf.emit.run r).2 := by
  cases leaf with
  | text value => exact ⟨[], .text value, .nil r⟩
  | table name => exact ⟨[], .table name, .nil r⟩
  | choice options =>
    have hone : 1 ≤ UInt32.ofNat options.length :=
      one_le_of_mem_bounds haccepted (List.mem_singleton_self _)
    have hdraw := Random.records_draw (UInt32.ofNat options.length) r
    obtain ⟨hfirst, hlast⟩ := hdraw.made.inRange List.mem_cons_self hone
    exact ⟨_, emits_choice haccepted hfirst hlast, hdraw⟩
  | dice d =>
    refine ⟨_, .dice (Random.length_drawMany d.sides d.count.toNat r), ?_⟩
    exact Random.records_drawMany d.sides d.count.toNat r

/-- Leaves that are not refused are replaced one after the other. -/
theorem exists_emitsAll_emitAll {leaves : List Node}
    (haccepted : ∀ leaf ∈ leaves, leaf.refusal? = none) (r : Recorded σ) :
    ∃ draws, EmitsAll leaves draws ((emitAll leaves).run r).1 ∧
      Records r draws ((emitAll leaves).run r).2 := by
  induction leaves generalizing r with
  | nil => exact ⟨[], .nil, .nil r⟩
  | cons leaf leaves ih =>
    obtain ⟨draws, hleaf, hdraws⟩ :=
      exists_emits_emit (haccepted leaf List.mem_cons_self) r
    obtain ⟨more, hleaves, hmore⟩ :=
      ih (fun other hother => haccepted other (List.mem_cons_of_mem leaf hother))
        (leaf.emit.run r).2
    exact ⟨draws ++ more, .cons hleaf hleaves, hdraws.append hmore⟩

/-- Leaves at the front of others are replaced first. -/
theorem prefix_draws_emitAll {front leaves : List Node} (hfront : front <+: leaves)
    (haccepted : ∀ leaf ∈ leaves, leaf.refusal? = none) (r : Recorded σ) :
    ((emitAll front).run r).2.draws.toList <+: ((emitAll leaves).run r).2.draws.toList := by
  obtain ⟨back, rfl⟩ := hfront
  have hback : ∀ leaf ∈ back, leaf.refusal? = none := by
    intro leaf hleaf
    exact haccepted leaf (List.mem_append_right front hleaf)
  obtain ⟨draws, -, hrecords⟩ := exists_emitsAll_emitAll hback ((emitAll front).run r).2
  have hlast : ((emitAll (front ++ back)).run r).2 =
      ((emitAll back).run ((emitAll front).run r).2).2 := by
    rw [emitAll_append]
    rfl
  rw [hlast, hrecords.noted]
  exact List.prefix_append _ draws

end Emission

/-! ## The leaves of a plan -/

/-- No leaf of a plan is refused. -/
def Plan.Accepted (p : Plan) : Prop :=
  ∀ leaf ∈ p.leaves, leaf.refusal? = none

namespace Plan

theorem accepted_done : done.Accepted := by
  intro leaf hleaf
  exact absurd hleaf List.not_mem_nil

theorem accepted_fail (error : Error) : (fail error).Accepted := by
  intro leaf hleaf
  exact absurd hleaf List.not_mem_nil

theorem accepted_ofLeaf (node : Node) : (ofLeaf node).Accepted := by
  intro leaf hleaf
  unfold ofLeaf at hleaf
  cases hrefused : node.refusal? with
  | some error =>
    rw [hrefused] at hleaf
    exact accepted_fail error leaf hleaf
  | none =>
    rw [hrefused] at hleaf
    rw [List.mem_singleton.mp hleaf, hrefused]

theorem Accepted.append {first second : Plan} (hfirst : first.Accepted)
    (hsecond : second.Accepted) : (first.append second).Accepted := by
  intro leaf hleaf
  cases herror : first.error with
  | some error =>
    rw [append_of_error_eq_some herror] at hleaf
    exact hfirst leaf hleaf
  | none =>
    rw [append_of_error_eq_none herror] at hleaf
    rcases List.mem_append.mp hleaf with hleaf | hleaf
    · exact hfirst leaf hleaf
    · exact hsecond leaf hleaf

end Plan

section Accepted

variable (tables : Tables) {expansion : String → String → Plan}

theorem accepted_planNodes (hexpand : ∀ name body, (expansion name body).Accepted)
    (nodes : List Node) : (planNodes tables expansion nodes).Accepted := by
  induction nodes with
  | nil => exact Plan.accepted_done
  | cons node nodes ih =>
    rw [planNodes_cons]
    refine Plan.Accepted.append ?_ ih
    obtain ⟨name, body, -, -, hplan⟩ | ⟨-, hplan⟩ := node.plan_cases tables expansion
    · rw [hplan]
      exact hexpand name body
    · rw [hplan]
      exact Plan.accepted_ofLeaf node

theorem accepted_planText (hexpand : ∀ name body, (expansion name body).Accepted)
    (text : String) : (planText tables expansion text).Accepted := by
  unfold planText
  cases parse text with
  | error unclosed => exact Plan.accepted_fail _
  | ok nodes => exact accepted_planNodes tables hexpand nodes

theorem accepted_planWithin (limit levels : Nat) (text : String) :
    (planWithin tables limit levels text).Accepted := by
  induction levels generalizing text with
  | zero => exact accepted_planText tables (fun name body => Plan.accepted_fail _) text
  | succ levels ih =>
    refine accepted_planText tables ?_ text
    intro name body
    exact ih body

end Accepted

/-! ## Recorded resolutions -/

variable {σ : Type} [Source σ]

/-- Resolves a prompt and records every draw. -/
def resolveRecorded (tables : Option Tables) (limit : Nat) (text : String) (s : σ) :
    Except Error String × Recorded σ :=
  (resolve tables limit text : Resolving (Recorded σ) String).run.run { source := s }

/-- Where there are no tables, a recorded resolution is one with empty tables. -/
theorem resolveRecorded_eq_getD (tables : Option Tables) (limit : Nat) (text : String) (s : σ) :
    resolveRecorded tables limit text s = resolveRecorded (some (tables.getD ∅)) limit text s := by
  rw [resolveRecorded, resolve_eq_resolve_getD]
  rfl

theorem resolveRecorded_eq (tables : Tables) (limit : Nat) (text : String) (s : σ) :
    resolveRecorded tables limit text s =
      let run := (emitAll (plan tables limit text).leaves).run ({ source := s } : Recorded σ)
      ((plan tables limit text).outcome run.1, run.2) := by
  rw [resolveRecorded, resolve_eq_perform, Plan.run_perform]
  rfl

theorem exists_resolveRecorded_eq_ok_iff {tables : Tables} {limit : Nat} {text : String} {s : σ} :
    (∃ result, (resolveRecorded tables limit text s).1 = .ok result) ↔
      (plan tables limit text).error = none := by
  rw [resolveRecorded_eq]
  exact Plan.exists_outcome_eq_ok_iff

theorem resolveRecorded_eq_error_iff {tables : Tables} {limit : Nat} {text : String} {s : σ}
    {error : Error} :
    (resolveRecorded tables limit text s).1 = .error error ↔
      (plan tables limit text).error = some error := by
  rw [resolveRecorded_eq]
  exact Plan.outcome_eq_error_iff

/-- The outcome of a resolution is the one that its plan has for what the leaves of the plan are
replaced by, and its draws are theirs. -/
theorem exists_emitsAll_of_resolveRecorded [LawfulSource σ] (tables : Tables) (limit : Nat)
    (text : String) (s : σ) {result : Except Error String} {last : Recorded σ}
    (hrun : resolveRecorded tables limit text s = (result, last)) :
    ∃ emitted, EmitsAll (plan tables limit text).leaves last.draws.toList emitted ∧
      Draws s last.draws.toList last.source ∧
      result = (plan tables limit text).outcome emitted := by
  rw [resolveRecorded, resolve_eq_perform, Plan.run_perform] at hrun
  obtain ⟨rfl, rfl⟩ := Prod.mk.inj hrun
  obtain ⟨draws, hemits, hrecords⟩ :=
    exists_emitsAll_emitAll (accepted_planWithin tables limit limit text)
      ({ source := s } : Recorded σ)
  have hdraws := hrecords.toList_eq
  subst hdraws
  exact ⟨_, hemits, hrecords.made, rfl⟩

/-- **Randomness decides neither success, nor errors, nor how much is drawn.**  From any two sources a
text is resolved with both or with neither, with the same error, and with the same upper bounds asked for
in the same order; whatever tables there are, and without tables too. -/
theorem resolveRecorded_oblivious {τ : Type} [Source τ] [LawfulSource σ] [LawfulSource τ]
    (tables : Option Tables) (limit : Nat) (text : String) (s : σ) (t : τ) :
    ((∃ result, (resolveRecorded tables limit text s).1 = .ok result) ↔
        ∃ result, (resolveRecorded tables limit text t).1 = .ok result) ∧
      (∀ error, (resolveRecorded tables limit text s).1 = .error error ↔
        (resolveRecorded tables limit text t).1 = .error error) ∧
      (resolveRecorded tables limit text s).2.draws.toList.map Draw.upper =
        (resolveRecorded tables limit text t).2.draws.toList.map Draw.upper := by
  rw [resolveRecorded_eq_getD tables limit text s, resolveRecorded_eq_getD tables limit text t]
  rcases hleft : resolveRecorded (some (tables.getD ∅)) limit text s with ⟨left, last⟩
  rcases hright : resolveRecorded (some (tables.getD ∅)) limit text t with ⟨right, last'⟩
  obtain ⟨emitted, hemits, -, rfl⟩ :=
    exists_emitsAll_of_resolveRecorded _ limit text s hleft
  obtain ⟨emitted', hemits', -, rfl⟩ :=
    exists_emitsAll_of_resolveRecorded _ limit text t hright
  refine ⟨?_, ?_, ?_⟩
  · rw [Plan.exists_outcome_eq_ok_iff, Plan.exists_outcome_eq_ok_iff]
  · intro error
    rw [Plan.outcome_eq_error_iff, Plan.outcome_eq_error_iff]
  · rw [hemits.map_upper, hemits'.map_upper]

/-- The same table fails for two scripts, after the same upper bounds were asked for. -/
theorem resolveRecorded_oblivious_scripts :
    let tables := Tables.ofList [("x", "1d0")]
    let ones : Script := { values := #[1] }
    let twos : Script := { values := #[2] }
    (resolveRecorded tables 8 "\x7ba|b\x7d2d6[x]" ones).1 =
        .error (.inTable "x" (.dice (.notPositive "1d0"))) ∧
      (resolveRecorded tables 8 "\x7ba|b\x7d2d6[x]" twos).1 =
        .error (.inTable "x" (.dice (.notPositive "1d0"))) ∧
      (resolveRecorded tables 8 "\x7ba|b\x7d2d6[x]" ones).2.draws.toList.map Draw.upper =
        (resolveRecorded tables 8 "\x7ba|b\x7d2d6[x]" twos).2.draws.toList.map Draw.upper := by
  intro tables ones twos
  have hones : (resolveRecorded tables 8 "\x7ba|b\x7d2d6[x]" ones).1 =
      .error (.inTable "x" (.dice (.notPositive "1d0"))) := by cbv
  obtain ⟨-, herror, hdraws⟩ :=
    resolveRecorded_oblivious tables 8 "\x7ba|b\x7d2d6[x]" ones twos
  exact ⟨hones, (herror _).mp hones, hdraws⟩

end Augury.Prompt
