import Augury.Proofs.Emission
import Augury.Proofs.ReadBack
import Augury.Proofs.Walks

/-!
# Where a resolution fails

A resolution fails at one of the texts that it walks to: the text cannot be read, one of its nodes is
refused, or it refers to a known table when no more tables may nest.  `Failure` lists these errors as
they are seen from the text that the resolution started with, and a plan ends with no other
(`failure_of_error_planWithin`).  A plan without an error has been to every text that can be walked to,
and each walk was short enough (`Walk.of_error_planWithin_eq_none`).

Together these say exactly when a resolution succeeds (`exists_resolveRecorded_eq_ok_iff_walks`).
-/

set_option autoImplicit false

namespace Augury.Prompt

open Augury.Random (Script Source)

/-! ## Faults of a text -/

/-- What is wrong with a text by itself, whatever tables there are. -/
inductive Fault (text : String) : Error → Prop where
  | unclosed {unclosed : Unclosed} (hparse : parse text = .error unclosed) :
      Fault text (.unclosed unclosed)
  | refused {nodes : List Node} {node : Node} {error : Error} (hparse : parse text = .ok nodes)
      (hnode : node ∈ nodes) (hrefused : node.refusal? = some error) : Fault text error

/-- A text cannot be read, which is this error. -/
def Unreadable (text : String) (error : Error) : Prop :=
  ∃ unclosed, parse text = .error unclosed ∧ error = .unclosed unclosed

/-- A text can be read, but dice in it are refused with this error. -/
def RefusesDice (text : String) (error : Error) : Prop :=
  ∃ nodes d cause, parse text = .ok nodes ∧ .dice d ∈ nodes ∧ d.refusal? = some cause ∧
    error = .dice cause

/-- Nodes are refused for the number of options in a choice and for dice. -/
theorem Node.refusal?_cases (node : Node) {error : Error} (h : node.refusal? = some error) :
    error = .emptyChoice ∨ (∃ count, error = .tooManyOptions count) ∨
      ∃ cause, error = .dice cause := by
  cases node with
  | text value => cases h
  | table name => cases h
  | choice options =>
    simp only [Node.refusal?] at h
    split at h
    next =>
      cases h
      exact .inl rfl
    next =>
      split at h
      next =>
        cases h
        exact .inr (.inl ⟨_, rfl⟩)
      next => cases h
  | dice d =>
    obtain ⟨cause, -, rfl⟩ := Option.map_eq_some_iff.mp h
    exact .inr (.inr ⟨cause, rfl⟩)

/-- The limit on nested tables is no reason to refuse a node. -/
theorem refusal?_ne_tooDeep (node : Node) (name : String) (limit : Nat) :
    node.refusal? ≠ some (.tooDeep name limit) := by
  intro h
  obtain hempty | ⟨count, hmany⟩ | ⟨cause, hdice⟩ := node.refusal?_cases h
  · cases hempty
  · cases hmany
  · cases hdice

theorem not_fault_tooDeep (text name : String) (limit : Nat) :
    ¬ Fault text (.tooDeep name limit) := by
  intro h
  cases h with
  | refused hparse hnode hrefused => exact refusal?_ne_tooDeep _ name limit hrefused

/-- Every choice in a text has fewer options than there are upper bounds for a draw. -/
def Drawable (text : String) : Prop :=
  ∀ nodes options, parse text = .ok nodes → .choice options ∈ nodes → options.length < UInt32.size

theorem Drawable.of_parse {text : String} {nodes : List Node} (hparse : parse text = .ok nodes)
    (h : ∀ options, .choice options ∈ nodes → options.length < UInt32.size) : Drawable text := by
  intro others options hothers hmem
  obtain rfl : nodes = others := Except.ok.inj (hparse.symm.trans hothers)
  exact h options hmem

/-- A choice that was read has options, so that nothing but their number can be wrong with it. -/
theorem Drawable.refusal?_choice {text : String} {nodes : List Node} {options : List String}
    (h : Drawable text) (hparse : parse text = .ok nodes) (hmem : .choice options ∈ nodes) :
    (Node.choice options).refusal? = none := by
  have hne : options ≠ [] := ((parse_eq_ok_iff.mp hparse).2.choice options hmem).1
  have hlt : options.length < UInt32.size := h nodes options hparse hmem
  simp [Node.refusal?, hne, hlt]

/-- What can be wrong with a text whose choices can be drawn from: it cannot be read, or dice in it are
refused. -/
theorem Drawable.fault_iff {text : String} {error : Error} (h : Drawable text) :
    Fault text error ↔ Unreadable text error ∨ RefusesDice text error := by
  constructor
  · intro hfault
    cases hfault with
    | @unclosed unclosed hparse => exact .inl ⟨unclosed, hparse, rfl⟩
    | @refused nodes node error hparse hnode hrefused =>
      cases node with
      | text value => cases hrefused
      | table name => cases hrefused
      | choice options =>
        rw [h.refusal?_choice hparse hnode] at hrefused
        cases hrefused
      | dice d =>
        obtain ⟨cause, hcause, rfl⟩ := Option.map_eq_some_iff.mp hrefused
        exact .inr ⟨nodes, d, cause, hparse, hnode, hcause, rfl⟩
  · rintro (⟨unclosed, hparse, rfl⟩ | ⟨nodes, d, cause, hparse, hnode, hcause, rfl⟩)
    · exact .unclosed hparse
    · exact .refused hparse hnode (Option.map_eq_some_iff.mpr ⟨cause, hcause, rfl⟩)

/-- Nothing is wrong with a text that can be read and whose dice can all be rolled. -/
theorem Drawable.forall_not_fault_iff {text : String} (h : Drawable text) :
    (∀ error, ¬ Fault text error) ↔
      ∃ nodes, parse text = .ok nodes ∧
        ∀ d, .dice d ∈ nodes → 1 ≤ d.count ∧ d.count ≤ 100000 ∧ 1 ≤ d.sides := by
  constructor
  · intro hsound
    cases hparse : parse text with
    | error unclosed => exact absurd (.unclosed hparse) (hsound _)
    | ok nodes =>
      refine ⟨nodes, rfl, fun d hd => d.refusal?_eq_none_iff.mp ?_⟩
      cases hrefused : d.refusal? with
      | none => rfl
      | some cause =>
        have hrefuses : RefusesDice text (.dice cause) :=
          ⟨nodes, d, cause, hparse, hd, hrefused, rfl⟩
        exact absurd (h.fault_iff.mpr (.inr hrefuses)) (hsound _)
  · rintro ⟨nodes, hparse, hdice⟩ error hfault
    rcases h.fault_iff.mp hfault with ⟨unclosed, hunclosed, -⟩ | hrefuses
    · rw [hparse] at hunclosed
      cases hunclosed
    · obtain ⟨others, d, cause, hothers, hd, hcause, -⟩ := hrefuses
      obtain rfl : nodes = others := Except.ok.inj (hparse.symm.trans hothers)
      have haccepted : d.refusal? = none := d.refusal?_eq_none_iff.mpr (hdice d hd)
      rw [haccepted] at hcause
      cases hcause

/-! ## Errors of plans -/

section Plans

variable {tables : Tables} {expand : String → String → Plan} {text : String} {nodes : List Node}

/-- The error of the plan of a text is one of the text itself or comes out of a table. -/
theorem fault_or_exists_of_error_planText {error : Error}
    (h : (planText tables expand text).error = some error) :
    Fault text error ∨ ∃ name body, Refers text name ∧ tables[name]? = some body ∧
      (expand name body).error = some error := by
  cases hparse : parse text with
  | error unclosed =>
    rw [planText_of_parse_eq_error hparse] at h
    obtain rfl := Option.some.inj h
    exact .inl (.unclosed hparse)
  | ok nodes =>
    rw [planText_of_parse_eq_ok hparse, error_planNodes] at h
    obtain ⟨node, hnode, herror⟩ := List.exists_of_findSome?_eq_some h
    obtain ⟨name, body, rfl, hbody, hplan⟩ | ⟨-, hplan⟩ := node.plan_cases tables expand
    · rw [hplan] at herror
      exact .inr ⟨name, body, ⟨nodes, hparse, hnode⟩, hbody, herror⟩
    · rw [hplan, Plan.error_ofLeaf] at herror
      exact .inl (.refused hparse hnode herror)

theorem error_plan_eq_none_of_mem (h : (planText tables expand text).error = none)
    (hparse : parse text = .ok nodes) {node : Node} (hnode : node ∈ nodes) :
    (node.plan tables expand).error = none := by
  rw [planText_of_parse_eq_ok hparse, error_planNodes, List.findSome?_eq_none_iff] at h
  exact h node hnode

/-- A text whose plan has no error has no fault. -/
theorem not_fault_of_error_planText_eq_none (h : (planText tables expand text).error = none)
    (error : Error) : ¬ Fault text error := by
  intro hfault
  cases hfault with
  | unclosed hparse =>
    rw [planText_of_parse_eq_error hparse] at h
    cases h
  | @refused nodes node error hparse hnode hrefused =>
    have herror := error_plan_eq_none_of_mem h hparse hnode
    obtain ⟨name, body, rfl, -, -⟩ | ⟨-, hleaf⟩ := node.plan_cases tables expand
    · cases hrefused
    · rw [hleaf, Plan.error_ofLeaf, hrefused] at herror
      cases herror

/-- Where the plan of a text has no error, neither has that of a table it refers to. -/
theorem error_expand_eq_none_of_refers (h : (planText tables expand text).error = none)
    {name body : String} (hrefers : Refers text name) (hbody : tables[name]? = some body) :
    (expand name body).error = none := by
  obtain ⟨nodes, hparse, hnode⟩ := hrefers
  have herror := error_plan_eq_none_of_mem h hparse hnode
  simpa only [Node.plan, hbody] using herror

end Plans

/-! ## Failures of resolutions -/

/-- An error as it is seen from outside of the tables with these names, the outermost first. -/
def Error.inTables (names : List String) (cause : Error) : Error :=
  names.foldr Error.inTable cause

@[simp] theorem Error.inTables_nil (cause : Error) : cause.inTables [] = cause := rfl

@[simp] theorem Error.inTables_cons (name : String) (names : List String) (cause : Error) :
    cause.inTables (name :: names) = .inTable name (cause.inTables names) := rfl

/-- The errors of resolving a text in which tables may nest as many levels as the last number says: a
fault of a text that is walked to, with the names of the walk around it, or one table too many. -/
inductive Failure (tables : Tables) (limit levels : Nat) (text : String) : Error → Prop where
  | fault {names : List String} {reached : String} {cause : Error}
      (hwalk : Walk tables text names reached) (hlevels : names.length ≤ levels)
      (hfault : Fault reached cause) :
      Failure tables limit levels text (cause.inTables names)
  | tooDeep {names : List String} {name body : String}
      (hwalk : Walk tables text (names ++ [name]) body) (hlevels : names.length = levels) :
      Failure tables limit levels text (.tooDeep name limit)

/-- Each table puts its name around a fault. -/
theorem Fault.within_inTables {text : String} {cause : Error} (h : Fault text cause)
    (name : String) (names : List String) :
    (cause.inTables names).within name = cause.inTables (name :: names) := by
  cases names with
  | cons first names => rfl
  | nil =>
    cases cause with
    | tooDeep table limit => exact absurd h (not_fault_tooDeep text table limit)
    | _ => rfl

variable {tables : Tables} {limit levels : Nat} {text : String}

/-- A failure inside a table, seen from a text that refers to the table. -/
theorem Failure.enter {name body : String} {error : Error} (hrefers : Refers text name)
    (hbody : tables[name]? = some body) (h : Failure tables limit levels body error) :
    Failure tables limit (levels + 1) text (error.within name) := by
  cases h with
  | @fault names reached cause hwalk hlevels hfault =>
    rw [hfault.within_inTables]
    exact .fault (.cons hrefers hbody hwalk) (by simpa using hlevels) hfault
  | @tooDeep names inner body' hwalk hlevels =>
    have hlonger : Walk tables text ((name :: names) ++ [inner]) body' := .cons hrefers hbody hwalk
    have hlength : (name :: names).length = levels + 1 := by rw [List.length_cons, hlevels]
    exact .tooDeep hlonger hlength

/-- A plan ends with no other error than a failure. -/
theorem failure_of_error_planWithin {error : Error}
    (h : (planWithin tables limit levels text).error = some error) :
    Failure tables limit levels text error := by
  -- the error passes outwards one table at a time, and the walk grows at its front
  induction levels generalizing text error with
  | zero =>
    obtain hfault | ⟨name, body, hrefers, hbody, herror⟩ := fault_or_exists_of_error_planText h
    · exact .fault (.nil text) (Nat.le_refl 0) hfault
    · obtain rfl := Option.some.inj herror
      have hwalk : Walk tables text ([] ++ [name]) body := .single hrefers hbody
      exact .tooDeep hwalk rfl
  | succ levels ih =>
    obtain hfault | ⟨name, body, hrefers, hbody, herror⟩ := fault_or_exists_of_error_planText h
    · exact .fault (.nil text) (Nat.zero_le _) hfault
    · obtain ⟨inner, hinner, rfl⟩ := Option.map_eq_some_iff.mp herror
      exact (ih hinner).enter hrefers hbody

/-- A plan without an error has come to the end of every walk, within its levels, and found no fault. -/
theorem Walk.of_error_planWithin_eq_none {names : List String} {reached : String}
    (hwalk : Walk tables text names reached)
    (h : (planWithin tables limit levels text).error = none) :
    names.length ≤ levels ∧ ∀ error, ¬ Fault reached error := by
  induction hwalk generalizing levels with
  | nil text =>
    refine ⟨Nat.zero_le levels, ?_⟩
    cases levels with
    | zero => exact not_fault_of_error_planText_eq_none h
    | succ levels => exact not_fault_of_error_planText_eq_none h
  | cons hrefers hbody hrest ih =>
    cases levels with
    | zero =>
      -- no level is left for the first table of the walk
      have herror := error_expand_eq_none_of_refers h hrefers hbody
      cases herror
    | succ levels =>
      have herror := error_expand_eq_none_of_refers h hrefers hbody
      obtain ⟨hlength, hsound⟩ := ih (Option.map_eq_none_iff.mp herror)
      exact ⟨Nat.succ_le_succ hlength, hsound⟩

/-! ## When a resolution succeeds -/

variable {σ : Type} [Source σ]

/-- Walks reach drawable texts only when they start from one and the listed tables hold no others. -/
theorem drawable_of_walk_ofList {entries : List (String × String)} (htext : Drawable text)
    (hentries : ∀ entry ∈ entries, Drawable entry.2) {names : List String} {reached : String}
    (hwalk : Walk (Tables.ofList entries) text names reached) : Drawable reached := by
  obtain rfl | ⟨name, hbody⟩ := hwalk.eq_or_exists_table
  · exact htext
  · exact hentries (name, reached) (Tables.mem_of_getElem?_ofList hbody)

/-- **Exactly when a resolution succeeds.**  No walk enters more tables than may nest, every text that is
walked to can be read, and all the dice in these texts can be rolled. -/
theorem exists_resolveRecorded_eq_ok_iff_walks
    (hdrawable : ∀ names reached, Walk tables text names reached → Drawable reached) (s : σ) :
    (∃ result, (resolveRecorded tables limit text s).1 = .ok result) ↔
      ∀ names reached, Walk tables text names reached →
        names.length ≤ limit ∧ ∃ nodes, parse reached = .ok nodes ∧
          ∀ d, .dice d ∈ nodes → 1 ≤ d.count ∧ d.count ≤ 100000 ∧ 1 ≤ d.sides := by
  rw [exists_resolveRecorded_eq_ok_iff]
  constructor
  · intro hplan names reached hwalk
    obtain ⟨hlength, hsound⟩ := hwalk.of_error_planWithin_eq_none hplan
    exact ⟨hlength, (hdrawable names reached hwalk).forall_not_fault_iff.mp hsound⟩
  · intro hwalks
    cases herror : (plan tables limit text).error with
    | none => rfl
    | some error =>
      -- a failure stands at the end of a walk that the conditions rule out
      exfalso
      cases failure_of_error_planWithin herror with
      | @fault names reached cause hwalk hlevels hfault =>
        have hsound := (hdrawable names reached hwalk).forall_not_fault_iff.mpr
          (hwalks names reached hwalk).2
        exact hsound cause hfault
      | @tooDeep names name body hwalk hlevels =>
        have hlength := (hwalks (names ++ [name]) body hwalk).1
        rw [List.length_append, List.length_singleton, hlevels] at hlength
        omega

/-- Two tables nest in this text, and the reference to an unknown one does no harm. -/
theorem exists_resolveRecorded_eq_ok_iff_walks_nested :
    let tables := Tables.ofList [("x", "\x7ba|b\x7d[y]"), ("y", "2d6")]
    (∀ names reached, Walk tables "[x] or [z]" names reached → Drawable reached) ∧
      ∀ names reached, Walk tables "[x] or [z]" names reached →
        names.length ≤ 2 ∧ ∃ nodes, parse reached = .ok nodes ∧
          ∀ d, .dice d ∈ nodes → 1 ≤ d.count ∧ d.count ≤ 100000 ∧ 1 ≤ d.sides := by
  intro tables
  have htext : parse "[x] or [z]" = .ok [.table "x", .text " or ", .table "z"] := by cbv
  have hx : parse "\x7ba|b\x7d[y]" = .ok [.choice ["a", "b"], .table "y"] := by cbv
  have hy : parse "2d6" = .ok [.dice { count := 2, sides := 6 }] := by cbv
  have hdrawable : ∀ names reached, Walk tables "[x] or [z]" names reached → Drawable reached := by
    intro names reached hwalk
    refine drawable_of_walk_ofList (.of_parse htext (by simp)) ?_ hwalk
    simp only [List.forall_mem_cons, List.not_mem_nil, false_implies, implies_true, and_true]
    exact ⟨.of_parse hx (by simp [UInt32.size]), .of_parse hy (by simp)⟩
  have hrun : (resolveRecorded tables 2 "[x] or [z]" ({ values := #[3] } : Script)).1 =
      .ok "a6 or [z]" := by cbv
  exact ⟨hdrawable, (exists_resolveRecorded_eq_ok_iff_walks hdrawable _).mp ⟨_, hrun⟩⟩

end Augury.Prompt
