import Augury.Proofs.Faults

/-!
# What is drawn before a failure

A resolution tours the nodes of its text depth first: where it comes to a reference to a known table it
reads the text of the table and tours it before it goes on.  A tour halts at the first text that cannot be
read, the first dice that are refused, or the first reference to a known table when no more tables may
nest (`Tour`).  What stands behind this point, on every level, is not looked at.

A resolution that fails has made the draws of the leaves in front of this point, each of them in full and
in this order, and no others; and its error is what is wrong there, inside the names of the tables around
it (`exists_tour_of_resolveRecorded_eq_error`).
-/

set_option autoImplicit false

namespace Augury.Prompt

open Augury.Random (Draws LawfulSource Recorded Script Source)

/-! ## Tours -/

/-- Where a tour cannot go on: the names of the tables around the place, the outermost first, and what is
wrong there. -/
structure Halt where
  inside : List String
  cause : Error

/-- A halt in the text of a table, seen from the reference to the table. -/
def Halt.enter (name : String) (halt : Halt) : Halt :=
  { halt with inside := name :: halt.inside }

/-- The error that a halt amounts to.  The one about the nesting is reported without the tables around
it. -/
def Halt.error (halt : Halt) : Error :=
  match halt.cause with
  | .tooDeep table limit => .tooDeep table limit
  | cause => cause.inTables halt.inside

/-- The leaves on the way through a text that was read, or could not be, when tables may nest as many
levels as the second number says; and the place where the tour halts, if it does. -/
inductive Tour (tables : Tables) (limit : Nat) :
    Nat → Except Unclosed (List Node) → List Node → Option Halt → Prop where
  | unreadable {levels : Nat} (unclosed : Unclosed) :
      Tour tables limit levels (.error unclosed) [] (some ⟨[], .unclosed unclosed⟩)
  | finished {levels : Nat} : Tour tables limit levels (.ok []) [] none
  | leaf {levels : Nat} {node : Node} {nodes leaves : List Node} {halt : Option Halt}
      (hleaf : node.IsLeaf tables) (haccepted : ∀ d, node = .dice d → d.refusal? = none)
      (hrest : Tour tables limit levels (.ok nodes) leaves halt) :
      Tour tables limit levels (.ok (node :: nodes)) (node :: leaves) halt
  | refused {levels : Nat} {d : Dice} {nodes : List Node} {cause : Dice.Error}
      (hrefused : d.refusal? = some cause) :
      Tour tables limit levels (.ok (.dice d :: nodes)) [] (some ⟨[], .dice cause⟩)
  | tooDeep {name body : String} {nodes : List Node} (hbody : tables[name]? = some body) :
      Tour tables limit 0 (.ok (.table name :: nodes)) [] (some ⟨[], .tooDeep name limit⟩)
  | halted {levels : Nat} {name body : String} {nodes leaves : List Node} {halt : Halt}
      (hbody : tables[name]? = some body)
      (hinner : Tour tables limit levels (parse body) leaves (some halt)) :
      Tour tables limit (levels + 1) (.ok (.table name :: nodes)) leaves (some (halt.enter name))
  | passed {levels : Nat} {name body : String} {nodes inner leaves : List Node} {halt : Option Halt}
      (hbody : tables[name]? = some body)
      (hinner : Tour tables limit levels (parse body) inner none)
      (hrest : Tour tables limit (levels + 1) (.ok nodes) leaves halt) :
      Tour tables limit (levels + 1) (.ok (.table name :: nodes)) (inner ++ leaves) halt

theorem Halt.error_enter (name : String) (halt : Halt) :
    (halt.enter name).error = halt.error.within name := by
  obtain ⟨inside, cause⟩ := halt
  cases cause with
  | tooDeep table limit => rfl
  | _ => cases inside <;> rfl

variable {tables : Tables} {limit levels : Nat}

/-- There is one tour of a text only. -/
theorem Tour.unique {read : Except Unclosed (List Node)} {leaves others : List Node}
    {halt other : Option Halt} (h : Tour tables limit levels read leaves halt)
    (h' : Tour tables limit levels read others other) : others = leaves ∧ other = halt := by
  induction h generalizing others other with
  | unreadable unclosed =>
    cases h'
    exact ⟨rfl, rfl⟩
  | finished =>
    cases h'
    exact ⟨rfl, rfl⟩
  | leaf hleaf haccepted hrest ih =>
    cases h' with
    | leaf _ _ hrest' =>
      obtain ⟨rfl, rfl⟩ := ih hrest'
      exact ⟨rfl, rfl⟩
    | refused hrefused =>
      rw [haccepted _ rfl] at hrefused
      cases hrefused
    | tooDeep hbody => exact absurd hleaf (not_isLeaf_of_known hbody)
    | halted hbody => exact absurd hleaf (not_isLeaf_of_known hbody)
    | passed hbody => exact absurd hleaf (not_isLeaf_of_known hbody)
  | refused hrefused =>
    cases h' with
    | leaf _ haccepted =>
      rw [haccepted _ rfl] at hrefused
      cases hrefused
    | refused hrefused' =>
      rw [hrefused] at hrefused'
      cases hrefused'
      exact ⟨rfl, rfl⟩
  | tooDeep hbody =>
    cases h' with
    | leaf hleaf => exact absurd hleaf (not_isLeaf_of_known hbody)
    | tooDeep => exact ⟨rfl, rfl⟩
  | halted hbody hinner ih =>
    cases h' with
    | leaf hleaf => exact absurd hleaf (not_isLeaf_of_known hbody)
    | halted hbody' hinner' =>
      obtain rfl := Option.some.inj (hbody.symm.trans hbody')
      obtain ⟨rfl, hhalt⟩ := ih hinner'
      cases hhalt
      exact ⟨rfl, rfl⟩
    | passed hbody' hinner' =>
      obtain rfl := Option.some.inj (hbody.symm.trans hbody')
      cases (ih hinner').2
  | passed hbody hinner hrest ihinner ihrest =>
    cases h' with
    | leaf hleaf => exact absurd hleaf (not_isLeaf_of_known hbody)
    | halted hbody' hinner' =>
      obtain rfl := Option.some.inj (hbody.symm.trans hbody')
      cases (ihinner hinner').2
    | passed hbody' hinner' hrest' =>
      obtain rfl := Option.some.inj (hbody.symm.trans hbody')
      obtain ⟨rfl, -⟩ := ihinner hinner'
      obtain ⟨rfl, rfl⟩ := ihrest hrest'
      exact ⟨rfl, rfl⟩

/-! ## The plan of a tour -/

/-- A plan has the leaves of a tour and the error of the place where it halts. -/
def Plan.Traces (tables : Tables) (limit levels : Nat) (read : Except Unclosed (List Node))
    (p : Plan) : Prop :=
  ∃ halt, Tour tables limit levels read p.leaves halt ∧ p.error = halt.map Halt.error

section Traces

variable {node : Node} {nodes : List Node} {name body : String} {rest inner : Plan}

/-- A leaf is left behind, unless it is dice that are refused. -/
theorem traces_append_leaf (hleaf : node.IsLeaf tables)
    (hchoice : ∀ options, node = .choice options → node.refusal? = none)
    (hrest : rest.Traces tables limit levels (.ok nodes)) :
    ((Plan.ofLeaf node).append rest).Traces tables limit levels (.ok (node :: nodes)) := by
  obtain ⟨halt, htour, herror⟩ := hrest
  cases hrefused : node.refusal? with
  | none =>
    have hplan : (Plan.ofLeaf node).append rest =
        { leaves := node :: rest.leaves, error := rest.error } := by
      simp [Plan.ofLeaf, hrefused, Plan.append]
    rw [hplan]
    refine ⟨halt, .leaf hleaf ?_ htour, herror⟩
    rintro d rfl
    exact Option.map_eq_none_iff.mp hrefused
  | some error =>
    have hplan : (Plan.ofLeaf node).append rest = Plan.fail error := by
      simp [Plan.ofLeaf, hrefused, Plan.append, Plan.fail]
    rw [hplan]
    cases node with
    | text value => cases hrefused
    | table name => cases hrefused
    | choice options =>
      rw [hchoice options rfl] at hrefused
      cases hrefused
    | dice d =>
      obtain ⟨cause, hcause, rfl⟩ := Option.map_eq_some_iff.mp hrefused
      exact ⟨_, .refused hcause, rfl⟩

theorem traces_append_tooDeep (hbody : tables[name]? = some body) (rest : Plan) :
    ((Plan.fail (.tooDeep name limit)).append rest).Traces tables limit 0
      (.ok (.table name :: nodes)) :=
  ⟨_, .tooDeep hbody, rfl⟩

/-- A tour halts inside a table, or it leaves the table behind. -/
theorem traces_append_within (hbody : tables[name]? = some body)
    (hinner : inner.Traces tables limit levels (parse body))
    (hrest : rest.Traces tables limit (levels + 1) (.ok nodes)) :
    ((inner.within name).append rest).Traces tables limit (levels + 1)
      (.ok (.table name :: nodes)) := by
  obtain ⟨halt, htour, herror⟩ := hinner
  cases halt with
  | none =>
    have hnone : (inner.within name).error = none := by
      rw [Plan.error_within, herror]
      rfl
    obtain ⟨after, hafter, hlast⟩ := hrest
    rw [Plan.append_of_error_eq_none hnone]
    exact ⟨after, .passed hbody htour hafter, hlast⟩
  | some halt =>
    have hsome : (inner.within name).error = some (halt.enter name).error := by
      rw [Plan.error_within, herror, Halt.error_enter]
      rfl
    rw [Plan.append_of_error_eq_some hsome]
    exact ⟨some (halt.enter name), .halted hbody htour, hsome⟩

variable {expand : String → String → Plan} {text : String}

/-- The plan of a text traces its tour, when putting the expansion of a known table in front of a plan
keeps what the plan traces. -/
theorem traces_planText (hdrawable : Drawable text)
    (hexpand : ∀ name body, Refers text name → tables[name]? = some body → ∀ nodes rest,
      Plan.Traces tables limit levels (.ok nodes) rest →
      ((expand name body).append rest).Traces tables limit levels (.ok (.table name :: nodes))) :
    (planText tables expand text).Traces tables limit levels (parse text) := by
  cases hparse : parse text with
  | error unclosed =>
    rw [planText_of_parse_eq_error hparse]
    exact ⟨_, .unreadable unclosed, rfl⟩
  | ok nodes =>
    rw [planText_of_parse_eq_ok hparse]
    -- the nodes that are left are among those that were read
    have hsuffix : ∀ after, (∀ node ∈ after, node ∈ nodes) →
        (planNodes tables expand after).Traces tables limit levels (.ok after) := by
      intro after
      induction after with
      | nil => exact fun _ => ⟨none, .finished, rfl⟩
      | cons node after ih =>
        intro hafter
        rw [List.forall_mem_cons] at hafter
        have hrest := ih hafter.2
        rw [planNodes_cons]
        obtain ⟨name, body, rfl, hbody, hplan⟩ | ⟨hleaf, hplan⟩ := node.plan_cases tables expand
        · rw [hplan]
          exact hexpand name body ⟨nodes, hparse, hafter.1⟩ hbody after _ hrest
        · rw [hplan]
          refine traces_append_leaf hleaf ?_ hrest
          rintro options rfl
          exact hdrawable.refusal?_choice hparse hafter.1
    exact hsuffix nodes fun _ hnode => hnode

/-- **A plan traces the tour of its text.** -/
theorem traces_planWithin
    (hdrawable : ∀ names reached, Walk tables text names reached → Drawable reached) :
    (planWithin tables limit levels text).Traces tables limit levels (parse text) := by
  induction levels generalizing text with
  | zero =>
    apply traces_planText (hdrawable [] text (.nil text))
    intro name body hrefers hbody nodes rest hrest
    exact traces_append_tooDeep hbody rest
  | succ levels ih =>
    apply traces_planText (hdrawable [] text (.nil text))
    intro name body hrefers hbody nodes rest hrest
    apply traces_append_within hbody _ hrest
    apply ih
    intro names reached hwalk
    exact hdrawable (name :: names) reached (.cons hrefers hbody hwalk)

end Traces

/-! ## The draws of a resolution that fails -/

variable {σ : Type} [Source σ] [LawfulSource σ] {text : String} {error : Error} {s : σ}
  {last : Recorded σ}

/-- **What is drawn before a failure.**  A resolution that fails has a tour that halts, and no other tour.
Its error is the one of the halt; its draws are those that the leaves in front of the halt take, in their
order; and a text that cannot be read draws nothing. -/
theorem exists_tour_of_resolveRecorded_eq_error
    (hdrawable : ∀ names reached, Walk tables text names reached → Drawable reached)
    (hrun : resolveRecorded tables limit text s = (.error error, last)) :
    ∃ leaves halt, Tour tables limit limit (parse text) leaves (some halt) ∧
      (∀ others other, Tour tables limit limit (parse text) others other →
        others = leaves ∧ other = some halt) ∧
      error = halt.error ∧ (∃ emitted, EmitsAll leaves last.draws.toList emitted) ∧
      Draws s last.draws.toList last.source ∧
      ∀ unclosed, parse text = .error unclosed → error = .unclosed unclosed ∧ last.draws = #[] := by
  obtain ⟨emitted, hemits, hdraws, houtcome⟩ :=
    exists_emitsAll_of_resolveRecorded tables limit text s hrun
  have herror : (plan tables limit text).error = some error :=
    Plan.outcome_eq_error_iff.mp houtcome.symm
  have htraces : (plan tables limit text).Traces tables limit limit (parse text) :=
    traces_planWithin hdrawable
  obtain ⟨_ | halt, htour, hhalt⟩ := htraces
  · rw [herror] at hhalt
    cases hhalt
  · rw [herror, Option.map_some, Option.some.injEq] at hhalt
    refine ⟨_, halt, htour, fun others other => htour.unique, hhalt, ⟨emitted, hemits⟩, hdraws, ?_⟩
    intro unclosed hparse
    have hunreadable : Tour tables limit limit (parse text) [] (some ⟨[], .unclosed unclosed⟩) := by
      rw [hparse]
      exact .unreadable unclosed
    obtain ⟨hleaves, hplace⟩ := htour.unique hunreadable
    obtain rfl := Option.some.inj hplace
    have hbounds := hemits.map_upper
    rw [← hleaves, List.flatMap_nil, List.map_eq_nil_iff, Array.toList_eq_nil_iff] at hbounds
    exact ⟨hhalt, hbounds⟩

/-- Two tables deep a text cannot be read.  What stands in front of its reference is drawn, the choice
inside it and the dice behind it on the outer levels are not. -/
theorem exists_tour_of_resolveRecorded_eq_error_nested :
    let tables := Tables.ofList [("x", "1d4[y]2d8"), ("y", "\x7bc|d\x7d [z")]
    let error : Error := .inTable "x" (.inTable "y"
      (.unclosed { block := .table, span := { start := 6, stop := 8 } }))
    (∀ names reached, Walk tables "\x7ba|b\x7d [x] 3d6" names reached → Drawable reached) ∧
      ∃ last, resolveRecorded tables 2 "\x7ba|b\x7d [x] 3d6" ({ values := #[2] } : Script) =
          (.error error, last) ∧
        ∃ leaves halt, Tour tables 2 2 (parse "\x7ba|b\x7d [x] 3d6") leaves (some halt) ∧
          (∃ emitted, EmitsAll leaves [⟨2, 2⟩, ⟨4, 2⟩] emitted) ∧ error = halt.error := by
  intro tables error
  have htext : parse "\x7ba|b\x7d [x] 3d6" =
      .ok [.choice ["a", "b"], .text " ", .table "x", .text " ", .dice { count := 3, sides := 6 }] := by
    cbv
  have hx : parse "1d4[y]2d8" = .ok [.dice { count := 1, sides := 4 }, .table "y",
      .dice { count := 2, sides := 8 }] := by cbv
  have hy : parse "\x7bc|d\x7d [z" =
      .error { block := .table, span := { start := 6, stop := 8 } } := by cbv
  have hdrawable : ∀ names reached, Walk tables "\x7ba|b\x7d [x] 3d6" names reached →
      Drawable reached := by
    intro names reached hwalk
    refine drawable_of_walk_ofList (.of_parse htext (by simp [UInt32.size])) ?_ hwalk
    simp only [List.forall_mem_cons, List.not_mem_nil, false_implies, implies_true, and_true]
    refine ⟨.of_parse hx (by simp), ?_⟩
    intro nodes options hnodes
    rw [hy] at hnodes
    cases hnodes
  have hrun : resolveRecorded tables 2 "\x7ba|b\x7d [x] 3d6" ({ values := #[2] } : Script) =
      (.error error, { source := { values := #[2], position := 2 },
                       draws := #[⟨2, 2⟩, ⟨4, 2⟩] }) := by cbv
  obtain ⟨leaves, halt, htour, -, herror, hemits, -, -⟩ :=
    exists_tour_of_resolveRecorded_eq_error hdrawable hrun
  exact ⟨hdrawable, _, hrun, leaves, halt, htour, hemits, herror⟩

end Augury.Prompt
