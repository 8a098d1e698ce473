import Augury.Prompt.Resolution
import Mathlib

/-!
# The plan of a resolution

Nothing that is drawn decides what a resolution does next.  Its plan can therefore be written down
before the first draw: the leaves that are replaced one after the other, which are the nodes of the text
with the leaves of its table in the place of every known reference, and the error that ends the
resolution, if one does.  Resolving a text is carrying out its plan (`resolveWithin_eq_perform`).
-/

set_option autoImplicit false

namespace Augury.Prompt

/-! ## Leaves -/

/-- Why a node cannot be replaced, whatever is drawn for it. -/
def Node.refusal? : Node → Option Error
  | .choice options =>
    if options.isEmpty then some .emptyChoice
    else if UInt32.size ≤ options.length then some (.tooManyOptions options.length)
    else none
  | .dice d => d.refusal?.map Error.dice
  | .text _ => none
  | .table _ => none

variable {σ : Type} [Random.Source σ]

/-- Replaces a leaf.  A reference that is still a leaf is one to an unknown table. -/
def Node.emit : Node → StateM σ String
  | .text value => pure value
  | .choice options => do
    let picked ← modifyGet (Random.Source.draw (UInt32.ofNat options.length))
    let option := options[picked.toNat - 1]?.getD ""
    pure (String.ofList (Text.trim option.toList))
  | .table name => pure (Node.table name).render
  | .dice d => do
    let shown ← modifyGet (Random.drawMany d.sides d.count.toNat)
    pure (d.total (Dice.sum shown)).repr

def emitAll : List Node → StateM σ String
  | [] => pure ""
  | leaf :: leaves => do
    let first ← leaf.emit
    let rest ← emitAll leaves
    pure (first ++ rest)

theorem emitAll_append (before after : List Node) :
    (emitAll (before ++ after) : StateM σ String) = (do
      let first ← emitAll before
      let rest ← emitAll after
      pure (first ++ rest)) := by
  induction before with
  | nil => simp only [List.nil_append, emitAll, pure_bind, String.empty_append, bind_pure]
  | cons leaf leaves ih =>
    simp only [List.cons_append, emitAll, ih, bind_assoc, pure_bind, String.append_assoc]

/-! ## Plans -/

/-- What a resolution comes to before anything is drawn: the leaves to replace, and then the error that
it ends with. -/
structure Plan where
  leaves : List Node
  error : Option Error
deriving DecidableEq

namespace Plan

def done : Plan := { leaves := [], error := none }

def fail (error : Error) : Plan := { leaves := [], error := some error }

/-- One plan after the other; after an error nothing follows. -/
def append (first second : Plan) : Plan :=
  match first.error with
  | some _ => first
  | none => { leaves := first.leaves ++ second.leaves, error := second.error }

/-- A plan as it is seen from outside of the table that it belongs to. -/
def within (table : String) (p : Plan) : Plan :=
  { p with error := p.error.map (Error.within table) }

/-- The plan of a node that is not expanded. -/
def ofLeaf (node : Node) : Plan :=
  match node.refusal? with
  | some error => fail error
  | none => { leaves := [node], error := none }

/-- What comes of a plan whose leaves were replaced by a text. -/
def outcome (p : Plan) (text : String) : Except Error String :=
  match p.error with
  | none => .ok text
  | some error => .error error

def perform (p : Plan) : Resolving σ String :=
  ExceptT.mk (p.outcome <$> emitAll p.leaves)

end Plan

/-- The plan of a node, given the plans of the known tables. -/
def Node.plan (tables : Tables) (expand : String → String → Plan) (node : Node) : Plan :=
  match node with
  | .table name =>
    match tables[name]? with
    | some body => expand name body
    | none => Plan.ofLeaf node
  | _ => Plan.ofLeaf node

def planNodes (tables : Tables) (expand : String → String → Plan) (nodes : List Node) : Plan :=
  nodes.foldr (fun node rest => (node.plan tables expand).append rest) Plan.done

def planText (tables : Tables) (expand : String → String → Plan) (text : String) : Plan :=
  match parse text with
  | .error unclosed => Plan.fail (.unclosed unclosed)
  | .ok nodes => planNodes tables expand nodes

/-- The plan of a text in which tables may still nest as many levels as the second number says. -/
def planWithin (tables : Tables) (limit : Nat) : Nat → String → Plan
  | 0 => planText tables fun name _ => Plan.fail (.tooDeep name limit)
  | levels + 1 => planText tables fun name text =>
      (planWithin tables limit levels text).within name

def plan (tables : Tables) (limit : Nat) (text : String) : Plan :=
  planWithin tables limit limit text

/-- The limit decides how known tables are expanded, and nothing else. -/
theorem exists_plan_eq_planText (tables : Tables) (limit : Nat) :
    ∃ expand, ∀ text, plan tables limit text = planText tables expand text := by
  cases limit with
  | zero => exact ⟨_, fun _ => rfl⟩
  | succ levels => exact ⟨_, fun _ => rfl⟩

/-- A node is a leaf unless it refers to a known table. -/
def Node.IsLeaf (tables : Tables) (node : Node) : Prop :=
  ∀ name, node = .table name → tables[name]? = none

theorem not_isLeaf_of_known {tables : Tables} {name body : String}
    (hbody : tables[name]? = some body) : ¬ (Node.table name).IsLeaf tables := by
  intro hleaf
  rw [hleaf name rfl] at hbody
  cases hbody

/-- A node is expanded where it refers to a known table and a leaf everywhere else. -/
theorem Node.plan_cases (tables : Tables) (expand : String → String → Plan) (node : Node) :
    (∃ name body, node = .table name ∧ tables[name]? = some body ∧
      node.plan tables expand = expand name body) ∨
    (node.IsLeaf tables ∧ node.plan tables expand = Plan.ofLeaf node) := by
  cases node with
  | table name =>
    cases hbody : tables[name]? with
    | some body => exact .inl ⟨name, body, rfl, hbody, by simp [Node.plan, hbody]⟩
    | none =>
      refine .inr ⟨?_, by simp [Node.plan, hbody]⟩
      rintro other ⟨⟩
      exact hbody
  | text value => exact .inr ⟨fun name h => Node.noConfusion h, rfl⟩
  | choice options => exact .inr ⟨fun name h => Node.noConfusion h, rfl⟩
  | dice d => exact .inr ⟨fun name h => Node.noConfusion h, rfl⟩

/-! ## Errors of plans -/

namespace Plan

theorem append_of_error_eq_some {first second : Plan} {error : Error}
    (h : first.error = some error) : first.append second = first := by
  simp [append, h]

theorem append_of_error_eq_none {first second : Plan} (h : first.error = none) :
    first.append second =
      { leaves := first.leaves ++ second.leaves, error := second.error } := by
  simp [append, h]

theorem error_append (first second : Plan) :
    (first.append second).error = first.error.or second.error := by
  cases herror : first.error with
  | some error => rw [append_of_error_eq_some herror, herror, Option.some_or]
  | none => rw [append_of_error_eq_none herror, Option.none_or]

theorem error_within (table : String) (p : Plan) :
    (p.within table).error = p.error.map (Error.within table) := rfl

theorem error_ofLeaf (node : Node) : (ofLeaf node).error = node.refusal? := by
  unfold ofLeaf
  cases node.refusal? with
  | some error => rfl
  | none => rfl

end Plan

section Nodes

variable {tables : Tables} {expand : String → String → Plan}

theorem planNodes_nil : planNodes tables expand [] = Plan.done := rfl

theorem planNodes_cons (node : Node) (nodes : List Node) :
    planNodes tables expand (node :: nodes) =
      (node.plan tables expand).append (planNodes tables expand nodes) := rfl

/-- The first node whose plan has an error ends the plan of all of them. -/
theorem error_planNodes (nodes : List Node) :
    (planNodes tables expand nodes).error =
      nodes.findSome? fun node => (node.plan tables expand).error := by
  induction nodes with
  | nil => rfl
  | cons node nodes ih =>
    rw [planNodes_cons, Plan.error_append, ih, List.findSome?_cons]
    cases (node.plan tables expand).error with
    | some error => rfl
    | none => rfl

theorem planText_of_parse_eq_error {text : String} {unclosed : Unclosed}
    (h : parse text = .error unclosed) :
    planText tables expand text = Plan.fail (.unclosed unclosed) := by
  rw [planText, h]

theorem planText_of_parse_eq_ok {text : String} {nodes : List Node} (h : parse text = .ok nodes) :
    planText tables expand text = planNodes tables expand nodes := by
  rw [planText, h]

end Nodes

/-! ## Carrying out a plan -/

namespace Plan

theorem outcome_of_error_eq_none {p : Plan} (h : p.error = none) : p.outcome = Except.ok := by
  funext text
  simp [outcome, h]

theorem outcome_of_error_eq_some {p : Plan} {error : Error} (h : p.error = some error) :
    p.outcome = fun _ => Except.error error := by
  funext text
  simp [outcome, h]

theorem exists_outcome_eq_ok_iff {p : Plan} {text : String} :
    (∃ result, p.outcome text = .ok result) ↔ p.error = none := by
  cases herror : p.error with
  | none => simp [outcome, herror]
  | some error => simp [outcome, herror]

theorem outcome_eq_error_iff {p : Plan} {text : String} {error : Error} :
    p.outcome text = .error error ↔ p.error = some error := by
  cases herror : p.error with
  | none => simp [outcome, herror]
  | some other => simp [outcome, herror]

@[simp] theorem run_perform (p : Plan) :
    (p.perform : Resolving σ String).run = p.outcome <$> emitAll p.leaves := rfl

theorem perform_fail (error : Error) :
    ((fail error).perform : Resolving σ String) = throw error := by
  apply ExceptT.ext
  simp [fail, outcome, emitAll]

theorem perform_done : (done.perform : Resolving σ String) = pure "" := by
  apply ExceptT.ext
  simp [done, outcome, emitAll]

theorem perform_append (first second : Plan) :
    ((first.append second).perform : Resolving σ String) = (do
      let text ← first.perform
      let rest ← second.perform
      pure (text ++ rest)) := by
  apply ExceptT.ext
  cases hfirst : first.error with
  | some error =>
    simp [append, hfirst, outcome_of_error_eq_some hfirst, ExceptT.run_bind]
  | none =>
    cases hsecond : second.error with
    | some error =>
      simp [append, hfirst, hsecond, outcome_of_error_eq_none hfirst,
        outcome_of_error_eq_some hsecond, outcome_of_error_eq_some, ExceptT.run_bind,
        emitAll_append, Except.map]
    | none =>
      simp [append, hfirst, hsecond, outcome_of_error_eq_none hfirst,
        outcome_of_error_eq_none hsecond, outcome_of_error_eq_none, ExceptT.run_bind,
        emitAll_append, Except.map]

theorem perform_within (table : String) (p : Plan) :
    ((p.within table).perform : Resolving σ String) = p.perform.adapt (Error.within table) := by
  apply ExceptT.ext
  rw [ExceptT.run_adapt, run_perform, run_perform, Functor.map_map]
  congr 1
  funext text
  cases herror : p.error with
  | none => simp [within, outcome, herror, Except.mapError]
  | some error => simp [within, outcome, herror, Except.mapError]

/-- A refused leaf ends the plan, and any other is replaced. -/
theorem perform_ofLeaf (node : Node) :
    ((ofLeaf node).perform : Resolving σ String) =
      match node.refusal? with
      | some error => throw error
      | none => (node.emit : StateM σ String) := by
  unfold ofLeaf
  cases node.refusal? with
  | some error => exact perform_fail error
  | none =>
    apply ExceptT.ext
    simp only [run_perform, emitAll, pure_bind, String.append_empty, bind_pure, ExceptT.run_liftM]
    rw [outcome_of_error_eq_none rfl]

end Plan

section Resolution

variable {tables : Tables} {expand : String → String → Resolving σ String}
  {expansion : String → String → Plan}

theorem choose_eq_perform (options : List String) :
    (choose options : Resolving σ String) = (Plan.ofLeaf (.choice options)).perform := by
  rw [Plan.perform_ofLeaf]
  by_cases hempty : options.isEmpty
  · simp [choose, Node.refusal?, hempty]
  · by_cases hmany : UInt32.size ≤ options.length
    · simp [choose, Node.refusal?, hempty, hmany]
    · simp only [choose, hempty, hmany, Bool.false_eq_true, ↓reduceIte, bind_pure_comp,
        Node.refusal?, Node.emit, liftM_map]
      rfl

theorem roll_eq_perform (d : Dice) :
    (do let roll ← d.roll.adapt Error.dice; pure roll.total.repr : Resolving σ String) =
      (Plan.ofLeaf (.dice d)).perform := by
  rw [Plan.perform_ofLeaf]
  apply ExceptT.ext
  cases hrefused : d.refusal? with
  | some error => simp [Dice.roll, Node.refusal?, hrefused, Except.mapError, Except.map]
  | none =>
    simp only [Dice.roll, Node.refusal?, hrefused, Option.map_none, Node.emit]
    rfl

theorem Node.resolve_eq_perform
    (hexpand : ∀ name body, expand name body = (expansion name body).perform) (node : Node) :
    node.resolve (some tables) expand = (node.plan tables expansion).perform := by
  cases node with
  | text value => exact (Plan.perform_ofLeaf (.text value)).symm
  | choice options => exact choose_eq_perform options
  | table name =>
    simp only [Node.resolve, Node.plan, Option.bind_some]
    cases tables[name]? with
    | some body => exact hexpand name body
    | none => exact (Plan.perform_ofLeaf (.table name)).symm
  | dice d => exact roll_eq_perform d

theorem perform_planNodes_nil :
    ((planNodes tables expansion []).perform : Resolving σ String) = pure "" := by
  rw [planNodes_nil, Plan.perform_done]

theorem perform_planNodes_cons (node : Node) (nodes : List Node) :
    ((planNodes tables expansion (node :: nodes)).perform : Resolving σ String) = (do
      let first ← (node.plan tables expansion).perform
      let rest ← (planNodes tables expansion nodes).perform
      pure (first ++ rest)) := by
  rw [planNodes_cons, Plan.perform_append]

theorem mapM_resolve_eq_perform
    (hexpand : ∀ name body, expand name body = (expansion name body).perform) (nodes : List Node) :
    (do let parts ← nodes.mapM (Node.resolve (some tables) expand); pure (String.join parts)) =
      (planNodes tables expansion nodes).perform := by
  induction nodes with
  | nil => simp [perform_planNodes_nil]
  | cons node nodes ih =>
    rw [perform_planNodes_cons, ← ih, ← Node.resolve_eq_perform hexpand]
    simp [String.join_cons]

theorem resolveText_eq_perform
    (hexpand : ∀ name body, expand name body = (expansion name body).perform) (text : String) :
    resolveText (some tables) expand text = (planText tables expansion text).perform := by
  unfold resolveText planText
  cases parse text with
  | error unclosed => exact (Plan.perform_fail _).symm
  | ok nodes => exact mapM_resolve_eq_perform hexpand nodes

/-- **Resolving a text is carrying out its plan.**  The levels that are left decide how the known tables
are expanded, and nothing else. -/
theorem resolveWithin_eq_perform (limit levels : Nat) (text : String) :
    (resolveWithin (some tables) limit levels text : Resolving σ String) =
      (planWithin tables limit levels text).perform := by
  induction levels generalizing text with
  | zero =>
    refine resolveText_eq_perform ?_ text
    intro name body
    exact (Plan.perform_fail _).symm
  | succ levels ih =>
    refine resolveText_eq_perform ?_ text
    intro name body
    rw [Plan.perform_within, ih]

theorem resolve_eq_perform (limit : Nat) (text : String) :
    (resolve tables limit text : Resolving σ String) = (plan tables limit text).perform :=
  resolveWithin_eq_perform limit limit text

end Resolution

end Augury.Prompt
