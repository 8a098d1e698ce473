import Augury.Dice.Roll
import Augury.Prompt.Parsing
import Augury.Prompt.Tables
import Augury.Text.Blank

/-!
# Resolving a prompt

Resolving a prompt reads it as a whole and then replaces its nodes from left to right: a choice by one
of its options without the white space around it, dice by their total, and a reference to a table by
the table's own text, resolved in the same way.  A reference to an unknown table stays as it is
written.  What a node was replaced by is not looked at again.

Every choice takes one draw and every die takes one, in the order of the text.  The first error ends
the whole resolution; what was drawn before it stays drawn.
-/

set_option autoImplicit false

namespace Augury.Prompt

/-- The number of tables that may nest unless another number is asked for. -/
def defaultLimit : Nat := 32

/-- A computation that draws from a source with the states `σ` and may fail.  The state of the source
outlives a failure. -/
abbrev Resolving (σ : Type) := ExceptT Error (StateM σ)

/-- The error that a failure inside the text of a table becomes outside of it. -/
def Error.within (table : String) : Error → Error
  | .tooDeep inner limit => .tooDeep inner limit
  | cause => .inTable table cause

variable {σ : Type} [Random.Source σ]

/-- Picks one of the options: a draw from as many numbers as there are options, the first option having
the number one. -/
def choose (options : List String) : Resolving σ String := do
  if options.isEmpty then throw .emptyChoice
  if UInt32.size ≤ options.length then throw (.tooManyOptions options.length)
  let picked ← modifyGet (Random.Source.draw (UInt32.ofNat options.length))
  let option := options[picked.toNat - 1]?.getD ""
  pure (String.ofList (Text.trim option.toList))

/-- Resolves a node, given the tables, if there are any, and the way to expand the reference to a table
with a known text. -/
def Node.resolve (tables : Option Tables) (expand : String → String → Resolving σ String) :
    Node → Resolving σ String
  | .text value => pure value
  | .choice options => choose options
  | .table name =>
    match tables.bind fun tables => tables[name]? with
    | some body => expand name body
    | none => pure (Node.table name).render
  | .dice d => do
    let roll ← d.roll.adapt Error.dice
    pure roll.total.repr

/-- Resolves the nodes of a text one after the other. -/
def resolveText (tables : Option Tables) (expand : String → String → Resolving σ String)
    (text : String) : Resolving σ String :=
  match parse text with
  | .error unclosed => throw (.unclosed unclosed)
  | .ok nodes => do
    let parts ← nodes.mapM (Node.resolve tables expand)
    pure (String.join parts)

/-- Resolves a text in which tables may still nest as many levels as the second number says.  The limit
is the number of levels that the resolution started with, for the message of the error. -/
def resolveWithin (tables : Option Tables) (limit : Nat) : Nat → String → Resolving σ String
  | 0 => resolveText tables fun name _ => throw (.tooDeep name limit)
  | levels + 1 => resolveText tables fun name text =>
      (resolveWithin tables limit levels text).adapt (Error.within name)

/-- Resolves a prompt in which tables may nest up to a limit, given the tables, if there are any. -/
def resolve (tables : Option Tables) (limit : Nat) (text : String) : Resolving σ String :=
  resolveWithin tables limit limit text

/-! ## Without tables -/

/-- Where there are no tables, no reference is known, and the same holds of tables without an entry. -/
theorem Node.resolve_none (expand : String → String → Resolving σ String) :
    Node.resolve none expand = Node.resolve (some ∅) expand := by
  funext node
  cases node with
  | text value => rfl
  | choice options => rfl
  | table name =>
    have hunknown : (∅ : Tables)[name]? = none := Std.TreeMap.getElem?_emptyc
    simp only [Node.resolve, Option.bind_none, Option.bind_some, hunknown]
  | dice d => rfl

theorem resolveText_none (expand : String → String → Resolving σ String) (text : String) :
    resolveText none expand text = resolveText (some ∅) expand text := by
  unfold resolveText
  rw [Node.resolve_none]

theorem resolveWithin_none (limit levels : Nat) (text : String) :
    (resolveWithin none limit levels text : Resolving σ String) =
      resolveWithin (some ∅) limit levels text := by
  induction levels generalizing text with
  | zero => exact resolveText_none _ text
  | succ levels ih =>
    simp only [resolveWithin, ih]
    exact resolveText_none _ text

/-- **A prompt is resolved without tables as it is with empty ones.**  So what holds of all tables holds
where there are none. -/
theorem resolve_eq_resolve_getD (tables : Option Tables) (limit : Nat) (text : String) :
    (resolve tables limit text : Resolving σ String) = resolve (some (tables.getD ∅)) limit text := by
  cases tables with
  | none => exact resolveWithin_none limit limit text
  | some tables => rfl

end Augury.Prompt
