import Augury.Prompt.Resolution

/-!
# Sessions

A session keeps tables, a source of random numbers and a nesting limit, and answers one request after
the other.  An error answers its request and leaves the session going; what was drawn for the request
stays drawn.
-/

set_option autoImplicit false

namespace Augury

structure Session (σ : Type) where
  tables : Prompt.Tables
  limit : Nat := Prompt.defaultLimit
  source : σ

namespace Session

inductive Request where
  | resolve (text : String)
  /-- Resolve a prompt without any table. -/
  | resolveBare (text : String)
  | roll (expression : String)
  | draw (upper : UInt32)
  | setTable (name text : String)
  | removeTable (name : String)
  | setLimit (limit : Nat)
deriving Repr

inductive Reply where
  | resolved (outcome : Except Prompt.Error String)
  | rolled (outcome : Except Dice.Error Roll)
  | drawn (value : UInt32)
  /-- The text that the table had before, if there was one. -/
  | replaced (previous : Option String)
  | limit (limit : Nat)

variable {σ : Type} [Random.Source σ]

def withSource {α : Type} (s : Session σ) (act : StateM σ α) : α × Session σ :=
  let (result, source) := act.run s.source
  (result, { s with source })

def perform (s : Session σ) : Request → Reply × Session σ
  | .resolve text =>
    let (outcome, s) := s.withSource (Prompt.resolve s.tables s.limit text).run
    (.resolved outcome, s)
  | .resolveBare text =>
    let (outcome, s) := s.withSource (Prompt.resolve none s.limit text).run
    (.resolved outcome, s)
  | .roll expression =>
    let (outcome, s) := s.withSource (Dice.rollText expression).run
    (.rolled outcome, s)
  | .draw upper =>
    let (value, s) := s.withSource (modifyGet (Random.Source.draw upper))
    (.drawn value, s)
  | .setTable name text =>
    (.replaced s.tables[name]?, { s with tables := s.tables.insert name text })
  | .removeTable name =>
    (.replaced s.tables[name]?, { s with tables := s.tables.erase name })
  | .setLimit limit => (.limit limit, { s with limit })

end Session

end Augury
