import Augury.Dice.Error
import Augury.Prompt.Block
import Augury.Text.Offset

/-!
# What can be wrong with a prompt

A prompt cannot be read when a block is never closed.  Resolving it can fail for that reason, for a
choice that nothing can be picked from, for refused dice, and for table references that nest too
deeply.  An error inside the text of a table names the table, around the error itself; only the error
about the nesting stays as it is.
-/

set_option autoImplicit false

namespace Augury.Prompt

/-- A block that is never closed: its kind, and the stretch from its opening character to the end of
the text. -/
structure Unclosed where
  block : Block
  span : Text.Span
deriving Repr, DecidableEq

def Unclosed.message (u : Unclosed) : String :=
  match u.block with
  | .choice =>
    "unterminated choice at byte " ++ u.span.start.repr ++ ": missing closing '\x7d'"
  | .table =>
    "unterminated table reference at byte " ++ u.span.start.repr ++ ": missing closing ']'"

/-- Why a prompt cannot be resolved. -/
inductive Error where
  | unclosed (block : Unclosed)
  | emptyChoice
  /-- A choice has more options than a draw has upper bounds for. -/
  | tooManyOptions (count : Nat)
  | dice (cause : Dice.Error)
  /-- The reference to this table lies inside as many tables as may nest. -/
  | tooDeep (table : String) (limit : Nat)
  /-- The text of this table cannot be resolved. -/
  | inTable (table : String) (cause : Error)
deriving Repr, DecidableEq

def Error.message : Error → String
  | .unclosed u => u.message
  | .emptyChoice => "choice has no options"
  | .tooManyOptions count =>
    "choice has " ++ count.repr ++ " options, more than can be drawn from"
  | .dice cause => cause.message
  | .tooDeep table limit =>
    "table [" ++ table ++ "] nests more than " ++ limit.repr ++ " levels deep"
  | .inTable table cause => "in table [" ++ table ++ "]: " ++ cause.message

/-- The block that is never closed, when it stands in the given text itself and not in a table. -/
def Error.unclosed? : Error → Option Unclosed
  | .unclosed u => some u
  | _ => none

/-- The stretch of the given text that an error is about. -/
def Error.span? (e : Error) : Option Text.Span :=
  e.unclosed?.map Unclosed.span

/-- The errors inside an error, from the outermost on: one for each table around the innermost. -/
def Error.causes : Error → List Error
  | .inTable _ cause => cause :: cause.causes
  | _ => []

def Error.rootCause : Error → Error
  | .inTable _ cause => cause.rootCause
  | e => e

end Augury.Prompt
