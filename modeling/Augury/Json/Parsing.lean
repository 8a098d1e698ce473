import Augury.Json.Token

/-!
# Reading a JSON document

A document is read token by token by a machine whose state says what may come next and, for each array
or object that is still open, what has been read of it.  Each state and token settle the next state, so
there is one way to read a document, and a document may nest to any depth.
-/

set_option autoImplicit false

namespace Augury.Json

/-- An array or object around the value that is being read: the items or members before that value,
the last one first, and for an object the name of the value. -/
inductive Frame where
  | item (before : List Json)
  | member (before : List (String × Json)) (name : String)
deriving Repr

/-- What has been read of a document and what may come next.  The frames are those of the open arrays
and objects, the innermost first. -/
inductive State where
  | expectValue (frames : List Frame)
  | itemOrEnd (frames : List Frame)
  | memberOrEnd (frames : List Frame)
  | expectName (before : List (String × Json)) (frames : List Frame)
  | expectColon (before : List (String × Json)) (name : String) (frames : List Frame)
  | afterItem (items : List Json) (frames : List Frame)
  | afterMember (members : List (String × Json)) (frames : List Frame)
  /-- The document is complete. -/
  | finished (value : Json)
deriving Repr

/-- The state behind a complete value. -/
def State.complete (value : Json) : List Frame → State
  | [] => .finished value
  | .item before :: frames => .afterItem (value :: before) frames
  | .member before name :: frames => .afterMember ((name, value) :: before) frames

/-- The state behind the first token of a value. -/
def State.start (frames : List Frame) : Token → Option State
  | .null => some (.complete .null frames)
  | .bool value => some (.complete (.bool value) frames)
  | .number value => some (.complete (.number value) frames)
  | .string value => some (.complete (.string value) frames)
  | .bracketOpen => some (.itemOrEnd frames)
  | .braceOpen => some (.memberOrEnd frames)
  | _ => none

/-- The state behind one more token; nothing when the token may not come. -/
def State.step : State → Token → Option State
  | .expectValue frames, token => State.start frames token
  | .itemOrEnd frames, .bracketClose => some (.complete (.array []) frames)
  | .itemOrEnd frames, token => State.start (.item [] :: frames) token
  | .memberOrEnd frames, .braceClose => some (.complete (.object []) frames)
  | .memberOrEnd frames, .string name => some (.expectColon [] name frames)
  | .expectName before frames, .string name => some (.expectColon before name frames)
  | .expectColon before name frames, .colon => some (.expectValue (.member before name :: frames))
  | .afterItem items frames, .comma => some (.expectValue (.item items :: frames))
  | .afterItem items frames, .bracketClose => some (.complete (.array items.reverse) frames)
  | .afterMember members frames, .comma => some (.expectName members frames)
  | .afterMember members frames, .braceClose => some (.complete (.object members.reverse) frames)
  | _, _ => none

def State.result? : State → Option Json
  | .finished v => some v
  | _ => none

/-- Reads a document: one value with nothing but white space around it. -/
def parse? (text : String) : Option Json := do
  let tokens ← tokenize? text.toList
  let state ← tokens.foldlM State.step (.expectValue [])
  state.result?

end Augury.Json
