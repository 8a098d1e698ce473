import Augury.Prompt.Error
import Augury.Text.Blank
import Augury.Text.Lines
import Augury.Text.Width

/-!
# Reports

A report shows an error in a prompt on a terminal: the message, the name of the text with the line and
column of the place, the line itself, and under the line a mark below the bracket that is never closed.
There is a report for every error that has a place in the given text, and for no other.

Lines and columns are counted in characters.  The mark below a character is as wide as the character is
on the terminal; a character that takes no column there gets no mark.
-/

set_option autoImplicit false

namespace Augury.Prompt

/-! ## What a report shows -/

/-- A report: the message, what is wrong at the marked place, the text, and the number of characters in
front of the marked place. -/
structure Report where
  message : String
  remark : String
  text : List Char
  offset : Nat
deriving Repr, DecidableEq

/-- What is wrong at the opening character of a block that is never closed. -/
def Block.remark : Block → String
  | .choice => "this '\x7b' is never closed"
  | .table => "this '[' is never closed"

/-- The report about an error in a text.  There is none when the error has no place in the text: when it
has no stretch at all, or one with an end that lies beyond the text or inside a character. -/
def Report.of? (text : String) (error : Error) : Option Report := do
  let unclosed ← error.unclosed?
  let cs := text.toList
  let offset ← Text.charsBefore? cs unclosed.span.start
  let _ ← Text.charsBefore? cs unclosed.span.stop
  pure { message := error.message, remark := unclosed.block.remark, text := cs, offset }

/-! ## Colours -/

/-- The colours of a report. -/
inductive Ink where
  | frame
  | margin
  | plain
  | marked
deriving Repr, DecidableEq

def Ink.parameters : Ink → String
  | .frame => "38;5;246"
  | .margin => "38;5;240"
  | .plain => "38;5;249"
  | .marked => "31"

/-- A text in a colour, with the default colour behind it. -/
def Ink.paint (ink : Ink) (text : String) : String :=
  "\x1b[" ++ ink.parameters ++ "m" ++ text ++ "\x1b[0m"

/-! ## Columns -/

/-- The number of columns between the stops of the tab character. -/
def tabStop : Nat := 4

/-- The number of terminal columns of a character that stands at a column of a line. -/
def glyphWidth (column : Nat) (c : Char) : Nat :=
  if c = '\t' then tabStop - column % tabStop
  else if Text.isBlank c then 1
  else Text.width c

/-- The number of terminal columns of a column of a line, one for those behind the end. -/
def Report.columnWidth (shown : List Char) (column : Nat) : Nat :=
  match shown[column]? with
  | some c => glyphWidth column c
  | none => 1

/-- The characters that stand for the character at a column of a line: white space becomes spaces. -/
def glyphs (column : Nat) (c : Char) : List Char :=
  if c = '\t' then List.replicate (tabStop - column % tabStop) ' '
  else if Text.isBlank c then [' ']
  else [c]

def repeated (count : Nat) (text : String) : String :=
  String.join (List.replicate count text)

/-! ## Lines -/

def Report.location (r : Report) : Text.Location :=
  Text.locate (Text.lines r.text) r.offset

/-- The line of the text that a report shows, without the white space at its end. -/
def Report.shownLine (r : Report) : List Char :=
  Text.trimEnd r.location.line

def Report.lineNumber (r : Report) : String :=
  (r.location.row + 1).repr

def Report.gutter (r : Report) : String :=
  repeated r.lineNumber.length " "

/-- The line above the text: the name of the text and the place. -/
def Report.heading (r : Report) (name : String) : String :=
  r.gutter ++ "  " ++ Ink.frame.paint "╭" ++ Ink.frame.paint "─" ++ Ink.frame.paint "[" ++ " " ++
    name ++ ":" ++ r.lineNumber ++ ":" ++ (r.location.column + 1).repr ++ " " ++
    Ink.frame.paint "]"

/-- The text itself, one character after the other. -/
def Report.quotation (r : Report) : String :=
  let markedColumn := r.location.column
  " " ++ Ink.frame.paint (r.lineNumber ++ " │") ++ " " ++
    String.join (r.shownLine.zipIdx.map fun (c, column) =>
      let ink := if column = markedColumn then Ink.marked else Ink.plain
      String.join ((glyphs column c).map fun glyph => ink.paint (String.singleton glyph)))

def Report.underMargin (r : Report) : String :=
  " " ++ Ink.margin.paint (r.gutter ++ " │") ++ " "

/-- The mark below a column: a sign and as many dashes as fill the column.  A column without a width
gets no mark. -/
def Report.mark (sign : String) : Nat → String
  | 0 => ""
  | width + 1 => Ink.marked.paint sign ++ repeated width (Ink.marked.paint "─")

/-- The line right under the text, with the top of the mark. -/
def Report.markTop (r : Report) : String :=
  let width := Report.columnWidth r.shownLine
  let column := r.location.column
  r.underMargin ++
    String.join ((List.range (column + 3)).map fun k =>
      if k = column then Report.mark "┬" (width k) else repeated (width k) " ")

/-- The line with the foot of the mark, which leads to the remark. -/
def Report.markFoot (r : Report) : String :=
  let width := Report.columnWidth r.shownLine
  let column := r.location.column
  r.underMargin ++
    String.join ((List.range column).map fun k => repeated (width k) " ") ++
    Report.mark "╰" (width column) ++
    String.join ([column + 1, column + 2].map fun k =>
      repeated (width k) (Ink.marked.paint "─")) ++
    " " ++ r.remark

/-- The lines of a report about a text with the given name.  A place at the very end of the text has no
character to show. -/
def Report.lines (r : Report) (name : String) : List String :=
  ["\x1b[31mError:\x1b[0m " ++ r.message,
    r.heading name,
    r.gutter ++ "  " ++ Ink.frame.paint "│"] ++
  (if r.offset < r.text.length then [r.quotation, r.markTop, r.markFoot] else [r.underMargin]) ++
  [Ink.frame.paint (repeated (r.lineNumber.length + 2) "─" ++ "╯")]

def Report.render (r : Report) (name : String) : String :=
  String.join ((r.lines name).map fun line => line ++ "\n")

end Augury.Prompt
