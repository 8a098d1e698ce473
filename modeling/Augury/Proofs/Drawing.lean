import Augury.Proofs.Reports

/-!
# The drawing of a report

What a report prints is fixed by the place that it marks (`Report.exists_render_eq_drawing`).  The heading
names the line and the column of the place, both counted from one: the lines above the place and the
characters in front of it in its own line make up the text in front of it (`Text.exists_lines_eq_of_locate`).
The line is printed with the marked character in a colour of its own, and the mark stands right below that
character: the blanks in front of the mark take as many columns of the terminal as what is printed in front
of the character, tabs and wide characters included (`Report.indent_eq_columns`).

A report about a block that is never closed is drawn at the byte offset of its opener
(`Report.Marks.exists_render_eq_drawing`).
-/

set_option autoImplicit false

namespace Augury.Text

/-- The number of columns that a text takes on the terminal. -/
def columns (cs : List Char) : Nat :=
  (cs.map width).sum

theorem columns_append (front back : List Char) :
    columns (front ++ back) = columns front + columns back := by
  rw [columns, List.map_append, List.sum_append]
  rfl

/-- The line that holds a place of a text stands behind the lines above it, and the characters of these and
the ones in front of the place in its own line are those in front of the place. -/
theorem exists_lines_eq_of_locate {lines : List (List Char)} {offset : Nat}
    (h : offset < lines.flatten.length) :
    ∃ above below, lines = above ++ (locate lines offset).line :: below ∧
      above.length = (locate lines offset).row ∧
      above.flatten.length + (locate lines offset).column = offset := by
  fun_induction locate lines offset with
  | case1 offset => cases h
  | case2 line offset => exact ⟨[], [], rfl, rfl, Nat.zero_add offset⟩
  | case3 line next rest offset hlt => exact ⟨[], next :: rest, rfl, rfl, Nat.zero_add offset⟩
  | case4 line next rest offset hge location ih =>
    have hrest : offset - line.length < (next :: rest).flatten.length := by
      rw [List.flatten_cons, List.length_append] at h
      omega
    obtain ⟨above, below, hlines, hrow, hoffset⟩ := ih hrest
    refine ⟨line :: above, below, ?_, ?_, ?_⟩
    · rw [hlines]
      rfl
    · rw [List.length_cons, hrow]
    · rw [List.flatten_cons, List.length_append, Nat.add_assoc, hoffset]
      omega

end Augury.Text

namespace Augury.Prompt

/-! ## The drawing -/

/-- The characters that are printed for a part of a line that starts at a column. -/
def drawn (column : Nat) (cs : List Char) : List Char :=
  (cs.zipIdx column).flatMap fun (c, k) => glyphs k c

/-- Characters in a colour, one after the other. -/
def Ink.paintEach (ink : Ink) (cs : List Char) : String :=
  String.join (cs.map fun c => ink.paint (String.singleton c))

/-- The lines of a report that marks a character of a text: there are so many lines above the one with the
character, and these characters in front of it and behind it in its line. -/
def drawing (message remark name : String) (above : Nat) (front : List Char) (c : Char)
    (back : List Char) : List String :=
  let number := (above + 1).repr
  let gutter := repeated number.length " "
  let margin := " " ++ Ink.margin.paint (gutter ++ " │") ++ " "
  let indent := repeated (Text.columns (drawn 0 front)) " "
  let width := Report.columnWidth (front ++ c :: back)
  let behind := width (front.length + 1) + width (front.length + 2)
  ["\x1b[31mError:\x1b[0m " ++ message,
    gutter ++ "  " ++ Ink.frame.paint "╭" ++ Ink.frame.paint "─" ++ Ink.frame.paint "[" ++ " " ++
      name ++ ":" ++ number ++ ":" ++ (front.length + 1).repr ++ " " ++ Ink.frame.paint "]",
    gutter ++ "  " ++ Ink.frame.paint "│",
    " " ++ Ink.frame.paint (number ++ " │") ++ " " ++
      (Ink.plain.paintEach (drawn 0 front) ++ Ink.marked.paint (String.singleton c) ++
        Ink.plain.paintEach (drawn (front.length + 1) back)),
    margin ++ (indent ++ Report.mark "┬" (Text.width c) ++ repeated behind " "),
    margin ++ (indent ++ Report.mark "╰" (Text.width c) ++
      repeated behind (Ink.marked.paint "─") ++ " " ++ remark),
    Ink.frame.paint (repeated (number.length + 2) "─" ++ "╯")]

/-! ## Characters in columns -/

theorem drawn_cons (column : Nat) (c : Char) (cs : List Char) :
    drawn column (c :: cs) = glyphs column c ++ drawn (column + 1) cs := by
  rw [drawn, List.zipIdx_cons, List.flatMap_cons]
  rfl

theorem Ink.paintEach_append (ink : Ink) (front back : List Char) :
    ink.paintEach (front ++ back) = ink.paintEach front ++ ink.paintEach back := by
  rw [paintEach, List.map_append, String.join_append]
  rfl

section NotBlank

variable {c : Char} (hc : Text.isBlank c = false)
include hc

theorem ne_tab_of_not_blank : c ≠ '\t' := by
  rintro rfl
  cases hc

theorem glyphs_of_not_blank (column : Nat) : glyphs column c = [c] := by
  simp [glyphs, ne_tab_of_not_blank hc, hc]

theorem glyphWidth_of_not_blank (column : Nat) : glyphWidth column c = Text.width c := by
  simp [glyphWidth, ne_tab_of_not_blank hc, hc]

end NotBlank

/-- What is printed for a character takes the columns that the character counts for. -/
theorem columns_glyphs (column : Nat) (c : Char) :
    Text.columns (glyphs column c) = glyphWidth column c := by
  have hspace : Text.width ' ' = 1 := by decide +kernel
  by_cases hblank : Text.isBlank c = true
  · unfold glyphs glyphWidth
    by_cases htab : c = '\t'
    · simp [htab, Text.columns, hspace]
    · simp [htab, hblank, Text.columns, hspace]
  · rw [Bool.not_eq_true] at hblank
    rw [glyphs_of_not_blank hblank, glyphWidth_of_not_blank hblank]
    simp [Text.columns]

theorem columns_drawn (column : Nat) (cs : List Char) :
    Text.columns (drawn column cs) = ((cs.zipIdx column).map fun (c, k) => glyphWidth k c).sum := by
  induction cs generalizing column with
  | nil => rfl
  | cons c cs ih =>
    rw [drawn_cons, Text.columns_append, columns_glyphs, ih, List.zipIdx_cons, List.map_cons,
      List.sum_cons]

/-- A tab reaches to the next stop, and a wide character takes two columns. -/
example : Text.columns (drawn 0 ['a', '\t', '漢']) = 6 := by decide +kernel

theorem repeated_add (m n : Nat) (text : String) :
    repeated (m + n) text = repeated m text ++ repeated n text := by
  rw [repeated, List.replicate_add, String.join_append]
  rfl

theorem join_map_repeated (width : Nat → Nat) (columns : List Nat) (text : String) :
    String.join (columns.map fun k => repeated (width k) text) =
      repeated (columns.map width).sum text := by
  induction columns with
  | nil => rfl
  | cons k columns ih =>
    rw [List.map_cons, String.join_cons, ih, List.map_cons, List.sum_cons, repeated_add]

/-- A part of a line in which every column has the same colour is printed in that colour. -/
theorem join_paint_glyphs {inkAt : Nat → Ink} {ink : Ink} {column : Nat} {cs : List Char}
    (h : ∀ k, column ≤ k → k < column + cs.length → inkAt k = ink) :
    String.join ((cs.zipIdx column).map fun (c, k) =>
      String.join ((glyphs k c).map fun glyph => (inkAt k).paint (String.singleton glyph))) =
        ink.paintEach (drawn column cs) := by
  induction cs generalizing column with
  | nil => rfl
  | cons c cs ih =>
    rw [List.length_cons] at h
    have hhead : inkAt column = ink := by
      apply h
      · omega
      · omega
    have htail : ∀ k, column + 1 ≤ k → k < column + 1 + cs.length → inkAt k = ink := by
      intro k hlower hupper
      apply h
      · omega
      · omega
    rw [drawn_cons, Ink.paintEach_append, List.zipIdx_cons, List.map_cons, String.join_cons, ih htail]
    simp only [hhead]
    rfl

/-! ## The lines with the mark -/

namespace Report

/-- The number of columns of the terminal in front of the marked place, in its line. -/
def indent (r : Report) : Nat :=
  ((List.range r.location.column).map (columnWidth r.shownLine)).sum

variable {r : Report} {front back : List Char} {c : Char}

theorem columnWidth_eq_of_getElem? {shown : List Char} {column : Nat} (h : shown[column]? = some c) :
    columnWidth shown column = glyphWidth column c := by
  rw [columnWidth, h]

/-- The columns in front of the marked place are those of what is printed in front of it. -/
theorem indent_eq_columns (hline : r.shownLine = front ++ back)
    (hcolumn : r.location.column = front.length) : r.indent = Text.columns (drawn 0 front) := by
  have hwidths : (List.range front.length).map (columnWidth (front ++ back)) =
      front.zipIdx.map fun (c, k) => glyphWidth k c := by
    apply List.ext_getElem
    · simp
    · intro k hleft hright
      have hk : k < front.length := by simpa using hleft
      have hchar : (front ++ back)[k]? = some front[k] := by
        rw [List.getElem?_append_left hk, List.getElem?_eq_getElem hk]
      simp [columnWidth_eq_of_getElem? hchar]
  rw [indent, hline, hcolumn, hwidths, columns_drawn]

/-- The colour of a column in the line of a report. -/
def inkAt (r : Report) (column : Nat) : Ink :=
  if column = r.location.column then .marked else .plain

theorem inkAt_of_ne {column : Nat} (h : column ≠ r.location.column) : r.inkAt column = .plain :=
  if_neg h

/-- The line is printed as what stands in front of the marked character, the character itself, and what
stands behind it. -/
theorem quotation_eq (hline : r.shownLine = front ++ c :: back)
    (hcolumn : r.location.column = front.length) :
    r.quotation = " " ++ Ink.frame.paint (r.lineNumber ++ " │") ++ " " ++
      (Ink.plain.paintEach (drawn 0 front) ++ Ink.marked.paintEach (glyphs front.length c) ++
        Ink.plain.paintEach (drawn (front.length + 1) back)) := by
  have hquotation : r.quotation = " " ++ Ink.frame.paint (r.lineNumber ++ " │") ++ " " ++
      String.join (r.shownLine.zipIdx.map fun (c, k) =>
        String.join ((glyphs k c).map fun glyph => (r.inkAt k).paint (String.singleton glyph))) := rfl
  have hfront : ∀ k, 0 ≤ k → k < 0 + front.length → r.inkAt k = .plain := by
    intro k _ hk
    apply inkAt_of_ne
    omega
  have hback : ∀ k, front.length + 1 ≤ k → k < front.length + 1 + back.length →
      r.inkAt k = .plain := by
    intro k hk _
    apply inkAt_of_ne
    omega
  have hmarked : r.inkAt front.length = .marked := if_pos hcolumn.symm
  rw [hquotation, hline, List.zipIdx_append, List.map_append, String.join_append, List.zipIdx_cons,
    List.map_cons, String.join_cons, join_paint_glyphs hfront, Nat.zero_add, join_paint_glyphs hback]
  simp only [hmarked, String.append_assoc]
  rfl

/-- The mark below a column stands behind the blanks for the columns in front of it. -/
theorem markTop_eq (r : Report) :
    r.markTop = r.underMargin ++ (repeated r.indent " " ++
      mark "┬" (columnWidth r.shownLine r.location.column) ++
      repeated (columnWidth r.shownLine (r.location.column + 1) +
        columnWidth r.shownLine (r.location.column + 2)) " ") := by
  have hrange : List.range (r.location.column + 3) = List.range r.location.column ++
      r.location.column :: [r.location.column + 1, r.location.column + 2] := by
    simp [List.range_succ]
  -- away from the marked column there are only blanks
  have hblanks : ∀ columns : List Nat, r.location.column ∉ columns →
      columns.map (fun k => if k = r.location.column then mark "┬" (columnWidth r.shownLine k)
        else repeated (columnWidth r.shownLine k) " ") =
      columns.map fun k => repeated (columnWidth r.shownLine k) " " := by
    intro columns hcolumns
    apply List.map_congr_left
    intro k hk
    apply if_neg
    rintro rfl
    exact hcolumns hk
  simp only [markTop]
  rw [hrange, List.map_append, List.map_cons, hblanks _ (by simp), hblanks _ (by simp), if_pos rfl,
    String.join_append, String.join_cons, join_map_repeated, join_map_repeated, String.append_assoc]
  rfl

/-- The foot of the mark stands below its top. -/
theorem markFoot_eq (r : Report) :
    r.markFoot = r.underMargin ++ (repeated r.indent " " ++
      mark "╰" (columnWidth r.shownLine r.location.column) ++
      repeated (columnWidth r.shownLine (r.location.column + 1) +
        columnWidth r.shownLine (r.location.column + 2)) (Ink.marked.paint "─") ++
      " " ++ r.remark) := by
  simp only [markFoot, join_map_repeated, String.append_assoc]
  rfl

/-! ## The whole report -/

/-- A character of the text that is not blank is marked in its line, behind the lines above. -/
theorem exists_lines_eq (h : r.text[r.offset]? = some c) (hc : Text.isBlank c = false) :
    ∃ above below front back, Text.lines r.text = above ++ (front ++ c :: back) :: below ∧
      (above.flatten ++ front).length = r.offset ∧ r.location.row = above.length ∧
      r.location.column = front.length ∧ r.shownLine = front ++ c :: Text.trimEnd back := by
  have hoffset : r.offset < (Text.lines r.text).flatten.length := by
    rw [Text.flatten_lines]
    exact (List.getElem?_eq_some_iff.mp h).1
  have hchar : r.location.line[r.location.column]? = some c := by
    rw [location, Text.getElem?_locate, Text.flatten_lines, h]
  obtain ⟨above, below, hlines, hrow, hplace⟩ := Text.exists_lines_eq_of_locate hoffset
  obtain ⟨front, back, hline, hcolumn⟩ := Text.exists_eq_append_cons_of_getElem? hchar
  refine ⟨above, below, front, back, ?_, ?_, hrow.symm, hcolumn.symm, ?_⟩
  · rw [← hline]
    exact hlines
  · rw [List.length_append, hcolumn]
    exact hplace
  · rw [shownLine, hline, Text.trimEnd_append_cons hc]

/-- **A report is drawn at the place that it marks.**  Let the character behind the first `offset` characters
of the text not be white space.  It stands in one of the lines of the text, and the lines above it and the
characters in front of it in its line are `offset` characters together.  The report is the drawing for this
line and this column; of the line, what stands behind the character is printed without the white space at
the end. -/
theorem exists_render_eq_drawing (h : r.text[r.offset]? = some c) (hc : Text.isBlank c = false)
    (name : String) :
    ∃ above below front back, Text.lines r.text = above ++ (front ++ c :: back) :: below ∧
      (above.flatten ++ front).length = r.offset ∧
      r.render name = String.join
        ((drawing r.message r.remark name above.length front c (Text.trimEnd back)).map
          fun line => line ++ "\n") := by
  obtain ⟨above, below, front, back, hlines, hplace, hrow, hcolumn, hshown⟩ := exists_lines_eq h hc
  refine ⟨above, below, front, back, hlines, hplace, ?_⟩
  have hinside : r.offset < r.text.length := (List.getElem?_eq_some_iff.mp h).1
  have hmark : columnWidth r.shownLine r.location.column = Text.width c := by
    have hchar : r.shownLine[r.location.column]? = some c := getElem?_shownLine h hc
    rw [columnWidth_eq_of_getElem? hchar, glyphWidth_of_not_blank hc]
  have hmarked : Ink.marked.paintEach (glyphs front.length c) =
      Ink.marked.paint (String.singleton c) := by
    rw [glyphs_of_not_blank hc, Ink.paintEach, List.map_singleton, String.join_cons, String.join_nil,
      String.append_empty]
  have hnumber : r.lineNumber = (above.length + 1).repr := by rw [lineNumber, hrow]
  have hdrawing : r.lines name =
      drawing r.message r.remark name above.length front c (Text.trimEnd back) := by
    rw [lines, if_pos hinside, quotation_eq hshown hcolumn, markTop_eq, markFoot_eq, hmark, hmarked,
      indent_eq_columns hshown hcolumn, hshown, hcolumn]
    simp only [heading, underMargin, gutter, hnumber, hcolumn]
    rfl
  rw [render, hdrawing]

/-- **The report about a block that is never closed is drawn at the opener.**  The lines above the opener and
the characters in front of it in its line take as many bytes as the stretch of the error starts behind, and
the report is the drawing for this line and this column. -/
theorem Marks.exists_render_eq_drawing {text : String} {unclosed : Unclosed}
    (h : r.Marks text unclosed) (name : String) :
    ∃ above below front back,
      Text.lines text.toList = above ++ (front ++ unclosed.block.opener :: back) :: below ∧
      Text.byteLength (above.flatten ++ front) = unclosed.span.start ∧
      r.render name = String.join
        ((drawing r.message r.remark name above.length front unclosed.block.opener
          (Text.trimEnd back)).map fun line => line ++ "\n") := by
  obtain ⟨above, below, front, back, hlines, hplace, hrender⟩ :=
    Report.exists_render_eq_drawing h.opener unclosed.block.isBlank_opener name
  refine ⟨above, below, front, back, h.text_eq ▸ hlines, ?_, hrender⟩
  -- the text has one front of this many characters
  obtain ⟨before, behind, htext, hstart, hlength⟩ := h.offset
  have hflat : above.flatten ++ front ++ (unclosed.block.opener :: back ++ below.flatten) =
      before ++ unclosed.block.opener :: behind := by
    rw [← htext, ← h.text_eq, ← Text.flatten_lines r.text, hlines]
    simp
  have hfront := (List.append_inj hflat (hplace.trans hlength.symm)).1
  rw [hfront, hstart]

end Report

end Augury.Prompt
