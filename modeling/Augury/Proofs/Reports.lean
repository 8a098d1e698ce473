import Augury.Command.Run
import Augury.Proofs.Faults
import Augury.Proofs.UnclosedBlocks
import Mathlib.Data.List.DropRight

/-!
# Reports about prompts

The errors that have a place in the given text are those of reading it, so that a report is shown exactly
when the text cannot be read.  An error inside a table has a place in the text of the table, which is
another text; it comes out with the name of the table around it, and the place is no longer seen
(`Failure.parse_eq_error`).

The place is given in bytes and shown in characters.  A byte offset that the scanner comes to lies between
two characters, whatever their sizes, and the character behind the one that starts the stretch is the
opener (`Report.Marks`).  The jobs of resolving and of parsing a text that cannot be read end with the same
report (`report_unread`).
-/

set_option autoImplicit false

namespace Augury.Text

/-! ## Places in a text -/

/-- A byte offset lies between two characters of a text or at one of its ends. -/
def IsBoundary (cs : List Char) (offset : Nat) : Prop :=
  ∃ front, front <+: cs ∧ byteLength front = offset

theorem charsBefore?_append (front back : List Char) :
    charsBefore? (front ++ back) (byteLength front) = some front.length := by
  induction front with
  | nil =>
    unfold charsBefore?
    rfl
  | cons c front ih =>
    have hsize := c.utf8Size_pos
    have hpos : c.utf8Size + byteLength front ≠ 0 := by omega
    have hlong : ¬ c.utf8Size + byteLength front < c.utf8Size := by omega
    rw [List.cons_append, byteLength_cons, charsBefore?, if_neg hpos]
    simp only [if_neg hlong, Nat.add_sub_cancel_left, ih, Option.map_some, List.length_cons]

/-- The place at a location is the place in the text that the lines make up. -/
theorem getElem?_locate (lines : List (List Char)) (offset : Nat) :
    (locate lines offset).line[(locate lines offset).column]? = lines.flatten[offset]? := by
  fun_induction locate lines offset with
  | case1 offset => rfl
  | case2 line offset => rw [List.flatten_singleton]
  | case3 line next rest offset hlt =>
    rw [List.flatten_cons, List.getElem?_append_left hlt]
  | case4 line next rest offset hge location ih =>
    rw [List.flatten_cons, List.getElem?_append_right (Nat.le_of_not_lt hge)]
    exact ih

/-- Trimming the end of a text stops at a character that is not blank. -/
theorem trimEnd_append_cons {c : Char} (hc : isBlank c = false) (front back : List Char) :
    trimEnd (front ++ c :: back) = front ++ c :: trimEnd back := by
  show (front ++ c :: back).rdropWhile isBlank = front ++ c :: back.rdropWhile isBlank
  induction back using List.reverseRecOn with
  | nil =>
    apply List.rdropWhile_concat_neg
    simp [hc]
  | append_singleton back last ih =>
    rw [← List.cons_append, ← List.append_assoc, List.rdropWhile_concat, List.rdropWhile_concat]
    by_cases hlast : isBlank last
    · rw [if_pos hlast, if_pos hlast]
      exact ih
    · rw [if_neg hlast, if_neg hlast, List.append_assoc, List.cons_append]

/-- A place of a text that holds a character cuts the text at that character. -/
theorem exists_eq_append_cons_of_getElem? {cs : List Char} {i : Nat} {c : Char}
    (h : cs[i]? = some c) : ∃ front back, cs = front ++ c :: back ∧ front.length = i := by
  obtain ⟨hi, rfl⟩ := List.getElem?_eq_some_iff.mp h
  refine ⟨cs.take i, cs.drop (i + 1), ?_, ?_⟩
  · rw [List.cons_getElem_drop_succ, List.take_append_drop]
  · rw [List.length_take, Nat.min_eq_left (Nat.le_of_lt hi)]

/-- Trimming the end of a text leaves the characters in place that are not blank. -/
theorem getElem?_trimEnd {cs : List Char} {i : Nat} {c : Char} (h : cs[i]? = some c)
    (hc : isBlank c = false) : (trimEnd cs)[i]? = some c := by
  obtain ⟨front, back, rfl, rfl⟩ := exists_eq_append_cons_of_getElem? h
  rw [trimEnd_append_cons hc, List.getElem?_append_right (Nat.le_refl _), Nat.sub_self,
    List.getElem?_cons_zero]

end Augury.Text

namespace Augury.Prompt

open Augury.Random (Script Source)

/-! ## The marked place -/

/-- A report marks a block of a text that is never closed.  The block reaches from one place between two
characters to another; the report counts the characters in front of the first of them, with the opener
behind these, which is also what stands in the line that is shown, at the column that is marked. -/
structure Report.Marks (r : Report) (text : String) (unclosed : Unclosed) : Prop where
  text_eq : r.text = text.toList
  start : Text.IsBoundary text.toList unclosed.span.start
  stop : Text.IsBoundary text.toList unclosed.span.stop
  offset : ∃ front back, text.toList = front ++ unclosed.block.opener :: back ∧
    Text.byteLength front = unclosed.span.start ∧ front.length = r.offset
  opener : r.text[r.offset]? = some unclosed.block.opener
  shown : r.shownLine[r.location.column]? = some unclosed.block.opener

theorem Block.isBlank_opener (kind : Block) : Text.isBlank kind.opener = false := by
  cases kind with
  | choice => rfl
  | table => rfl

/-- A character of the text that is not blank is shown at the location of its place. -/
theorem Report.getElem?_shownLine {r : Report} {c : Char} (h : r.text[r.offset]? = some c)
    (hc : Text.isBlank c = false) : r.shownLine[r.location.column]? = some c := by
  have hline : r.location.line[r.location.column]? = r.text[r.offset]? := by
    rw [Report.location, Text.getElem?_locate, Text.flatten_lines]
  rw [h] at hline
  exact Text.getElem?_trimEnd hline hc

theorem Report.of?_unclosed {text : String} {unclosed : Unclosed} {offset stop : Nat}
    (hstart : Text.charsBefore? text.toList unclosed.span.start = some offset)
    (hstop : Text.charsBefore? text.toList unclosed.span.stop = some stop) :
    Report.of? text (.unclosed unclosed) =
      some { message := unclosed.message, remark := unclosed.block.remark, text := text.toList,
             offset } := by
  simp only [Report.of?, Error.unclosed?, Option.bind_eq_bind, Option.bind_some, hstart, hstop]
  rfl

/-- There is a report about a text that cannot be read, and it marks the block that is never closed. -/
theorem exists_marks_of_parse_eq_error {text : String} {unclosed : Unclosed}
    (h : parse text = .error unclosed) :
    ∃ report, Report.of? text (.unclosed unclosed) = some report ∧ report.Marks text unclosed := by
  obtain ⟨offset, hat⟩ := exists_unclosedAt_of_parse_eq_error h
  have hplace := Except.error.inj (h.symm.trans hat.parse_eq_error)
  -- the front that is read before the opener gives both counts, of bytes and of characters
  obtain ⟨front, back, htext, hoffset, -, -⟩ := hat
  have hstart : unclosed.span.start = Text.byteLength front.toList := by rw [hplace, hoffset]
  have hstop : unclosed.span.stop = Text.byteLength text.toList := by rw [hplace]
  have hbefore : Text.charsBefore? text.toList unclosed.span.start = some front.toList.length := by
    rw [hstart, htext]
    exact Text.charsBefore?_append _ _
  have hwhole : Text.charsBefore? text.toList unclosed.span.stop = some text.toList.length := by
    rw [hstop]
    simpa only [List.append_nil] using Text.charsBefore?_append text.toList []
  have hopener : text.toList[front.toList.length]? = some unclosed.block.opener := by
    rw [htext, List.getElem?_append_right (Nat.le_refl _), Nat.sub_self, List.getElem?_cons_zero]
  have hfront : front.toList <+: text.toList := ⟨_, htext.symm⟩
  exact ⟨_, Report.of?_unclosed hbefore hwhole, {
    text_eq := rfl
    start := ⟨front.toList, hfront, hstart.symm⟩
    stop := ⟨text.toList, List.prefix_rfl, hstop.symm⟩
    offset := ⟨front.toList, back, htext, hstart.symm, rfl⟩
    opener := hopener
    shown := Report.getElem?_shownLine hopener unclosed.block.isBlank_opener }⟩

/-! ## Errors with a place in the given text -/

section Failures

variable {tables : Tables} {limit levels : Nat} {text : String} {error : Error}

/-- A failure that shows an unclosed block shows the one that the given text cannot be read for: one in
the text of a table is hidden behind the name of the table. -/
theorem Failure.parse_eq_error (h : Failure tables limit levels text error) {unclosed : Unclosed}
    (hunclosed : error.unclosed? = some unclosed) : parse text = .error unclosed := by
  cases h with
  | tooDeep hwalk hlevels => cases hunclosed
  | @fault names reached cause hwalk hlevels hfault =>
    cases hwalk with
    | cons hrefers hbody hrest =>
      -- the name of the first table on the walk stands around the fault
      cases hunclosed
    | nil =>
      cases hfault with
      | unclosed hparse =>
        cases hunclosed
        exact hparse
      | @refused nodes node error hparse hnode hrefused =>
        obtain rfl | ⟨count, rfl⟩ | ⟨cause, rfl⟩ := node.refusal?_cases hrefused
        · cases hunclosed
        · cases hunclosed
        · cases hunclosed

theorem exists_unclosed?_of_isSome_of? (h : (Report.of? text error).isSome) :
    ∃ unclosed, error.unclosed? = some unclosed := by
  cases hunclosed : error.unclosed? with
  | some unclosed => exact ⟨unclosed, rfl⟩
  | none =>
    rw [Report.of?, hunclosed] at h
    cases h

variable {σ : Type} [Source σ]

theorem resolve_of_parse_eq_error {unclosed : Unclosed} (h : parse text = .error unclosed) :
    (resolve tables limit text : Resolving σ String) = throw (.unclosed unclosed) := by
  obtain ⟨expand, hplan⟩ := exists_plan_eq_planText tables limit
  rw [resolve_eq_perform, hplan, planText_of_parse_eq_error h, Plan.perform_fail]

/-- There is a report about the error of a resolution exactly when the given text cannot be read. -/
theorem isSome_of?_iff_of_resolve {s : σ}
    (h : ((resolve tables limit text : Resolving σ String).run.run s).1 = .error error) :
    (Report.of? text error).isSome ↔ ∃ unclosed, parse text = .error unclosed := by
  constructor
  · intro hreport
    obtain ⟨unclosed, hunclosed⟩ := exists_unclosed?_of_isSome_of? hreport
    rw [resolve_eq_perform] at h
    have hfailure := failure_of_error_planWithin (Plan.outcome_eq_error_iff.mp h)
    exact ⟨unclosed, hfailure.parse_eq_error hunclosed⟩
  · rintro ⟨unclosed, hparse⟩
    rw [resolve_of_parse_eq_error hparse] at h
    obtain rfl := Except.error.inj h
    obtain ⟨report, hreport, -⟩ := exists_marks_of_parse_eq_error hparse
    rw [hreport]
    rfl

end Failures

end Augury.Prompt

namespace Augury.Command

open Augury.Prompt (Error Report Resolving Tables Unclosed parse resolve)
open Augury.Random (Script Seeded Source)

/-! ## The jobs of the program -/

/-- The arguments ask the program for a job. -/
def Asks (arguments : List String) (job : Job) : Prop :=
  Invocation.read? arguments = some (.job job)

/-- Behind two hyphens every text is an operand, even one that starts with a hyphen itself. -/
theorem asks_parse (text : String) : Asks ["parse", "--", text] (.parse text) := rfl

theorem asks_resolve (text : String) :
    Asks ["oracle", "--", text] (.resolve text none none Prompt.defaultLimit) := rfl

/-- How the program ends when it cannot read the text of a job: nothing is printed on the standard output,
and the report stands in front of the line with the error. -/
def Outcome.ofUnread (report : Report) (unclosed : Unclosed) (context : String) : Outcome where
  code := 1
  stdout := ""
  stderr := report.render "input" ++ "error: " ++ (context ++ unclosed.message) ++ "\n"

/-- How the program ends with what a text is resolved to. -/
def Outcome.ofResolved (text : String) : Except Error String → Outcome
  | .error cause => .ofResult (.error (.resolve text cause))
  | .ok result => .ofResult (.ok (.object [("input", .string text), ("result", .string result)]))

variable {m : Type → Type} [Monad m]

/-- The tables of a job: those of a file, or none. -/
def tablesOf (env : Environment m) : Option String → ExceptT Failure m Tables
  | some file => loadTables env file
  | none => pure ∅

/-- Loads the tables of a job and takes a seed.  The program ends with the failure of loading the tables
if there is one, and with the given outcome where the tables load. -/
def afterLoading (env : Environment m) (file : Option String) (seed : Option UInt64)
    (outcome : Outcome) : m Outcome := do
  match ← (tablesOf env file).run with
  | .error failure => pure (Outcome.ofResult (.error failure))
  | .ok _ => (fun _ => outcome) <$> seededSource env seed

/-- Loads the tables of a job and takes a seed, and ends with the outcome for them; or ends with the failure
of loading the tables. -/
def withSurroundings (env : Environment m) (file : Option String) (seed : Option UInt64)
    (outcome : Tables → Seeded → Outcome) : m Outcome := do
  match ← (tablesOf env file).run with
  | .error failure => pure (Outcome.ofResult (.error failure))
  | .ok tables => outcome tables <$> seededSource env seed

variable [LawfulMonad m] {arguments : List String} {text : String} {unclosed : Unclosed}
  {report : Report}

theorem run_of_asks {job : Job} (h : Asks arguments job) (env : Environment m) :
    run env arguments = Outcome.ofResult <$> (job.perform env).run := by
  unfold run
  rw [h]
  exact bind_pure_comp ..

/-- A job that goes on from what the surroundings give ends with what it makes of that. -/
theorem map_run_lift_bind {α : Type} (act : m α) {next : α → ExceptT Failure m Json}
    {outcome : α → Outcome} (h : ∀ a, Outcome.ofResult <$> (next a).run = pure (outcome a)) :
    Outcome.ofResult <$> (do let a ← (act : ExceptT Failure m α); next a).run = outcome <$> act := by
  simp only [ExceptT.run_bind, ExceptT.run_monadLift, map_bind, bind_map_left, h, bind_pure_comp]
  rfl

/-- Resolving a text ends with what becomes of it in the tables and from the seed of the job. -/
theorem run_resolve {file : Option String} {seed : Option UInt64} {limit : Nat}
    (h : Asks arguments (.resolve text file seed limit)) (env : Environment m) :
    run env arguments = withSurroundings env file seed fun tables source =>
      Outcome.ofResolved text ((resolve tables limit text : Resolving Seeded String).run source).1 := by
  have hperform : (Job.resolve text file seed limit).perform env = (do
      let tables ← tablesOf env file
      let source ← (seededSource env seed : m _)
      match ((resolve tables limit text : Resolving Seeded String).run source).1 with
      | .error cause => throw (.resolve text cause)
      | .ok result => pure (.object [("input", .string text), ("result", .string result)])) := by
    cases file with
    | none => rfl
    | some file => rfl
  rw [run_of_asks h, hperform, ExceptT.run_bind, map_bind, withSurroundings]
  congr 1
  funext loaded
  cases loaded with
  | error failure => exact map_pure ..
  | ok tables =>
    apply map_run_lift_bind
    intro source
    cases ((resolve tables limit text : Resolving Seeded String).run source).1 with
    | error cause => exact map_pure ..
    | ok result => exact map_pure ..

theorem run_parse_of_parse_eq_error (h : Asks arguments (.parse text))
    (hparse : parse text = .error unclosed)
    (hreport : Report.of? text (.unclosed unclosed) = some report) (env : Environment m) :
    run env arguments = pure (Outcome.ofUnread report unclosed "failed to parse oracle: ") := by
  have hperform : ((Job.parse text).perform env).run =
      pure (.error (.parse text (.unclosed unclosed))) := by
    simp only [Job.perform, hparse]
    rfl
  rw [run_of_asks h, hperform, map_pure]
  simp only [Outcome.ofResult, Failure.report?, hreport]
  rfl

/-- The text is read when the tables are loaded and the seed is taken, and the report depends on neither. -/
theorem run_resolve_of_parse_eq_error {file : Option String} {seed : Option UInt64} {limit : Nat}
    (h : Asks arguments (.resolve text file seed limit)) (hparse : parse text = .error unclosed)
    (hreport : Report.of? text (.unclosed unclosed) = some report) (env : Environment m) :
    run env arguments = afterLoading env file seed
      (Outcome.ofUnread report unclosed "failed to resolve oracle: ") := by
  have hended : ∀ (tables : Tables) (source : Seeded), Outcome.ofResolved text
      ((resolve tables limit text : Resolving Seeded String).run source).1 =
        Outcome.ofUnread report unclosed "failed to resolve oracle: " := by
    intro tables source
    rw [Prompt.resolve_of_parse_eq_error hparse]
    show Outcome.ofResult (.error (.resolve text (.unclosed unclosed))) = _
    simp only [Outcome.ofResult, Failure.report?, hreport]
    rfl
  rw [run_resolve h env]
  simp only [hended]
  rfl

/-- **A report is shown exactly where the given text cannot be read, and it marks the bracket.**  Every text
can be given to the jobs of parsing and of resolving it.  Where it cannot be read, there is a report that
marks the opener of the block that is never closed; both jobs print this report in front of the line with
the error and nothing on the standard output, provided that the tables load.  The errors of resolving a
text, from whatever tables and draws, have a report in no other case, whatever the text is called. -/
theorem report_unread {σ : Type} [Source σ] (env : Environment m) (text : String) :
    Asks ["parse", "--", text] (.parse text) ∧
      Asks ["oracle", "--", text] (.resolve text none none Prompt.defaultLimit) ∧
      (∀ unclosed, parse text = .error unclosed →
        ∃ report, Report.of? text (.unclosed unclosed) = some report ∧
          report.Marks text unclosed ∧
          (∀ arguments, Asks arguments (.parse text) →
            run env arguments =
              pure (Outcome.ofUnread report unclosed "failed to parse oracle: ")) ∧
          ∀ arguments file seed limit, Asks arguments (.resolve text file seed limit) →
            run env arguments = afterLoading env file seed
              (Outcome.ofUnread report unclosed "failed to resolve oracle: ")) ∧
      ∀ (tables : Tables) (limit : Nat) (s : σ) (error : Error),
        ((resolve tables limit text : Resolving σ String).run.run s).1 = .error error →
          ∀ name, ((Report.of? text error).map (Report.render · name)).isSome ↔
            ∃ unclosed, parse text = .error unclosed := by
  refine ⟨asks_parse text, asks_resolve text, ?_, ?_⟩
  · intro unclosed hparse
    obtain ⟨report, hreport, hmarks⟩ := Prompt.exists_marks_of_parse_eq_error hparse
    refine ⟨report, hreport, hmarks, ?_, ?_⟩
    · intro arguments hasks
      exact run_parse_of_parse_eq_error hasks hparse hreport env
    · intro arguments file seed limit hasks
      exact run_resolve_of_parse_eq_error hasks hparse hreport env
  · intro tables limit s error herror name
    rw [Option.isSome_map]
    exact Prompt.isSome_of?_iff_of_resolve herror

/-- In front of the bracket stand two letters of two bytes each, in two lines.  The same bracket in the text
of a table gets no report. -/
theorem report_unread_second_line :
    let text := "ü\né [b"
    let unclosed : Unclosed := { block := .table, span := { start := 6, stop := 8 } }
    let env : Environment Id :=
      { file := fun _ => pure (.ok "\x7b\x7d".toUTF8), clock := pure 0 }
    let tables := Tables.ofList [("place", text)]
    let ones : Script := { values := #[1] }
    parse text = .error unclosed ∧
      (∃ report, report.offset = 4 ∧ report.Marks text unclosed ∧
        run env ["parse", "--", text] =
          pure (Outcome.ofUnread report unclosed "failed to parse oracle: ") ∧
        run env ["oracle", "--tables", "t.json", "--", text] =
          pure (Outcome.ofUnread report unclosed "failed to resolve oracle: ")) ∧
      ((resolve tables 1 "[place]" : Resolving Script String).run.run ones).1 =
          .error (.inTable "place" (.unclosed unclosed)) ∧
        Report.of? "[place]" (.inTable "place" (.unclosed unclosed)) = none := by
  intro text unclosed env tables ones
  have hparse : parse text = .error unclosed := by cbv
  have hplace : parse "[place]" = .ok [.table "place"] := by cbv
  have hresolve : ((resolve tables 1 "[place]" : Resolving Script String).run.run ones).1 =
      .error (.inTable "place" (.unclosed unclosed)) := by cbv
  have hasks : Asks ["oracle", "--tables", "t.json", "--", text]
      (.resolve text (some "t.json") none 32) := by cbv
  have hloads : (tablesOf env (some "t.json")).run = pure (.ok ∅) := by cbv
  obtain ⟨hasksParse, -, hreports, -⟩ := report_unread (σ := Script) env text
  obtain ⟨report, hreport, hmarks, hparsing, hresolving⟩ := hreports unclosed hparse
  have hoffset : report.offset = 4 := by
    have hcounted := @Prompt.Report.of?_unclosed text unclosed 4 6 (by cbv) (by cbv)
    rw [Option.some.inj (hreport.symm.trans hcounted)]
  have hloaded := hresolving _ _ _ _ hasks
  rw [afterLoading, hloads] at hloaded
  obtain ⟨-, -, -, herrors⟩ := report_unread (σ := Script) env "[place]"
  refine ⟨hparse, ⟨report, hoffset, hmarks, hparsing _ hasksParse, hloaded⟩, hresolve, ?_⟩
  cases hnone : Report.of? "[place]" (.inTable "place" (.unclosed unclosed)) with
  | none => rfl
  | some other =>
    have hshown := (herrors tables 1 ones _ hresolve "input").mp (by rw [hnone]; rfl)
    obtain ⟨inner, hinner⟩ := hshown
    rw [hplace] at hinner
    cases hinner

end Augury.Command
