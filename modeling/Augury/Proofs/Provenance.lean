import Augury.Proofs.Faults

/-!
# Where an error comes from

An error of a resolution comes from one of four places: the given text cannot be read, dice in the given
text are refused, tables nest too deeply, or one of the former two happens inside tables.  The error
shows from which (`Origin.Explains`), and in the last case it names the tables that a walk enters on the
way to the faulty text (`existsUnique_origin_of_resolveRecorded`).

What an error says about itself follows: a place in the given text, a root cause that is no table, and a
message that names the tables from the outermost on and then tells the root cause.
-/

set_option autoImplicit false

namespace Augury.Prompt

open Augury.Random (Script Source)

/-! ## Errors inside tables -/

namespace Error

theorem rootCause_inTables (names : List String) (cause : Error) :
    (cause.inTables names).rootCause = cause.rootCause := by
  induction names with
  | nil => rfl
  | cons name names ih => exact ih

theorem message_inTables (names : List String) (cause : Error) :
    (cause.inTables names).message =
      String.join (names.map fun name => "in table [" ++ name ++ "]: ") ++ cause.message := by
  induction names with
  | nil => simp
  | cons name names ih =>
    rw [inTables_cons, message, ih, List.map_cons, String.join_cons]
    simp only [String.append_assoc]

theorem rootCause_ne_inTable (error : Error) (table : String) (cause : Error) :
    error.rootCause ≠ .inTable table cause := by
  induction error with
  | inTable _ _ ih => exact ih
  | _ => exact Error.noConfusion

/-- All the errors inside an error have its root cause. -/
theorem rootCause_of_mem_causes {error inner : Error} (h : inner ∈ error.causes) :
    inner.rootCause = error.rootCause := by
  induction error with
  | inTable table cause ih =>
    rcases List.mem_cons.mp h with rfl | h
    · rfl
    · exact ih h
  | _ => exact absurd h List.not_mem_nil

end Error

/-! ## Origins -/

/-- The places that an error of a resolution can come from. -/
inductive Origin where
  | reading
  | rolling
  | nesting
  | table
deriving Repr, DecidableEq

/-- What it means that an error of resolving a text comes from a place. -/
def Origin.Explains (tables : Tables) (limit : Nat) (text : String) (error : Error) : Origin → Prop
  | .reading => Unreadable text error
  | .rolling => RefusesDice text error
  | .nesting => ∃ names name body, Walk tables text (names ++ [name]) body ∧ names.length = limit ∧
      error = .tooDeep name limit
  | .table => ∃ names reached cause, Walk tables text names reached ∧ 1 ≤ names.length ∧
      names.length ≤ limit ∧ (Unreadable reached cause ∨ RefusesDice reached cause) ∧
      error = cause.inTables names

/-- The place that the form of an error belongs to. -/
def Error.origin? : Error → Option Origin
  | .unclosed _ => some .reading
  | .dice _ => some .rolling
  | .tooDeep _ _ => some .nesting
  | .inTable _ _ => some .table
  | .emptyChoice => none
  | .tooManyOptions _ => none

variable {tables : Tables} {limit : Nat} {text : String} {error : Error}

/-- The form of an error leaves one place only. -/
theorem Origin.Explains.origin?_eq {origin : Origin}
    (h : origin.Explains tables limit text error) : error.origin? = some origin := by
  cases origin with
  | reading =>
    obtain ⟨unclosed, -, rfl⟩ := h
    rfl
  | rolling =>
    obtain ⟨nodes, d, cause, -, -, -, rfl⟩ := h
    rfl
  | nesting =>
    obtain ⟨names, name, body, -, -, rfl⟩ := h
    rfl
  | table =>
    obtain ⟨names, reached, cause, -, hne, -, -, rfl⟩ := h
    cases names with
    | nil => exact absurd hne (by decide)
    | cons name names => rfl

theorem Failure.exists_origin
    (hdrawable : ∀ names reached, Walk tables text names reached → Drawable reached)
    (h : Failure tables limit limit text error) :
    ∃ origin : Origin, origin.Explains tables limit text error := by
  cases h with
  | @fault names reached cause hwalk hlevels hfault =>
    have hcause := (hdrawable names reached hwalk).fault_iff.mp hfault
    cases names with
    | nil =>
      cases hwalk
      rcases hcause with hunreadable | hrefuses
      · exact ⟨.reading, hunreadable⟩
      · exact ⟨.rolling, hrefuses⟩
    | cons name names =>
      exact ⟨.table, name :: names, reached, cause, hwalk, Nat.le_add_left 1 _, hlevels, hcause, rfl⟩
  | @tooDeep names name body hwalk hlevels =>
    exact ⟨.nesting, names, name, body, hwalk, hlevels, rfl⟩

/-! ## What an error says -/

/-- A walk leaves its text only when the text can be read. -/
theorem Walk.exists_parse_of_ne_nil {names : List String} {reached : String}
    (h : Walk tables text names reached) (hne : names ≠ []) : ∃ nodes, parse text = .ok nodes := by
  cases h with
  | nil => exact absurd rfl hne
  | cons hrefers hbody hrest =>
    obtain ⟨nodes, hparse, -⟩ := hrefers
    exact ⟨nodes, hparse⟩

/-- Only an error of reading the given text leaves this text unread. -/
theorem Origin.Explains.exists_parse {origin : Origin}
    (h : origin.Explains tables limit text error) (hne : origin ≠ .reading) :
    ∃ nodes, parse text = .ok nodes := by
  cases origin with
  | reading => exact absurd rfl hne
  | rolling =>
    obtain ⟨nodes, d, cause, hparse, -⟩ := h
    exact ⟨nodes, hparse⟩
  | nesting =>
    obtain ⟨names, name, body, hwalk, -⟩ := h
    exact hwalk.exists_parse_of_ne_nil (by simp)
  | table =>
    obtain ⟨names, reached, cause, hwalk, hlength, -⟩ := h
    exact hwalk.exists_parse_of_ne_nil (List.length_pos_iff.mp hlength)

theorem Error.isSome_span?_iff (error : Error) :
    error.span?.isSome ↔ error.origin? = some .reading := by
  cases error <;> simp [span?, unclosed?, origin?]

/-- An error has a place in the given text exactly when this text cannot be read. -/
theorem Origin.Explains.isSome_span?_iff {origin : Origin}
    (h : origin.Explains tables limit text error) :
    error.span?.isSome ↔ ∃ unclosed, parse text = .error unclosed := by
  rw [Error.isSome_span?_iff, h.origin?_eq, Option.some_inj]
  constructor
  · rintro rfl
    obtain ⟨unclosed, hparse, -⟩ := h
    exact ⟨unclosed, hparse⟩
  · rintro ⟨unclosed, hparse⟩
    by_contra hne
    obtain ⟨nodes, hnodes⟩ := h.exists_parse hne
    rw [hparse] at hnodes
    cases hnodes

/-- The names that an error puts around its root cause are those of a walk, and the root cause is no
choice. -/
theorem Origin.Explains.exists_walk {origin : Origin}
    (h : origin.Explains tables limit text error) :
    ∃ names reached, Walk tables text names reached ∧
      error = error.rootCause.inTables names ∧ error.rootCause.origin?.isSome := by
  cases origin with
  | reading =>
    obtain ⟨unclosed, -, rfl⟩ := h
    exact ⟨[], text, .nil text, rfl, rfl⟩
  | rolling =>
    obtain ⟨nodes, d, cause, -, -, -, rfl⟩ := h
    exact ⟨[], text, .nil text, rfl, rfl⟩
  | nesting =>
    obtain ⟨names, name, body, -, -, rfl⟩ := h
    exact ⟨[], text, .nil text, rfl, rfl⟩
  | table =>
    obtain ⟨names, reached, cause, hwalk, -, -, hcause, rfl⟩ := h
    refine ⟨names, reached, hwalk, ?_⟩
    rw [Error.rootCause_inTables]
    rcases hcause with ⟨unclosed, -, rfl⟩ | ⟨nodes, d, refusal, -, -, -, rfl⟩
    · exact ⟨rfl, rfl⟩
    · exact ⟨rfl, rfl⟩

/-- Where the root cause is no choice, none of the errors around it is. -/
theorem Error.ne_choice_of_isSome_origin? (h : error.rootCause.origin?.isSome) {inner : Error}
    (hinner : inner ∈ error :: error.causes) :
    inner ≠ .emptyChoice ∧ ∀ count, inner ≠ .tooManyOptions count := by
  have hroot : inner.rootCause = error.rootCause := by
    rcases List.mem_cons.mp hinner with rfl | hinner
    · rfl
    · exact rootCause_of_mem_causes hinner
  rw [← hroot] at h
  constructor
  · rintro rfl
    exact Bool.false_ne_true h
  · rintro count rfl
    exact Bool.false_ne_true h

/-! ## Recorded resolutions -/

variable {σ : Type} [Source σ]

/-- **Where an error comes from and what it says.**  Exactly one of four places explains the error of a
resolution.  None of them is a choice.  The error has a place in the given text exactly when this text
cannot be read; its root cause is no table; and around the root cause, as in its message, stand the names
of a walk. -/
theorem existsUnique_origin_of_resolveRecorded
    (hdrawable : ∀ names reached, Walk tables text names reached → Drawable reached) {s : σ}
    (herror : (resolveRecorded tables limit text s).1 = .error error) :
    (∃! origin : Origin, origin.Explains tables limit text error) ∧
      (∀ inner ∈ error :: error.causes,
        inner ≠ .emptyChoice ∧ ∀ count, inner ≠ .tooManyOptions count) ∧
      (error.span?.isSome ↔ ∃ unclosed, parse text = .error unclosed) ∧
      (∀ table cause, error.rootCause ≠ .inTable table cause) ∧
      ∃ names reached, Walk tables text names reached ∧ error = error.rootCause.inTables names ∧
        error.message = String.join (names.map fun name => "in table [" ++ name ++ "]: ") ++
          error.rootCause.message := by
  have hfailure := failure_of_error_planWithin (resolveRecorded_eq_error_iff.mp herror)
  obtain ⟨origin, horigin⟩ := hfailure.exists_origin hdrawable
  obtain ⟨names, reached, hwalk, hnames, hroot⟩ := horigin.exists_walk
  refine ⟨⟨origin, horigin, ?_⟩, ?_, horigin.isSome_span?_iff, error.rootCause_ne_inTable,
    names, reached, hwalk, hnames, ?_⟩
  · intro other hother
    exact Option.some.inj (hother.origin?_eq.symm.trans horigin.origin?_eq)
  · intro inner hinner
    exact Error.ne_choice_of_isSome_origin? hroot hinner
  · conv_lhs => rw [hnames]
    exact Error.message_inTables names error.rootCause

/-- Dice without sides stand two tables deep, behind a choice that was already made. -/
theorem existsUnique_origin_of_resolveRecorded_nested :
    let tables := Tables.ofList [("outer", "\x7ba|b\x7d [inner]"), ("inner", "2d0")]
    let error : Error := .inTable "outer" (.inTable "inner" (.dice (.notPositive "2d0")))
    (∀ names reached, Walk tables "[outer]" names reached → Drawable reached) ∧
      (resolveRecorded tables 2 "[outer]" ({ values := #[1] } : Script)).1 = .error error ∧
      (∃! origin : Origin, origin.Explains tables 2 "[outer]" error) ∧
      ∃ names reached, Walk tables "[outer]" names reached ∧
        error = (Error.dice (.notPositive "2d0")).inTables names ∧
        error.message = String.join (names.map fun name => "in table [" ++ name ++ "]: ") ++
          "invalid dice expression 2d0: dice count and sides must be positive" := by
  intro tables error
  have htext : parse "[outer]" = .ok [.table "outer"] := by cbv
  have houter : parse "\x7ba|b\x7d [inner]" =
      .ok [.choice ["a", "b"], .text " ", .table "inner"] := by cbv
  have hinner : parse "2d0" = .ok [.dice { count := 2, sides := 0 }] := by cbv
  have hdrawable : ∀ names reached, Walk tables "[outer]" names reached → Drawable reached := by
    intro names reached hwalk
    refine drawable_of_walk_ofList (.of_parse htext (by simp)) ?_ hwalk
    simp only [List.forall_mem_cons, List.not_mem_nil, false_implies, implies_true, and_true]
    exact ⟨.of_parse houter (by simp [UInt32.size]), .of_parse hinner (by simp)⟩
  have hrun : (resolveRecorded tables 2 "[outer]" ({ values := #[1] } : Script)).1 =
      .error error := by cbv
  obtain ⟨horigin, -, -, -, hnames⟩ := existsUnique_origin_of_resolveRecorded hdrawable hrun
  exact ⟨hdrawable, hrun, horigin, hnames⟩

end Augury.Prompt
