import Std.Data.TreeMap

/-!
# Tables

Tables give names to prompts.  A name is any text at all and is looked up as it is written.
-/

set_option autoImplicit false

namespace Augury.Prompt

/-- The text of each table by the name of the table. -/
abbrev Tables := Std.TreeMap String String

/-- The tables of a list of names and texts; of two entries with one name the later one counts. -/
def Tables.ofList (entries : List (String × String)) : Tables :=
  entries.foldl (fun tables entry => tables.insert entry.1 entry.2) ∅

theorem Tables.mem_of_getElem?_ofList {entries : List (String × String)} {name body : String}
    (h : (Tables.ofList entries)[name]? = some body) : (name, body) ∈ entries := by
  have hfold : ∀ tables : Tables,
      (entries.foldl (fun tables entry => tables.insert entry.1 entry.2) tables)[name]? =
        some body → (name, body) ∈ entries ∨ tables[name]? = some body := by
    clear h
    induction entries with
    | nil => exact fun tables h => .inr h
    | cons entry entries ih =>
      intro tables h
      rcases ih _ h with hmem | hstart
      · exact .inl (List.mem_cons_of_mem entry hmem)
      · rw [Std.TreeMap.getElem?_insert] at hstart
        split at hstart
        next heq =>
          rw [Std.LawfulEqCmp.compare_eq_iff_eq] at heq
          obtain rfl := Option.some.inj hstart
          exact .inl (by simp [← heq])
        next => exact .inr hstart
  rcases hfold ∅ h with hmem | hempty
  · exact hmem
  · simp at hempty

end Augury.Prompt
