import Augury.Prompt.Parsing
import Augury.Prompt.Tables
import Mathlib.Data.List.Perm.Subperm

/-!
# Walks through tables

A text leads to the tables that it refers to, and the text of each of them leads further.  A walk
follows such references, one after the other, through known tables only.  Walks know nothing of limits or
draws: they say where a resolution can get to.

The names of a walk are names of tables, so that a walk with more names than there are tables comes to
one of them twice (`cyclic_of_size_lt_length`).  A walk that comes to a table twice can go round as often
as one likes (`Cyclic.exists_long_walk`).
-/

set_option autoImplicit false

namespace Augury.Prompt

/-- A text can be read and refers to the table with this name. -/
def Refers (text name : String) : Prop :=
  ∃ nodes, parse text = .ok nodes ∧ .table name ∈ nodes

/-- The names of the tables that a walk from a text enters, each of them known, and the text that it ends
at: the one it starts from when it enters no table, and the text of the last table otherwise. -/
inductive Walk (tables : Tables) : String → List String → String → Prop where
  | nil (text : String) : Walk tables text [] text
  | cons {text name body reached : String} {names : List String} (hrefers : Refers text name)
      (hbody : tables[name]? = some body) (hrest : Walk tables body names reached) :
      Walk tables text (name :: names) reached

variable {tables : Tables} {text reached : String} {names : List String}

theorem Walk.append {middle : String} {more : List String} (h : Walk tables text names middle)
    (hmore : Walk tables middle more reached) : Walk tables text (names ++ more) reached := by
  induction h with
  | nil text => exact hmore
  | cons hrefers hbody hrest ih => exact .cons hrefers hbody (ih hmore)

theorem Walk.single {name body : String} (hrefers : Refers text name)
    (hbody : tables[name]? = some body) : Walk tables text [name] body :=
  .cons hrefers hbody (.nil body)

/-- A walk stays at its text or ends at the text of a table. -/
theorem Walk.eq_or_exists_table (h : Walk tables text names reached) :
    reached = text ∨ ∃ name : String, tables[name]? = some reached := by
  induction h with
  | nil text => exact .inl rfl
  | @cons text name body reached names hrefers hbody hrest ih =>
    right
    rcases ih with rfl | hknown
    · exact ⟨name, hbody⟩
    · exact hknown

theorem Walk.mem_keys (h : Walk tables text names reached) {name : String} (hname : name ∈ names) :
    name ∈ tables.keys := by
  induction h with
  | nil text => exact absurd hname List.not_mem_nil
  | cons hrefers hbody hrest ih =>
    rcases List.mem_cons.mp hname with rfl | hname
    · rw [Std.TreeMap.mem_keys, Std.TreeMap.mem_iff_isSome_getElem?, hbody]
      rfl
    · exact ih hname

/-- A walk enters every table on its way by a walk of its own. -/
theorem Walk.exists_of_mem (h : Walk tables text names reached) {name : String}
    (hname : name ∈ names) :
    ∃ before body, tables[name]? = some body ∧ Walk tables text (before ++ [name]) body := by
  induction h with
  | nil text => exact absurd hname List.not_mem_nil
  | @cons text first body reached names hrefers hbody hrest ih =>
    rcases List.mem_cons.mp hname with rfl | hname
    · exact ⟨[], body, hbody, .single hrefers hbody⟩
    · obtain ⟨before, entered, hknown, hbefore⟩ := ih hname
      exact ⟨first :: before, entered, hknown, .cons hrefers hbody hbefore⟩

/-! ## Cycles -/

/-- From a text a table can be reached that reaches itself again. -/
def Cyclic (tables : Tables) (text : String) : Prop :=
  ∃ before cycle name body, Walk tables text (before ++ [name]) body ∧
    Walk tables body (cycle ++ [name]) body

theorem Cyclic.enter {name body : String} (hrefers : Refers text name)
    (hbody : tables[name]? = some body) (h : Cyclic tables body) : Cyclic tables text := by
  obtain ⟨before, cycle, again, inner, hbefore, hcycle⟩ := h
  exact ⟨name :: before, cycle, again, inner, .cons hrefers hbody hbefore, hcycle⟩

/-- A walk that comes to a table twice goes round a cycle. -/
theorem Walk.cyclic_of_not_nodup (h : Walk tables text names reached) (htwice : ¬ names.Nodup) :
    Cyclic tables text := by
  induction h with
  | nil text => exact absurd List.nodup_nil htwice
  | @cons text name body reached names hrefers hbody hrest ih =>
    by_cases hname : name ∈ names
    · -- the rest of the walk comes back to its first table
      obtain ⟨cycle, again, hknown, hcycle⟩ := hrest.exists_of_mem hname
      obtain rfl : body = again := Option.some.inj (hbody.symm.trans hknown)
      exact ⟨[], cycle, name, body, .single hrefers hbody, hcycle⟩
    · have hrest_twice : ¬ names.Nodup := by
        intro hnodup
        exact htwice (List.nodup_cons.mpr ⟨hname, hnodup⟩)
      exact Cyclic.enter hrefers hbody (ih hrest_twice)

/-- There are only so many names, so that a long walk has to use one of them twice. -/
theorem cyclic_of_size_lt_length (h : Walk tables text names reached)
    (hlength : tables.size < names.length) : Cyclic tables text := by
  apply h.cyclic_of_not_nodup
  intro hnodup
  have hkeys : names ⊆ tables.keys := fun name hname => h.mem_keys hname
  have hle : names.length ≤ tables.keys.length := (hnodup.subperm hkeys).length_le
  rw [Std.TreeMap.length_keys] at hle
  omega

theorem Walk.exists_repeat {cycle : List String} (h : Walk tables text cycle text)
    (hcycle : cycle ≠ []) (count : Nat) :
    ∃ names, Walk tables text names text ∧ count ≤ names.length := by
  induction count with
  | zero => exact ⟨[], .nil text, Nat.le_refl 0⟩
  | succ count ih =>
    obtain ⟨names, hnames, hlength⟩ := ih
    refine ⟨cycle ++ names, h.append hnames, ?_⟩
    have hpos : 0 < cycle.length := List.length_pos_iff.mpr hcycle
    rw [List.length_append]
    omega

/-- Where there is a cycle, walks are as long as one likes. -/
theorem Cyclic.exists_long_walk (h : Cyclic tables text) (count : Nat) :
    ∃ names reached, Walk tables text names reached ∧ count < names.length := by
  obtain ⟨before, cycle, name, body, hbefore, hcycle⟩ := h
  obtain ⟨names, hnames, hlength⟩ := hcycle.exists_repeat (by simp) count
  refine ⟨_, body, hbefore.append hnames, ?_⟩
  rw [List.length_append, List.length_append, List.length_singleton]
  omega

end Augury.Prompt
